/-!
Values of a TOML document, and how its statements build up tables. A table remembers how it came
about, because that decides what may still be added to it. A key may be given a value twice; whoever
reads a table decides what that means.
-/
namespace PatternGraph.Document

inductive Origin
  /-- Written between braces, and complete. -/
  | inline
  /-- Has a header of its own. -/
  | header
  /-- Named on the way to another table's header. -/
  | implied
  /-- Named by a key with dots. -/
  | dotted
  deriving DecidableEq, Repr

inductive Value
  | text (s : String)
  | integer (n : Int)
  | boolean (b : Bool)
  /-- A number with a fraction or an exponent, or a date. -/
  | other
  | array (items : List Value)
  /-- One table for each header in double brackets. -/
  | tables (items : List (List (String × Value)))
  | table (origin : Origin) (entries : List (String × Value))
  deriving Repr

abbrev Entries := List (String × Value)

/-- The value comes from headers, and later ones may add to it. -/
def Value.isHeaded : Value → Bool
  | .tables _ => true
  | .table .header _ => true
  | .table .implied _ => true
  | _ => false

namespace Entries

/-- Changes the first value of a key that is of the wanted kind. If there is none, the key gets a
value at the end. -/
def alter (wanted : Value → Bool) (key : String) (change : Option Value → Option Value) :
    Entries → Option Entries
  | [] => (change none).map fun v => [(key, v)]
  | (k, v) :: rest =>
    if k == key && wanted v then (change (some v)).map fun new => (k, new) :: rest
    else (alter wanted key change rest).map ((k, v) :: ·)

/-- Begins a table. One that was only implied so far may get its header later. -/
def openTable (key : String) : Entries → Option Entries :=
  alter Value.isHeaded key fun
    | none => some (.table .header [])
    | some (.table .implied entries) => some (.table .header entries)
    | some _ => none

def openElement (key : String) : Entries → Option Entries :=
  alter Value.isHeaded key fun
    | none => some (.tables [[]])
    | some (.tables items) => some (.tables (items ++ [[]]))
    | some _ => none

/-- Changes the table that a path of headers leads to. An array of tables stands for its last. -/
def changeAt (change : Entries → Option Entries) : List String → Entries → Option Entries
  | [], t => change t
  | key :: path, t =>
    t.alter Value.isHeaded key fun
      | none => (changeAt change path []).map (.table .implied)
      | some (.table origin entries) => (changeAt change path entries).map (.table origin)
      | some (.tables items) =>
        (changeAt change path (items.getLastD [])).map fun new =>
          .tables (items.dropLast ++ [new])
      | some _ => none

def assign (v : Value) : List String → Entries → Option Entries
  | [], _ => none
  | [key], t => some (t ++ [(key, v)])
  | key :: path, t =>
    t.alter (fun _ => true) key fun
      | none => (assign v path []).map (.table .dotted)
      | some (.table .dotted entries) => (assign v path entries).map (.table .dotted)
      | some _ => none

def only? (t : Entries) (key : String) : Option Value :=
  match t.filter fun (k, _) => k == key with
  | [(_, v)] => some v
  | _ => none

end Entries

end PatternGraph.Document
