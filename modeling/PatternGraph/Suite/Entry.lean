import PatternGraph.Document.Reader
import PatternGraph.Suite.Test

/-!
The entries of a suite's document. What each field must hold is checked here; whether the fields go
together is a question of its own.
-/
namespace PatternGraph.Suite
open Document

structure Entry where
  /-- Empty if the entry has none. -/
  name : String
  pattern : String
  input : String
  matched? : Option Bool
  spans? : Option (List (Span Nat))
  groups? : Option GroupSpans
  compiles : Bool
  errorOffset? : Option Nat
  captures : Bool
  deriving DecidableEq

namespace Entry

def fields : List String :=
  ["name", "regex", "input", "match", "matches", "captures", "compiles", "error_offset",
    "capture_groups"]

def asText : Value → Option String
  | .text s => some s
  | _ => none

def asBool : Value → Option Bool
  | .boolean b => some b
  | _ => none

def asNat : Value → Option Nat
  | .integer (.ofNat n) => some n
  | _ => none

def asItems : Value → Option (List Value)
  | .array items => some items
  | .tables items => some (items.map (.table .header))
  | _ => none

def asTable : Value → Option Entries
  | .table _ entries => some entries
  | _ => none

def asSpan (v : Value) : Option (Span Nat) := do
  match ← asItems v with
  | [first, second] => return ⟨← asNat first, ← asNat second⟩
  | _ => none

/-- A span, or an empty array for none. -/
def asGroupSpan (v : Value) : Option (Option (Span Nat)) := do
  match ← asItems v with
  | [] => return none
  | _ => return some (← asSpan v)

def asGroups (v : Value) : Option GroupSpans := do
  let entries ← (← asTable v).mapM fun (name, v) => do return (name, ← asGroupSpan v)
  return .ofList entries

def isSingle (t : Entries) : Bool := t.all fun (key, _) => (t.only? key).isSome

def field? {A : Type} (kind : Value → Option A) (t : Entries) (key : String) : Option (Option A) :=
  match t.only? key with
  | none => some none
  | some v => (kind v).map some

def field {A : Type} (kind : Value → Option A) (t : Entries) (key : String) : Option A := do
  ← field? kind t key

def ofTable? (t : Entries) : Option Entry := do
  guard (isSingle t && t.all fun (key, _) => fields.contains key)
  return {
    name := (← field? asText t "name").getD ""
    pattern := ← field asText t "regex"
    input := ← field asText t "input"
    matched? := ← field? asBool t "match"
    spans? := ← field? (fun v => do (← asItems v).mapM asSpan) t "matches"
    groups? := ← field? asGroups t "captures"
    compiles := (← field? asBool t "compiles").getD true
    errorOffset? := ← field? asNat t "error_offset"
    captures := (← field? asBool t "capture_groups").getD true }

/-- The entries of a document, which has to have a list of them. Other keys are ignored. -/
def ofDocument? (text : String) : Option (List Entry) := do
  let tests ← field asItems (← parse? text) "tests"
  tests.mapM fun v => do ofTable? (← asTable v)

end Entry

inductive EntryFault
  | expectsWithoutCompiling
  | offsetWhileCompiling
  | noExpectation
  | severalExpectations
  deriving DecidableEq, Repr

def EntryFault.message : EntryFault → String
  | .expectsWithoutCompiling => "a test that does not compile cannot expect matches"
  | .offsetWhileCompiling => "'error_offset' requires 'compiles = false'"
  | .noExpectation => "one of 'match', 'matches' or 'captures' must be present"
  | .severalExpectations => "only one of 'match', 'matches' or 'captures' can be present"

namespace Entry

def expectations (e : Entry) : List Expectation :=
  (e.matched?.map .whole).toList ++ (e.spans?.map .spans).toList ++ (e.groups?.map .groups).toList

def aim (e : Entry) : Except EntryFault Aim :=
  if e.compiles then
    if e.errorOffset?.isSome then .error .offsetWhileCompiling
    else
      match e.expectations with
      | [] => .error .noExpectation
      | [expectation] => .ok (.answer expectation)
      | _ => .error .severalExpectations
  else if e.expectations.isEmpty then .ok (.refusal e.errorOffset?)
  else .error .expectsWithoutCompiling

end Entry

end PatternGraph.Suite
