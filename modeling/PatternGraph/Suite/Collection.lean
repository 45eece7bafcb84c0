import PatternGraph.Suite.Entry

/-!
Collections of tests, loaded from documents. A full name is used once; a name that was seen stays
taken, even if the document that it came from is refused later on.
-/
namespace PatternGraph.Suite

inductive LoadError
  | undecodable
  | invalidTest (fullName : String) (fault : EntryFault)
  | duplicateName (fullName : String)
  deriving DecidableEq, Repr

def LoadError.message : LoadError → String
  | .undecodable => "error decoding TOML"
  | .invalidTest fullName fault => "error loading test '" ++ fullName ++ "': " ++ fault.message
  | .duplicateName fullName => "found duplicate tests for name '" ++ fullName ++ "'"

/-- Reads the entries off the text of a document, if it is one. -/
abbrev Decoder := String → Option (List Entry)

structure Collection where
  /-- In the order of loading. -/
  tests : List Test
  /-- Full names, newest first. -/
  seen : List String
  deriving DecidableEq

namespace Collection

def empty : Collection := ⟨[], []⟩

/-- Names the entries of one document and checks them, until one is refused. An entry without a name
gets the next number. Returns the names seen up to there. -/
def enter (group : String) (seen : List String) (number : Nat) :
    List Entry → List String × Except LoadError (List Test)
  | [] => (seen, .ok [])
  | e :: rest =>
    let unnamed := e.name.isEmpty
    let name := if unnamed then toString number else e.name
    let fullName := Test.joinName group name
    match e.aim with
    | .error fault => (seen, .error (.invalidTest fullName fault))
    | .ok aim =>
      if seen.contains fullName then (seen, .error (.duplicateName fullName))
      else
        let t : Test := ⟨group, name, e.pattern, e.input, aim, e.captures⟩
        let next := if unnamed then number + 1 else number
        let (seen, result) := enter group (fullName :: seen) next rest
        (seen, result.map (t :: ·))

/-- Adds the tests of a document, or none of them. -/
def loadBy (decode : Decoder) (c : Collection) (group text : String) :
    Collection × Except LoadError Unit :=
  match decode text with
  | none => (c, .error .undecodable)
  | some entries =>
    match enter group c.seen 1 entries with
    | (seen, .ok tests) => (⟨c.tests ++ tests, seen⟩, .ok ())
    | (seen, .error e) => (⟨c.tests, seen⟩, .error e)

def load (c : Collection) (group text : String) : Collection × Except LoadError Unit :=
  c.loadBy Entry.ofDocument? group text

end Collection

end PatternGraph.Suite
