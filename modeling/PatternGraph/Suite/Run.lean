import PatternGraph.Suite.Answer
import PatternGraph.Suite.Selection

/-!
Running tests with an engine. Each run leaves records: one for a test that is settled without any
answer, otherwise one for each answer.
-/
namespace PatternGraph.Suite

structure NamedAnswer where
  name : String
  answer : Answer
  deriving DecidableEq

inductive Compilation
  /-- The engine leaves the pattern to others. -/
  | skipped
  | refused (message : String) (offset : Option Nat)
  | crashed (message : String)
  /-- The answers to a test, or the message of a crash. -/
  | ready (run : Test → Except String (List NamedAnswer))

abbrev Engine := Test → Compilation

structure Record where
  test : Test
  /-- Empty if the answer has no name. -/
  answerName : String
  verdict : Verdict
  deriving DecidableEq

namespace Record

def settled (t : Test) (v : Verdict) : Record := ⟨t, "", v⟩

def failure? (r : Record) : Option Discrepancy :=
  match r.verdict with
  | .failed d => some d
  | .passed | .skipped => none

end Record

/-- A refusal is right if it is expected, and at the offset expected if one is. -/
def Aim.checkRefusal (aim : Aim) (message : String) (offset : Option Nat) : Verdict :=
  match aim with
  | .answer _ => .failed (.refused message)
  | .refusal none => .passed
  | .refusal (some expected) => .passedIf (offset = some expected) (.wrongOffset offset)

def runTest (engine : Engine) (t : Test) : List Record :=
  match engine t with
  | .crashed message => [.settled t (.failed (.crashedCompiling message))]
  | .refused message offset => [.settled t (t.aim.checkRefusal message offset)]
  | .skipped => [.settled t .skipped]
  | .ready run =>
    match t.aim with
    | .refusal _ => [.settled t (.failed .compiled)]
    | .answer expectation =>
      match run t with
      | .error message => [.settled t (.failed (.crashedSearching message))]
      | .ok answers => answers.map fun a => ⟨t, a.name, expectation.check a.answer⟩

def runTests (selection : Selection) (engine : Engine) (tests : List Test) : List Record :=
  tests.flatMap fun t =>
    if selection.skips t.fullName then [.settled t .skipped] else runTest engine t

end PatternGraph.Suite
