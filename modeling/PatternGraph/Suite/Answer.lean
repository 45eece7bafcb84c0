import PatternGraph.Suite.Test

/-!
What an engine answers to a test, and whether that is what the test expects.
-/
namespace PatternGraph.Suite

inductive Answer
  | whole (matched : Bool)
  | spans (found : List (Span Nat))
  /-- The groups of a match, if there was one. -/
  | groups (found : Option GroupSpans)
  /-- The engine does not answer tests of this kind. -/
  | skip
  deriving DecidableEq

inductive Discrepancy
  | wrongMatch
  | wrongSpans (got : List (Span Nat))
  | wrongGroups (got : Option GroupSpans)
  | compiled
  | refused (message : String)
  | wrongOffset (got : Option Nat)
  /-- The answer is of a kind that says nothing about the expectation. -/
  | incompatible (expected got : String)
  | crashedCompiling (message : String)
  | crashedSearching (message : String)
  deriving DecidableEq

inductive Verdict
  | passed
  | skipped
  | failed (d : Discrepancy)
  deriving DecidableEq

def Verdict.passedIf (agrees : Prop) [Decidable agrees] (d : Discrepancy) : Verdict :=
  if agrees then .passed else .failed d

def Expectation.check (e : Expectation) : Answer → Verdict
  | .skip => .skipped
  | .whole matched => .passedIf (matched = e.expectsMatch) .wrongMatch
  | .spans found =>
    match e with
    | .spans expected => .passedIf (expected = found) (.wrongSpans found)
    | .whole _ | .groups _ => .failed (.incompatible e.kind "matches")
  | .groups found =>
    match e with
    | .groups expected => .passedIf (some expected = found) (.wrongGroups found)
    | .whole matched => .passedIf (matched = found.isSome) .wrongMatch
    | .spans _ => .failed (.incompatible e.kind "captures")

namespace Discrepancy

def describe (t : Test) : Discrepancy → String
  | .wrongMatch =>
    if t.expectsMatch then "expected match, but none found"
    else "expected no match, but found a match"
  | .wrongSpans got =>
    "did not find expected matches\nexpected: " ++ renderSpans (t.spans?.getD []) ++
      "\n     got: " ++ renderSpans got
  | .wrongGroups got =>
    "did not find expected captures\nexpected: " ++ renderOption GroupSpans.render t.groups? ++
      "\n     got: " ++ renderOption GroupSpans.render got
  | .compiled => "expected regex to NOT compile, but it did"
  | .refused message => "expected regex to compile, failed: " ++ message
  | .wrongOffset got =>
    "expected compile error at offset " ++ renderOption toString t.errorOffset? ++ ", but got " ++
      renderOption toString got
  | .incompatible expected got => "expected " ++ expected ++ " results, but got " ++ got
  | .crashedCompiling message => "got unexpected panic while compiling:\n" ++ message
  | .crashedSearching message => "got unexpected panic while searching:\n" ++ message

end Discrepancy

end PatternGraph.Suite
