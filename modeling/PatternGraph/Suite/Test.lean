import PatternGraph.Suite.GroupSpans

/-!
One test of a suite: a pattern, an input, and what is expected of the two.
-/
namespace PatternGraph.Suite

inductive Expectation
  /-- Whether the pattern matches the input as a whole. -/
  | whole (matched : Bool)
  /-- All matches in the input, from left to right. -/
  | spans (expected : List (Span Nat))
  /-- What the groups cover when the pattern matches the input as a whole. -/
  | groups (expected : GroupSpans)
  deriving DecidableEq

inductive Aim
  | answer (e : Expectation)
  /-- The pattern does not compile, because of what is at the offset if there is one. -/
  | refusal (offset : Option Nat)
  deriving DecidableEq

structure Test where
  group : String
  name : String
  pattern : String
  input : String
  aim : Aim
  /-- Whether the groups of the pattern capture. -/
  captures : Bool
  deriving DecidableEq

namespace Expectation

/-- Groups are only expected of a match. -/
def expectsMatch : Expectation → Bool
  | whole matched => matched
  | groups _ => true
  | spans _ => false

def kind : Expectation → String
  | whole _ => "match"
  | spans _ => "matches"
  | groups _ => "captures"

end Expectation

namespace Test

def joinName (group name : String) : String := group ++ "/" ++ name

def fullName (t : Test) : String := joinName t.group t.name

def compiles (t : Test) : Bool :=
  match t.aim with
  | .answer _ => true
  | .refusal _ => false

def expectsMatch (t : Test) : Bool :=
  match t.aim with
  | .answer e => e.expectsMatch
  | .refusal _ => false

def spans? (t : Test) : Option (List (Span Nat)) :=
  match t.aim with
  | .answer (.spans expected) => some expected
  | _ => none

def groups? (t : Test) : Option GroupSpans :=
  match t.aim with
  | .answer (.groups expected) => some expected
  | _ => none

def errorOffset? (t : Test) : Option Nat :=
  match t.aim with
  | .answer _ => none
  | .refusal offset => offset

end Test

end PatternGraph.Suite
