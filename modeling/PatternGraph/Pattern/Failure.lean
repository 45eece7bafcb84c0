import PatternGraph.Graph.Draft

/-!
How a compilation can end without a graph: the pattern is refused, or the compiler contradicts
itself.
-/
namespace PatternGraph

/-- What no pattern brings about. -/
inductive Defect
  /-- A paren was left out of the pairing. -/
  | unpairedGroup (offset : Nat)
  /-- A group ends elsewhere than at the paren that it was paired with. -/
  | misplacedClose (offset : Nat)
  /-- A literal run without a literal. -/
  | emptyRun (offset : Nat)
  /-- Groups are opened and closed in different numbers. -/
  | unbalancedGroups
  /-- A loop without a quantifier, or a quantifier without a loop. -/
  | strayRepetition
  | misuse (m : Misuse)

inductive Failure
  | refused (e : PatternError)
  | defect (d : Defect)

end PatternGraph
