import PatternGraph.Index

/-!
What a compilation or a search reports about itself while it goes on.
-/
namespace PatternGraph

inductive Event (P : Type)
  | builtGraph (states groups traps : Nat)
  /-- Matches are looked for by their only leading byte. -/
  | byteNeedle
  /-- Matches are looked for by several leading bytes. -/
  | textNeedle
  /-- The leading literal has no bytes to look for. -/
  | emptyNeedle
  | resumedArrow (index : Nat) (state : StateId)
  | resumedLeave (state : StateId)
  | emptyIteration (trap : TrapId) (pos : P)
  deriving DecidableEq, Repr

namespace Event

def level {P : Type} : Event P → String
  | .builtGraph .. | .byteNeedle | .textNeedle | .emptyNeedle => "DEBUG"
  | .resumedArrow .. | .resumedLeave _ | .emptyIteration .. => "TRACE"

def message : Event Nat → String
  | .builtGraph states groups traps =>
    "built graph with " ++ toString states ++ " states, " ++ toString groups ++ " tags and " ++
      toString traps ++ " traps"
  | .byteNeedle => "prefilter built: memchr"
  | .textNeedle => "prefilter built: memmem"
  | .emptyNeedle => "prefilter building failed: empty literal prefix"
  | .resumedArrow index state =>
    "backtracking to arrow " ++ toString index ++ " of " ++ state.render
  | .resumedLeave state => "backtracking to leave trap at " ++ state.render
  | .emptyIteration trap pos =>
    "empty iteration of trap " ++ trap.render ++ " at " ++ toString pos

def line (e : Event Nat) : String := e.level ++ " " ++ e.message

end Event

end PatternGraph
