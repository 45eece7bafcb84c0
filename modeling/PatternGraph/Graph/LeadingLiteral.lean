import PatternGraph.Graph.Basic

/-!
The literal that every match begins with, read off the states from the start for as long as there
is a single way on. A walk that has made as many steps as there are states goes in a circle.
-/
namespace PatternGraph

namespace State

/-- The arrow that every run through the state takes. -/
def onlyArrow? : State → Option Arrow
  | .relay a => some a
  | .tagOpen _ as | .tagClose _ as => if as.size = 1 then as[0]? else none
  | .fanout _ | .trap .. | .terminal => none

end State

def leadingWalk (states : Array State) : Nat → StateId → Option (List Char)
  | 0, _ => none
  | steps + 1, id =>
    match states[id.val]?.bind State.onlyArrow? with
    | none => none
    | some a =>
      match a.label with
      | .empty => leadingWalk states steps a.target
      | .char c => some [c]
      | .literal cs => some cs
      | .charClass _ | .any | .backref _ => none

def leadingLiteral (states : Array State) (start : StateId) : Option (List Char) :=
  leadingWalk states states.size start

end PatternGraph
