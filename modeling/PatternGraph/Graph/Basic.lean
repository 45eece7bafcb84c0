import PatternGraph.Capture.GroupNames
import PatternGraph.CharSet
import PatternGraph.Repetition

/-!
Graphs that patterns are compiled to: states joined by labelled arrows. A loop is a single state, the
trap, with one arrow into its body and one out of the loop; how often the body has been gone round
is not kept here.
-/
namespace PatternGraph

inductive Label
  | empty
  | char (c : Char)
  | literal (cs : List Char)
  | charClass (id : ClassId)
  | any
  /-- The tokens that a group matched last. -/
  | backref (tag : TagId)
  deriving DecidableEq, Repr

structure Arrow where
  label : Label
  target : StateId
  deriving DecidableEq, Repr

def Arrow.empty (target : StateId) : Arrow := ⟨.empty, target⟩

def Arrow.isEmpty (a : Arrow) : Bool := a.label = .empty

inductive State
  /-- The only way on. -/
  | relay (arrow : Arrow)
  /-- Arrows are tried in order. -/
  | fanout (arrows : Array Arrow)
  | trap (id : TrapId) (repetition : Repetition) (body leave : Arrow)
  | terminal
  /-- The position becomes a start of the group before any arrow is tried. -/
  | tagOpen (tag : Option TagId) (arrows : Array Arrow)
  /-- The position becomes the end of the group before any arrow is tried. -/
  | tagClose (tag : Option TagId) (arrows : Array Arrow)

namespace State

/-- The arrows that are tried in order; those of a trap are taken by its count instead. -/
def arrows : State → Array Arrow
  | .relay a => #[a]
  | .fanout as | .tagOpen _ as | .tagClose _ as => as
  | .trap .. | .terminal => #[]

def targets : State → List StateId
  | .trap _ _ body leave => [body.target, leave.target]
  | s => s.arrows.toList.map (·.target)

def isTerminal : State → Bool
  | .terminal => true
  | _ => false

end State

structure Graph where
  states : Array State
  start : StateId
  terminal : StateId
  classes : Array CharSet
  names : GroupNames
  trapCount : Nat
  /-- The characters that every match begins with, as far as one way leads on from the start. -/
  leading : Option (List Char)

namespace Graph

def state? (g : Graph) (id : StateId) : Option State := g.states[id.val]?

def class? (g : Graph) (id : ClassId) : Option CharSet := g.classes[id.val]?

end Graph

end PatternGraph
