import PatternGraph.Capture.Tracker
import PatternGraph.Graph.Basic

/-!
What a search changes as it goes on: where groups matched, how far each loop has come, and the
trail. The trail holds, newest first, the ways not tried yet and, between them, what was changed
since they were left behind.
-/
namespace PatternGraph

structure Slot (P : Type) where
  /-- The search is inside the loop. -/
  active : Bool
  /-- How many rounds are completed. -/
  count : UInt32
  /-- Where the current round began. -/
  enteredAt : Option P
  deriving DecidableEq, Repr

def Slot.idle {P : Type} : Slot P := ⟨false, 0, none⟩

inductive TrailEntry (P : Type)
  /-- An arrow of the state is still to be tried, and those after it. -/
  | arrow (state : StateId) (index : Nat) (pos : P)
  /-- The loop of the state could be left. -/
  | leave (state : StateId) (pos : P)
  | tag (tag : TagId) (undo : Tracker.Undo P)
  | trap (trap : TrapId) (slot : Slot P)
  deriving DecidableEq, Repr

structure Cache (P : Type) where
  trail : List (TrailEntry P)
  /-- One for each group. -/
  trackers : Array (Tracker P)
  /-- One for each trap. -/
  slots : Array (Slot P)
  deriving DecidableEq, Repr

namespace Cache

variable {P : Type}

/-- Cuts or extends the tables to the size of the graph and clears them. -/
def prepare (c : Cache P) (g : Graph) : Cache P where
  trail := []
  trackers :=
    (c.trackers.take g.names.size).map Tracker.clear ++
      Array.replicate (g.names.size - c.trackers.size) .empty
  slots := Array.replicate g.trapCount .idle

def ofGraph (g : Graph) : Cache P := (⟨[], #[], #[]⟩ : Cache P).prepare g

/-- What is kept once a search is over: without a match no group has a position. -/
def settle (c : Cache P) (found : Bool) : Cache P :=
  { c with trail := [], trackers := if found then c.trackers else c.trackers.map Tracker.clear }

def tracker? (c : Cache P) (tag : TagId) : Option (Tracker P) := c.trackers[tag.val]?

/-- The bytes that a new cache takes up: a flag, a count and a position that may be missing for each
loop. -/
def freshBytes (c : Cache P) : Nat := 24 * c.slots.size

end Cache

def Tracker.render (t : Tracker Nat) : String :=
  let stop := match t.stop with
    | none => "None"
    | some p => "Some(" ++ toString p ++ ")"
  "TagTracker \x7b start: [" ++ ", ".intercalate (t.starts.reverse.map toString) ++ "], end: " ++
    stop ++ " \x7d"

def Cache.render (c : Cache Nat) : String :=
  "Cache \x7b stack_len: " ++ toString c.trail.length ++ ", tags: [" ++
    ", ".intercalate (c.trackers.toList.map Tracker.render) ++ "] \x7d"

end PatternGraph
