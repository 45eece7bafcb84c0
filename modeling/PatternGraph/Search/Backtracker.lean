import PatternGraph.Cursor.Span
import PatternGraph.Search.Machine

/-!
Searches from where a cursor stands: either for a match of all the tokens ahead, or for the first
match that the order of the arrows leads to. Every search is given the number of steps that it may
take.
-/
namespace PatternGraph

structure BacktrackOptions where
  matchToEnd? : Option Bool
  deriving DecidableEq, Repr

namespace BacktrackOptions

def unset : BacktrackOptions := ⟨none⟩

def matchToEnd (o : BacktrackOptions) : Bool := o.matchToEnd?.getD true

def overwrite (o later : BacktrackOptions) : BacktrackOptions where
  matchToEnd? := later.matchToEnd?.or o.matchToEnd?

end BacktrackOptions

structure Backtracker where
  graph : Graph
  /-- A match has to consume all the tokens ahead. -/
  matchToEnd : Bool

namespace Backtracker

variable {S T P : Type} [Cursor S T P] [Token T] [DecidableEq T] [DecidableEq P]

/-- Where the match ends, if there is one. The cache then holds the positions of the groups. -/
def search (b : Backtracker) (steps : Nat) (cache : Cache P) (c : S) :
    Except Fault (Option S × Cache P) :=
  match Machine.run b.graph b.matchToEnd steps (.start b.graph cache c) with
  | .error f => .error f
  | .ok (found, m) => .ok (if found then some m.cursor else none, m.cache.settle found)

def events (b : Backtracker) (steps : Nat) (cache : Cache P) (c : S) : List (Event P) :=
  (Machine.events b.graph b.matchToEnd steps [] (.start b.graph cache c)).reverse

omit [DecidableEq P] in
def groupSpan? (b : Backtracker) (cache : Cache P) (name : String) : Option (Span P) :=
  match b.graph.names.find? name with
  | none => none
  | some tag => (cache.tracker? tag).bind Tracker.span?

end Backtracker

end PatternGraph
