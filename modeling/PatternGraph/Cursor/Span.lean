/-!
Half-open stretches between two positions.
-/
namespace PatternGraph

structure Span (P : Type) where
  start : P
  stop : P
  deriving DecidableEq, Repr

namespace Span

/-- A span whose ends are out of order covers nothing. -/
def length (s : Span Nat) : Nat := s.stop - s.start

def isEmpty (s : Span Nat) : Bool := s.length == 0

def render (s : Span Nat) : String := toString s.start ++ ".." ++ toString s.stop

end Span

end PatternGraph
