import PatternGraph.Interval.SegmentSet
import PatternGraph.Text.Quoted

/-!
The characters a class matches: those of a segment set, or all others.
-/
namespace PatternGraph
open Ordinal

structure CharSet where
  inner : SegmentSet Char
  /-- Membership is the complement of the inner set. -/
  negated : Bool

namespace CharSet

def empty : CharSet := ⟨.empty, false⟩

def all : CharSet := ⟨.empty, true⟩

def add (set : CharSet) (c : Char) : CharSet := { set with inner := set.inner.add c }

def addRange (set : CharSet) (a b : Char) : CharSet :=
  { set with inner := set.inner.addRange a b }

def contains (set : CharSet) (c : Char) : Bool := set.inner.contains c != set.negated

def isEmpty (set : CharSet) : Bool :=
  if set.negated then set.inner.isFull else set.inner.isEmpty

def render (set : CharSet) : String :=
  let segments := set.inner.segments.map (·.render (Text.escape .either))
  (if set.negated then "^[" else "[") ++ String.join segments ++ "]"

end CharSet

end PatternGraph
