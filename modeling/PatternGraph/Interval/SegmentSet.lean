import PatternGraph.Interval.Ordinal

/-!
Sets of ordinals kept as few segments as possible: ascending, with at least one value missing
between neighbours. Adding a segment absorbs every stored one that it overlaps or touches.
-/
namespace PatternGraph
open Ordinal

/-- The values from `low` to `high`, both included. -/
structure Segment (α : Type) [Ordinal α] where
  low : α
  high : α
  low_le_high : rank low ≤ rank high

namespace Segment

variable {α : Type} [Ordinal α]

/-- The bounds may come in either order. -/
def between (a b : α) : Segment α :=
  if h : rank a ≤ rank b then ⟨a, b, h⟩ else ⟨b, a, Nat.le_of_lt (Nat.lt_of_not_le h)⟩

def singleton (a : α) : Segment α := ⟨a, a, Nat.le_refl _⟩

def contains (s : Segment α) (a : α) : Bool :=
  rank s.low ≤ rank a && rank a ≤ rank s.high

/-- Some value lies between the end of `s` and the start of `t`. -/
def Before (s t : Segment α) : Prop := rank s.high + 1 < rank t.low

instance (s t : Segment α) : Decidable (s.Before t) := inferInstanceAs (Decidable (_ < _))

def hull (s t : Segment α) : Segment α where
  low := if rank s.low ≤ rank t.low then s.low else t.low
  high := if rank s.high ≤ rank t.high then t.high else s.high
  low_le_high := by
    have := s.low_le_high
    have := t.low_le_high
    split <;> split <;> omega

def render (text : α → String) (s : Segment α) : String :=
  if rank s.low = rank s.high then text s.low else text s.low ++ "-" ++ text s.high

def insertInto (s : Segment α) : List (Segment α) → List (Segment α)
  | [] => [s]
  | t :: rest =>
    if t.Before s then t :: insertInto s rest
    else if s.Before t then s :: t :: rest
    else insertInto (s.hull t) rest

theorem before_hull {r s t : Segment α} (hs : r.Before s) (ht : r.Before t) :
    r.Before (s.hull t) := by
  simp only [Before, hull] at *
  split <;> assumption

theorem before_insertInto {r s : Segment α} {segments : List (Segment α)} (hs : r.Before s)
    (hrest : ∀ t ∈ segments, r.Before t) : ∀ t ∈ s.insertInto segments, r.Before t := by
  induction segments generalizing s with
  | nil => simpa [insertInto] using hs
  | cons t rest ih =>
    have ht := hrest t (by simp)
    have later : ∀ u ∈ rest, r.Before u := fun u hu => hrest u (by simp [hu])
    simp only [insertInto]
    split
    · simpa [ht] using ih hs later
    · split
      · simpa [hs, ht] using later
      · exact ih (before_hull hs ht) later

theorem insertInto_pairwise (s : Segment α) {segments : List (Segment α)}
    (h : segments.Pairwise Before) : (s.insertInto segments).Pairwise Before := by
  induction segments generalizing s with
  | nil => simp [insertInto]
  | cons t rest ih =>
    rw [List.pairwise_cons] at h
    simp only [insertInto]
    split
    · rename_i hts
      exact List.pairwise_cons.2 ⟨before_insertInto hts h.1, ih s h.2⟩
    · split
      · rename_i hst
        refine List.pairwise_cons.2 ⟨?_, List.pairwise_cons.2 h⟩
        intro u hu
        rcases List.mem_cons.1 hu with rfl | hu
        · exact hst
        · have := h.1 u hu
          have := t.low_le_high
          simp only [Before] at *
          omega
      · exact ih _ h.2

end Segment

structure SegmentSet (α : Type) [Ordinal α] where
  segments : List (Segment α)
  detached : segments.Pairwise Segment.Before

namespace SegmentSet

variable {α : Type} [Ordinal α]

def empty : SegmentSet α := ⟨[], .nil⟩

def insert (set : SegmentSet α) (s : Segment α) : SegmentSet α :=
  ⟨s.insertInto set.segments, s.insertInto_pairwise set.detached⟩

def addRange (set : SegmentSet α) (a b : α) : SegmentSet α := set.insert (.between a b)

def add (set : SegmentSet α) (a : α) : SegmentSet α := set.addRange a a

def ofSegments (segments : List (Segment α)) : SegmentSet α :=
  segments.foldl insert empty

def contains (set : SegmentSet α) (a : α) : Bool := set.segments.any (·.contains a)

def isEmpty (set : SegmentSet α) : Bool := set.segments.isEmpty

def isFull (set : SegmentSet α) : Bool :=
  match set.segments with
  | [s] => rank s.low == 0 && rank s.high == rank (greatest : α)
  | _ => false

/-- The number of segments, not of values. -/
def size (set : SegmentSet α) : Nat := set.segments.length

def first? (set : SegmentSet α) : Option (Segment α) := set.segments.head?

def last? (set : SegmentSet α) : Option (Segment α) := set.segments.getLast?

def render (text : α → String) (set : SegmentSet α) : String :=
  "\x7b" ++ ", ".intercalate (set.segments.map (·.render text)) ++ "\x7d"

end SegmentSet

end PatternGraph
