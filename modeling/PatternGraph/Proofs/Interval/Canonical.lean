import PatternGraph.Proofs.Interval.Insertion
import PatternGraph.Proofs.Interval.Membership

/-!
Sets of segments are canonical: the segments are given by the values of the set, whichever additions have
put them there and in whichever order.
-/
namespace PatternGraph
open Ordinal

class Ordinal.Ordered (α : Type) [Ordinal α] [LE α] [LT α] : Prop where
  le_iff : ∀ a b : α, a ≤ b ↔ rank a ≤ rank b
  lt_iff : ∀ a b : α, a < b ↔ rank a < rank b

instance : Ordered UInt8 := ⟨fun _ _ => UInt8.le_iff_toNat_le, fun _ _ => UInt8.lt_iff_toNat_lt⟩

instance : Ordered UInt16 := ⟨fun _ _ => UInt16.le_iff_toNat_le, fun _ _ => UInt16.lt_iff_toNat_lt⟩

instance : Ordered UInt32 := ⟨fun _ _ => UInt32.le_iff_toNat_le, fun _ _ => UInt32.lt_iff_toNat_lt⟩

instance : Ordered UInt64 := ⟨fun _ _ => UInt64.le_iff_toNat_le, fun _ _ => UInt64.lt_iff_toNat_lt⟩

instance : Ordered USize := ⟨fun _ _ => USize.le_iff_toNat_le, fun _ _ => USize.lt_iff_toNat_lt⟩

instance : Ordered Char where
  le_iff _ _ := rank_le_iff.symm
  lt_iff a b := by rw [← Char.not_le, ← rank_le_iff, Nat.not_le]

variable {α : Type} [Ordinal α]

namespace Segment

theorem between_low_high (s : Segment α) : between s.low s.high = s := dif_pos s.low_le_high

theorem contains_between_iff [LE α] [LT α] [Ordered α] {a b v : α} :
    (between a b).contains v = true ↔ (a ≤ v ∧ v ≤ b) ∨ (b ≤ v ∧ v ≤ a) := by
  rw [contains_iff, between]
  simp only [Ordered.le_iff]
  split
  · dsimp only
    omega
  · dsimp only
    omega

theorem before_iff [LE α] [LT α] [Ordered α] {s t : Segment α} :
    s.Before t ↔ ∃ v, s.high < v ∧ v < t.low := by
  simp only [Before, Ordered.lt_iff]
  constructor
  · intro before
    have room : rank s.high + 1 ≤ rank (greatest : α) := by
      have := rank_le_greatest t.low
      omega
    obtain ⟨v, next⟩ := Option.ne_none_iff_exists'.1 (unrank_ne_none (α := α) _ room)
    have := rank_of_unrank _ _ next
    exact ⟨v, by omega, by omega⟩
  · rintro ⟨v, after, ahead⟩
    omega

theorem contains_of_le {s : Segment α} {rest : List (Segment α)} (behind : ∀ t ∈ rest, s.Before t)
    {v : α} (member : ∃ t ∈ s :: rest, t.contains v = true) (le : rank v ≤ rank s.high + 1) :
    s.contains v = true := by
  obtain ⟨t, mem, inside⟩ := member
  rcases List.mem_cons.1 mem with rfl | mem
  · exact inside
  · have before := behind t mem
    have := contains_iff.1 inside
    unfold Before at before
    omega

theorem low_le_of_contains {s : Segment α} {rest : List (Segment α)}
    (behind : ∀ t ∈ rest, s.Before t) {v : α} (member : ∃ t ∈ s :: rest, t.contains v = true) :
    rank s.low ≤ rank v := by
  obtain ⟨t, mem, inside⟩ := member
  have within := contains_iff.1 inside
  rcases List.mem_cons.1 mem with rfl | mem
  · exact within.1
  · have before := behind t mem
    have := s.low_le_high
    unfold Before at before
    omega

theorem contains_low (s : Segment α) : s.contains s.low = true :=
  contains_iff.2 ⟨Nat.le_refl _, s.low_le_high⟩

theorem high_le_of_contains {s t : Segment α} {rest : List (Segment α)}
    (behind : ∀ u ∈ rest, s.Before u) (low : rank s.low = rank t.low)
    (members : ∀ v, t.contains v = true → ∃ u ∈ s :: rest, u.contains v = true) :
    rank t.high ≤ rank s.high := by
  apply Nat.le_of_not_lt
  intro longer
  have room : rank s.high + 1 ≤ rank (greatest : α) := by
    have := rank_le_greatest t.high
    omega
  obtain ⟨v, next⟩ := Option.ne_none_iff_exists'.1 (unrank_ne_none (α := α) _ room)
  have next := rank_of_unrank _ _ next
  have := s.low_le_high
  have inside : t.contains v = true := contains_iff.2 ⟨by omega, by omega⟩
  have := contains_iff.1 (contains_of_le behind (members v inside) (by omega))
  omega

/-- The first of two ascending lists of detached segments with the same values are the same. -/
theorem head_eq {s t : Segment α} {xs ys : List (Segment α)} (behind : ∀ u ∈ xs, s.Before u)
    (behind' : ∀ u ∈ ys, t.Before u)
    (same : ∀ v, (∃ u ∈ s :: xs, u.contains v = true) ↔ ∃ u ∈ t :: ys, u.contains v = true) :
    s = t := by
  have low : rank s.low = rank t.low := by
    apply Nat.le_antisymm
    · exact low_le_of_contains behind ((same _).2 ⟨t, List.mem_cons_self, t.contains_low⟩)
    · exact low_le_of_contains behind' ((same _).1 ⟨s, List.mem_cons_self, s.contains_low⟩)
  have high : rank s.high = rank t.high := by
    apply Nat.le_antisymm
    · apply high_le_of_contains behind' low.symm
      exact fun v inside => (same v).1 ⟨s, List.mem_cons_self, inside⟩
    · apply high_le_of_contains behind low
      exact fun v inside => (same v).2 ⟨t, List.mem_cons_self, inside⟩
  cases s
  cases t
  rw [mk.injEq]
  exact ⟨rank_injective low, rank_injective high⟩

theorem mem_rest_iff {s : Segment α} {rest : List (Segment α)} (behind : ∀ t ∈ rest, s.Before t)
    {v : α} : (∃ t ∈ rest, t.contains v = true) ↔
      (∃ t ∈ s :: rest, t.contains v = true) ∧ rank s.high < rank v := by
  constructor
  · rintro ⟨t, mem, inside⟩
    have before := behind t mem
    have := contains_iff.1 inside
    unfold Before at before
    exact ⟨⟨t, List.mem_cons_of_mem _ mem, inside⟩, by omega⟩
  · rintro ⟨⟨t, mem, inside⟩, after⟩
    rcases List.mem_cons.1 mem with rfl | mem
    · have := contains_iff.1 inside
      omega
    · exact ⟨t, mem, inside⟩

theorem eq_of_contains_iff {xs ys : List (Segment α)} (detached : xs.Pairwise Before)
    (detached' : ys.Pairwise Before)
    (same : ∀ v, (∃ s ∈ xs, s.contains v = true) ↔ ∃ s ∈ ys, s.contains v = true) : xs = ys := by
  induction xs generalizing ys with
  | nil =>
    cases ys with
    | nil => rfl
    | cons t ys =>
      obtain ⟨s, mem, _⟩ := (same t.low).2 ⟨t, List.mem_cons_self, t.contains_low⟩
      cases mem
  | cons s xs ih =>
    cases ys with
    | nil =>
      obtain ⟨t, mem, _⟩ := (same s.low).1 ⟨s, List.mem_cons_self, s.contains_low⟩
      cases mem
    | cons t ys =>
      rw [List.pairwise_cons] at detached detached'
      have head : s = t := head_eq detached.1 detached'.1 same
      subst head
      congr 1
      apply ih detached.2 detached'.2
      intro v
      rw [mem_rest_iff detached.1, mem_rest_iff detached'.1, same v]

end Segment

namespace SegmentSet

theorem eq_of_contains {set other : SegmentSet α}
    (same : ∀ v, set.contains v = true ↔ other.contains v = true) : set = other := by
  have segments : set.segments = other.segments := by
    apply Segment.eq_of_contains_iff set.detached other.detached
    intro v
    rw [← contains_iff, ← contains_iff, same v]
  cases set
  cases other
  rw [mk.injEq]
  exact segments

theorem isFull_iff {set : SegmentSet α} : set.isFull = true ↔ ∀ v, set.contains v = true :=
  ⟨contains_of_isFull, isFull_of_contains⟩

theorem contains_foldl_insert {segments : List (Segment α)} {set : SegmentSet α} {v : α} :
    (segments.foldl insert set).contains v = true ↔
      (∃ s ∈ segments, s.contains v = true) ∨ set.contains v = true := by
  induction segments generalizing set with
  | nil => simp
  | cons s segments ih =>
    rw [List.foldl_cons, ih, contains_insert]
    simp only [List.mem_cons, exists_eq_or_imp, or_assoc, or_left_comm]

/-- Whether the segments are added one by one in place or not, the same segments are stored. -/
theorem foldl_spliceInto (segments : List (Segment α)) (set : SegmentSet α) :
    segments.foldl (fun stored s => (Segment.between s.low s.high).spliceInto stored) set.segments =
      (segments.foldl insert set).segments := by
  induction segments generalizing set with
  | nil => rfl
  | cons s segments ih =>
    have one : (Segment.between s.low s.high).spliceInto set.segments = (set.insert s).segments := by
      rw [Segment.between_low_high, Segment.spliceInto_eq_insertInto s set.detached]
      rfl
    rw [List.foldl_cons, List.foldl_cons, one, ih]

end SegmentSet

inductive Recipe (α : Type) [Ordinal α] where
  | collect (segments : List (Segment α))
  | add (recipe : Recipe α) (a : α)
  | addRange (recipe : Recipe α) (a b : α)

namespace Recipe

def set : Recipe α → SegmentSet α
  | collect segments => .ofSegments segments
  | add recipe a => recipe.set.add a
  | addRange recipe a b => recipe.set.addRange a b

def stored : Recipe α → List (Segment α)
  | collect segments =>
    segments.foldl (fun stored s => (Segment.between s.low s.high).spliceInto stored) []
  | add recipe a => (Segment.between a a).spliceInto recipe.stored
  | addRange recipe a b => (Segment.between a b).spliceInto recipe.stored

def Adds [LE α] (v : α) : Recipe α → Prop
  | collect segments => ∃ s ∈ segments, s.low ≤ v ∧ v ≤ s.high
  | add recipe a => recipe.Adds v ∨ v = a
  | addRange recipe a b => recipe.Adds v ∨ (a ≤ v ∧ v ≤ b) ∨ (b ≤ v ∧ v ≤ a)

theorem contains_set [LE α] [LT α] [Ordered α] {v : α} (recipe : Recipe α) :
    recipe.set.contains v = true ↔ recipe.Adds v := by
  induction recipe with
  | collect segments =>
    rw [set, SegmentSet.ofSegments, SegmentSet.contains_foldl_insert, Adds]
    simp only [Segment.contains_iff, Ordered.le_iff, SegmentSet.contains_empty, Bool.false_eq_true,
      or_false]
  | add recipe a ih =>
    rw [set, SegmentSet.add, SegmentSet.addRange, SegmentSet.contains_insert,
      Segment.contains_between (Nat.le_refl _), ih, Adds, or_comm, ← Nat.le_antisymm_iff, rank_inj,
      eq_comm]
  | addRange recipe a b ih =>
    rw [set, SegmentSet.addRange, SegmentSet.contains_insert, Segment.contains_between_iff, ih, Adds,
      or_comm]

theorem stored_eq (recipe : Recipe α) : recipe.stored = recipe.set.segments := by
  induction recipe with
  | collect segments => exact SegmentSet.foldl_spliceInto segments .empty
  | add recipe a ih =>
    rw [stored, ih, Segment.spliceInto_eq_insertInto _ recipe.set.detached]
    rfl
  | addRange recipe a b ih =>
    rw [stored, ih, Segment.spliceInto_eq_insertInto _ recipe.set.detached]
    rfl

/-- A set put together in any way contains what has been added and nothing else, in ascending segments
with a value missing between neighbours, and is the one set with these values. Going by halving, to the
place of an addition or to the segment that holds a value, makes no difference. -/
theorem set_canonical [LE α] [LT α] [Ordered α] (recipe : Recipe α) :
    (∀ v, recipe.set.contains v = true ↔ recipe.Adds v) ∧
      (∀ s ∈ recipe.set.segments, s.low ≤ s.high) ∧
      recipe.set.segments.Pairwise (fun s t => ∃ v, s.high < v ∧ v < t.low) ∧
      (∀ other : Recipe α, (∀ v, recipe.Adds v ↔ other.Adds v) → recipe.set = other.set) ∧
      (recipe.set.isFull = true ↔ ∀ v, recipe.set.contains v = true) ∧
      recipe.stored = recipe.set.segments ∧
      ∀ v, (recipe.set.locate v).isOk = recipe.set.contains v := by
  refine ⟨fun v => recipe.contains_set, ?_, ?_, ?_, SegmentSet.isFull_iff, recipe.stored_eq,
    recipe.set.isOk_locate⟩
  · intro s _
    exact (Ordered.le_iff _ _).2 s.low_le_high
  · exact recipe.set.detached.imp Segment.before_iff.1
  · intro other same
    apply SegmentSet.eq_of_contains
    intro v
    rw [recipe.contains_set, other.contains_set, same v]

def swappedRange : Recipe Char := .addRange (.collect [.singleton 'a']) '\uE001' '\uD7FF'

def oneByOne : Recipe Char :=
  .add (.add (.add (.add (.collect []) '\uE001') 'a') '\uD7FF') '\uE000'

theorem set_canonical_overSurrogates :
    swappedRange.set = oneByOne.set ∧ swappedRange.set.contains '\uE000' = true ∧
      swappedRange.stored.map (fun s => (s.low, s.high)) = [('a', 'a'), ('\uD7FF', '\uE001')] := by
  have same : ∀ v, swappedRange.Adds v ↔ oneByOne.Adds v := by
    intro v
    have low : rank '\uD7FF' = 0xD7FF := by decide
    have middle : rank '\uE000' = 0xD800 := by decide
    have high : rank '\uE001' = 0xD801 := by decide
    simp only [swappedRange, oneByOne, Adds, List.mem_singleton, exists_eq_left, List.not_mem_nil,
      false_and, exists_false, false_or, Segment.singleton, Ordered.le_iff, ← rank_inj (α := Char)]
    omega
  obtain ⟨contains, _, _, unique, _, stored, _⟩ := set_canonical swappedRange
  constructor
  · exact unique oneByOne same
  · constructor
    · exact (contains _).2 (.inr (.inr ⟨by decide, by decide⟩))
    · rw [stored]
      decide

end Recipe

end PatternGraph
