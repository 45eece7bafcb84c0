import PatternGraph.Interval.SegmentSet

/-!
Which values a set of segments contains: exactly those that were put into it.
-/
namespace PatternGraph
open Ordinal

variable {α : Type} [Ordinal α]

namespace Segment

theorem contains_iff {s : Segment α} {a : α} :
    s.contains a = true ↔ rank s.low ≤ rank a ∧ rank a ≤ rank s.high := by
  simp [contains]

theorem contains_between {a b x : α} (le : rank a ≤ rank b) :
    (between a b).contains x = true ↔ rank a ≤ rank x ∧ rank x ≤ rank b := by
  rw [contains_iff, between, dif_pos le]

/-- Segments that overlap or touch leave nothing out between them. -/
theorem contains_hull {s t : Segment α} (hts : ¬ t.Before s) (hst : ¬ s.Before t) {a : α} :
    (s.hull t).contains a = true ↔ s.contains a = true ∨ t.contains a = true := by
  have := s.low_le_high
  have := t.low_le_high
  simp only [contains_iff, hull, Before] at *
  split <;> split <;> omega

theorem mem_insertInto {s : Segment α} {segments : List (Segment α)} {a : α} :
    (∃ t ∈ s.insertInto segments, t.contains a = true) ↔
      s.contains a = true ∨ ∃ t ∈ segments, t.contains a = true := by
  induction segments generalizing s with
  | nil => simp [insertInto]
  | cons t rest ih =>
    simp only [insertInto]
    split
    · simp only [List.mem_cons, exists_eq_or_imp, ih]
      exact or_left_comm
    · rename_i hts
      split
      · simp only [List.mem_cons, exists_eq_or_imp]
      · rename_i hst
        simp only [ih, contains_hull hts hst, or_assoc, List.mem_cons, exists_eq_or_imp]

end Segment

namespace SegmentSet

theorem contains_iff {set : SegmentSet α} {a : α} :
    set.contains a = true ↔ ∃ s ∈ set.segments, s.contains a = true := List.any_eq_true

theorem contains_empty (a : α) : (empty : SegmentSet α).contains a = false := rfl

theorem contains_insert {set : SegmentSet α} {s : Segment α} {a : α} :
    (set.insert s).contains a = true ↔ s.contains a = true ∨ set.contains a = true := by
  rw [contains_iff, contains_iff]
  exact Segment.mem_insertInto

theorem contains_addRange {set : SegmentSet α} {a b x : α} (le : rank a ≤ rank b) :
    (set.addRange a b).contains x = true ↔
      (rank a ≤ rank x ∧ rank x ≤ rank b) ∨ set.contains x = true := by
  rw [addRange, contains_insert, Segment.contains_between le]

theorem le_last_of_contains {set : SegmentSet α} {a : α} (member : set.contains a = true) :
    ∃ s, set.last? = some s ∧ rank a ≤ rank s.high := by
  obtain ⟨t, mem, inside⟩ := contains_iff.1 member
  have inside := (Segment.contains_iff.1 inside).2
  have detached := set.detached
  rcases List.eq_nil_or_concat set.segments with empty | ⟨before, s, split⟩
  · rw [empty] at mem
    cases mem
  · rw [List.concat_eq_append] at split
    refine ⟨s, by rw [last?, split, List.getLast?_concat], ?_⟩
    rw [split] at mem detached
    rw [List.pairwise_append] at detached
    rcases List.mem_append.1 mem with mem | mem
    · have ahead : rank t.high + 1 < rank s.low := detached.2.2 t mem s (List.mem_singleton_self s)
      have := s.low_le_high
      omega
    · rw [List.mem_singleton.1 mem] at inside
      exact inside

theorem contains_high_of_last {set : SegmentSet α} {s : Segment α} (last : set.last? = some s) :
    set.contains s.high = true :=
  contains_iff.2 ⟨s, List.mem_of_getLast? last, Segment.contains_iff.2 ⟨s.low_le_high, Nat.le_refl _⟩⟩

theorem contains_of_isFull {set : SegmentSet α} (full : set.isFull = true) (a : α) :
    set.contains a = true := by
  unfold isFull at full
  split at full
  · rename_i s single
    rw [Bool.and_eq_true, beq_iff_eq, beq_iff_eq] at full
    apply contains_iff.2
    refine ⟨s, by simp [single], Segment.contains_iff.2 ⟨by omega, ?_⟩⟩
    rw [full.2]
    exact rank_le_greatest a
  · cases full

/-- A set that contains everything is a single segment, since something is missing between any two. -/
theorem isFull_of_contains {set : SegmentSet α} (all : ∀ a, set.contains a = true) :
    set.isFull = true := by
  obtain ⟨s, mem, least⟩ := contains_iff.1 (all least)
  have low : rank s.low = 0 := by
    have := (Segment.contains_iff.1 least).1
    rw [rank_least] at this
    omega
  obtain ⟨before, after, split⟩ := List.append_of_mem mem
  have detached := set.detached
  rw [split, List.pairwise_append, List.pairwise_cons] at detached
  obtain ⟨_, ⟨later, _⟩, earlier⟩ := detached
  have first : before = [] := by
    apply List.eq_nil_iff_forall_not_mem.2
    intro t mem
    have : rank t.high + 1 < rank s.low := earlier t mem s (List.mem_cons_self ..)
    omega
  have high : rank s.high = rank (greatest : α) := by
    apply Nat.le_antisymm (rank_le_greatest _)
    apply Nat.le_of_not_lt
    intro room
    obtain ⟨b, found⟩ := Option.ne_none_iff_exists'.1 (unrank_ne_none (rank s.high + 1) room)
    have next := rank_of_unrank _ _ found
    obtain ⟨t, mem, inside⟩ := contains_iff.1 (all b)
    have inside := Segment.contains_iff.1 inside
    rw [split, first, List.nil_append] at mem
    rcases List.mem_cons.1 mem with rfl | mem
    · omega
    · have : rank s.high + 1 < rank t.low := later t mem
      omega
  have last : after = [] := by
    apply List.eq_nil_iff_forall_not_mem.2
    intro t mem
    have : rank s.high + 1 < rank t.low := later t mem
    have := rank_le_greatest t.low
    omega
  rw [isFull, split, first, last]
  simp [low, high]

theorem exists_not_contains {set : SegmentSet α} (room : set.isFull = false) :
    ∃ a, set.contains a = false := by
  apply Classical.byContradiction
  intro none
  have all : ∀ a, set.contains a = true := fun a =>
    Bool.of_not_eq_false fun missing => none ⟨a, missing⟩
  rw [isFull_of_contains all] at room
  cases room

end SegmentSet

theorem rank_le_iff {a b : Char} : rank a ≤ rank b ↔ a ≤ b := by
  have ha := toNat_scalar_cases a
  have hb := toNat_scalar_cases b
  have le : a ≤ b ↔ a.toNat ≤ b.toNat := Iff.rfl
  rw [le]
  change scalarRank a ≤ scalarRank b ↔ _
  unfold scalarRank
  split <;> split <;> omega

end PatternGraph
