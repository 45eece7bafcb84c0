import PatternGraph.Interval.SegmentSet
import PatternGraph.Proofs.Interval.Halving

/-!
Adding a segment in place: two cuts give the stored segments that it overlaps or touches, and one segment
takes their place. The cuts and the search for the segment that holds a value go by halving, so they are
right on ascending detached segments only, which is what adding a segment leaves behind.
-/
namespace PatternGraph
open Ordinal

variable {α : Type} [Ordinal α]

namespace Segment

/-- The segment `t` ends before the new one, and not immediately before it. -/
def passes (s t : Segment α) : Bool := rank t.high < rank s.low && !isPreceding t.high s.low

/-- The segment `t` does not start after the new one, or does so immediately. -/
def reaches (s t : Segment α) : Bool := !(rank s.high < rank t.low && !isSucceeding t.low s.high)

theorem passes_iff {s t : Segment α} : s.passes t = true ↔ t.Before s := by
  simp only [passes, isPreceding, Before, Bool.and_eq_true, decide_eq_true_eq,
    Bool.not_eq_true', beq_eq_false_iff_ne]
  omega

theorem reaches_iff {s t : Segment α} : s.reaches t = true ↔ ¬ s.Before t := by
  simp only [reaches, isSucceeding, Before, Bool.not_eq_true', Bool.and_eq_false_iff,
    decide_eq_false_iff_not, Bool.not_eq_false', beq_iff_eq]
  omega

def absorb (s : Segment α) (touched : List (Segment α)) : Segment α :=
  match touched.head?, touched.getLast? with
  | some first, some last =>
    { low := (s.hull first).low
      high := (s.hull last).high
      low_le_high := by
        have := s.low_le_high
        simp only [hull]
        split <;> split <;> omega }
  | _, _ => s

/-- Puts `s` into an ascending list of detached segments without going through it from its start. -/
def spliceInto (s : Segment α) (segments : List (Segment α)) : List (Segment α) :=
  let start := cut s.passes segments
  let touched := cut s.reaches (segments.drop start)
  segments.take start ++ s.absorb ((segments.drop start).take touched) ::
    (segments.drop start).drop touched

theorem Before.trans {r s t : Segment α} (first : r.Before s) (second : s.Before t) :
    r.Before t := by
  have := s.low_le_high
  simp only [Before] at *
  omega

theorem hull_before_iff {s t u : Segment α} (behind : t.Before u) :
    (s.hull t).Before u ↔ s.Before u := by
  simp only [Before, hull] at *
  split <;> omega

theorem not_before_hull {s t u : Segment α} (behind : t.Before u) : ¬ u.Before (s.hull t) := by
  have := t.low_le_high
  have := u.low_le_high
  simp only [Before, hull] at *
  split <;> omega

theorem absorb_hull {s t : Segment α} {touched : List (Segment α)}
    (behind : ∀ u ∈ touched, t.Before u) : (s.hull t).absorb touched = s.absorb (t :: touched) := by
  cases touched with
  | nil => rfl
  | cons first more =>
    obtain ⟨last, final⟩ : ∃ last, (first :: more).getLast? = some last :=
      Option.isSome_iff_exists.1 (by simp)
    have nearest : t.Before first := behind first List.mem_cons_self
    have farthest : t.Before last := behind last (List.mem_of_getLast? final)
    have := t.low_le_high
    have := last.low_le_high
    unfold Before at nearest farthest
    have low : ((s.hull t).hull first).low = (s.hull t).low := by
      have : rank (s.hull t).low ≤ rank first.low := by
        simp only [hull]
        split <;> omega
      exact if_pos this
    have high : ((s.hull t).hull last).high = (s.hull last).high := by
      simp only [hull]
      split
      · rw [if_pos (by omega), if_pos (by omega)]
      · rfl
    simp only [absorb, List.head?_cons, List.getLast?_cons_cons, final, low, high]

theorem insertInto_append {s : Segment α} {passed segments : List (Segment α)}
    (before : ∀ t ∈ passed, t.Before s) :
    s.insertInto (passed ++ segments) = passed ++ s.insertInto segments := by
  induction passed with
  | nil => rfl
  | cons t rest ih =>
    rw [List.cons_append, insertInto, if_pos (before t List.mem_cons_self), List.cons_append,
      ih fun u mem => before u (List.mem_cons_of_mem _ mem)]

/-- The new segment grows by one touched segment after the other, and ends as large as the first and the
last of them make it. -/
theorem insertInto_touched (s : Segment α) (touched rest : List (Segment α))
    (detached : (touched ++ rest).Pairwise Before) (passed : ∀ t ∈ touched, ¬ t.Before s)
    (reached : ∀ t ∈ touched, ¬ s.Before t) (after : ∀ t ∈ rest, s.Before t) :
    s.insertInto (touched ++ rest) = s.absorb touched :: rest := by
  induction touched generalizing s with
  | nil =>
    cases rest with
    | nil => rfl
    | cons t rest =>
      have before : s.Before t := after t List.mem_cons_self
      have notPassed : ¬ t.Before s := by
        have := s.low_le_high
        have := t.low_le_high
        simp only [Before] at *
        omega
      rw [List.nil_append, insertInto, if_neg notPassed, if_pos before]
      rfl
  | cons t touched ih =>
    rw [List.cons_append, List.pairwise_cons] at detached
    obtain ⟨behind, detached⟩ := detached
    have behindTouched : ∀ u ∈ touched, t.Before u := fun u mem =>
      behind u (List.mem_append_left _ mem)
    have grown : (s.hull t).insertInto (touched ++ rest) = (s.hull t).absorb touched :: rest := by
      apply ih (s.hull t) detached
      · intro u mem
        exact not_before_hull (behindTouched u mem)
      · intro u mem
        rw [hull_before_iff (behindTouched u mem)]
        exact reached u (List.mem_cons_of_mem _ mem)
      · intro u mem
        rw [hull_before_iff (behind u (List.mem_append_right _ mem))]
        exact after u mem
    rw [List.cons_append, insertInto, if_neg (passed t List.mem_cons_self),
      if_neg (reached t List.mem_cons_self), grown, absorb_hull behindTouched]

theorem insertInto_reached {s : Segment α} {others : List (Segment α)}
    (detached : others.Pairwise Before) (passed : ∀ t ∈ others, ¬ t.Before s) :
    s.insertInto others =
      s.absorb (others.take (cut s.reaches others)) :: others.drop (cut s.reaches others) := by
  have reachFirst : others.Pairwise fun t u => s.reaches u = true → s.reaches t = true := by
    apply detached.imp
    intro t u before
    rw [reaches_iff, reaches_iff]
    exact fun reached ahead => reached (ahead.trans before)
  obtain ⟨reached, unreached⟩ := cut_splits reachFirst
  have split := List.take_append_drop (cut s.reaches others) others
  have grown := insertInto_touched s (others.take (cut s.reaches others))
    (others.drop (cut s.reaches others))
  rw [split] at grown
  apply grown detached
  · intro t mem
    exact passed t (List.mem_of_mem_take mem)
  · intro t mem
    exact reaches_iff.1 (reached t mem)
  · intro t mem
    have := unreached t mem
    rw [Bool.eq_false_iff, Ne, reaches_iff, Decidable.not_not] at this
    exact this

theorem spliceInto_eq_insertInto (s : Segment α) {segments : List (Segment α)}
    (detached : segments.Pairwise Before) : s.spliceInto segments = s.insertInto segments := by
  have passFirst : segments.Pairwise fun t u => s.passes u = true → s.passes t = true := by
    apply detached.imp
    intro t u before
    rw [passes_iff, passes_iff]
    exact before.trans
  obtain ⟨passed, unpassed⟩ := cut_splits passFirst
  have ahead : ∀ t ∈ segments.drop (cut s.passes segments), ¬ t.Before s := by
    intro t mem before
    have := unpassed t mem
    rw [passes_iff.2 before] at this
    cases this
  symm
  calc s.insertInto segments
      = s.insertInto (segments.take (cut s.passes segments) ++
          segments.drop (cut s.passes segments)) := by rw [List.take_append_drop]
    _ = segments.take (cut s.passes segments) ++
          s.insertInto (segments.drop (cut s.passes segments)) :=
        insertInto_append fun t mem => passes_iff.1 (passed t mem)
    _ = s.spliceInto segments := by
        rw [insertInto_reached detached.drop ahead]
        rfl

def side (a : α) (s : Segment α) : Ordering :=
  if rank s.high < rank a then .lt else if rank a < rank s.low then .gt else .eq

theorem side_eq_lt_iff {s : Segment α} {a : α} : s.side a = .lt ↔ rank s.high < rank a := by
  unfold side
  split
  · simp [*]
  · split <;> simp [*]

theorem side_eq_gt_iff {s : Segment α} {a : α} : s.side a = .gt ↔ rank a < rank s.low := by
  have := s.low_le_high
  unfold side
  split
  · simp; omega
  · split <;> simp [*]

theorem side_eq_eq_iff {s : Segment α} {a : α} : s.side a = .eq ↔ s.contains a = true := by
  have := s.low_le_high
  simp only [contains, Bool.and_eq_true, decide_eq_true_eq]
  unfold side
  split
  · simp; omega
  · split
    · simp; omega
    · simp; omega

end Segment

namespace SegmentSet

/-- The place of the segment that holds the value, or of one that would hold it. -/
def locate (set : SegmentSet α) (a : α) : Except Nat Nat :=
  halve (Segment.side a) set.segments 0 set.segments.length

theorem isOk_locate (set : SegmentSet α) (a : α) : (set.locate a).isOk = set.contains a := by
  have aligned : Aligned (Segment.side a) set.segments := by
    apply set.detached.imp
    intro s t before
    have := s.low_le_high
    have := t.low_le_high
    rw [Segment.side_eq_lt_iff, Segment.side_eq_lt_iff, Segment.side_eq_gt_iff,
      Segment.side_eq_gt_iff]
    unfold Segment.Before at before
    omega
  have halved := halved_all aligned
  rw [← locate] at halved
  cases found : set.locate a with
  | ok k =>
    rw [found] at halved
    obtain ⟨s, place, here⟩ := halved
    have holds : set.contains a = true :=
      List.any_eq_true.2 ⟨s, List.mem_of_getElem? place, Segment.side_eq_eq_iff.1 here⟩
    rw [holds]
    rfl
  | error k =>
    rw [found] at halved
    obtain ⟨before, after⟩ := halved
    have missing : set.contains a = false := by
      apply List.any_eq_false.2
      intro s mem holds
      rw [← Segment.side_eq_eq_iff] at holds
      rw [← List.take_append_drop k set.segments, List.mem_append] at mem
      rcases mem with mem | mem
      · rw [before s mem] at holds
        cases holds
      · rw [after s mem] at holds
        cases holds
    rw [missing]
    rfl

end SegmentSet

end PatternGraph
