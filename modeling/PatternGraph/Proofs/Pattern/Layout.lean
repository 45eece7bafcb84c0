import PatternGraph.Proofs.Interval.Membership
import PatternGraph.Proofs.Pattern.Grammar

/-!
The pieces that a syntax tree is laid out in, from left to right. A run of characters may be cut into
literals in any way, and a repeated part begins and ends with the pieces that say so.
-/
namespace PatternGraph
open Ordinal

/-- The largest count that a slot can hold stands for all larger ones. -/
def Bounds.slotCount (n : Nat) : UInt32 := .ofNat (min n 4294967295)

theorem Bounds.rank_slotCount (n : Nat) : rank (slotCount n) = min n 4294967295 := by
  have small : min n 4294967295 < UInt32.size := by
    have : UInt32.size = 4294967296 := rfl
    omega
  exact UInt32.toNat_ofNat_of_lt' small

theorem Bounds.slotCount_succ (n : Nat) :
    saturatingSuccessor (slotCount n) = slotCount (n + 1) := by
  by_cases room : n < 4294967295
  · have next : successor (slotCount n) = some (slotCount (n + 1)) := by
      rw [successor_eq_some_iff, rank_slotCount, rank_slotCount]
      omega
    rw [saturatingSuccessor, next]
    rfl
  · have top : ∀ m, 4294967295 ≤ m → slotCount m = 4294967295 := by
      intro m large
      rw [slotCount, Nat.min_eq_right large]
      rfl
    rw [top n (by omega), top (n + 1) (by omega)]
    rfl

namespace Repetition

structure Counts (r : Repetition) (b : Bounds) : Prop where
  accepts : ∀ n, r.accepts (Bounds.slotCount n) = b.accepts n
  mayRepeat : ∀ n, r.mayRepeat (Bounds.slotCount n) = b.mayRepeat n

theorem accepts_between {low high : UInt32} (le : low ≤ high) (n : Nat) :
    (between low high).accepts (Bounds.slotCount n) = true ↔
      low.toNat ≤ min n 4294967295 ∧ min n 4294967295 ≤ high.toNat := by
  rw [← Bounds.rank_slotCount n]
  refine (SegmentSet.contains_addRange (a := low) (b := high) le).trans ?_
  rw [SegmentSet.contains_empty, or_iff_left Bool.false_ne_true]
  rfl

theorem segments_between {low high : UInt32} (le : low ≤ high) :
    (between low high).counts.segments = [⟨low, high, le⟩] := by
  have between : Segment.between low high = ⟨low, high, le⟩ := dif_pos le
  rw [← between]
  rfl

theorem counts_between {low high : UInt32} (le : low ≤ high) (finite : high.toNat ≤ maxFinite) :
    (between low high).Counts ⟨low.toNat, some high.toNat⟩ where
  accepts n := by
    rw [Bool.eq_iff_iff, accepts_between le, Bounds.accepts_iff]
    simp only [Bounds.within, decide_eq_true_eq, maxFinite] at finite ⊢
    omega
  mayRepeat n := by
    have bounded : high ≠ unbounded := by
      rintro rfl
      exact absurd finite (by decide)
    rw [mayRepeat, greatest?, SegmentSet.last?, segments_between le]
    simp only [List.getLast?_singleton, if_neg bounded, Bounds.mayRepeat, Bounds.within]
    rw [decide_eq_decide]
    have rank := Bounds.rank_slotCount n
    change (Bounds.slotCount n).toNat < high.toNat ↔ _
    change (Bounds.slotCount n).toNat = _ at rank
    rw [rank]
    simp only [maxFinite] at finite
    omega

theorem counts_atLeast {low : UInt32} (finite : low.toNat ≤ maxFinite) :
    (atLeast low).Counts ⟨low.toNat, none⟩ where
  accepts n := by
    have le : low ≤ unbounded := by
      change low.toNat ≤ 4294967295
      simp only [maxFinite] at finite
      omega
    have top : unbounded.toNat = 4294967295 := rfl
    rw [Bool.eq_iff_iff, atLeast, accepts_between le, Bounds.accepts_iff, top]
    simp only [Bounds.within, maxFinite, and_true] at finite ⊢
    omega
  mayRepeat n := by
    have le : low ≤ unbounded := by
      change low.toNat ≤ 4294967295
      simp only [maxFinite] at finite
      omega
    rw [mayRepeat, atLeast, greatest?, SegmentSet.last?, segments_between le]
    rfl

end Repetition

def Bounds.repetition (b : Bounds) : Repetition :=
  match b.most with
  | none => .atLeast (.ofNat b.least)
  | some n => .between (.ofNat b.least) (.ofNat n)

/-- What an atom consumes. A literal of several characters is no tree of its own. -/
def Atom.tree? : Atom → Option Tree
  | .literal c [] => some (.char c)
  | .literal _ (_ :: _) => none
  | .charClass set => some (.charClass set.contains)
  | .any => some .any
  | .backref tag => some (.backref tag)

open Grammar (Kind)

inductive Laid : Kind → List Piece → Tree → Prop
  | atom {a t} : a.tree? = some t → Laid .item [.atom a none] t
  | loop {a t r b} : a.tree? = some t → r.Counts b → Laid .item [.atom a (some r)] (.loop b t)
  | group {tag ps t} : Laid .alternatives ps t →
      Laid .item (.openGroup tag false :: (ps ++ [.closeGroup none])) (.group tag t)
  | loopedGroup {tag ps t r b} : Laid .alternatives ps t → r.Counts b →
      Laid .item (.openGroup tag true :: (ps ++ [.closeGroup (some r)])) (.loop b (.group tag t))
  | done : Laid .sequence [] .empty
  | item {ps t ps' t'} : Laid .item ps t → Laid .sequence ps' t' →
      Laid .sequence (ps ++ ps') (.cat t t')
  | literal {c cs ps t} : Laid .sequence ps t →
      Laid .sequence (.atom (.literal c cs) none :: ps) (.chars (c :: cs) t)
  | only {ps t} : Laid .sequence ps t → Laid .alternatives ps t
  | either {ps t ps' t'} : Laid .sequence ps t → Laid .alternatives ps' t' →
      Laid .alternatives (ps ++ .alternative :: ps') (.alt t t')

def Piece.depthAfter (depth : Nat) : Piece → Nat
  | .openGroup .. => depth + 1
  | .closeGroup _ => depth - 1
  | .atom .. | .alternative => depth

end PatternGraph
