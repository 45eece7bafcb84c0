/-!
Finite lines of values: every value has a rank, the ranks are consecutive from zero, and a rank
gives its value back. Neighbours and order are read off the ranks, so a type whose code points have
a hole, such as the characters, is a line without holes here.
-/
namespace PatternGraph

class Ordinal (α : Type) where
  rank : α → Nat
  unrank : Nat → Option α
  least : α
  greatest : α
  rank_least : rank least = 0
  rank_le_greatest : ∀ a, rank a ≤ rank greatest
  unrank_rank : ∀ a, unrank (rank a) = some a
  rank_of_unrank : ∀ n a, unrank n = some a → rank a = n
  unrank_ne_none : ∀ n, n ≤ rank greatest → unrank n ≠ none

namespace Ordinal

variable {α : Type} [Ordinal α]

theorem rank_injective {a b : α} (h : rank a = rank b) : a = b := by
  have same := congrArg (unrank (α := α)) h
  rwa [unrank_rank, unrank_rank, Option.some.injEq] at same

theorem rank_inj {a b : α} : rank a = rank b ↔ a = b :=
  ⟨rank_injective, fun h => h ▸ rfl⟩

def successor (a : α) : Option α := unrank (rank a + 1)

def predecessor (a : α) : Option α :=
  if rank a = 0 then none else unrank (rank a - 1)

def saturatingSuccessor (a : α) : α := (successor a).getD a

theorem successor_eq_some_iff {a b : α} : successor a = some b ↔ rank b = rank a + 1 := by
  constructor
  · exact rank_of_unrank _ _
  · intro h
    rw [successor, ← h, unrank_rank]

/-- `a` comes immediately after `b`. -/
def isSucceeding (a b : α) : Bool := rank a == rank b + 1

def isPreceding (a b : α) : Bool := rank a + 1 == rank b

end Ordinal

@[reducible] def Ordinal.unsigned {α : Type} (size : Nat) (toNat : α → Nat) (ofNat : Nat → α)
    (positive : 0 < size) (bound : ∀ a, toNat a < size) (ofNat_toNat : ∀ a, ofNat (toNat a) = a)
    (toNat_ofNat : ∀ n, n < size → toNat (ofNat n) = n) : Ordinal α where
  rank := toNat
  unrank n := if n < size then some (ofNat n) else none
  least := ofNat 0
  greatest := ofNat (size - 1)
  rank_least := toNat_ofNat 0 positive
  rank_le_greatest a := by
    rw [toNat_ofNat (size - 1) (by omega)]
    exact Nat.le_sub_one_of_lt (bound a)
  unrank_rank a := by rw [if_pos (bound a), ofNat_toNat]
  rank_of_unrank n a h := by
    split at h
    · rename_i inside
      cases h
      exact toNat_ofNat n inside
    · cases h
  unrank_ne_none n h := by
    rw [toNat_ofNat (size - 1) (by omega)] at h
    have inside : n < size := by omega
    rw [if_pos inside]
    exact Option.some_ne_none _

instance : Ordinal UInt8 :=
  .unsigned UInt8.size UInt8.toNat UInt8.ofNat (by decide) UInt8.toNat_lt_size
    (fun _ => UInt8.ofNat_toNat) (fun _ => UInt8.toNat_ofNat_of_lt')

instance : Ordinal UInt16 :=
  .unsigned UInt16.size UInt16.toNat UInt16.ofNat (by decide) UInt16.toNat_lt_size
    (fun _ => UInt16.ofNat_toNat) (fun _ => UInt16.toNat_ofNat_of_lt')

instance : Ordinal UInt32 :=
  .unsigned UInt32.size UInt32.toNat UInt32.ofNat (by decide) UInt32.toNat_lt_size
    (fun _ => UInt32.ofNat_toNat) (fun _ => UInt32.toNat_ofNat_of_lt')

instance : Ordinal UInt64 :=
  .unsigned UInt64.size UInt64.toNat UInt64.ofNat (by decide) UInt64.toNat_lt_size
    (fun _ => UInt64.ofNat_toNat) (fun _ => UInt64.toNat_ofNat_of_lt')

instance : Ordinal USize :=
  .unsigned USize.size USize.toNat USize.ofNat USize.size_pos USize.toNat_lt_size
    (fun _ => USize.ofNat_toNat) (fun _ => USize.toNat_ofNat_of_lt')

/-- The place of a character among the scalar values, the surrogates being skipped. -/
def scalarRank (c : Char) : Nat :=
  if c.toNat < 0xD800 then c.toNat else c.toNat - 0x800

def scalarOfRank (n : Nat) : Option Char :=
  if n < 0xD800 then some (Char.ofNat n)
  else if n < 0x10F800 then some (Char.ofNat (n + 0x800))
  else none

theorem toNat_scalar_cases (c : Char) :
    c.toNat < 0xD800 ∨ (0xDFFF < c.toNat ∧ c.toNat < 0x110000) := c.valid

theorem toNat_ofNat_of_scalar {n : Nat} (h : n < 0xD800 ∨ (0xDFFF < n ∧ n < 0x110000)) :
    (Char.ofNat n).toNat = n := by
  rw [Char.ofNat, dif_pos h]
  rfl

theorem scalarOfRank_scalarRank (c : Char) : scalarOfRank (scalarRank c) = some c := by
  have range := toNat_scalar_cases c
  unfold scalarRank scalarOfRank
  split
  · simp
  · have high : ¬ c.toNat - 0x800 < 0xD800 := by omega
    have top : c.toNat - 0x800 < 0x10F800 := by omega
    have back : c.toNat - 0x800 + 0x800 = c.toNat := by omega
    simp [high, top, back]

theorem scalarRank_of_scalarOfRank (n : Nat) (c : Char) (h : scalarOfRank n = some c) :
    scalarRank c = n := by
  unfold scalarOfRank at h
  unfold scalarRank
  split at h
  · rw [Option.some.injEq] at h
    rw [← h, toNat_ofNat_of_scalar (by omega)]
    split <;> omega
  · split at h
    · rw [Option.some.injEq] at h
      rw [← h, toNat_ofNat_of_scalar (by omega)]
      split <;> omega
    · simp at h

instance : Ordinal Char where
  rank := scalarRank
  unrank := scalarOfRank
  least := Char.ofNat 0
  greatest := Char.ofNat 0x10FFFF
  rank_least := by decide
  rank_le_greatest c := by
    have range := toNat_scalar_cases c
    have top : scalarRank (Char.ofNat 0x10FFFF) = 0x10F7FF := by decide
    rw [top]
    unfold scalarRank
    split <;> omega
  unrank_rank := scalarOfRank_scalarRank
  rank_of_unrank := scalarRank_of_scalarOfRank
  unrank_ne_none n h := by
    have top : scalarRank (Char.ofNat 0x10FFFF) = 0x10F7FF := by decide
    rw [top] at h
    unfold scalarOfRank
    split
    · simp
    · simp; omega

end PatternGraph
