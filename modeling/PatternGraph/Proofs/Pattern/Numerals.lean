import PatternGraph.Proofs.Pattern.Completeness
import PatternGraph.Proofs.Pattern.PairScan

/-!
The numerals of counts. Digits only add to a number, so a numeral may be refused at the first digit that
takes it past the largest count, and what is not refused fits a 32-bit word at every digit.
-/
namespace PatternGraph
open Symbol Grammar

def NoDigitAhead (rest : List Char) : Prop := ∀ c ∈ rest.head?, ¬ ('0' ≤ c ∧ c ≤ '9')

/-- The number that the digits make when they follow those of `n`. -/
def extended (n : Nat) (digits : List Char) : Nat :=
  digits.foldl (fun n c => n * 10 + (c.toNat - '0'.toNat)) n

theorem extended_cons (n : Nat) (c : Char) (digits : List Char) :
    extended n (c :: digits) = extended (n * 10 + (c.toNat - '0'.toNat)) digits :=
  List.foldl_cons ..

theorem not_extended_le {n m : Nat} (large : ¬ n ≤ m) (digits : List Char) : ¬ extended n digits ≤ m :=
  fun fits => large (Nat.le_trans (le_valueOf digits n) fits)

theorem le_nine {c : Char} (decimal : '0' ≤ c ∧ c ≤ '9') : c.toNat - '0'.toNat ≤ 9 := by
  have last : c.toNat ≤ '9'.toNat := decimal.2
  have zero : '0'.toNat = 48 := rfl
  have nine : '9'.toNat = 57 := rfl
  omega

namespace Piece
variable {digits rest : List Char} {n : Nat}

theorem readDigits?_of_no_digit (ends : NoDigitAhead rest) (n offset : Nat) :
    readDigits? n (Symbol.read 0 offset rest) = some (n, Symbol.read 0 offset rest) := by
  cases rest with
  | nil => rfl
  | cons c rest =>
    have last : ∃ s after, Symbol.read 0 offset (c :: rest) = s :: after ∧ digit? s = none := by
      by_cases escape : c = '\\'
      · subst escape
        rw [read_escape]
        refine ⟨_, _, rfl, Option.eq_none_iff_forall_ne_some.2 fun d digit => ?_⟩
        obtain ⟨c, plain, _⟩ := digit?_eq_some digit
        exact Pairing.not_isPlain_escapeAt offset rest c (isPlain_iff.2 plain)
      · rw [read_plain escape]
        exact ⟨_, _, rfl, if_neg (ends c rfl)⟩
    obtain ⟨s, after, front, last⟩ := last
    rw [front, readDigits?, last]

/-- The rest of a numeral is refused early just when the whole of it is too large. -/
theorem readDigits?_eq (decimal : ∀ c ∈ digits, '0' ≤ c ∧ c ≤ '9') (ends : NoDigitAhead rest)
    (small : n ≤ Repetition.maxFinite) (offset : Nat) :
    readDigits? n (Symbol.read 0 offset (digits ++ rest)) =
      if extended n digits ≤ Repetition.maxFinite then
        some (extended n digits, Symbol.read 0 (offset + digits.length) rest)
      else none := by
  induction digits generalizing n offset with
  | nil =>
    rw [extended, List.foldl_nil, if_pos small]
    exact readDigits?_of_no_digit ends n offset
  | cons c digits ih =>
    obtain ⟨first, decimal⟩ := List.forall_mem_cons.1 decimal
    have plain : c ≠ '\\' := by
      rintro rfl
      exact absurd first (by decide)
    rw [List.cons_append, read_plain plain, readDigits?, digit?_of_plain rfl first, extended_cons]
    by_cases next : n * 10 + (c.toNat - '0'.toNat) ≤ Repetition.maxFinite
    · simp only [if_pos next]
      rw [ih decimal next, List.length_cons, Nat.add_right_comm, Nat.add_assoc offset]
    · simp only [if_neg next, if_neg (not_extended_le next digits)]

end Piece

namespace Numeral

def times? (a b : UInt32) : Option UInt32 :=
  if a.toNat * b.toNat < UInt32.size then some (a * b) else none

def plus? (a b : UInt32) : Option UInt32 :=
  if a.toNat + b.toNat < UInt32.size then some (a + b) else none

def append? (n d : UInt32) : Option UInt32 :=
  ((times? n 10).bind (plus? · d)).filter (·.toNat ≤ Repetition.maxFinite)

/-- The count that digits make in words, unless some product, sum or count on the way is too large. -/
def inWords? (digits : List Char) : Option UInt32 :=
  digits.foldlM (fun n c => append? n (UInt32.ofNat (c.toNat - '0'.toNat))) 0

theorem toNat_ofNat {n : Nat} (small : n ≤ Repetition.maxFinite) : (UInt32.ofNat n).toNat = n := by
  apply UInt32.toNat_ofNat_of_lt'
  have : UInt32.size = 4294967296 := rfl
  simp only [Repetition.maxFinite] at small
  omega

/-- Neither the product nor the sum wraps unless the count is too large anyway. -/
theorem append?_eq (n d : UInt32) :
    append? n d =
      if n.toNat * 10 + d.toNat ≤ Repetition.maxFinite then
        some (UInt32.ofNat (n.toNat * 10 + d.toNat))
      else none := by
  have size : UInt32.size = 4294967296 := rfl
  have largest : Repetition.maxFinite = 4294967294 := rfl
  have ten : (10 : UInt32).toNat = 10 := rfl
  unfold append? times?
  rw [ten]
  by_cases product : n.toNat * 10 < UInt32.size
  · have tens : (n * 10).toNat = n.toNat * 10 := by
      rw [UInt32.toNat_mul, ten]
      exact Nat.mod_eq_of_lt product
    rw [if_pos product, Option.bind_some, plus?, tens]
    by_cases sum : n.toNat * 10 + d.toNat < UInt32.size
    · have total : (n * 10 + d).toNat = n.toNat * 10 + d.toNat := by
        rw [UInt32.toNat_add, tens]
        exact Nat.mod_eq_of_lt sum
      have same : n * 10 + d = UInt32.ofNat (n.toNat * 10 + d.toNat) := by
        rw [← total, UInt32.ofNat_toNat]
      rw [if_pos sum, Option.filter_some, total, same]
      simp only [decide_eq_true_eq]
    · rw [if_neg sum, if_neg (by omega)]
      rfl
  · rw [if_neg product, if_neg (by omega)]
    rfl

theorem foldlM_append?_eq {digits : List Char} {n : Nat} (decimal : ∀ c ∈ digits, '0' ≤ c ∧ c ≤ '9')
    (small : n ≤ Repetition.maxFinite) :
    digits.foldlM (fun n c => append? n (UInt32.ofNat (c.toNat - '0'.toNat))) (UInt32.ofNat n) =
      if extended n digits ≤ Repetition.maxFinite then some (UInt32.ofNat (extended n digits))
      else none := by
  induction digits generalizing n with
  | nil =>
    rw [extended, List.foldl_nil, if_pos small]
    rfl
  | cons c digits ih =>
    obtain ⟨first, decimal⟩ := List.forall_mem_cons.1 decimal
    have digit : (UInt32.ofNat (c.toNat - '0'.toNat)).toNat = c.toNat - '0'.toNat :=
      toNat_ofNat (Nat.le_trans (le_nine first) (by decide))
    rw [List.foldlM_cons, append?_eq, toNat_ofNat small, digit, extended_cons]
    by_cases next : n * 10 + (c.toNat - '0'.toNat) ≤ Repetition.maxFinite
    · rw [if_pos next]
      exact ih decimal next
    · rw [if_neg next, if_neg (not_extended_le next digits)]
      rfl

theorem inWords?_eq {digits : List Char} (decimal : ∀ c ∈ digits, '0' ≤ c ∧ c ≤ '9') :
    inWords? digits =
      if valueOf digits ≤ Repetition.maxFinite then some (UInt32.ofNat (valueOf digits)) else none :=
  foldlM_append?_eq decimal (Nat.zero_le _)

end Numeral

namespace Piece

theorem readCount_eq {digits rest : List Char} (nonempty : digits ≠ [])
    (decimal : ∀ c ∈ digits, '0' ≤ c ∧ c ≤ '9') (ends : NoDigitAhead rest) (length offset : Nat) :
    readCount length (Symbol.read 0 offset (digits ++ rest)) =
      if valueOf digits ≤ Repetition.maxFinite then
        .ok (UInt32.ofNat (valueOf digits), Symbol.read 0 (offset + digits.length) rest)
      else .error (.here .invalidBounds offset) := by
  cases digits with
  | nil => exact absurd rfl nonempty
  | cons c digits =>
    obtain ⟨first, decimal⟩ := List.forall_mem_cons.1 decimal
    have plain : c ≠ '\\' := by
      rintro rfl
      exact absurd first (by decide)
    have small : c.toNat - '0'.toNat ≤ Repetition.maxFinite := Nat.le_trans (le_nine first) (by decide)
    have value : valueOf (c :: digits) = extended (c.toNat - '0'.toNat) digits := by
      rw [valueOf, List.foldl_cons, Nat.zero_mul, Nat.zero_add, extended]
    rw [List.cons_append, read_plain plain, readCount, digit?_of_plain rfl first]
    simp only [readDigits?_eq decimal ends small, value, List.length_cons]
    by_cases fits : extended (c.toNat - '0'.toNat) digits ≤ Repetition.maxFinite
    · simp only [if_pos fits, Nat.add_comm, Nat.add_left_comm]
    · simp only [if_neg fits]

/-- A numeral is read as the number that it is, and no further, if that is at most the largest count;
otherwise it is refused at its first digit. Computed in words the count is the same, and no product, sum
or count on the way wraps or is the one that stands for all others. -/
theorem readCount_digits {digits rest : List Char} (nonempty : digits ≠ [])
    (decimal : ∀ c ∈ digits, '0' ≤ c ∧ c ≤ '9') (ends : NoDigitAhead rest) (length offset : Nat) :
    (valueOf digits ≤ Repetition.maxFinite → ∃ n,
      readCount length (Symbol.read 0 offset (digits ++ rest)) =
        .ok (n, Symbol.read 0 (offset + digits.length) rest) ∧ n.toNat = valueOf digits) ∧
    (Repetition.maxFinite < valueOf digits →
      readCount length (Symbol.read 0 offset (digits ++ rest)) =
        .error (.here .invalidBounds offset)) ∧
    (readCount length (Symbol.read 0 offset (digits ++ rest))).toOption.map (·.1) =
      Numeral.inWords? digits ∧
    ∀ k n, Numeral.inWords? (digits.take k) = some n →
      n.toNat = valueOf (digits.take k) ∧ n ≠ Repetition.unbounded := by
  rw [readCount_eq nonempty decimal ends]
  refine ⟨fun fits => ⟨_, if_pos fits, Numeral.toNat_ofNat fits⟩, fun large => if_neg (by omega), ?_, ?_⟩
  · rw [Numeral.inWords?_eq decimal]
    split <;> rfl
  · intro k n counted
    rw [Numeral.inWords?_eq fun c mem => decimal c (List.mem_of_mem_take mem)] at counted
    split at counted
    · rename_i fits
      cases counted
      refine ⟨Numeral.toNat_ofNat fits, fun top => ?_⟩
      rw [← Numeral.toNat_ofNat fits, top] at fits
      exact absurd fits (by decide)
    · cases counted

theorem readCount_digits_largest :
    let largest := "004294967294".toList
    let next := "4294967295".toList
    (∀ c ∈ largest ++ next, '0' ≤ c ∧ c ≤ '9') ∧ NoDigitAhead ['}'] ∧
      (∃ n, readCount 15 (Symbol.read 0 2 (largest ++ ['}'])) = .ok (n, Symbol.read 0 14 ['}']) ∧
        n.toNat = 4294967294) ∧
      readCount 13 (Symbol.read 0 2 (next ++ ['}'])) = .error (.here .invalidBounds 2) ∧
      Numeral.inWords? next = none := by
  intro largest next
  have all : (largest ++ next).all (fun c => '0' ≤ c ∧ c ≤ '9') = true := by decide
  have decimal : ∀ c ∈ largest ++ next, '0' ≤ c ∧ c ≤ '9' := fun c mem =>
    of_decide_eq_true (List.all_eq_true.1 all c mem)
  have ends : NoDigitAhead ['}'] := by
    rintro c ⟨⟩
    decide
  have first := fun c mem => decimal c (List.mem_append_left next mem)
  have second := fun c mem => decimal c (List.mem_append_right largest mem)
  obtain ⟨fits, -⟩ := readCount_digits (by decide) first ends 15 2
  obtain ⟨-, large, words, -⟩ := readCount_digits (by decide) second ends 13 2
  have refused := large (by decide)
  rw [refused] at words
  exact ⟨decimal, ends, fits (by decide), refused, words.symm⟩

end Piece

end PatternGraph
