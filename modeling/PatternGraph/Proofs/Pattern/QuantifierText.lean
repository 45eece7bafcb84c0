import PatternGraph.Proofs.Pattern.CharClass
import PatternGraph.Proofs.Pattern.Completeness
import PatternGraph.Proofs.Pattern.Skimming

/-!
Quantifiers as texts. What a repetition is shown as is a quantifier, from which the same repetition is
read again, and the counts that a quantifier accepts are those between its numerals.
-/
namespace PatternGraph
open Symbol Grammar

def Numeral (digits : List Char) : Prop :=
  digits ≠ [] ∧ (∀ c ∈ digits, '0' ≤ c ∧ c ≤ '9') ∧ valueOf digits ≤ Repetition.maxFinite

inductive QuantifierText : List Char → Bounds → Prop
  | star : QuantifierText ['*'] ⟨0, none⟩
  | plus : QuantifierText ['+'] ⟨1, none⟩
  | exactly {ds} : Numeral ds → QuantifierText ('{' :: ds ++ ['}']) ⟨valueOf ds, some (valueOf ds)⟩
  | atLeast {ds} : Numeral ds → QuantifierText ('{' :: ds ++ [',', '}']) ⟨valueOf ds, none⟩
  | between {ds es} : Numeral ds → Numeral es → valueOf ds ≤ valueOf es →
      QuantifierText ('{' :: ds ++ ',' :: es ++ ['}']) ⟨valueOf ds, some (valueOf es)⟩

inductive Repetition.Denotable : Repetition → Prop
  | between {low high} : low ≤ high → high.toNat ≤ maxFinite → Denotable (.between low high)
  | atLeast {low} : low.toNat ≤ maxFinite → Denotable (.atLeast low)

variable {q cs : List Char} {b : Bounds} {gs after : List Glyph} {r : Repetition}

theorem Numeral.count (h : Numeral cs) (after : List Glyph) :
    Count (cs.map .plain ++ after) (valueOf cs) after := ⟨cs, h.1, h.2.1, rfl, rfl, h.2.2⟩

theorem Grammar.Count.numeral_text {n : Nat} (h : Count gs n after) :
    ∃ cs, Numeral cs ∧ valueOf cs = n ∧ gs = cs.map .plain ++ after := by
  obtain ⟨cs, some, digits, text, rfl, small⟩ := h
  exact ⟨cs, ⟨some, digits, small⟩, rfl, text⟩

theorem QuantifierText.quantifier (h : QuantifierText q b) (after : List Glyph) :
    Quantifier (q.map .plain ++ after) b after := by
  cases h with
  | star => exact .star
  | plus => exact .plus
  | exactly count => simpa using Quantifier.exactly (count.count (.plain '}' :: after))
  | atLeast count => simpa using Quantifier.atLeast (count.count (.plain ',' :: .plain '}' :: after))
  | @between ds es count count' le =>
    have second := count'.count (.plain '}' :: after)
    simpa using Quantifier.between (count.count _) second le

theorem Grammar.Quantifier.text (h : Quantifier gs b after) :
    ∃ q, QuantifierText q b ∧ gs = q.map .plain ++ after := by
  cases h with
  | star => exact ⟨_, .star, rfl⟩
  | plus => exact ⟨_, .plus, rfl⟩
  | exactly count =>
    obtain ⟨ds, numeral, rfl, rfl⟩ := count.numeral_text
    exact ⟨_, .exactly numeral, by simp⟩
  | atLeast count =>
    obtain ⟨ds, numeral, rfl, rfl⟩ := count.numeral_text
    exact ⟨_, .atLeast numeral, by simp⟩
  | between count count' le =>
    obtain ⟨ds, numeral, rfl, rfl⟩ := count.numeral_text
    obtain ⟨es, numeral', rfl, rfl⟩ := count'.numeral_text
    exact ⟨_, .between numeral numeral' le, by simp⟩

theorem cut_of_glyphs {offset : Nat} {text : List Char}
    (front : glyphs (Symbol.read 0 offset text) = cs.map .plain ++ gs) :
    ∃ rest, text = cs ++ rest ∧ Symbol.read 0 (offset + cs.length) rest <:+ Symbol.read 0 offset text ∧
      glyphs (Symbol.read 0 (offset + cs.length) rest) = gs := by
  induction cs generalizing offset text with
  | nil => exact ⟨text, rfl, List.suffix_refl _, front⟩
  | cons c cs ih =>
    rcases text with _ | ⟨d, text⟩
    · cases front
    · by_cases escape : d = '\\'
      · subst escape
        rw [read_escape] at front
        exact absurd (isPlain_iff.2 (List.cons.inj front).1)
          (Pairing.not_isPlain_escapeAt offset text c)
      · have cut : Symbol.read 0 offset (d :: text) =
            ⟨offset, .plain d⟩ :: Symbol.read 0 (offset + 1) text := if_neg escape
        rw [cut] at front ⊢
        have both : d = c ∧ glyphs (Symbol.read 0 (offset + 1) text) = cs.map .plain ++ gs := by
          simpa [glyphs_cons] using front
        obtain ⟨rfl, later⟩ := both
        obtain ⟨rest, rfl, suffix, ends⟩ := ih later
        rw [List.length_cons, show offset + (cs.length + 1) = offset + 1 + cs.length by omega]
        exact ⟨rest, rfl, suffix.trans (List.suffix_cons _ _), ends⟩

theorem rest_of_readQuantifier {length offset : Nat} {text : List Char} {rest : List Symbol}
    (read : Piece.readQuantifier length (Symbol.read 0 offset text) = .ok (r, rest))
    (front : glyphs (Symbol.read 0 offset text) = cs.map .plain ++ glyphs rest) :
    ∃ after, text = cs ++ after ∧ rest = Symbol.read 0 (offset + cs.length) after := by
  obtain ⟨after, whole, suffix, ends⟩ := cut_of_glyphs front
  have later : rest <:+ Symbol.read 0 offset text :=
    ((Piece.skimming_readQuantifier (Symbol.read 0 offset text)).skims read).suffix
  have size : rest.length = (Symbol.read 0 (offset + cs.length) after).length := by
    have := congrArg List.length ends
    simpa [glyphs] using this.symm
  refine ⟨after, whole, ?_⟩
  -- Two suffixes of one list are equal if they are equally long.
  exact (List.suffix_of_suffix_length_le later suffix (Nat.le_of_eq size)).eq_of_length size

theorem glyphs_read_plain (offset : Nat) {q : List Char} (plain : '\\' ∉ q) (after : List Char) :
    glyphs (Symbol.read 0 offset (q ++ after)) =
      q.map .plain ++ glyphs (Symbol.read 0 (offset + q.length) after) := by
  induction q generalizing offset with
  | nil => rfl
  | cons c q ih =>
    obtain ⟨other, plain⟩ := List.ne_and_not_mem_of_not_mem_cons plain
    have cut : Symbol.read 0 offset (c :: (q ++ after)) =
        ⟨offset, .plain c⟩ :: Symbol.read 0 (offset + 1) (q ++ after) := if_neg other.symm
    rw [List.cons_append, cut, glyphs_cons, ih _ plain, List.length_cons,
      show offset + (q.length + 1) = offset + 1 + q.length by omega]
    rfl

theorem Numeral.unescaped (h : Numeral cs) : '\\' ∉ cs := fun member =>
  absurd (h.2.1 _ member) (by decide)

theorem QuantifierText.unescaped (h : QuantifierText q b) : '\\' ∉ q := by
  cases h with
  | star => decide
  | plus => decide
  | exactly count => simp [count.unescaped]
  | atLeast count => simp [count.unescaped]
  | between count count' _ => simp [count.unescaped, count'.unescaped]

/-- The reader takes a quantifier wherever it stands, all of it and no more. -/
theorem QuantifierText.reads (h : QuantifierText q b) (length offset : Nat) (after : List Char) :
    Piece.readQuantifier length (Symbol.read 0 offset (q ++ after)) =
      .ok (b.repetition, Symbol.read 0 (offset + q.length) after) := by
  have front := glyphs_read_plain offset h.unescaped after
  obtain ⟨rest, read, same⟩ := Piece.readQuantifier_of_quantifier length (front ▸ h.quantifier _)
  obtain ⟨after', whole, rfl⟩ := rest_of_readQuantifier read (same ▸ front)
  rw [read, List.append_cancel_left whole]

theorem Grammar.valueOf_toDigits (n : Nat) : valueOf (Nat.toDigits 10 n) = n := by
  have value : ∀ ds, valueOf ds = Nat.ofDigitChars 10 ds 0 := by
    intro ds
    simp only [valueOf, Nat.ofDigitChars, Nat.mul_comm 10]
  rw [value, Nat.ofDigitChars_toDigits (by decide) (by decide)]

theorem Numeral.toDigits {n : Nat} (small : n ≤ Repetition.maxFinite) : Numeral (Nat.toDigits 10 n) :=
  ⟨Nat.toDigits_ne_nil, fun c member => by
    have digit : c.isDigit = true := Nat.isDigit_of_mem_toDigits (by decide) (by decide) member
    rw [Char.isDigit, Bool.and_eq_true, decide_eq_true_eq, decide_eq_true_eq] at digit
    exact digit, (valueOf_toDigits n).symm ▸ small⟩

namespace Repetition
variable {low high : UInt32}

theorem least_between (le : low ≤ high) : (between low high).least = low := by
  rw [least, SegmentSet.first?, segments_between le]
  rfl

theorem greatest?_between (le : low ≤ high) :
    (between low high).greatest? = if high = unbounded then none else some high := by
  rw [greatest?, SegmentSet.last?, segments_between le]
  rfl

theorem ne_unbounded (finite : low.toNat ≤ maxFinite) : low ≠ unbounded := by
  rintro rfl
  exact absurd finite (by decide)

theorem text_between (le : low ≤ high) (finite : high.toNat ≤ maxFinite) :
    QuantifierText (between low high).render.toList ⟨low.toNat, some high.toNat⟩ := by
  have many : Numeral (Nat.toDigits 10 high.toNat) := .toDigits finite
  have few : Numeral (Nat.toDigits 10 low.toNat) := .toDigits (Nat.le_trans le finite)
  rw [render, least_between le, greatest?_between le, if_neg (ne_unbounded finite)]
  dsimp only
  split
  · rename_i same
    subst same
    simpa [Nat.toString_eq_repr, Nat.toList_repr, valueOf_toDigits] using QuantifierText.exactly many
  · have ordered : low.toNat ≤ high.toNat := le
    have text := QuantifierText.between few many (by simpa only [valueOf_toDigits] using ordered)
    simpa [Nat.toString_eq_repr, Nat.toList_repr, valueOf_toDigits] using text

theorem text_atLeast (finite : low.toNat ≤ maxFinite) :
    QuantifierText (atLeast low).render.toList ⟨low.toNat, none⟩ := by
  have le : low ≤ unbounded := Nat.le_trans finite (by decide)
  rw [render, atLeast, least_between le, greatest?_between le, if_pos rfl]
  dsimp only
  split
  · rename_i zero
    subst zero
    exact .star
  · split
    · rename_i one
      subst one
      exact .plus
    · have text := QuantifierText.atLeast (.toDigits finite)
      simpa [Nat.toString_eq_repr, Nat.toList_repr, valueOf_toDigits] using text

theorem Denotable.text (h : r.Denotable) :
    ∃ b, QuantifierText r.render.toList b ∧ b.repetition = r := by
  cases h with
  | between le finite =>
    refine ⟨_, text_between le finite, ?_⟩
    simp only [Bounds.repetition, UInt32.ofNat_toNat]
  | atLeast finite =>
    refine ⟨_, text_atLeast finite, ?_⟩
    simp only [Bounds.repetition, UInt32.ofNat_toNat]

theorem Counts.accepts_iff (h : r.Counts b) {n : UInt32} (finite : n < unbounded) :
    r.accepts n = true ↔ b.least ≤ n.toNat ∧ ∀ m, b.most = some m → n.toNat ≤ m := by
  have slot : Bounds.slotCount n.toNat = n := by
    have small : n.toNat ≤ 4294967295 := Nat.le_of_lt finite
    rw [Bounds.slotCount, Nat.min_eq_left small, UInt32.ofNat_toNat]
  rw [← slot, h.accepts, Bounds.accepts_iff, Bounds.within, slot]
  cases b.most <;> simp

/-- What a repetition that a quantifier can stand for is shown as is read again as the same repetition,
wherever it stands, with nothing left of it. Whatever the reader takes is a quantifier, and below the
largest count what it accepts is between the numerals. -/
theorem render_reads :
    (∀ r : Repetition, r.Denotable → ∀ (length offset : Nat) (after : List Char),
      Piece.readQuantifier length (Symbol.read 0 offset (r.render.toList ++ after)) =
        .ok (r, Symbol.read 0 (offset + r.render.length) after)) ∧
    ∀ (length offset : Nat) (text : List Char) (r : Repetition) (rest : List Symbol),
      Piece.readQuantifier length (Symbol.read 0 offset text) = .ok (r, rest) →
        ∃ q b after, QuantifierText q b ∧ text = q ++ after ∧
          rest = Symbol.read 0 (offset + q.length) after ∧
          ∀ n, n < unbounded →
            (r.accepts n = true ↔ b.least ≤ n.toNat ∧ ∀ m, b.most = some m → n.toNat ≤ m) := by
  constructor
  · intro r denotable length offset after
    obtain ⟨b, text, rfl⟩ := denotable.text
    exact text.reads length offset after
  · intro length offset text r rest read
    obtain ⟨b, quantifier, counts⟩ := Piece.quantifier_of_readQuantifier read
    obtain ⟨q, shape, front⟩ := quantifier.text
    obtain ⟨after, rfl, rfl⟩ := rest_of_readQuantifier read front
    exact ⟨q, b, after, shape, rfl, rfl, fun n => counts.accepts_iff⟩

end Repetition

end PatternGraph
