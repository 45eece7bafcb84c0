import PatternGraph.Proofs.Pattern.Grammar

/-!
The reader and the grammar cut a text in the same way. The reader computes with the numbers of
characters where the grammar lists them: the digits of a code point, what an escape stands for, the
operators and the characters of names.
-/
namespace PatternGraph
open Symbol

namespace Symbol
variable {c v : Char} {n : Nat}

theorem hexDigit?_of_hexDigit (h : HexDigit c n) : hexDigit? c = some n := by
  have small : ∀ i : Fin smallDigits.length, hexDigit? smallDigits[i] = some i.val := by decide
  have capital : ∀ i : Fin capitalDigits.length, hexDigit? capitalDigits[i] = some i.val := by decide
  cases h with
  | inl listed =>
    obtain ⟨lt, same⟩ := List.getElem?_eq_some_iff.1 listed
    rw [← same]
    exact small ⟨n, lt⟩
  | inr listed =>
    obtain ⟨lt, same⟩ := List.getElem?_eq_some_iff.1 listed
    rw [← same]
    exact capital ⟨n, lt⟩

/-- A run of digits whose numbers follow each other is listed in one piece. -/
theorem getElem?_of_range {digits : List Char} {first : Char} {count skip : Nat}
    (listed : ∀ i : Fin count, digits[i.val + skip]? = some (Char.ofNat (i + first.toNat)))
    (low : first ≤ c) (high : c.toNat < first.toNat + count) :
    digits[c.toNat - first.toNat + skip]? = some c := by
  have low : first.toNat ≤ c.toNat := low
  rw [listed ⟨c.toNat - first.toNat, by omega⟩, Nat.sub_add_cancel low, Char.ofNat_toNat]

theorem hexDigit_of_hexDigit? (h : hexDigit? c = some n) : HexDigit c n := by
  unfold hexDigit? at h
  split at h
  · rename_i range
    have listed : ∀ i : Fin 10, smallDigits[i.val + 0]? = some (Char.ofNat (i + '0'.toNat)) := by
      decide
    cases h
    exact .inl (getElem?_of_range listed range.1 (Nat.lt_succ_of_le range.2))
  · split at h
    · rename_i range
      have listed : ∀ i : Fin 6, smallDigits[i.val + 10]? = some (Char.ofNat (i + 'a'.toNat)) := by
        decide
      cases h
      exact .inl (getElem?_of_range listed range.1 (Nat.lt_succ_of_le range.2))
    · split at h
      · rename_i range
        have listed : ∀ i : Fin 6, capitalDigits[i.val + 10]? = some (Char.ofNat (i + 'A'.toNat)) := by
          decide
        cases h
        exact .inr (getElem?_of_range listed range.1 (Nat.lt_succ_of_le range.2))
      · cases h

theorem hexDigit?_eq_some_iff : hexDigit? c = some n ↔ HexDigit c n :=
  ⟨hexDigit_of_hexDigit?, hexDigit?_of_hexDigit⟩

theorem scalar?_eq_some_iff : scalar? n = some v ↔ v.toNat = n := by
  unfold scalar?
  constructor
  · intro h
    split at h
    · rename_i valid
      cases h
      rw [Char.ofNat, dif_pos valid]
      rfl
    · cases h
  · intro h
    have valid : n.isValidChar := h ▸ v.valid
    rw [if_pos valid, ← h, Char.ofNat_toNat]

theorem codePoint?_eq_some_iff {text : List Char} : codePoint? text = some v ↔
    ∃ a b c d rest, text = a :: b :: c :: d :: rest ∧ CodePoint a b c d v := by
  constructor
  · intro h
    unfold codePoint? at h
    split at h
    · rename_i a b c d rest
      obtain ⟨i, first, h⟩ := Option.bind_eq_some_iff.1 h
      obtain ⟨j, second, h⟩ := Option.bind_eq_some_iff.1 h
      obtain ⟨k, third, h⟩ := Option.bind_eq_some_iff.1 h
      obtain ⟨l, fourth, h⟩ := Option.bind_eq_some_iff.1 h
      rw [hexDigit?_eq_some_iff] at first second third fourth
      have value := scalar?_eq_some_iff.1 h
      exact ⟨a, b, c, d, rest, rfl, i, j, k, l, first, second, third, fourth, by omega⟩
    · cases h
  · intro h
    obtain ⟨a, b, c, d, rest, rfl, i, j, k, l, first, second, third, fourth, value⟩ := h
    rw [← hexDigit?_eq_some_iff] at first second third fourth
    have value : scalar? (((i * 16 + j) * 16 + k) * 16 + l) = some v :=
      scalar?_eq_some_iff.2 (by omega)
    simp only [codePoint?, first, second, third, fourth]
    exact value

theorem escapes_simpleEscape (other : c ≠ 'x') : Escapes c (simpleEscape c) := by
  unfold simpleEscape
  split
  · exact .newline
  · exact .tab
  · rename_i newline tab
    exact .itself newline tab other

end Symbol

theorem Escapes.eq_simpleEscape {c v : Char} (h : Escapes c v) : v = simpleEscape c := by
  cases h with
  | newline | tab => rfl
  | itself newline tab _ =>
    unfold simpleEscape
    split <;> first | contradiction | rfl

theorem Escapes.ne_x {c v : Char} (h : Escapes c v) : c ≠ 'x' := by
  cases h with
  | newline | tab => decide
  | itself _ _ other => exact other

namespace Piece

theorem isMeta_iff {c : Char} : isMeta c = true ↔ c ∈ operators := by
  constructor
  · intro special
    unfold isMeta at special
    split at special <;> first | decide | cases special
  · intro listed
    have all : operators.all isMeta = true := rfl
    exact List.all_eq_true.1 all c listed

theorem isNameChar_iff {c : Char} : isNameChar c = true ↔ Grammar.NameChar c := by
  rw [isNameChar, Bool.or_eq_true, beq_iff_eq, Grammar.NameChar]

end Piece

def glyphs (symbols : List Symbol) : List Glyph := symbols.map (·.glyph)

theorem glyphs_cons (s : Symbol) (rest : List Symbol) : glyphs (s :: rest) = s.glyph :: glyphs rest :=
  rfl

theorem read_escape (offset : Nat) (rest : List Char) :
    Symbol.read 0 offset ('\\' :: rest) =
      ⟨offset, (escapeAt rest).1⟩ :: Symbol.read (escapeAt rest).2 (offset + 1) rest := rfl

theorem lexed_read (offset : Nat) (text : List Char) :
    Lexed text (glyphs (Symbol.read 0 offset text)) := by
  match text with
  | [] => exact .done
  | c :: rest =>
    by_cases escape : c = '\\'
    · subst escape
      rw [read_escape]
      match rest with
      | [] => exact .dangling
      | d :: rest =>
        by_cases hex : d = 'x'
        · subst hex
          cases digits : codePoint? rest with
          | none =>
            have escaped : escapeAt ('x' :: rest) = (.escape 'x' none, 1) := by
              simp [escapeAt, digits]
            rw [escaped]
            refine .noCodePoint ?_ (lexed_read (offset + 1 + 1) rest)
            intro a b c d more v same number
            rw [codePoint?_eq_some_iff.2 ⟨a, b, c, d, more, same, number⟩] at digits
            cases digits
          | some v =>
            have escaped : escapeAt ('x' :: rest) = (.escape 'x' (some v), 5) := by
              simp [escapeAt, digits]
            rw [escaped]
            obtain ⟨a, b, c, d, rest, rfl, number⟩ := codePoint?_eq_some_iff.1 digits
            exact .codePoint number (lexed_read (offset + 1 + 1 + 1 + 1 + 1 + 1) rest)
        · have escaped : escapeAt (d :: rest) = (.escape d (some (simpleEscape d)), 1) := by
            simp [escapeAt, hex]
          rw [escaped]
          exact .escape (escapes_simpleEscape hex) (lexed_read (offset + 1 + 1) rest)
    · have cut : Symbol.read 0 offset (c :: rest) =
          ⟨offset, .plain c⟩ :: Symbol.read 0 (offset + 1) rest := by
        simp [Symbol.read, escape]
      rw [cut]
      exact .plain escape (lexed_read (offset + 1) rest)
termination_by text.length

end PatternGraph
