import PatternGraph.Proofs.Interval.Canonical
import PatternGraph.Proofs.Pattern.Completeness
import PatternGraph.Proofs.Pattern.Derivation
import PatternGraph.Proofs.Pattern.Skimming

/-!
Classes in full: what is in the set that is read off a class, when a class is refused for matching
nothing, and where it ends. The reader of a class and the search for its closing bracket go over the text
independently of each other, and the search does not decode escapes.
-/
namespace PatternGraph
open Symbol Pairing Grammar

theorem CharSet.isEmpty_eq_false_iff {set : CharSet} :
    set.isEmpty = false ↔ ∃ c, set.contains c = true := by
  constructor
  · intro some
    rw [isEmpty] at some
    simp only [contains]
    split at some
    · rename_i negated
      obtain ⟨c, missing⟩ := SegmentSet.exists_not_contains some
      exact ⟨c, by rw [missing, negated]; rfl⟩
    · rename_i plain
      cases front : set.inner.segments with
      | nil => simp [SegmentSet.isEmpty, front] at some
      | cons s rest =>
        refine ⟨s.low, ?_⟩
        rw [SegmentSet.contains_iff.2 ⟨s, by simp [front], s.contains_low⟩,
          Bool.eq_false_iff.2 plain]
        rfl
  · rintro ⟨c, member⟩
    exact isEmpty_of_contains member

namespace Grammar

/-- The class whose opening bracket the text comes after: whether a caret negates it, its items, and
what follows the bracket that closes it. -/
def ClassText (text : List Char) (negated : Bool) (items : List (Char × Char)) (after : List Glyph) :
    Prop :=
  ∃ gs, Lexed text (if negated then .plain '^' :: gs else gs) ∧
    (negated = false → gs.head? ≠ some (.plain '^')) ∧ Items gs items after

def Within (negated : Bool) (items : List (Char × Char)) (c : Char) : Prop :=
  Covered items c ↔ negated = false

end Grammar

namespace Piece

def Closes {A : Type} : Except PatternError A → Prop
  | .ok _ => True
  | .error e => e.cause = .emptyClass

theorem items_of_closes {start : Nat} {set : CharSet} {found : Bool} {symbols : List Symbol}
    (h : Closes (readItems start set found 0 symbols)) :
    ∃ items after, Items (glyphs symbols) items after := by
  match symbols with
  | [] => cases h
  | s :: rest =>
    simp only [readItems] at h
    split at h
    · rename_i bracket
      refine ⟨[], glyphs rest, ?_⟩
      rw [glyphs_cons, isPlain_iff.1 bracket]
      exact .close
    · rename_i other
      rw [isPlain_iff] at other
      split at h
      · cases h
      · rename_i low value
        split at h
        · rename_i alone
          obtain ⟨items, after, text⟩ := items_of_closes h
          exact ⟨_, after, .single other value (rangeEnd?_eq_none alone) text⟩
        · rename_i t range
          obtain ⟨dash, more, rfl, minus, bracket⟩ := rangeEnd?_eq_some range
          split at h
          · cases h
          · rename_i high value'
            split at h
            · rename_i le
              have h : Closes (readItems start (set.addRange low high) true 0 more) := h
              obtain ⟨items, after, text⟩ := items_of_closes h
              refine ⟨(low, high) :: items, after, ?_⟩
              simp only [glyphs_cons, minus]
              exact .range other value bracket value' le text
            · cases h
termination_by symbols.length

theorem classText_of_closes {start offset : Nat} {text : List Char}
    (h : Closes (readClass start (Symbol.read 0 offset text))) :
    ∃ negated items after, ClassText text negated items after := by
  have lexed := lexed_read offset text
  generalize Symbol.read 0 offset text = symbols at h lexed
  unfold readClass at h
  split at h
  · cases h
  · rename_i s rest
    split at h
    · rename_i caret
      rw [glyphs_cons, isPlain_iff.1 caret] at lexed
      obtain ⟨items, after, inner⟩ := items_of_closes h
      exact ⟨true, items, after, glyphs rest, lexed, by simp, inner⟩
    · rename_i other
      obtain ⟨items, after, inner⟩ := items_of_closes h
      refine ⟨false, items, after, _, lexed, fun _ => ?_, inner⟩
      simpa [glyphs_cons, isPlain_iff] using other

theorem readClass_closed (start offset : Nat) {text : List Char} {negated : Bool}
    {items : List (Char × Char)} {after : List Glyph} (h : ClassText text negated items after) :
    ∃ set rest, glyphs rest = after ∧ (∀ c, set.contains c = true ↔ Within negated items c) ∧
      readClass start (Symbol.read 0 offset text) =
        if !items.isEmpty && !set.isEmpty then .ok (set, rest)
        else .error (.here .emptyClass start) := by
  obtain ⟨gs, lexed, plain, inner⟩ := h
  have text := (lexed_read offset text).unique lexed
  generalize Symbol.read 0 offset _ = symbols at text
  have within {set : CharSet} (same : set.negated = negated)
      (contains : ∀ c, set.inner.contains c = true ↔ Covered items c ∨ false = true) (c : Char) :
      set.contains c = true ↔ Within negated items c := by
    have contains := contains c
    rw [Bool.false_eq_true, or_false] at contains
    rw [CharSet.contains, same, Within, ← contains]
    cases negated <;> cases set.inner.contains c <;> simp
  cases negated with
  | true =>
    obtain ⟨s, rest, rfl, caret, rfl⟩ := glyphs_eq_cons text
    obtain ⟨set, rest', ends, negated, contains, read⟩ := readItems_closed start .all false inner
    refine ⟨set, rest', ends, within negated contains, ?_⟩
    rw [readClass, if_pos (isPlain_iff.2 caret)]
    exact read
  | false =>
    obtain rfl : glyphs symbols = gs := text
    obtain ⟨set, rest', ends, negated, contains, read⟩ := readItems_closed start .empty false inner
    refine ⟨set, rest', ends, within negated contains, ?_⟩
    cases symbols with
    | nil => exact read
    | cons s rest =>
      have other : ¬ s.isPlain '^' = true := by
        have := plain rfl
        simpa [glyphs_cons, isPlain] using this
      rw [readClass, if_neg other]
      exact read

end Piece

namespace Pairing

/-- Where the first bracket is that no backslash precedes, and the text after it. A backslash hides the
one character that follows it. -/
def bracketFrom? (offset : Nat) : List Char → Option (Nat × List Char)
  | [] => none
  | '\\' :: _ :: rest => bracketFrom? (offset + 2) rest
  | c :: rest => if c = ']' then some (offset, rest) else bracketFrom? (offset + 1) rest

def bracketAfter? (start : Nat) : List Char → Option (Nat × List Char)
  | '^' :: rest => bracketFrom? (start + 2) rest
  | text => bracketFrom? (start + 1) text

theorem bracketFrom?_plain {c : Char} (plain : c ≠ '\\') (offset : Nat) (rest : List Char) :
    bracketFrom? offset (c :: rest) =
      if c = ']' then some (offset, rest) else bracketFrom? (offset + 1) rest := by
  rw [bracketFrom?]
  rintro d more rfl
  exact absurd rfl plain

theorem bracketAfter?_eq (start : Nat) (text : List Char) :
    bracketAfter? start text = bracketFrom? (start + 1) text := by
  unfold bracketAfter?
  split
  · rw [bracketFrom?_plain (by decide), if_neg (by decide)]
  · rfl

theorem bracketFrom?_hexDigit {c : Char} {n : Nat} (digit : hexDigit? c = some n) (offset : Nat)
    (rest : List Char) : bracketFrom? offset (c :: rest) = bracketFrom? (offset + 1) rest := by
  have plain : c ≠ '\\' := by
    rintro rfl
    cases digit
  have other : c ≠ ']' := by
    rintro rfl
    cases digit
  rw [bracketFrom?_plain plain, if_neg other]

theorem length_of_bracketFrom? {offset k : Nat} {text rest : List Char}
    (h : bracketFrom? offset text = some (k, rest)) :
    k + 1 + rest.length = offset + text.length := by
  fun_induction bracketFrom? offset text with
  | case1 => cases h
  | case2 offset d more ih =>
    have := ih h
    simp only [List.length_cons]
    omega
  | case3 offset more other =>
    cases h
    simp only [List.length_cons]
    omega
  | case4 offset c more other bracket ih =>
    have := ih h
    simp only [List.length_cons]
    omega

theorem hexDigits_of_codePoint? {text : List Char} {v : Char} (h : codePoint? text = some v) :
    ∃ a b c d rest, text = a :: b :: c :: d :: rest ∧ (∃ n, hexDigit? a = some n) ∧
      (∃ n, hexDigit? b = some n) ∧ (∃ n, hexDigit? c = some n) ∧ ∃ n, hexDigit? d = some n := by
  unfold codePoint? at h
  split at h
  · rename_i a b c d rest
    obtain ⟨i, first, h⟩ := Option.bind_eq_some_iff.1 h
    obtain ⟨j, second, h⟩ := Option.bind_eq_some_iff.1 h
    obtain ⟨k, third, h⟩ := Option.bind_eq_some_iff.1 h
    obtain ⟨l, fourth, _⟩ := Option.bind_eq_some_iff.1 h
    exact ⟨a, b, c, d, rest, rfl, ⟨i, first⟩, ⟨j, second⟩, ⟨k, third⟩, l, fourth⟩
  · cases h

theorem length_escapeAt (c : Char) (rest : List Char) :
    (escapeAt (c :: rest)).2 = 1 ∨ ∃ i j k l more, rest = i :: j :: k :: l :: more ∧
      (∀ d ∈ [i, j, k, l], ∃ n, hexDigit? d = some n) ∧ (escapeAt (c :: rest)).2 = 5 := by
  by_cases hex : c = 'x'
  · subst hex
    cases digits : codePoint? rest with
    | none => exact .inl (by simp [escapeAt, digits])
    | some v =>
      obtain ⟨i, j, k, l, more, rfl, first, second, third, fourth⟩ := hexDigits_of_codePoint? digits
      refine .inr ⟨i, j, k, l, more, rfl, ?_, by simp [escapeAt, digits]⟩
      simp [first, second, third, fourth]
  · exact .inl (by simp [escapeAt, hex])

/-- A search that does not decode an escape passes it all the same: the digits of a code point are no
brackets. -/
theorem bracketFrom?_escape (offset : Nat) (rest : List Char) :
    bracketFrom? offset ('\\' :: rest) =
      bracketFrom? (offset + 1 + (escapeAt rest).2) (rest.drop (escapeAt rest).2) := by
  rcases rest with _ | ⟨c, rest⟩
  · rfl
  · rw [bracketFrom?]
    rcases length_escapeAt c rest with single | ⟨i, j, k, l, more, rfl, digits, whole⟩
    · rw [single]
      rfl
    · simp only [List.forall_mem_cons] at digits
      obtain ⟨⟨_, first⟩, ⟨_, second⟩, ⟨_, third⟩, ⟨_, fourth⟩, _⟩ := digits
      rw [whole, bracketFrom?_hexDigit first, bracketFrom?_hexDigit second,
        bracketFrom?_hexDigit third, bracketFrom?_hexDigit fourth]
      rfl

theorem not_isPlain_escapeAt (offset : Nat) (rest : List Char) (c : Char) :
    ¬ isPlain ⟨offset, (escapeAt rest).1⟩ c = true := by
  rw [isPlain_iff]
  unfold escapeAt
  split
  · simp
  · split
    · split <;> simp
    · simp

theorem read_skip (skip offset : Nat) (text : List Char) :
    Symbol.read skip offset text = Symbol.read 0 (offset + skip) (text.drop skip) := by
  induction text generalizing skip offset with
  | nil => simp [Symbol.read]
  | cons c rest ih =>
    cases skip with
    | zero => rfl
    | succ k =>
      rw [List.drop_succ_cons, show offset + (k + 1) = offset + 1 + k by omega, ← ih]
      rfl

/-- The bracket is found whether the escapes have been decoded or not. -/
theorem classEnd?_read (offset : Nat) (text : List Char) :
    classEnd? (Symbol.read 0 offset text) =
      (bracketFrom? offset text).map fun found => (found.1, Symbol.read 0 (found.1 + 1) found.2) := by
  induction length : text.length using Nat.strongRecOn generalizing offset text with
  | ind n ih =>
    subst length
    rcases text with _ | ⟨c, rest⟩
    · rfl
    · by_cases escape : c = '\\'
      · subst escape
        rw [read_escape, classEnd?, if_neg (not_isPlain_escapeAt offset rest ']'), read_skip,
          bracketFrom?_escape]
        have shorter : (rest.drop (escapeAt rest).2).length < rest.length + 1 := by
          rw [List.length_drop]
          omega
        exact ih _ shorter _ _ rfl
      · have cut : Symbol.read 0 offset (c :: rest) =
            ⟨offset, .plain c⟩ :: Symbol.read 0 (offset + 1) rest := by
          simp [Symbol.read, escape]
        rw [cut, bracketFrom?_plain escape, classEnd?]
        by_cases bracket : c = ']'
        · rw [if_pos (isPlain_iff.2 (by rw [bracket])), if_pos bracket]
          rfl
        · rw [if_neg (by simp [isPlain, bracket]), if_neg bracket]
          exact ih rest.length (by simp) (offset + 1) rest rfl

theorem offsetOf_read (offset : Nat) (text : List Char) :
    Piece.offsetOf (offset + text.length) (Symbol.read 0 offset text) = offset := by
  cases text with
  | nil => rfl
  | cons c rest =>
    rw [Symbol.read]
    split <;> rfl

end Pairing

section Reading
variable {start : Nat} {text : List Char} {set : CharSet} {after : List Symbol}

theorem complete_iff {negated : Bool} {items : List (Char × Char)}
    (contains : ∀ c, set.contains c = true ↔ Within negated items c) :
    (!items.isEmpty && !set.isEmpty) = true ↔ items ≠ [] ∧ ∃ c, Within negated items c := by
  rw [Bool.and_eq_true, Bool.not_eq_true', Bool.not_eq_true', List.isEmpty_eq_false_iff,
    CharSet.isEmpty_eq_false_iff]
  simp only [contains]

theorem classText_of_readClass
    (read : Piece.readClass start (Symbol.read 0 (start + 1) text) = .ok (set, after)) :
    ∃ negated items, ClassText text negated items (glyphs after) ∧ items ≠ [] ∧
      (∃ c, Within negated items c) ∧ ∀ c, set.contains c = true ↔ Within negated items c := by
  obtain ⟨negated, items, _, whole⟩ := Piece.classText_of_closes (by rw [read]; trivial)
  obtain ⟨set', rest, rfl, contains, read'⟩ := Piece.readClass_closed start (start + 1) whole
  rw [read'] at read
  split at read
  · rename_i complete
    cases read
    obtain ⟨some, member⟩ := (complete_iff contains).1 complete
    exact ⟨negated, items, whole, some, member, contains⟩
  · cases read

theorem bracket_of_readClass
    (read : Piece.readClass start (Symbol.read 0 (start + 1) text) = .ok (set, after)) :
    ∃ close rest, bracketAfter? start text = some (close, rest) ∧
      classEnd? (Symbol.read 0 (start + 1) text) = some (close, after) ∧
      after = Symbol.read 0 (close + 1) rest ∧
      Piece.offsetOf (start + 1 + text.length) after = close + 1 := by
  have ends := Piece.endsClass_readClass start (Symbol.read 0 (start + 1) text)
  rw [read] at ends
  obtain ⟨k, ends⟩ := ends
  have found := classEnd?_read (start + 1) text
  rw [ends] at found
  obtain ⟨⟨close, rest⟩, bracket, same⟩ := Option.map_eq_some_iff.1 found.symm
  cases same
  have length := length_of_bracketFrom? bracket
  refine ⟨close, rest, (bracketAfter?_eq start text).trans bracket, ends, rfl, ?_⟩
  rw [← length, offsetOf_read]

theorem readClass_accepts_iff :
    (∃ set after, Piece.readClass start (Symbol.read 0 (start + 1) text) = .ok (set, after)) ↔
      ∃ negated items after, ClassText text negated items after ∧ items ≠ [] ∧
        ∃ c, Within negated items c := by
  constructor
  · rintro ⟨set, after, read⟩
    obtain ⟨negated, items, whole, some, member, _⟩ := classText_of_readClass read
    exact ⟨negated, items, _, whole, some, member⟩
  · rintro ⟨negated, items, after, whole, complete⟩
    obtain ⟨set, rest, _, contains, read⟩ := Piece.readClass_closed start (start + 1) whole
    exact ⟨set, rest, by rw [read, if_pos ((complete_iff contains).2 complete)]⟩

theorem readClass_emptyClass_iff {offset : Option Nat} :
    Piece.readClass start (Symbol.read 0 (start + 1) text) = .error ⟨.emptyClass, offset⟩ ↔
      offset = some start ∧ ∃ negated items after, ClassText text negated items after ∧
        (items = [] ∨ ∀ c, ¬ Within negated items c) := by
  have nothing_iff {negated : Bool} {items : List (Char × Char)} :
      (items = [] ∨ ∀ c, ¬ Within negated items c) ↔
        ¬ (items ≠ [] ∧ ∃ c, Within negated items c) := by
    rw [Classical.not_and_iff_not_or_not, Classical.not_not, not_exists]
  simp only [nothing_iff]
  constructor
  · intro read
    obtain ⟨negated, items, after, whole⟩ := Piece.classText_of_closes (by rw [read]; rfl)
    obtain ⟨set, rest, _, contains, read'⟩ := Piece.readClass_closed start (start + 1) whole
    rw [read'] at read
    split at read
    · cases read
    · rename_i incomplete
      cases read
      rw [complete_iff contains] at incomplete
      exact ⟨rfl, negated, items, after, whole, incomplete⟩
  · rintro ⟨rfl, negated, items, after, whole, nothing⟩
    obtain ⟨set, rest, _, contains, read⟩ := Piece.readClass_closed start (start + 1) whole
    rw [← complete_iff contains] at nothing
    rw [read, if_neg nothing]
    rfl

end Reading

/-- What a class is read as, at any place of a pattern. If it is accepted, its set contains the characters
that it denotes, and it ends where the search for its bracket says. It is refused for matching nothing if
it is well formed, but has no items or denotes no character. -/
theorem readClass_denotes (start : Nat) (text : List Char) :
    (∀ set after, Piece.readClass start (Symbol.read 0 (start + 1) text) = .ok (set, after) →
      (∃ negated items, ClassText text negated items (glyphs after) ∧
        ∀ c, set.contains c = true ↔ Within negated items c) ∧
      ∃ close rest, bracketAfter? start text = some (close, rest) ∧
        classEnd? (Symbol.read 0 (start + 1) text) = some (close, after) ∧
        after = Symbol.read 0 (close + 1) rest ∧
        Piece.offsetOf (start + 1 + text.length) after = close + 1) ∧
    ((∃ set after, Piece.readClass start (Symbol.read 0 (start + 1) text) = .ok (set, after)) ↔
      ∃ negated items after, ClassText text negated items after ∧ items ≠ [] ∧
        ∃ c, Within negated items c) ∧
    ∀ offset, Piece.readClass start (Symbol.read 0 (start + 1) text) = .error ⟨.emptyClass, offset⟩ ↔
      offset = some start ∧ ∃ negated items after, ClassText text negated items after ∧
        (items = [] ∨ ∀ c, ¬ Within negated items c) := by
  constructor
  · intro set after read
    constructor
    · obtain ⟨negated, items, whole, _, _, contains⟩ := classText_of_readClass read
      exact ⟨negated, items, whole, contains⟩
    · exact bracket_of_readClass read
  · exact ⟨readClass_accepts_iff, fun _ => readClass_emptyClass_iff⟩

/-- A dash is an item of its own after a backslash and before the closing bracket. -/
example : (Piece.readClass 3 (Symbol.read 0 4 "a-c\\-e-]+".toList)).toOption.map
      (fun read => (read.1.inner.segments.map fun s => (s.low, s.high), read.2)) =
    some ([('-', '-'), ('a', 'c'), ('e', 'e')], [⟨12, .plain '+'⟩]) := by decide +kernel

end PatternGraph
