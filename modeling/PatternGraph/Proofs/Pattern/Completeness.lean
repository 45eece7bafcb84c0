import PatternGraph.Proofs.Pattern.Spelling
import PatternGraph.Proofs.Pattern.Uniqueness

/-!
What the grammar has at the front of a pattern, the readers of names, counts and classes take, and no
more of it.
-/
namespace PatternGraph
open Symbol Grammar

theorem glyphs_eq_cons {symbols : List Symbol} {g : Glyph} {gs : List Glyph}
    (h : glyphs symbols = g :: gs) :
    ∃ s rest, symbols = s :: rest ∧ s.glyph = g ∧ glyphs rest = gs := List.map_eq_cons_iff.1 h

namespace Grammar

theorem le_valueOf (digits : List Char) (n : Nat) :
    n ≤ digits.foldl (fun n c => n * 10 + (c.toNat - '0'.toNat)) n := by
  induction digits generalizing n with
  | nil => exact Nat.le_refl n
  | cons c digits ih =>
    rw [List.foldl_cons]
    have := ih (n * 10 + (c.toNat - '0'.toNat))
    omega

theorem Items.covered {gs after : List Glyph} {items : List (Char × Char)}
    (h : Items gs items after) (some : items ≠ []) : ∃ c, Covered items c := by
  cases h with
  | close => exact absurd rfl some
  | single _ _ _ _ => exact ⟨_, _, List.mem_cons_self, Char.le_refl _, Char.le_refl _⟩
  | range _ _ _ _ le _ => exact ⟨_, _, List.mem_cons_self, Char.le_refl _, le⟩

end Grammar

theorem CharSet.isEmpty_of_contains {set : CharSet} {c : Char} (member : set.contains c = true) :
    set.isEmpty = false := by
  rw [CharSet.contains] at member
  cases negated : set.negated with
  | true =>
    rw [isEmpty, negated, if_pos rfl, Bool.eq_false_iff]
    intro full
    rw [SegmentSet.contains_of_isFull full, negated] at member
    cases member
  | false =>
    rw [isEmpty, negated, Bool.eq_false_iff]
    intro empty
    rw [negated, Bool.bne_false, SegmentSet.contains, List.isEmpty_iff.1 empty] at member
    cases member

namespace Piece
variable (length : Nat) {symbols : List Symbol} {after : List Glyph}

def Takes {A : Type} (x : Except PatternError (A × List Symbol)) (after : List Glyph) : Prop :=
  ∃ a rest, x = .ok (a, rest) ∧ glyphs rest = after

theorem digit?_of_plain {s : Symbol} {c : Char} (plain : s.glyph = .plain c)
    (range : '0' ≤ c ∧ c ≤ '9') : digit? s = some (c.toNat - '0'.toNat) := by
  simp only [digit?, plain, decimalDigit?]
  exact if_pos range

theorem readDigits?_of_digits {digits : List Char} {n : Nat}
    (all : ∀ c ∈ digits, '0' ≤ c ∧ c ≤ '9') (text : glyphs symbols = digits.map .plain ++ after)
    (stops : Stops (fun c => '0' ≤ c ∧ c ≤ '9') after)
    (small : digits.foldl (fun n c => n * 10 + (c.toNat - '0'.toNat)) n ≤ Repetition.maxFinite) :
    ∃ rest, readDigits? n symbols =
        some (digits.foldl (fun n c => n * 10 + (c.toNat - '0'.toNat)) n, rest) ∧
      glyphs rest = after := by
  induction digits generalizing n symbols with
  | nil =>
    refine ⟨symbols, ?_, text⟩
    cases symbols with
    | nil => rfl
    | cons s rest =>
      have last : digit? s = none := by
        apply Option.eq_none_iff_forall_ne_some.2
        intro d digit
        obtain ⟨c, plain, range, _⟩ := digit?_eq_some digit
        rw [glyphs_cons, plain] at text
        exact stops c (by rw [← List.nil_append after, ← List.map_nil, ← text]; rfl) range
      rw [readDigits?, last]
      rfl
  | cons c digits ih =>
    obtain ⟨s, rest, rfl, plain, text⟩ := glyphs_eq_cons text
    rw [List.forall_mem_cons] at all
    rw [List.foldl_cons] at small ⊢
    have next := Nat.le_trans (le_valueOf digits _) small
    rw [readDigits?, digit?_of_plain plain all.1]
    simp only [next, if_true]
    exact ih all.2 text small

theorem readCount_of_count {n : Nat} (count : Count (glyphs symbols) n after)
    (stops : Stops (fun c => '0' ≤ c ∧ c ≤ '9') after) :
    ∃ rest, readCount length symbols = .ok (UInt32.ofNat n, rest) ∧ glyphs rest = after := by
  obtain ⟨digits, some, all, text, rfl, small⟩ := count
  cases digits with
  | nil => exact absurd rfl some
  | cons c digits =>
    obtain ⟨s, rest, rfl, plain, text⟩ := glyphs_eq_cons text
    rw [List.forall_mem_cons] at all
    have first : (0 * 10 + (c.toNat - '0'.toNat)) = c.toNat - '0'.toNat := by omega
    rw [valueOf, List.foldl_cons, first] at small ⊢
    obtain ⟨last, read, text⟩ := readDigits?_of_digits all.2 text stops small
    refine ⟨last, ?_, text⟩
    simp only [readCount, digit?_of_plain plain all.1, read]

theorem readBrace_of_brace (r : Repetition) (text : glyphs symbols = .plain '}' :: after) :
    ∃ rest, readBrace length r symbols = .ok (r, rest) ∧ glyphs rest = after := by
  obtain ⟨s, rest, rfl, brace, text⟩ := glyphs_eq_cons text
  exact ⟨rest, if_pos (isPlain_iff.2 brace), text⟩

theorem not_readBrace_of_count {n : Nat} (r : Repetition) (count : Count (glyphs symbols) n after) :
    ∃ e, readBrace length r symbols = .error e := by
  cases read : readBrace length r symbols with
  | error e => exact ⟨e, rfl⟩
  | ok found =>
    obtain ⟨_, brace⟩ := brace_of_readBrace read
    rw [brace] at count
    exact count.not_brace.elim

theorem readUpper_of_brace (m : Nat) (text : glyphs symbols = .plain '}' :: after) :
    ∃ rest, readUpper length (.ofNat m) symbols = .ok ((⟨m, none⟩ : Bounds).repetition, rest) ∧
      glyphs rest = after := by
  obtain ⟨rest, read, text⟩ := readBrace_of_brace length (.atLeast (.ofNat m)) text
  refine ⟨rest, ?_, text⟩
  rw [readUpper, read]
  rfl

theorem readUpper_of_count {m n : Nat} (count : Count (glyphs symbols) n (.plain '}' :: after))
    (le : m ≤ n) :
    ∃ rest, readUpper length (.ofNat m) symbols = .ok ((⟨m, some n⟩ : Bounds).repetition, rest) ∧
      glyphs rest = after := by
  have small := count.le_maxFinite
  simp only [Repetition.maxFinite] at small
  have size : UInt32.size = 4294967296 := rfl
  have ordered : ¬ UInt32.ofNat n < UInt32.ofNat m := by
    rw [UInt32.lt_iff_toNat_lt, UInt32.toNat_ofNat_of_lt' (by omega),
      UInt32.toNat_ofNat_of_lt' (by omega)]
    exact Nat.not_lt.2 le
  obtain ⟨e, refused⟩ :=
    not_readBrace_of_count length (.atLeast (UInt32.ofNat m)) count
  obtain ⟨rest, read, text⟩ := readCount_of_count length count (stops_brace _)
  obtain ⟨last, closed, text⟩ := readBrace_of_brace length
    (.between (UInt32.ofNat m) (UInt32.ofNat n)) text
  simp only [readUpper, refused, read, ordered, if_false]
  exact ⟨last, closed, text⟩

theorem readBounds_of_count {n : Nat} {c : Char} (stops : ¬ ('0' ≤ c ∧ c ≤ '9'))
    (count : Count (glyphs symbols) n (.plain c :: after)) :
    ∃ s rest, s.glyph = .plain c ∧ glyphs rest = after ∧ readBounds length symbols =
      if s.isPlain ',' then readUpper length (UInt32.ofNat n) rest
      else readBrace length (.exactly (UInt32.ofNat n)) (s :: rest) := by
  obtain ⟨rest, read, text⟩ := readCount_of_count length count (by
    rintro c' ⟨⟩
    exact stops)
  obtain ⟨s, rest, rfl, plain, text⟩ := glyphs_eq_cons text
  refine ⟨s, rest, plain, text, ?_⟩
  simp only [readBounds, read]

theorem readQuantifier_of_quantifier {b : Bounds}
    (quantifier : Quantifier (glyphs symbols) b after) :
    ∃ rest, readQuantifier length symbols = .ok (b.repetition, rest) ∧ glyphs rest = after := by
  generalize text : glyphs symbols = gs at quantifier
  cases quantifier with
  | star =>
    obtain ⟨s, rest, rfl, star, text⟩ := glyphs_eq_cons text
    refine ⟨rest, ?_, text⟩
    simp only [readQuantifier, star]
    rfl
  | plus =>
    obtain ⟨s, rest, rfl, plus, text⟩ := glyphs_eq_cons text
    refine ⟨rest, ?_, text⟩
    simp only [readQuantifier, plus]
    rfl
  | @exactly _ n _ count =>
    obtain ⟨s, rest, rfl, brace, rfl⟩ := glyphs_eq_cons text
    obtain ⟨t, rest', closing, text, read⟩ := readBounds_of_count length (by decide) count
    have other : t.isPlain ',' = false := by simp [isPlain, closing]
    obtain ⟨last, closed, text⟩ := readBrace_of_brace length
      (.exactly (UInt32.ofNat n)) (show glyphs (t :: rest') = _ by rw [glyphs_cons, closing, text])
    simp only [readQuantifier, brace, read, other, Bool.false_eq_true, if_false]
    exact ⟨last, closed, text⟩
  | atLeast count =>
    obtain ⟨s, rest, rfl, brace, rfl⟩ := glyphs_eq_cons text
    obtain ⟨t, rest', comma, text, read⟩ := readBounds_of_count length (by decide) count
    simp only [readQuantifier, brace, read, isPlain_iff.2 comma, if_true]
    exact readUpper_of_brace length _ text
  | between count count' le =>
    obtain ⟨s, rest, rfl, brace, rfl⟩ := glyphs_eq_cons text
    obtain ⟨t, rest', comma, rfl, read⟩ := readBounds_of_count length (by decide) count
    simp only [readQuantifier, brace, read, isPlain_iff.2 comma, if_true]
    exact readUpper_of_count length count' le

theorem nameChar?_eq_some {s : Symbol} {c : Char} :
    nameChar? s = some c ↔ s.glyph = .plain c ∧ NameChar c := by
  unfold nameChar?
  split
  · rename_i c' plain
    rw [plain, Glyph.plain.injEq]
    split
    · rename_i name
      rw [Option.some.injEq]
      exact ⟨fun same => ⟨same, same ▸ isNameChar_iff.1 name⟩, fun h => h.1⟩
    · rename_i other
      exact ⟨nofun, fun h => absurd (isNameChar_iff.2 (h.1 ▸ h.2)) other⟩
  · rename_i other
    exact ⟨nofun, fun h => absurd h.1 (other c)⟩

theorem readNameChars_of_name {cs : List Char} (all : ∀ c ∈ cs, NameChar c)
    (text : glyphs symbols = cs.map .plain ++ after) (stops : Stops NameChar after) :
    ∃ rest, readNameChars symbols = (cs, rest) ∧ glyphs rest = after := by
  induction cs generalizing symbols with
  | nil =>
    refine ⟨symbols, ?_, text⟩
    cases symbols with
    | nil => rfl
    | cons s rest =>
      have last : nameChar? s = none := by
        apply Option.eq_none_iff_forall_ne_some.2
        intro c name
        obtain ⟨plain, name⟩ := nameChar?_eq_some.1 name
        rw [List.map_nil, List.nil_append, glyphs_cons, plain] at text
        exact stops c (by rw [← text]; rfl) name
      rw [readNameChars, last]
  | cons c cs ih =>
    obtain ⟨s, rest, rfl, plain, text⟩ := glyphs_eq_cons text
    rw [List.forall_mem_cons] at all
    obtain ⟨last, read, text⟩ := ih all.2 text
    refine ⟨last, ?_, text⟩
    rw [readNameChars, nameChar?_eq_some.2 ⟨plain, all.1⟩, read]

theorem readName_of_name {name : String} (h : Name (glyphs symbols) name after) :
    ∃ rest, readName length symbols = .ok (name, rest) ∧ glyphs rest = after := by
  obtain ⟨cs, some, all, rfl, text⟩ := h
  obtain ⟨s, rest, rfl, opening, text⟩ := glyphs_eq_cons text
  have stops : Stops NameChar (.plain '>' :: after) := by
    rintro c ⟨⟩
    decide +kernel
  obtain ⟨rest', read, text⟩ := readNameChars_of_name all text stops
  obtain ⟨t, last, rfl, closing, text⟩ := glyphs_eq_cons text
  refine ⟨last, ?_, text⟩
  simp only [readName, isPlain_iff.2 opening, if_true, read, isPlain_iff.2 closing]
  simp [some]

theorem rangeEnd?_of_range {dash t : Symbol} {rest : List Symbol} (minus : dash.glyph = .plain '-')
    (other : t.glyph ≠ .plain ']') : rangeEnd? (dash :: t :: rest) = some t := by
  have other : t.isPlain ']' = false := by simpa [isPlain] using other
  rw [rangeEnd?, isPlain_iff.2 minus, other]
  rfl

theorem readItems_closed (start : Nat) (set : CharSet) (found : Bool) {items : List (Char × Char)}
    (h : Items (glyphs symbols) items after) :
    ∃ set' rest, glyphs rest = after ∧ set'.negated = set.negated ∧
      (∀ c, set'.inner.contains c = true ↔ Covered items c ∨ set.inner.contains c = true) ∧
      readItems start set found 0 symbols =
        if (found || !items.isEmpty) && !set'.isEmpty then .ok (set', rest)
        else .error (.here .emptyClass start) := by
  generalize text : glyphs symbols = gs at h
  induction h generalizing symbols set found with
  | close =>
    obtain ⟨s, rest, rfl, bracket, text⟩ := glyphs_eq_cons text
    refine ⟨set, rest, text, rfl, fun c => by simp [Covered], ?_⟩
    simp [readItems, isPlain_iff.2 bracket]
  | @single g c gs items after other value last _ ih =>
    obtain ⟨s, rest, rfl, rfl, rfl⟩ := glyphs_eq_cons text
    have inner : s.isPlain ']' = false := by simpa [isPlain] using other
    have alone : rangeEnd? rest = none := by
      apply Option.eq_none_iff_forall_ne_some.2
      intro t range
      obtain ⟨dash, more, rfl, minus, bracket⟩ := rangeEnd?_eq_some range
      exact bracket (last t.glyph (glyphs more) (by rw [glyphs_cons, glyphs_cons, minus]))
    have value : s.value? = Option.some c := value
    obtain ⟨set', rest', ends, negated, contains, read⟩ := ih (set.add c) true rfl
    refine ⟨set', rest', ends, negated, fun x => ?_, ?_⟩
    · rw [contains, covered_cons, CharSet.add, SegmentSet.add,
        SegmentSet.contains_addRange (Nat.le_refl _), rank_le_iff, rank_le_iff]
      exact or_left_comm.trans or_assoc.symm
    · simpa only [readItems, inner, value, alone, Bool.false_eq_true, if_false, Bool.true_or,
        List.isEmpty_cons, Bool.not_false, Bool.or_true] using read
  | @range g low h high gs items after other value other' value' le _ ih =>
    obtain ⟨s, _, rfl, rfl, dashed⟩ := glyphs_eq_cons text
    obtain ⟨dash, _, rfl, minus, text⟩ := glyphs_eq_cons dashed
    obtain ⟨t, rest, rfl, rfl, rfl⟩ := glyphs_eq_cons text
    have inner : s.isPlain ']' = false := by simpa [isPlain] using other
    have value : s.value? = Option.some low := value
    have value' : t.value? = Option.some high := value'
    obtain ⟨set', rest', ends, negated, contains, read⟩ :=
      ih (set.addRange low high) true rfl
    refine ⟨set', rest', ends, negated, fun x => ?_, ?_⟩
    · rw [contains, covered_cons, contains_addRange_inner le]
      exact or_left_comm.trans or_assoc.symm
    · simpa only [readItems, inner, value, rangeEnd?_of_range minus other', value', le,
        Bool.false_eq_true, if_false, if_true, Bool.true_or, List.isEmpty_cons, Bool.not_false,
        Bool.or_true] using read

theorem readItems_of_items {start : Nat} {set : CharSet} {items : List (Char × Char)}
    (h : Items (glyphs symbols) items after) (some : items ≠ [])
    (member : ∃ c, (Covered items c ∨ set.inner.contains c = true) ↔ set.negated = false) :
    Takes (readItems start set false 0 symbols) after := by
  obtain ⟨set', rest, ends, negated, contains, read⟩ := readItems_closed start set false h
  obtain ⟨c, member⟩ := member
  have inside : set'.contains c = true := by
    rw [← contains] at member
    rw [CharSet.contains, negated]
    cases same : set.negated <;> simpa [same] using member
  refine ⟨set', rest, ?_, ends⟩
  rw [read, if_pos]
  simp [some, CharSet.isEmpty_of_contains inside]

theorem readClass_of_class {start : Nat} {fits : Char → Bool}
    (h : Class (glyphs symbols) fits after) : Takes (readClass start symbols) after := by
  generalize text : glyphs symbols = gs at h
  cases h with
  | @union _ items _ _ plain inner some _ =>
    subst text
    have member : ∃ c, (Covered items c ∨ CharSet.empty.inner.contains c = true) ↔
        CharSet.empty.negated = false := by
      obtain ⟨c, covered⟩ := inner.covered some
      exact ⟨c, iff_of_true (.inl covered) rfl⟩
    have read : Takes (readItems start .empty false 0 symbols) _ :=
      readItems_of_items inner some member
    cases symbols with
    | nil => exact read
    | cons s rest =>
      have other : s.isPlain '^' = false := by
        simpa [glyphs_cons, isPlain] using plain
      simp only [readClass, other, Bool.false_eq_true, if_false]
      exact read
  | @complement _ items _ _ inner some covers outside =>
    obtain ⟨s, rest, rfl, caret, rfl⟩ := glyphs_eq_cons text
    have member : ∃ c, (Covered items c ∨ CharSet.all.inner.contains c = true) ↔
        CharSet.all.negated = false := by
      obtain ⟨c, fits⟩ := outside
      refine ⟨c, iff_of_false ?_ Bool.noConfusion⟩
      rintro (covered | none)
      · exact (covers c).1 fits covered
      · cases none
    rw [readClass, if_pos (isPlain_iff.2 caret)]
    exact readItems_of_items inner some member

end Piece

end PatternGraph
