import PatternGraph.Proofs.Pattern.Layout
import PatternGraph.Proofs.Pattern.Lexing

/-!
What the readers of names, counts, classes and runs take from the front of a pattern is what the
grammar has for it.
-/
namespace PatternGraph
open Symbol Grammar

theorem Symbol.isPlain_iff {s : Symbol} {c : Char} : s.isPlain c = true ↔ s.glyph = .plain c := by
  simp [isPlain]

theorem Grammar.Count.le_maxFinite {gs after : List Glyph} {n : Nat} (h : Count gs n after) :
    n ≤ Repetition.maxFinite := by
  obtain ⟨_, _, _, _, _, small⟩ := h
  exact small

namespace Piece

theorem digit?_eq_some {s : Symbol} {d : Nat} (h : digit? s = some d) :
    ∃ c, s.glyph = .plain c ∧ ('0' ≤ c ∧ c ≤ '9') ∧ d = c.toNat - '0'.toNat := by
  unfold digit? at h
  split at h
  · rename_i c plain
    unfold decimalDigit? at h
    split at h
    · rename_i range
      cases h
      exact ⟨c, plain, range, rfl⟩
    · cases h
  · cases h

theorem digits_of_readDigits? {n m : Nat} {symbols after : List Symbol}
    (h : readDigits? n symbols = some (m, after)) (small : n ≤ Repetition.maxFinite) :
    ∃ cs : List Char, (∀ c ∈ cs, '0' ≤ c ∧ c ≤ '9') ∧
      glyphs symbols = cs.map .plain ++ glyphs after ∧
      m = cs.foldl (fun n c => n * 10 + (c.toNat - '0'.toNat)) n ∧ m ≤ Repetition.maxFinite := by
  induction symbols generalizing n with
  | nil =>
    cases h
    exact ⟨[], by simp, rfl, rfl, small⟩
  | cons s rest ih =>
    simp only [readDigits?] at h
    split at h
    · cases h
      exact ⟨[], by simp, rfl, rfl, small⟩
    · rename_i d digit
      obtain ⟨c, plain, range, rfl⟩ := digit?_eq_some digit
      split at h
      · rename_i next
        obtain ⟨cs, digits, text, value, bound⟩ := ih h next
        refine ⟨c :: cs, ?_, ?_, value, bound⟩
        · simpa [range] using digits
        · rw [glyphs_cons, plain, text]
          rfl
      · cases h

theorem count_of_readCount {length : Nat} {symbols after : List Symbol} {n : UInt32}
    (h : readCount length symbols = .ok (n, after)) :
    Count (glyphs symbols) n.toNat (glyphs after) := by
  unfold readCount at h
  split at h
  · cases h
  · rename_i s rest
    split at h
    · cases h
    · rename_i d digit
      obtain ⟨c, plain, range, rfl⟩ := digit?_eq_some digit
      split at h
      · cases h
      · rename_i m after digits
        cases h
        have small : c.toNat - '0'.toNat ≤ Repetition.maxFinite := by
          have : c.toNat ≤ '9'.toNat := range.2
          have top : '9'.toNat = 57 := rfl
          simp only [Repetition.maxFinite]
          omega
        obtain ⟨cs, more, text, value, bound⟩ := digits_of_readDigits? digits small
        have same : (UInt32.ofNat m).toNat = m := by
          apply UInt32.toNat_ofNat_of_lt'
          have : UInt32.size = 4294967296 := rfl
          simp only [Repetition.maxFinite] at bound
          omega
        rw [same]
        refine ⟨c :: cs, List.cons_ne_nil _ _, ?_, ?_, ?_, bound⟩
        · simpa [range] using more
        · rw [glyphs_cons, plain, text]
          rfl
        · simpa [valueOf] using value

theorem brace_of_readBrace {length : Nat} {r r' : Repetition} {symbols after : List Symbol}
    (h : readBrace length r symbols = .ok (r', after)) :
    r' = r ∧ glyphs symbols = .plain '}' :: glyphs after := by
  unfold readBrace at h
  split at h
  · cases h
  · split at h
    · rename_i brace
      cases h
      exact ⟨rfl, by rw [glyphs_cons, isPlain_iff.1 brace]⟩
    · cases h

theorem quantifier_of_readUpper {length : Nat} {low : UInt32} {r : Repetition} {gs : List Glyph}
    {symbols after : List Symbol} (h : readUpper length low symbols = .ok (r, after))
    (first : Count gs low.toNat (.plain ',' :: glyphs symbols)) :
    ∃ b, Quantifier (.plain '{' :: gs) b (glyphs after) ∧ r.Counts b := by
  have small := first.le_maxFinite
  unfold readUpper at h
  split at h
  · rename_i closed
    cases h
    obtain ⟨rfl, brace⟩ := brace_of_readBrace closed
    rw [brace] at first
    exact ⟨_, .atLeast first, Repetition.counts_atLeast small⟩
  · split at h
    · cases h
    · rename_i count
      split at h
      · cases h
      · rename_i ordered
        obtain ⟨rfl, brace⟩ := brace_of_readBrace h
        have second := count_of_readCount count
        have bound := second.le_maxFinite
        have le : low ≤ _ := UInt32.not_lt.1 ordered
        rw [brace] at second
        exact ⟨_, .between first second (UInt32.le_iff_toNat_le.1 le),
          Repetition.counts_between le bound⟩

theorem quantifier_of_readBounds {length : Nat} {r : Repetition} {symbols after : List Symbol}
    (h : readBounds length symbols = .ok (r, after)) :
    ∃ b, Quantifier (.plain '{' :: glyphs symbols) b (glyphs after) ∧ r.Counts b := by
  unfold readBounds at h
  split at h
  · cases h
  · rename_i count
    have first := count_of_readCount count
    have small := first.le_maxFinite
    split at h
    · cases h
    · split at h
      · rename_i comma
        rw [glyphs_cons, isPlain_iff.1 comma] at first
        exact quantifier_of_readUpper h first
      · obtain ⟨rfl, brace⟩ := brace_of_readBrace h
        rw [brace] at first
        exact ⟨_, .exactly first, Repetition.counts_between (UInt32.le_refl _) small⟩

theorem quantifier_of_readQuantifier {length : Nat} {r : Repetition} {symbols after : List Symbol}
    (h : readQuantifier length symbols = .ok (r, after)) :
    ∃ b, Quantifier (glyphs symbols) b (glyphs after) ∧ r.Counts b := by
  unfold readQuantifier at h
  split at h
  · cases h
  · split at h
    · rename_i star
      cases h
      rw [glyphs_cons, star]
      exact ⟨_, .star, Repetition.counts_atLeast (by decide)⟩
    · rename_i plus
      cases h
      rw [glyphs_cons, plus]
      exact ⟨_, .plus, Repetition.counts_atLeast (by decide)⟩
    · rename_i brace
      rw [glyphs_cons, brace]
      exact quantifier_of_readBounds h
    · cases h

theorem name_of_readNameChars (symbols : List Symbol) :
    (∀ c ∈ (readNameChars symbols).1, NameChar c) ∧
      glyphs symbols = (readNameChars symbols).1.map .plain ++ glyphs (readNameChars symbols).2 := by
  induction symbols with
  | nil => simp [readNameChars, glyphs]
  | cons s rest ih =>
    simp only [readNameChars]
    split
    · simp
    · rename_i c name
      unfold nameChar? at name
      split at name
      · rename_i plain
        split at name
        · rename_i allowed
          cases name
          refine ⟨List.forall_mem_cons.2 ⟨isNameChar_iff.1 allowed, ih.1⟩, ?_⟩
          rw [glyphs_cons, plain, ih.2]
          rfl
        · cases name
      · cases name

theorem name_of_readName {length : Nat} {name : String} {symbols after : List Symbol}
    (h : readName length symbols = .ok (name, after)) :
    Name (glyphs symbols) name (glyphs after) := by
  unfold readName at h
  split at h
  · cases h
  · rename_i s rest
    split at h
    · rename_i opening
      obtain ⟨allowed, text⟩ := name_of_readNameChars rest
      split at h
      · cases h
      · rename_i cs t after' read
        rw [read] at allowed text
        split at h
        · rename_i closing
          cases h
          simp only [Bool.and_eq_true, Bool.not_eq_true', List.isEmpty_eq_false_iff] at closing
          refine ⟨cs, closing.2, allowed, rfl, ?_⟩
          rw [glyphs_cons, isPlain_iff.1 opening, text]
          simp only [glyphs_cons, isPlain_iff.1 closing.1]
        · cases h
    · cases h

theorem covered_cons {low high : Char} {items : List (Char × Char)} {c : Char} :
    Covered ((low, high) :: items) c ↔ (low ≤ c ∧ c ≤ high) ∨ Covered items c := by
  simp [Covered]

/-- What an item adds is added to the inner set, also where the class is negated. -/
theorem contains_addRange_inner {set : CharSet} {low high : Char} (le : low ≤ high) (c : Char) :
    (set.addRange low high).inner.contains c = true ↔
      (low ≤ c ∧ c ≤ high) ∨ set.inner.contains c = true := by
  rw [CharSet.addRange, SegmentSet.contains_addRange (rank_le_iff.2 le), rank_le_iff, rank_le_iff]

theorem rangeEnd?_eq_some {symbols : List Symbol} {t : Symbol} (h : rangeEnd? symbols = some t) :
    ∃ dash rest, symbols = dash :: t :: rest ∧ dash.glyph = .plain '-' ∧
      t.glyph ≠ .plain ']' := by
  unfold rangeEnd? at h
  split at h
  · rename_i dash s rest
    split at h
    · rename_i range
      cases h
      simp only [Bool.and_eq_true, Bool.not_eq_true'] at range
      refine ⟨dash, rest, rfl, isPlain_iff.1 range.1, fun bracket => ?_⟩
      rw [isPlain_iff.2 bracket] at range
      exact Bool.noConfusion range.2
    · cases h
  · cases h

theorem rangeEnd?_eq_none {symbols : List Symbol} (h : rangeEnd? symbols = none) :
    ∀ g gs, glyphs symbols = .plain '-' :: g :: gs → g = .plain ']' := by
  intro g gs text
  rcases symbols with _ | ⟨dash, _ | ⟨s, rest⟩⟩
  · cases text
  · simp [glyphs] at text
  · rw [glyphs_cons, glyphs_cons, List.cons.injEq, List.cons.injEq] at text
    obtain ⟨minus, same, _⟩ := text
    cases closing : s.isPlain ']' with
    | true => rw [← same, isPlain_iff.1 closing]
    | false => simp [rangeEnd?, isPlain_iff.2 minus, closing] at h

theorem items_of_readItems {start : Nat} {set set' : CharSet} {found : Bool}
    {symbols after : List Symbol} (h : readItems start set found 0 symbols = .ok (set', after)) :
    ∃ items, Items (glyphs symbols) items (glyphs after) ∧ (found = true ∨ items ≠ []) ∧
      set'.negated = set.negated ∧ set'.isEmpty = false ∧
      ∀ c, set'.inner.contains c = true ↔ Covered items c ∨ set.inner.contains c = true := by
  match symbols with
  | [] => cases h
  | s :: rest =>
    simp only [readItems] at h
    split at h
    · rename_i bracket
      split at h
      · rename_i complete
        cases h
        simp only [Bool.and_eq_true, Bool.not_eq_true'] at complete
        refine ⟨[], ?_, .inl complete.1, rfl, complete.2, fun c => by simp [Covered]⟩
        rw [glyphs_cons, isPlain_iff.1 bracket]
        exact .close
      · cases h
    · rename_i other
      rw [isPlain_iff] at other
      split at h
      · cases h
      · rename_i low value
        split at h
        · rename_i alone
          obtain ⟨items, text, _, negated, nonempty, contains⟩ := items_of_readItems h
          refine ⟨(low, low) :: items, .single other value (rangeEnd?_eq_none alone) text,
            .inr (List.cons_ne_nil _ _), negated, nonempty, fun c => ?_⟩
          rw [contains, covered_cons, CharSet.add, SegmentSet.add,
            SegmentSet.contains_addRange (Nat.le_refl _), rank_le_iff, rank_le_iff]
          exact or_left_comm.trans or_assoc.symm
        · rename_i t range
          obtain ⟨dash, more, rfl, minus, bracket⟩ := rangeEnd?_eq_some range
          split at h
          · cases h
          · rename_i high value'
            split at h
            · rename_i le
              have h : readItems start (set.addRange low high) true 0 more = .ok (set', after) := h
              obtain ⟨items, text, _, negated, nonempty, contains⟩ := items_of_readItems h
              refine ⟨(low, high) :: items, ?_, .inr (List.cons_ne_nil _ _), negated, nonempty,
                fun c => ?_⟩
              · simp only [glyphs_cons, minus]
                exact .range other value bracket value' le text
              · rw [contains, covered_cons, contains_addRange_inner le]
                exact or_left_comm.trans or_assoc.symm
            · cases h
termination_by symbols.length

theorem items_of_readItems_empty {start : Nat} {negated : Bool} {set : CharSet}
    {symbols after : List Symbol}
    (h : readItems start ⟨.empty, negated⟩ false 0 symbols = .ok (set, after)) :
    ∃ items, Items (glyphs symbols) items (glyphs after) ∧ items ≠ [] ∧ set.isEmpty = false ∧
      set.negated = negated ∧ ∀ c, set.inner.contains c = true ↔ Covered items c := by
  obtain ⟨items, text, found, same, nonempty, contains⟩ := items_of_readItems h
  refine ⟨items, text, found.resolve_left Bool.false_ne_true, nonempty, same, fun c => ?_⟩
  rw [contains, SegmentSet.contains_empty, or_iff_left Bool.false_ne_true]

theorem class_of_readClass {start : Nat} {set : CharSet} {symbols after : List Symbol}
    (h : readClass start symbols = .ok (set, after)) :
    Class (glyphs symbols) set.contains (glyphs after) := by
  unfold readClass at h
  split at h
  · cases h
  · rename_i s rest
    split at h
    · rename_i caret
      obtain ⟨items, text, found, nonempty, negated, contains⟩ := items_of_readItems_empty h
      rw [glyphs_cons, isPlain_iff.1 caret]
      refine .complement text found (fun c => ?_) ?_
      · rw [CharSet.contains, negated, ← contains]
        simp
      · rw [CharSet.isEmpty, negated, if_pos rfl] at nonempty
        obtain ⟨c, missing⟩ := SegmentSet.exists_not_contains nonempty
        exact ⟨c, by rw [CharSet.contains, negated, missing]; rfl⟩
    · rename_i other
      obtain ⟨items, text, found, _, negated, contains⟩ := items_of_readItems_empty h
      refine .union ?_ text found fun c => ?_
      · simpa [glyphs_cons, isPlain_iff] using other
      · rw [CharSet.contains, negated, ← contains]
        simp

theorem literal?_of_isLiteral {s : Symbol} {c : Char} (literal : isLiteral s = true)
    (value : s.value? = some c) : s.glyph.literal? = some c := by
  unfold isLiteral at literal
  unfold Symbol.value? at value
  split at literal
  · rename_i plain
    rw [plain] at value ⊢
    rw [Bool.not_eq_true', Bool.eq_false_iff, ne_eq, isMeta_iff] at literal
    rwa [Glyph.literal?, if_neg literal]
  · rename_i escape
    rw [escape] at value ⊢
    rwa [Glyph.literal?, if_neg (by simpa using literal)]
  · rename_i dangling
    rw [dangling] at value
    cases value

theorem quantifierFollows_of_readRun {cs : List Char} {symbols after : List Symbol}
    (h : readRun false symbols = .ok (cs, after)) (free : quantifierFollows symbols = false) :
    quantifierFollows after = false := by
  induction symbols generalizing cs with
  | nil =>
    cases h
    rfl
  | cons s rest ih =>
    unfold readRun at h
    split at h
    · split at h
      · cases h
      · split at h
        · cases h
          exact free
        · rename_i free'
          split at h
          · cases h
          · rename_i later
            cases h
            exact ih later (by simpa using free')
    · cases h
      exact free

theorem run_of_readRun {captures : Bool} {first : Bool} {cs : List Char}
    {symbols after : List Symbol} (h : readRun first symbols = .ok (cs, after)) {d d' : Declared}
    {t : Tree} {gs : List Glyph} (rest : Spells captures .sequence d (glyphs after) t d' gs) :
    Spells captures .sequence d (glyphs symbols) (.chars cs t) d' gs := by
  induction symbols generalizing first cs with
  | nil =>
    cases h
    exact rest
  | cons s tail ih =>
    unfold readRun at h
    split at h
    · rename_i literal
      split at h
      · cases h
      · rename_i c value
        have literal := literal?_of_isLiteral literal value
        split at h
        · split at h <;> cases h
          · exact .once (.literal literal) rest
          · exact rest
        · split at h
          · cases h
          · rename_i later
            cases h
            exact .once (.literal literal) (ih later)
    · cases h
      exact rest

theorem eq_of_readRun_nil {first : Bool} {symbols after : List Symbol}
    (h : readRun first symbols = .ok ([], after)) : after = symbols := by
  cases symbols with
  | nil =>
    cases h
    rfl
  | cons s rest =>
    unfold readRun at h
    split at h
    · split at h
      · cases h
      · split at h
        · split at h <;> cases h
          rfl
        · split at h <;> cases h
    · cases h
      rfl

theorem literal_of_readRun {s : Symbol} {c : Char} {rest after : List Symbol}
    (h : readRun true (s :: rest) = .ok ([c], after)) :
    s.glyph.literal? = some c ∧ after = rest := by
  unfold readRun at h
  split at h
  · rename_i literal
    split at h
    · cases h
    · rename_i value
      split at h
      · cases h
        exact ⟨literal?_of_isLiteral literal value, rfl⟩
      · split at h
        · cases h
        · rename_i later
          cases h
          exact ⟨literal?_of_isLiteral literal value, eq_of_readRun_nil later⟩
  · cases h

theorem free_of_readRun {s : Symbol} {c c' : Char} {cs : List Char} {rest after : List Symbol}
    (h : readRun true (s :: rest) = .ok (c :: c' :: cs, after)) :
    quantifierFollows after = false := by
  unfold readRun at h
  split at h
  · split at h
    · cases h
    · split at h
      · cases h
      · rename_i free
        split at h
        · cases h
        · rename_i later
          cases h
          exact quantifierFollows_of_readRun later (by simpa using free)
  · cases h

theorem quantifier_of_readRepetition {length : Nat} {repetition : Option Repetition}
    {symbols after : List Symbol} (h : readRepetition length symbols = .ok (repetition, after)) :
    (repetition = none ∧ after = symbols) ∨
      ∃ r b, repetition = some r ∧ quantifierFollows symbols = true ∧
        Quantifier (glyphs symbols) b (glyphs after) ∧ r.Counts b := by
  unfold readRepetition at h
  split at h
  · rename_i follows
    split at h
    · cases h
    · rename_i r _ read
      cases h
      obtain ⟨b, quantifier, counts⟩ := quantifier_of_readQuantifier read
      exact .inr ⟨r, b, rfl, follows, quantifier, counts⟩
  · cases h
    exact .inl ⟨rfl, rfl⟩

end Piece

end PatternGraph
