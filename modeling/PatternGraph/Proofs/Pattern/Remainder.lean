import PatternGraph.Proofs.Pattern.Balance
import PatternGraph.Proofs.Pattern.Completeness

/-!
What is left of a pattern in the course of a reading, with the groups that are still open. The scan
finds the parens of such a remainder paired, and a run of literals leaves another.
-/
namespace PatternGraph
open Symbol Grammar

namespace Grammar

inductive Repeats : List Glyph → List Glyph → Prop
  | once {gs} : Repeats gs gs
  | repeated {gs b after} : Quantifier gs b after → Repeats gs after

inductive Single (d : Declared) : List Glyph → List Glyph → Prop
  | literal {g c gs} : g.literal? = some c → Single d (g :: gs) gs
  | any {gs} : Single d (.plain '.' :: gs) gs
  | charClass {gs fits after} : Class gs fits after → Single d (.plain '[' :: gs) after
  | backref {value gs name after tag} : Name gs name after → d.names.find? name = some tag →
      d.names.isClosed tag = true → Single d (.escape 'k' value :: gs) after

/-- The glyphs can be the rest of a pattern inside groups with these tags, innermost first. -/
inductive Remainder (captures : Bool) : List (Option TagId) → Declared → List Glyph → Prop
  | done {d} : Remainder captures [] d []
  | bar {tags d gs} : Remainder captures tags d gs → Remainder captures tags d (.plain '|' :: gs)
  | single {tags d gs middle after} : Single d gs middle → Repeats middle after →
      Remainder captures tags d after → Remainder captures tags d gs
  | opening {tags d gs tag d' after} : Header captures d gs tag d' after →
      Remainder captures (tag :: tags) d' after → Remainder captures tags d (.plain '(' :: gs)
  | closing {tags d tag gs after} : Repeats gs after → Remainder captures tags (d.close tag) after →
      Remainder captures (tag :: tags) d (.plain ')' :: gs)

/-- What may stand between a part of a pattern and what is left after it: an item may still have its
quantifier. -/
def Joins : Kind → List Glyph → List Glyph → Prop
  | .item, gs, after => Repeats gs after
  | .sequence, gs, after => gs = after
  | .alternatives, gs, after => gs = after

variable {captures : Bool} {tags : List (Option TagId)} {d d' : Declared} {gs after : List Glyph}

theorem Spells.remainder {kind : Kind} {t : Tree} {rest : List Glyph}
    (h : Spells captures kind d gs t d' after) (joins : Joins kind after rest)
    (later : Remainder captures tags d' rest) : Remainder captures tags d gs := by
  induction h generalizing tags rest with
  | literal stands => exact .single (.literal stands) joins later
  | any => exact .single .any joins later
  | charClass inner => exact .single (.charClass inner) joins later
  | backref name found closed => exact .single (.backref name found closed) joins later
  | group header _ ih => exact .opening header (ih rfl (.closing joins later))
  | done =>
    obtain rfl : _ = rest := joins
    exact later
  | once _ _ one other => exact one .once (other joins later)
  | repeated _ quantifier _ one other => exact one (.repeated quantifier) (other joins later)
  | only _ ih => exact ih joins later
  | either _ _ one other => exact one rfl (.bar (other joins later))

end Grammar

namespace Piece

theorem isLiteral_of_literal? {s : Symbol} {c : Char} (stands : s.glyph.literal? = some c) :
    isLiteral s = true ∧ s.value? = some c := by
  unfold Glyph.literal? at stands
  unfold isLiteral Symbol.value?
  split at stands
  · rename_i plain
    split at stands
    · cases stands
    · rename_i ordinary
      have ordinary : isMeta _ = false := Bool.eq_false_iff.2 (mt isMeta_iff.1 ordinary)
      simpa [plain, ordinary] using stands
  · rename_i escape
    split at stands
    · cases stands
    · rename_i ordinary
      simpa [escape, ordinary] using stands
  · cases stands

theorem isLiteral_of_isMeta {s : Symbol} {c : Char} (plain : s.glyph = .plain c)
    (special : isMeta c = true) : isLiteral s = false := by
  simp [isLiteral, plain, special]

/-- All operators outside classes are special characters. -/
theorem beginsAtom_of_isLiteral {s : Symbol} (literal : isLiteral s = true) :
    Reading.BeginsAtom s := by
  have ordinary (c : Char) (special : isMeta c = true) : s.glyph ≠ .plain c := by
    intro plain
    rw [isLiteral_of_isMeta plain special] at literal
    cases literal
  constructor
  · unfold isQuantifier
    split
    · exact absurd ‹_› (ordinary '*' rfl)
    · exact absurd ‹_› (ordinary '+' rfl)
    · exact absurd ‹_› (ordinary '{' rfl)
    · rfl
  · intro c mem
    apply ordinary
    simp only [List.mem_cons, List.not_mem_nil, or_false] at mem
    rcases mem with rfl | rfl | rfl | rfl | rfl <;> rfl

end Piece

namespace Grammar
variable {captures : Bool} {tags : List (Option TagId)} {d d' : Declared} {after : List Glyph}
  {s : Symbol} {symbols rest : List Symbol}

theorem quantifierFollows_of_quantifier {b : Bounds} (h : Quantifier (glyphs symbols) b after) :
    quantifierFollows symbols = true := by
  generalize text : glyphs symbols = gs at h
  cases h with
  | star | plus | exactly _ | atLeast _ | between _ _ _ =>
    obtain ⟨s, rest, rfl, mark, _⟩ := glyphs_eq_cons text
    simp [quantifierFollows, isQuantifier, mark]

theorem Repeats.eq_of_free (h : Repeats (glyphs symbols) after)
    (free : quantifierFollows symbols = false) : after = glyphs symbols := by
  generalize text : glyphs symbols = gs at h
  cases h with
  | once => rfl
  | repeated quantifier =>
    rw [← text] at quantifier
    rw [quantifierFollows_of_quantifier quantifier] at free
    cases free

theorem Single.beginsAtom (h : Single d (glyphs (s :: rest)) after) : Reading.BeginsAtom s := by
  generalize text : glyphs (s :: rest) = gs at h
  rw [glyphs_cons] at text
  cases h with
  | literal stands =>
    obtain ⟨rfl, _⟩ := List.cons.inj text
    exact Piece.beginsAtom_of_isLiteral (Piece.isLiteral_of_literal? stands).1
  | any | charClass | backref =>
    have first := (List.cons.inj text).1
    simp [Reading.BeginsAtom, isQuantifier, first]

/-- The remainder of a pattern never begins with a quantifier. -/
theorem Remainder.free (h : Remainder captures tags d (glyphs symbols)) :
    quantifierFollows symbols = false := by
  cases symbols with
  | nil => rfl
  | cons s rest =>
    generalize text : glyphs (s :: rest) = gs at h
    cases h with
    | done => cases text
    | single first _ _ =>
      rw [← text] at first
      exact first.beginsAtom.1
    | bar _ | opening _ _ | closing _ _ =>
      have first := (List.cons.inj text).1
      simp [quantifierFollows, isQuantifier, first]

theorem Repeats.takes (h : Repeats (glyphs symbols) after) (later : Remainder captures tags d after)
    (follows : quantifierFollows symbols = true) (length : Nat) :
    Piece.Takes (Piece.readQuantifier length symbols) after := by
  generalize text : glyphs symbols = gs at h
  cases h with
  | once =>
    rw [← text] at later
    rw [later.free] at follows
    cases follows
  | repeated quantifier =>
    subst text
    obtain ⟨rest, read, same⟩ := Piece.readQuantifier_of_quantifier length quantifier
    exact ⟨_, rest, read, same⟩

theorem Single.skims (h : Single d (glyphs symbols) after) :
    ∃ last, Skims symbols last ∧ glyphs last = after := by
  generalize text : glyphs symbols = gs at h
  cases h with
  | literal stands =>
    obtain ⟨s, rest, rfl, rfl, rfl⟩ := glyphs_eq_cons text
    have neutral := Piece.neutral_of_isLiteral (Piece.isLiteral_of_literal? stands).1
    exact ⟨rest, (Skims.refl rest).cons neutral, rfl⟩
  | any =>
    obtain ⟨s, rest, rfl, dot, rfl⟩ := glyphs_eq_cons text
    exact ⟨rest, (Skims.refl rest).cons (neutral_of_plain dot (by decide)), rfl⟩
  | charClass inner =>
    obtain ⟨s, rest, rfl, bracket, rfl⟩ := glyphs_eq_cons text
    have takes : Piece.Takes (Piece.readClass s.offset rest) after := Piece.readClass_of_class inner
    obtain ⟨set, last, read, same⟩ := takes
    have reads : Skimming 0 (s :: rest) _ := Piece.skimming_readClass bracket rest
    exact ⟨last, reads.skims read, same⟩
  | backref name _ _ =>
    obtain ⟨s, rest, rfl, escape, rfl⟩ := glyphs_eq_cons text
    obtain ⟨last, read, same⟩ := Piece.readName_of_name 0 name
    exact ⟨last, ((Piece.skimming_readName rest).skims read).cons (by simp [Neutral, escape]), same⟩

theorem Repeats.skims (h : Repeats (glyphs symbols) after) :
    ∃ last, Skims symbols last ∧ glyphs last = after := by
  generalize text : glyphs symbols = gs at h
  cases h with
  | once => exact ⟨symbols, .refl symbols, text⟩
  | repeated quantifier =>
    subst text
    obtain ⟨last, read, same⟩ := Piece.readQuantifier_of_quantifier 0 quantifier
    exact ⟨last, (Piece.skimming_readQuantifier symbols).skims read, same⟩

theorem Header.skims {tag : Option TagId} (h : Header captures d (glyphs symbols) tag d' after) :
    ∃ last, Skims symbols last ∧ glyphs last = after := by
  generalize text : glyphs symbols = gs at h
  cases h with
  | unnamed => exact ⟨symbols, .refl symbols, text⟩
  | bare =>
    obtain ⟨s, _, rfl, mark, more⟩ := glyphs_eq_cons text
    obtain ⟨t, rest, rfl, colon, same⟩ := glyphs_eq_cons more
    have colon := neutral_of_plain colon (by decide)
    exact ⟨rest, ((Skims.refl rest).cons colon).cons (neutral_of_plain mark (by decide)), same⟩
  | named name _ =>
    obtain ⟨s, rest, rfl, mark, rfl⟩ := glyphs_eq_cons text
    obtain ⟨last, read, same⟩ := Piece.readName_of_name 0 name
    have skims := (Piece.skimming_readName rest).skims read
    exact ⟨last, skims.cons (neutral_of_plain mark (by decide)), same⟩

/-- The scan gets through if as many parens are open as groups. -/
theorem Remainder.scans {gs : List Glyph} (h : Remainder captures tags d gs) {p : Pairing}
    {opened : List Nat} (text : glyphs symbols = gs) (depth : opened.length = tags.length) :
    ∃ q, p.scan opened symbols = .ok q := by
  -- The scan goes symbol by symbol; the cases are those of the grammar, which know what a whole item
  -- is and pass it at once.
  induction h generalizing p opened symbols with
  | done =>
    obtain rfl := List.map_eq_nil_iff.1 text
    obtain rfl := List.eq_nil_of_length_eq_zero depth
    exact ⟨p, by rw [Pairing.scan.eq_def]⟩
  | bar _ ih =>
    obtain ⟨s, rest, rfl, bar, text⟩ := glyphs_eq_cons text
    rw [Pairing.scan_neutral (neutral_of_plain bar (by decide))]
    exact ih text depth
  | single first repeats _ ih =>
    subst text
    obtain ⟨middle, passed, rfl⟩ := first.skims
    obtain ⟨last, skims, text⟩ := repeats.skims
    rw [passed.scan, skims.scan]
    exact ih text depth
  | opening header _ ih =>
    obtain ⟨s, rest, rfl, paren, rfl⟩ := glyphs_eq_cons text
    obtain ⟨last, skims, text⟩ := header.skims
    rw [Pairing.scan_open paren, skims.scan]
    exact ih text (congrArg (· + 1) depth)
  | closing repeats _ ih =>
    obtain ⟨s, rest, rfl, paren, rfl⟩ := glyphs_eq_cons text
    obtain ⟨last, skims, text⟩ := repeats.skims
    cases opened with
    | nil => cases depth
    | cons x outer =>
      rw [Pairing.scan_close paren, skims.scan]
      exact ih text (Nat.succ.inj depth)

theorem Remainder.literal (h : Remainder captures tags d (glyphs (s :: rest)))
    (literal : Piece.isLiteral s = true) :
    ∃ c after, s.value? = some c ∧ Repeats (glyphs rest) after ∧ Remainder captures tags d after := by
  have begins := Piece.beginsAtom_of_isLiteral literal
  generalize text : glyphs (s :: rest) = gs at h
  rw [glyphs_cons] at text
  cases h with
  | done => cases text
  | single first repeats later =>
    cases first with
    | literal stands =>
      obtain ⟨rfl, rfl⟩ := List.cons.inj text
      exact ⟨_, _, (Piece.isLiteral_of_literal? stands).2, repeats, later⟩
    | any | charClass | backref =>
      have special := (List.cons.inj text).1
      simp [Piece.isLiteral, Piece.isMeta, special] at literal
  | bar _ | opening _ _ | closing _ _ =>
    exact absurd (List.cons.inj text).1 (begins.2 _ (by decide))

theorem Remainder.run (h : Remainder captures tags d (glyphs symbols)) :
    ∃ cs rest, Piece.readRun false symbols = .ok (cs, rest) ∧
      Remainder captures tags d (glyphs rest) := by
  induction symbols with
  | nil => exact ⟨[], [], rfl, h⟩
  | cons s rest ih =>
    cases literal : Piece.isLiteral s with
    | false => exact ⟨[], s :: rest, by simp [Piece.readRun, literal], h⟩
    | true =>
      obtain ⟨c, after, value, repeats, later⟩ := h.literal literal
      cases follows : quantifierFollows rest with
      | true => exact ⟨[], s :: rest, by simp [Piece.readRun, literal, value, follows], h⟩
      | false =>
        obtain rfl := repeats.eq_of_free follows
        obtain ⟨cs, last, read, remains⟩ := ih later
        exact ⟨c :: cs, last, by simp [Piece.readRun, literal, value, follows, read], remains⟩

end Grammar

end PatternGraph
