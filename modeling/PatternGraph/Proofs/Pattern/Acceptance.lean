import PatternGraph.Proofs.Pattern.Naming
import PatternGraph.Proofs.Pattern.Remainder

/-!
The reading of a pattern that denotes a tree comes to its end: no piece is refused, and each leaves
the remainder of a pattern.
-/
namespace PatternGraph
open Symbol Grammar

namespace Reading
variable (scope : Scope) {s : Symbol} {captures : Bool} {tags : List (Option TagId)}

theorem pieceAt_of_beginsAtom {r : Reading} (begins : BeginsAtom s) :
    pieceAt scope s r = atomPiece scope s r := by
  obtain ⟨quantifier, operators⟩ := begins
  unfold pieceAt
  rw [quantifier]
  split
  · contradiction
  · split
    · exact absurd ‹_› (operators _ (by decide))
    · exact absurd ‹_› (operators _ (by decide))
    · exact absurd ‹_› (operators _ (by decide))
    · exact absurd ‹_› (operators _ (by decide))
    · exact absurd ‹_› (operators _ (by decide))
    · rfl

theorem readAtom_of_isLiteral {r : Reading} (literal : Piece.isLiteral s = true) {c : Char}
    {cs : List Char} {rest : List Symbol}
    (run : Piece.readRun true (s :: r.rest) = .ok (c :: cs, rest)) :
    readAtom scope s r = .ok (.literal c cs, rest) := by
  unfold readAtom
  split
  · simp [Piece.isLiteral, Piece.isMeta, *] at literal
  · simp [Piece.isLiteral, Piece.isMeta, *] at literal
  · simp [Piece.isLiteral, *] at literal
  · rw [run]

theorem readAtom_of_single {r : Reading} {middle after : List Glyph}
    (single : Single r.declared (glyphs (s :: r.rest)) middle) (repeats : Repeats middle after)
    (later : Remainder captures tags r.declared after) :
    ∃ atom rest after, readAtom scope s r = .ok (atom, rest) ∧ Repeats (glyphs rest) after ∧
      Remainder captures tags r.declared after := by
  generalize text : glyphs (s :: r.rest) = gs at single
  rw [glyphs_cons] at text
  cases single with
  | @literal _ c _ stands =>
    obtain ⟨rfl, rfl⟩ := List.cons.inj text
    obtain ⟨literal, value⟩ := Piece.isLiteral_of_literal? stands
    cases follows : quantifierFollows r.rest with
    | true =>
      have run : Piece.readRun true (s :: r.rest) = .ok ([c], r.rest) := by
        simp only [Piece.readRun, literal, value, follows, if_true]
      exact ⟨_, _, after, readAtom_of_isLiteral scope literal run, repeats, later⟩
    | false =>
      obtain rfl := repeats.eq_of_free follows
      -- The atom goes on over the literals after it, up to where the next item begins.
      obtain ⟨cs, last, read, remains⟩ := later.run
      have run : Piece.readRun true (s :: r.rest) = .ok (c :: cs, last) := by
        simp only [Piece.readRun, literal, value, follows, read, Bool.false_eq_true, if_true,
          if_false]
      exact ⟨_, _, _, readAtom_of_isLiteral scope literal run, .once, remains⟩
  | any =>
    obtain ⟨dot, rfl⟩ := List.cons.inj text
    exact ⟨.any, r.rest, after, by simp only [readAtom, dot], repeats, later⟩
  | charClass inner =>
    obtain ⟨bracket, rfl⟩ := List.cons.inj text
    have takes : Piece.Takes (Piece.readClass s.offset r.rest) middle :=
      Piece.readClass_of_class inner
    obtain ⟨set, last, read, rfl⟩ := takes
    exact ⟨.charClass set, last, after, by simp only [readAtom, bracket, read], repeats, later⟩
  | @backref _ _ name _ tag text' found closed =>
    obtain ⟨escape, rfl⟩ := List.cons.inj text
    obtain ⟨last, read, rfl⟩ := Piece.readName_of_name scope.length text'
    have found : r.names.find? name = some tag := found
    have closed : r.names.isClosed tag = true := closed
    refine ⟨.backref tag, last, after, ?_, repeats, later⟩
    simp only [readAtom, escape, readBackref, read, found, closed, if_true]

theorem readRepetition_of_repeats (length : Nat) {d : Declared} {symbols : List Symbol}
    {after : List Glyph} (repeats : Repeats (glyphs symbols) after)
    (later : Remainder captures tags d after) :
    Piece.Takes (Piece.readRepetition length symbols) after := by
  cases follows : quantifierFollows symbols with
  | false =>
    obtain rfl := repeats.eq_of_free follows
    refine ⟨none, symbols, ?_, rfl⟩
    simp only [Piece.readRepetition, follows, Bool.false_eq_true, if_false]
  | true =>
    obtain ⟨repetition, rest, read, text⟩ := repeats.takes later follows length
    refine ⟨some repetition, rest, ?_, text⟩
    simp only [Piece.readRepetition, follows, if_true, read]

def Remains (scope : Scope) (r : Reading) : Prop :=
  Remainder scope.options.captures (r.opened.map (·.tag)) r.declared (glyphs r.rest)

theorem reads_atomPiece {r : Reading} {middle after : List Glyph}
    (single : Single r.declared (glyphs (s :: r.rest)) middle) (repeats : Repeats middle after)
    (later : Remainder scope.options.captures (r.opened.map (·.tag)) r.declared after) :
    ∃ p r', atomPiece scope s r = .ok (p, r') ∧ Remains scope r' := by
  obtain ⟨atom, rest, last, read, repeats, later⟩ := readAtom_of_single scope single repeats later
  obtain ⟨repetition, rest', read', rfl⟩ := readRepetition_of_repeats scope.length repeats later
  refine ⟨.atom atom repetition, { r with rest := rest', quantified := repetition.isSome }, ?_, later⟩
  simp only [atomPiece, read, read']

theorem register_of_declared (offset : Nat) {r : Reading} {name : String} {tag : Option TagId}
    {d : Declared} (declared : r.declared.declare? scope.options.captures name = some (tag, d)) :
    ∃ r', register scope offset name r = .ok (tag, r') ∧ r'.declared = d := by
  unfold Declared.declare? at declared
  unfold register
  split at declared
  · cases declared
  · rename_i new
    have new : r.names.find? name = none := new
    rw [new]
    split at declared
    · rename_i captures
      split at declared
      · rename_i registered
        have registered : r.names.register name = .ok _ := registered
        cases declared
        simp only [captures, if_true, registered]
        exact ⟨_, rfl, rfl⟩
      · cases declared
    · rename_i bare
      cases declared
      exact ⟨r, if_neg bare, rfl⟩

theorem readHeader_of_unnamed (offset : Nat) {r : Reading}
    (plain : (glyphs r.rest).head? ≠ some (.plain '?')) : readHeader scope offset r =
      register scope offset (toString (r.unnamed + 1)) { r with unnamed := r.unnamed + 1 } := by
  simp only [readHeader]
  split
  · rfl
  · rename_i s rest front
    rw [front, glyphs_cons] at plain
    have other : s.isPlain '?' = false := by simpa [isPlain] using plain
    rw [other]
    rfl

theorem readHeader_of_header (offset : Nat) {r : Reading} {tag : Option TagId} {d : Declared}
    {after : List Glyph}
    (header : Header scope.options.captures r.declared (glyphs r.rest) tag d after) :
    ∃ r', readHeader scope offset r = .ok (tag, r') ∧ r'.declared = d ∧ glyphs r'.rest = after := by
  generalize text : glyphs r.rest = gs at header
  cases header with
  | unnamed plain declared =>
    subst text
    obtain ⟨r', read, same⟩ :=
      register_of_declared scope offset (r := { r with unnamed := r.unnamed + 1 }) declared
    rw [readHeader_of_unnamed scope offset plain]
    have rest : r'.rest = r.rest := rest_of_register (r := { r with unnamed := r.unnamed + 1 }) read
    exact ⟨r', read, same, congrArg glyphs rest⟩
  | bare =>
    obtain ⟨s, _, front, mark, more⟩ := glyphs_eq_cons text
    obtain ⟨t, rest, rfl, colon, same⟩ := glyphs_eq_cons more
    refine ⟨{ r with rest := rest }, ?_, rfl, same⟩
    simp only [readHeader, front, isPlain_iff.2 mark, isPlain_iff.2 colon, if_true]
  | named name declared =>
    obtain ⟨s, rest, front, mark, rfl⟩ := glyphs_eq_cons text
    obtain ⟨last, read, rfl⟩ := Piece.readName_of_name scope.length name
    obtain ⟨r', register, same⟩ :=
      register_of_declared scope offset (r := { r with rest := last }) declared
    have rest' : r'.rest = last := rest_of_register (r := { r with rest := last }) register
    refine ⟨r', ?_, same, congrArg glyphs rest'⟩
    obtain ⟨_, _, _, _, text⟩ := name
    obtain ⟨t, _, rfl, angle, _⟩ := glyphs_eq_cons text
    have colon : t.isPlain ':' = false := by simp [isPlain, angle]
    simp only [readHeader, front, isPlain_iff.2 mark, colon, isPlain_iff.2 angle, if_true,
      Bool.false_eq_true, if_false, read]
    exact register

/-- The nest limit cannot be reached by a pattern that is no longer than it. -/
theorem InStepWith.shallow {before : Pairing} {opened : List Nat} {r : Reading}
    {rest : List Symbol} (inStep : InStepWith scope before opened r) (front : r.rest = s :: rest)
    (paren : s.glyph = .plain '(') : r.opened.length < scope.length := by
  obtain ⟨scanned, _, _, groups, named⟩ := inStep
  rw [front, Pairing.scan_open paren] at scanned
  rw [front, List.length_cons] at named
  -- All open groups and this one are still to be closed, each by a paren of its own.
  have closes := (Pairing.scans_of_scan scanned).length_opened_le
  rw [List.length_cons, groups.length_eq] at closes
  omega

variable {r : Reading} {rest : List Symbol} {tag : Option TagId} {after : List Glyph}

theorem reads_openGroup {d : Declared} (deep : scope.length ≤ scope.options.nestLimit)
    (inStep : InStep scope r) (front : r.rest = s :: rest) (paren : s.glyph = .plain '(')
    (header : Header scope.options.captures r.declared (glyphs rest) tag d after)
    (later : Remainder scope.options.captures (tag :: r.opened.map (·.tag)) d after) :
    ∃ p r', openGroup scope s.offset { r with rest := rest } = .ok (p, r') ∧ Remains scope r' := by
  obtain ⟨before, opened, inStep⟩ := inStep
  obtain ⟨pair, found⟩ := inStep.paired front paren
  have shallow : ¬ scope.options.nestLimit ≤ r.opened.length :=
    Nat.not_le.2 (Nat.lt_of_lt_of_le (inStep.shallow scope front paren) deep)
  obtain ⟨r', read, rfl, rfl⟩ :=
    readHeader_of_header scope s.offset (r := { r with rest := rest }) header
  have opened : r'.opened = r.opened := (header_of_readHeader read).2
  refine ⟨.openGroup tag pair.looped,
    { r' with opened := ⟨tag, pair⟩ :: r'.opened, quantified := false }, ?_, ?_⟩
  · simp only [openGroup, shallow, found, read, if_false]
  · rw [Remains, opened]
    exact later

theorem reads_closeGroup {tags : List (Option TagId)} (inStep : InStep scope r)
    (front : r.rest = s :: rest) (paren : s.glyph = .plain ')')
    (stack : r.opened.map (·.tag) = tag :: tags) (repeats : Repeats (glyphs rest) after)
    (later : Remainder scope.options.captures tags (r.declared.close tag) after) :
    ∃ p r', closeGroup scope s.offset { r with rest := rest } = .ok (p, r') ∧ Remains scope r' := by
  obtain ⟨before, opened, inStep⟩ := inStep
  obtain ⟨x, outer, group, groups, -, opened, -, pair, -⟩ := inStep.closes front paren
  rw [opened, List.map_cons, List.cons.injEq] at stack
  obtain ⟨rfl, rfl⟩ := stack
  have declared (rest : List Symbol) (quantified : Bool) :
      (⟨rest, (r.declared.close group.tag).names, r.unnamed, groups, quantified⟩ : Reading).declared =
        r.declared.close group.tag := by
    cases group.tag <;> rfl
  cases follows : quantifierFollows rest with
  | false =>
    obtain rfl := repeats.eq_of_free follows
    rw [follows] at pair
    rw [← declared rest false] at later
    exact ⟨_, _, closeGroup_once (r := { r with rest := rest }) opened pair, later⟩
  | true =>
    obtain ⟨repetition, last, read, rfl⟩ := repeats.takes later follows scope.length
    rw [follows] at pair
    rw [← declared last true] at later
    exact ⟨_, _, closeGroup_repeated (r := { r with rest := rest }) opened pair read, later⟩

theorem reads_pieceAt (deep : scope.length ≤ scope.options.nestLimit) (inStep : InStep scope r)
    (remains : Remains scope r) (front : r.rest = s :: rest) :
    ∃ p r', pieceAt scope s { r with rest := rest } = .ok (p, r') ∧ Remains scope r' := by
  unfold Remains at remains
  generalize stack : r.opened.map (·.tag) = tags at remains
  generalize text : glyphs r.rest = gs at remains
  rw [front] at text
  cases remains with
  | done => cases text
  | bar later =>
    obtain ⟨bar, rfl⟩ := List.cons.inj text
    subst stack
    refine ⟨.alternative, { r with rest := rest, quantified := false }, ?_, later⟩
    simp [pieceAt, bar, isQuantifier]
  | single first repeats later =>
    subst text
    subst stack
    rw [pieceAt_of_beginsAtom scope first.beginsAtom]
    exact reads_atomPiece scope (r := { r with rest := rest }) first repeats later
  | opening header later =>
    obtain ⟨paren, rfl⟩ := List.cons.inj text
    subst stack
    have opens : pieceAt scope s { r with rest := rest } =
        openGroup scope s.offset { r with rest := rest } := by
      simp [pieceAt, paren, isQuantifier]
    rw [opens]
    exact reads_openGroup scope deep inStep front paren header later
  | closing repeats later =>
    obtain ⟨paren, rfl⟩ := List.cons.inj text
    have closes : pieceAt scope s { r with rest := rest } =
        closeGroup scope s.offset { r with rest := rest } := by
      simp [pieceAt, paren, isQuantifier]
    rw [closes]
    exact reads_closeGroup scope inStep front paren stack repeats later

theorem ending_of_remains (deep : scope.length ≤ scope.options.nestLimit) (inStep : InStep scope r)
    (remains : Remains scope r) : ∃ names, (Outline.ofReading scope r).ending = .ok names := by
  fun_induction Outline.ofReading scope r with
  | case1 r => exact ⟨r.names, rfl⟩
  | case2 r s rest front e failed =>
    obtain ⟨p, r', read, _⟩ := reads_pieceAt scope deep inStep remains front
    rw [read] at failed
    cases failed
  | case3 r s rest front p r' read _ _ ih =>
    obtain ⟨p', r'', read', remains'⟩ := reads_pieceAt scope deep inStep remains front
    rw [read] at read'
    cases read'
    exact ih (inStep.run (.step front read (.stay r'))) remains'

end Reading

end PatternGraph
