import PatternGraph.Pattern.Outline
import PatternGraph.Proofs.Pattern.Spelling

/-!
Every piece that is read spells a part of the pattern, and together the pieces lay out a tree that the
pattern denotes.
-/
namespace PatternGraph
open Symbol Grammar

namespace Reading

def declared (r : Reading) : Declared := ⟨r.names, r.unnamed⟩

theorem declared_of_register {scope : Scope} {offset : Nat} {name : String} {r r' : Reading}
    {tag : Option TagId} (h : register scope offset name r = .ok (tag, r')) :
    r.declared.declare? scope.options.captures name = some (tag, r'.declared) ∧
      r'.opened = r.opened := by
  unfold register at h
  unfold Declared.declare?
  split at h
  · cases h
  · rename_i new
    have new : r.declared.names.find? name = none := new
    rw [new]
    split at h
    · rename_i captures
      split at h
      · cases h
      · rename_i registered
        have registered : r.declared.names.register name = .ok _ := registered
        cases h
        refine ⟨?_, rfl⟩
        simp only [captures, if_true, registered]
        rfl
    · rename_i bare
      cases h
      exact ⟨if_neg bare, rfl⟩

theorem header_of_readHeader {scope : Scope} {offset : Nat} {r r' : Reading} {tag : Option TagId}
    (h : readHeader scope offset r = .ok (tag, r')) :
    Header scope.options.captures r.declared (glyphs r.rest) tag r'.declared (glyphs r'.rest) ∧
      r'.opened = r.opened := by
  simp only [readHeader] at h
  split at h
  · rename_i front
    obtain ⟨declared, opened⟩ := declared_of_register h
    refine ⟨?_, opened⟩
    rw [rest_of_register h]
    exact .unnamed (by simp [front, glyphs]) declared
  · rename_i s rest front
    split at h
    · rename_i mark
      rw [front, glyphs_cons, isPlain_iff.1 mark]
      split at h
      · cases h
      · rename_i t after
        split at h
        · rename_i colon
          cases h
          rw [glyphs_cons, isPlain_iff.1 colon]
          exact ⟨.bare, rfl⟩
        · split at h
          · split at h
            · cases h
            · rename_i name
              obtain ⟨declared, opened⟩ := declared_of_register h
              refine ⟨.named ?_ declared, opened⟩
              rw [rest_of_register h]
              exact Piece.name_of_readName name
          · cases h
    · rename_i other
      obtain ⟨declared, opened⟩ := declared_of_register h
      refine ⟨?_, opened⟩
      rw [rest_of_register h]
      refine .unnamed ?_ declared
      simpa [front, glyphs_cons, isPlain_iff] using other

theorem header_of_openGroup {scope : Scope} {offset : Nat} {r r' : Reading} {p : Piece}
    (h : openGroup scope offset r = .ok (p, r')) :
    ∃ group : OpenGroup, p = .openGroup group.tag group.pair.looped ∧
      r'.opened = group :: r.opened ∧
      Header scope.options.captures r.declared (glyphs r.rest) group.tag r'.declared
        (glyphs r'.rest) := by
  simp only [openGroup] at h
  split at h
  · cases h
  · split at h
    · cases h
    · rename_i pair _
      split at h
      · cases h
      · rename_i tag r₁ header
        cases h
        obtain ⟨header, opened⟩ := header_of_readHeader header
        exact ⟨⟨tag, pair⟩, rfl, by rw [opened], header⟩

/-- What a group's end says about repetition is what its beginning said. -/
inductive Closes : Bool → Piece → List Glyph → List Glyph → Prop
  | once {gs} : Closes false (.closeGroup none) gs gs
  | repeated {repetition b gs after} : Quantifier gs b after → repetition.Counts b →
      Closes true (.closeGroup (some repetition)) gs after

theorem Closes.piece {looped : Bool} {p : Piece} {gs after : List Glyph}
    (h : Closes looped p gs after) : ∃ repetition, p = .closeGroup repetition := by
  cases h <;> exact ⟨_, rfl⟩

theorem end_of_closeGroup {scope : Scope} {offset : Nat} {r r' : Reading} {p : Piece}
    (h : closeGroup scope offset r = .ok (p, r')) :
    ∃ group : OpenGroup, r.opened = group :: r'.opened ∧
      r'.declared = r.declared.close group.tag ∧
      Closes group.pair.looped p (glyphs r.rest) (glyphs r'.rest) := by
  simp only [closeGroup] at h
  split at h
  · cases h
  · rename_i group outer opened
    split at h
    · cases h
    · split at h
      · rename_i looped
        split at h
        · cases h
        · rename_i read
          cases h
          obtain ⟨b, quantifier, counts⟩ := Piece.quantifier_of_readQuantifier read
          refine ⟨group, opened, ?_, looped ▸ .repeated quantifier counts⟩
          cases group.tag <;> rfl
      · rename_i once
        cases h
        have once : group.pair.looped = false := by simpa using once
        refine ⟨group, opened, ?_, once ▸ .once⟩
        cases group.tag <;> rfl

theorem backref_of_readBackref {scope : Scope} {offset : Nat} {r : Reading} {atom : Atom}
    {rest : List Symbol} (h : readBackref scope offset r = .ok (atom, rest)) :
    ∃ name tag, atom = .backref tag ∧ Name (glyphs r.rest) name (glyphs rest) ∧
      r.declared.names.find? name = some tag ∧ r.declared.names.isClosed tag = true := by
  unfold readBackref at h
  split at h
  · cases h
  · rename_i name after read
    split at h
    · cases h
    · rename_i tag found
      split at h
      · rename_i closed
        cases h
        exact ⟨name, tag, rfl, Piece.name_of_readName read, found, closed⟩
      · cases h

theorem item_of_readAtom {scope : Scope} {s : Symbol} {r : Reading} {atom : Atom}
    {rest : List Symbol} (h : readAtom scope s r = .ok (atom, rest)) (captures : Bool) :
    (∃ t, atom.tree? = some t ∧ Spells captures .item r.declared (s.glyph :: glyphs r.rest) t
      r.declared (glyphs rest)) ∨
      ∃ c c' cs, atom = .literal c (c' :: cs) ∧
        Piece.readRun true (s :: r.rest) = .ok (c :: c' :: cs, rest) := by
  unfold readAtom at h
  split at h
  · rename_i bracket
    split at h
    · cases h
    · rename_i set _ read
      cases h
      rw [bracket]
      exact .inl ⟨_, rfl, .charClass (Piece.class_of_readClass read)⟩
  · rename_i dot
    cases h
    rw [dot]
    exact .inl ⟨_, rfl, .any⟩
  · rename_i escape
    split at h
    · cases h
    · rename_i read
      cases h
      obtain ⟨name, tag, rfl, text, found, closed⟩ := backref_of_readBackref read
      rw [escape]
      exact .inl ⟨_, rfl, .backref text found closed⟩
  · split at h
    · cases h
    · rename_i c cs _ run
      cases h
      cases cs with
      | nil =>
        obtain ⟨literal, rfl⟩ := Piece.literal_of_readRun run
        exact .inl ⟨_, rfl, .literal literal⟩
      | cons c' cs => exact .inr ⟨c, c', cs, rfl, run⟩
    · cases h

theorem before_of_atomPiece {scope : Scope} {s : Symbol} {r r' : Reading} {p : Piece}
    (h : atomPiece scope s r = .ok (p, r')) (captures : Bool) :
    r'.declared = r.declared ∧ r'.opened = r.opened ∧ ∃ before : Tree → Tree,
      (∀ t d gs, Spells captures .sequence r.declared (glyphs r'.rest) t d gs →
        Spells captures .sequence r.declared (s.glyph :: glyphs r.rest) (before t) d gs) ∧
      ∀ ps t, Laid .sequence ps t → Laid .sequence (p :: ps) (before t) := by
  unfold atomPiece at h
  split at h
  · cases h
  · rename_i atom rest read
    split at h
    · cases h
    · rename_i read'
      cases h
      refine ⟨rfl, rfl, ?_⟩
      rcases item_of_readAtom read captures with ⟨t, single, item⟩ | ⟨c, c', cs, rfl, run⟩
      · rcases Piece.quantifier_of_readRepetition read' with
          ⟨rfl, rfl⟩ | ⟨rep, b, rfl, _, quantifier, counts⟩
        · exact ⟨.cat t, fun _ _ _ rest => .once item rest,
            fun _ _ rest => .item (.atom single) rest⟩
        · exact ⟨.cat (.loop b t), fun _ _ _ rest => .repeated item quantifier rest,
            fun _ _ rest => .item (.loop single counts) rest⟩
      · rcases Piece.quantifier_of_readRepetition read' with
          ⟨rfl, rfl⟩ | ⟨rep, b, rfl, follows, _, _⟩
        · exact ⟨.chars (c :: c' :: cs), fun _ _ _ rest => Piece.run_of_readRun run rest,
            fun _ _ rest => .literal rest⟩
        · rw [Piece.free_of_readRun run] at follows
          cases follows

theorem atom_of_atomPiece {scope : Scope} {s : Symbol} {r r' : Reading} {p : Piece}
    (h : atomPiece scope s r = .ok (p, r')) : ∃ atom repetition, p = .atom atom repetition := by
  unfold atomPiece at h
  split at h
  · cases h
  · split at h <;> cases h
    exact ⟨_, _, rfl⟩

theorem before_of_group {captures : Bool} {d d₁ d₂ : Declared} {gs gs₁ inside after : List Glyph}
    {tag : Option TagId} {looped : Bool} {p : Piece} {inner : List Piece} {t : Tree}
    (header : Header captures d gs tag d₁ gs₁)
    (text : Spells captures .alternatives d₁ gs₁ t d₂ (.plain ')' :: inside))
    (laid : Laid .alternatives inner t) (closes : Closes looped p inside after) :
    ∃ before : Tree → Tree,
      (∀ t' d' gs', Spells captures .sequence (d₂.close tag) after t' d' gs' →
        Spells captures .sequence d (.plain '(' :: gs) (before t') d' gs') ∧
      ∀ ps t', Laid .sequence ps t' →
        Laid .sequence (.openGroup tag looped :: (inner ++ [p]) ++ ps) (before t') := by
  have item := Spells.group header text
  cases closes with
  | once =>
    exact ⟨.cat (.group tag t), fun _ _ _ rest => .once item rest,
      fun _ _ rest => .item (.group laid) rest⟩
  | repeated quantifier counts =>
    exact ⟨.cat (.loop _ (.group tag t)), fun _ _ _ rest => .repeated item quantifier rest,
      fun _ _ rest => .item (.loopedGroup laid counts) rest⟩

theorem pieceAt_cases {scope : Scope} {s : Symbol} {r r' : Reading} {p : Piece}
    (h : pieceAt scope s r = .ok (p, r')) :
    (s.glyph = .plain '(' ∧ openGroup scope s.offset r = .ok (p, r')) ∨
      (s.glyph = .plain ')' ∧ closeGroup scope s.offset r = .ok (p, r')) ∨
      (s.glyph = .plain '|' ∧ p = .alternative ∧ r' = { r with quantified := false }) ∨
      atomPiece scope s r = .ok (p, r') := by
  simp only [pieceAt] at h
  split at h
  · cases h
  · split at h
    · rename_i opening
      exact .inl ⟨opening, h⟩
    · rename_i closing
      exact .inr (.inl ⟨closing, h⟩)
    · rename_i bar
      cases h
      exact .inr (.inr (.inl ⟨bar, rfl, rfl⟩))
    · cases h
    · cases h
    · exact .inr (.inr (.inr h))

theorem coherent_of_pieceAt {scope : Scope} {s : Symbol} {r r' : Reading} {p : Piece}
    (h : pieceAt scope s r = .ok (p, r')) (coherent : r.names.Coherent) : r'.names.Coherent := by
  obtain ⟨_, opens⟩ | ⟨_, closes⟩ | ⟨_, _, rfl⟩ | atom := pieceAt_cases h
  · obtain ⟨_, _, _, header⟩ := header_of_openGroup opens
    exact header.coherent coherent
  · obtain ⟨group, _, declared, _⟩ := end_of_closeGroup closes
    have names : r'.names = (r.declared.close group.tag).names := congrArg (·.names) declared
    rw [names]
    exact Declared.coherent_close coherent group.tag
  · exact coherent
  · obtain ⟨declared, _⟩ := before_of_atomPiece atom true
    have names : r'.names = r.names := congrArg (·.names) declared
    rwa [names]

theorem closeGroup_of_pieceAt {scope : Scope} {s : Symbol} {r r' : Reading}
    {repetition : Option Repetition} (h : pieceAt scope s r = .ok (.closeGroup repetition, r')) :
    s.glyph = .plain ')' ∧ closeGroup scope s.offset r = .ok (.closeGroup repetition, r') := by
  rcases pieceAt_cases h with ⟨_, opens⟩ | closes | ⟨_, other, _⟩ | atom
  · obtain ⟨_, other, _⟩ := header_of_openGroup opens
    cases other
  · exact closes
  · cases other
  · obtain ⟨_, _, other⟩ := atom_of_atomPiece atom
    cases other

theorem alternative_of_pieceAt {scope : Scope} {s : Symbol} {r r' : Reading}
    (h : pieceAt scope s r = .ok (.alternative, r')) :
    s.glyph = .plain '|' ∧ r' = { r with quantified := false } := by
  rcases pieceAt_cases h with ⟨_, opens⟩ | ⟨_, closes⟩ | ⟨bar, _, same⟩ | atom
  · obtain ⟨_, other, _⟩ := header_of_openGroup opens
    cases other
  · obtain ⟨_, _, _, closes⟩ := end_of_closeGroup closes
    obtain ⟨_, other⟩ := closes.piece
    cases other
  · exact ⟨bar, same⟩
  · obtain ⟨_, _, other⟩ := atom_of_atomPiece atom
    cases other

inductive Run (scope : Scope) : Reading → List Piece → Reading → Prop
  | stay (r : Reading) : Run scope r [] r
  | step {r s rest p r' ps r''} : r.rest = s :: rest →
      pieceAt scope s { r with rest := rest } = .ok (p, r') → Run scope r' ps r'' →
      Run scope r (p :: ps) r''

theorem run_of_ending {scope : Scope} {r : Reading} {names : GroupNames}
    (h : (Outline.ofReading scope r).ending = .ok names) :
    ∃ last, Run scope r (Outline.ofReading scope r).pieces last ∧ last.rest = [] ∧
      last.names = names := by
  fun_induction Outline.ofReading scope r with
  | case1 r front =>
    cases h
    exact ⟨r, .stay r, front, rfl⟩
  | case2 => cases h
  | case3 r s rest front p r' read _ _ ih =>
    obtain ⟨last, run, done, same⟩ := ih h
    exact ⟨last, .step front read run, done, same⟩

/-- A sequence is over where an alternative or the group around it is, and alternatives are over where
the group is. -/
def Stops (kind : Kind) (ps : List Piece) : Prop :=
  ∀ p rest, ps = p :: rest → (∃ r, p = .closeGroup r) ∨ (kind = .sequence ∧ p = .alternative)

/-- Some of the pieces that are read from `r` on lay out a part of the pattern, and the others are
read after it. -/
def Begins (scope : Scope) (kind : Kind) (r : Reading) (ps : List Piece) (last : Reading) : Prop :=
  ∃ t ps₁ ps₂ r', ps = ps₁ ++ ps₂ ∧ Laid kind ps₁ t ∧ Run scope r' ps₂ last ∧ Stops kind ps₂ ∧
    r'.opened = r.opened ∧ Spells scope.options.captures kind r.declared (glyphs r.rest) t
      r'.declared (glyphs r'.rest)

variable {scope : Scope} {last : Reading}

theorem begins_done {r : Reading} {ps : List Piece} (run : Run scope r ps last)
    (stops : Stops .sequence ps) : Begins scope .sequence r ps last :=
  ⟨.empty, [], ps, r, rfl, .done, run, stops, rfl, .done⟩

theorem begins_atom {s : Symbol} {r r' : Reading} {rest : List Symbol} {p : Piece}
    {ps : List Piece} (front : r.rest = s :: rest)
    (read : atomPiece scope s { r with rest := rest } = .ok (p, r'))
    (later : Begins scope .sequence r' ps last) : Begins scope .sequence r (p :: ps) last := by
  obtain ⟨declared, opened, before, spells, laid⟩ :=
    before_of_atomPiece read scope.options.captures
  obtain ⟨t, ps₁, ps₂, r'', rfl, laid₁, run, stops, opened', text⟩ := later
  rw [declared] at text
  have text := spells _ _ _ text
  refine ⟨before t, p :: ps₁, ps₂, r'', rfl, laid _ _ laid₁, run, stops, opened'.trans opened, ?_⟩
  rw [front]
  exact text

theorem begins_group {s : Symbol} {r r₁ : Reading} {rest : List Symbol} {p : Piece}
    {ps : List Piece} (front : r.rest = s :: rest) (paren : s.glyph = .plain '(')
    (opens : openGroup scope s.offset { r with rest := rest } = .ok (p, r₁))
    (balanced : last.opened = []) (body : Begins scope .alternatives r₁ ps last)
    (later : ∀ r' ps', ps'.length ≤ ps.length → Run scope r' ps' last →
      Begins scope .sequence r' ps' last) :
    Begins scope .sequence r (p :: ps) last := by
  obtain ⟨group, rfl, opened, header⟩ := header_of_openGroup opens
  obtain ⟨t, ps₁, ps₂, r₂, rfl, laid, run, stops, opened', text⟩ := body
  rw [opened] at opened'
  cases run with
  | stay =>
    rw [balanced] at opened'
    cases opened'
  | @step _ s₂ rest₂ p₂ r₃ ps₃ _ front₂ read run₃ =>
    obtain ⟨repetition, rfl⟩ := (stops _ _ rfl).resolve_right (fun h => Kind.noConfusion h.1)
    -- The alternatives stop at the end of a group, and the innermost one is the one just opened.
    obtain ⟨paren', closes⟩ := closeGroup_of_pieceAt read
    obtain ⟨group', opened₃, declared, closes⟩ := end_of_closeGroup closes
    rw [opened', List.cons.injEq] at opened₃
    obtain ⟨rfl, opened₃⟩ := opened₃
    obtain ⟨t', ps₃, ps₄, r₄, rfl, laid', run', stops', opened₄, text'⟩ :=
      later r₃ ps₃ (by simp only [List.length_append, List.length_cons]; omega) run₃
    rw [front₂, glyphs_cons, paren'] at text
    rw [declared] at text'
    obtain ⟨before, spells, lays⟩ := before_of_group header text laid closes
    refine ⟨before t', _, ps₄, r₄, ?_, lays _ _ laid', run', stops', opened₄.trans opened₃.symm, ?_⟩
    · simp only [List.cons_append, List.append_assoc, List.nil_append]
    · rw [front, glyphs_cons, paren]
      exact spells _ _ _ text'

theorem begins_alternatives {r : Reading} {ps : List Piece}
    (first : Begins scope .sequence r ps last)
    (later : ∀ r' ps', ps'.length < ps.length → Run scope r' ps' last →
      Begins scope .alternatives r' ps' last) :
    Begins scope .alternatives r ps last := by
  obtain ⟨t, ps₁, ps₂, r', rfl, laid, run, stops, opened, text⟩ := first
  by_cases bar : ∃ rest, ps₂ = .alternative :: rest
  · obtain ⟨ps₃, rfl⟩ := bar
    cases run with
    | @step _ s rest _ r₁ _ _ front read run₁ =>
      obtain ⟨bar, rfl⟩ := alternative_of_pieceAt read
      obtain ⟨t', ps₃, ps₄, r₂, rfl, laid', run', stops', opened', text'⟩ :=
        later _ ps₃ (by simp; omega) run₁
      rw [front, glyphs_cons, bar] at text
      exact ⟨.alt t t', _, ps₄, r₂, by simp, .either laid laid', run', stops', opened'.trans opened,
        .either text text'⟩
  · refine ⟨t, ps₁, ps₂, r', rfl, .only laid, run, ?_, opened, .only text⟩
    intro p rest same
    refine .inl ((stops p rest same).resolve_right ?_)
    rintro ⟨_, rfl⟩
    exact bar ⟨rest, same⟩

/-- Where all groups are closed in the end, the pieces from any place on begin with a sequence and with
alternatives. -/
theorem begins_of_run (balanced : last.opened = []) (n : Nat) :
    ∀ {r ps}, ps.length ≤ n → Run scope r ps last →
      Begins scope .sequence r ps last ∧ Begins scope .alternatives r ps last := by
  induction n with
  | zero =>
    intro r ps small run
    obtain rfl := List.length_eq_zero_iff.1 (Nat.le_zero.1 small)
    have first := begins_done run (by intro _ _ h; cases h)
    exact ⟨first, begins_alternatives first (by simp)⟩
  | succ n ih =>
    intro r ps small run
    have first : Begins scope .sequence r ps last := by
      cases run with
      | stay => exact begins_done (.stay _) (by intro _ _ h; cases h)
      | step front read run₁ =>
        rw [List.length_cons] at small
        rcases pieceAt_cases read with ⟨paren, opens⟩ | ⟨_, closes⟩ | ⟨_, rfl, _⟩ | atom
        · exact begins_group front paren opens balanced (ih (by omega) run₁).2
            fun _ _ shorter run' => (ih (by omega) run').1
        · refine begins_done (.step front read run₁) ?_
          rintro _ _ ⟨⟩
          obtain ⟨_, _, _, closes⟩ := end_of_closeGroup closes
          exact .inl closes.piece
        · refine begins_done (.step front read run₁) ?_
          rintro _ _ ⟨⟩
          exact .inr ⟨rfl, rfl⟩
        · exact begins_atom front atom (ih (by omega) run₁).1
    exact ⟨first, begins_alternatives first fun _ _ shorter run' => (ih (by omega) run').2⟩

theorem depth_of_run {r : Reading} {ps : List Piece} (run : Run scope r ps last) :
    ps.foldl Piece.depthAfter r.opened.length = last.opened.length := by
  induction run with
  | stay => rfl
  | @step r s rest p r' ps _ _ read _ ih =>
    rw [List.foldl_cons, ← ih]
    congr 1
    rcases pieceAt_cases read with ⟨_, opens⟩ | ⟨_, closes⟩ | ⟨_, rfl, rfl⟩ | atom
    · obtain ⟨_, rfl, opened, _⟩ := header_of_openGroup opens
      rw [opened]
      rfl
    · obtain ⟨_, opened, _, closes⟩ := end_of_closeGroup closes
      have opened : r.opened = _ := opened
      obtain ⟨_, rfl⟩ := closes.piece
      rw [opened]
      rfl
    · rfl
    · obtain ⟨_, _, rfl⟩ := atom_of_atomPiece atom
      obtain ⟨_, opened, _⟩ := before_of_atomPiece atom true
      rw [opened]
      rfl

end Reading

/-- A pattern whose pieces open and close as many groups denotes a tree that they lay out. -/
theorem denotes_of_outline {options : Options} {pattern : String} {o : Outline}
    {names : GroupNames} (outlined : Outline.ofText options pattern.toList = .ok o)
    (ended : o.ending = .ok names) (balanced : o.pieces.foldl Piece.depthAfter 0 = 0) :
    ∃ t, Laid .alternatives o.pieces t ∧ Denotes options pattern t names := by
  unfold Outline.ofText at outlined
  simp only at outlined
  split at outlined
  · cases outlined
  · rename_i pairing _
    cases outlined
    obtain ⟨last, run, done, rfl⟩ := Reading.run_of_ending ended
    have closed : last.opened = [] := by
      apply List.eq_nil_of_length_eq_zero
      rw [← Reading.depth_of_run run]
      exact balanced
    obtain ⟨t, ps₁, ps₂, r, split, laid, run', stops, opened, text⟩ :=
      (Reading.begins_of_run closed _ (Nat.le_refl _) run).2
    cases run' with
    | stay =>
      rw [done] at text
      rw [split, List.append_nil]
      exact ⟨t, laid, _, last.unnamed, lexed_read 0 _, text⟩
    | @step _ s rest p _ ps _ front read _ =>
      exfalso
      obtain ⟨repetition, rfl⟩ := (stops _ _ rfl).resolve_right fun h => Kind.noConfusion h.1
      have opened : r.opened = [] := opened
      obtain ⟨_, open', _⟩ := Reading.end_of_closeGroup (Reading.closeGroup_of_pieceAt read).2
      have open' : r.opened = _ := open'
      rw [opened] at open'
      cases open'

end PatternGraph
