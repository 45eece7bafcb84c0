import Mathlib.Data.List.Forall2
import PatternGraph.Proofs.Pattern.Derivation
import PatternGraph.Proofs.Pattern.Guards
import PatternGraph.Proofs.Pattern.Skimming

/-!
The pairing of the parens and the reading of a pattern in step. Wherever the reading has come, the scan
would go on from there to the same pairing, its open parens are those of the open groups, and the pair
of each group is the one that the scan has found or is going to find.
-/
namespace PatternGraph
open Symbol

namespace Symbol

theorem offset_of_read {skip offset : Nat} {text : List Char} {s : Symbol}
    (mem : s ∈ read skip offset text) : offset ≤ s.offset ∧ s.offset < offset + text.length := by
  induction text generalizing skip offset with
  | nil => cases mem
  | cons c rest ih =>
    rw [List.length_cons]
    unfold read at mem
    split at mem
    · have := ih mem
      omega
    · split at mem <;>
      · rcases List.mem_cons.1 mem with rfl | mem
        · simp
        · have := ih mem
          omega

theorem length_read_le (skip offset : Nat) (text : List Char) :
    (read skip offset text).length ≤ text.length := by
  induction text generalizing skip offset with
  | nil => exact Nat.le_refl _
  | cons c rest ih =>
    unfold read
    split
    · exact Nat.le_succ_of_le (ih _ _)
    · split <;> exact Nat.succ_le_succ (ih _ _)

theorem pairwise_read (skip offset : Nat) (text : List Char) :
    ((read skip offset text).map (·.offset)).Pairwise (· < ·) := by
  have later {skip offset : Nat} {rest : List Char} :
      ∀ x ∈ (read skip (offset + 1) rest).map (·.offset), offset < x := by
    intro x mem
    obtain ⟨s, found, rfl⟩ := List.mem_map.1 mem
    exact (offset_of_read found).1
  induction text generalizing skip offset with
  | nil => exact .nil
  | cons c rest ih =>
    unfold read
    split
    · exact ih _ _
    · split <;> exact .cons later (ih _ _)

end Symbol

/-- The open parens, the symbols ahead and the end of the pattern come in this order. -/
def Tidy (length : Nat) (opened : List Nat) (symbols : List Symbol) : Prop :=
  (opened.reverse ++ symbols.map (·.offset) ++ [length]).Pairwise (· < ·)

namespace Tidy
variable {length x : Nat} {opened : List Nat} {s : Symbol} {symbols after : List Symbol}

theorem suffix (tidy : Tidy length opened symbols) (later : after <:+ symbols) :
    Tidy length opened after := by
  apply List.Pairwise.sublist _ tidy
  exact ((List.Sublist.refl _).append (later.sublist.map _)).append (List.Sublist.refl _)

theorem opens (tidy : Tidy length opened (s :: symbols)) :
    Tidy length (s.offset :: opened) symbols := by
  simpa [Tidy] using tidy

theorem closes (tidy : Tidy length (x :: opened) symbols) : Tidy length opened symbols := by
  apply List.Pairwise.sublist _ tidy
  rw [List.reverse_cons]
  exact ((List.sublist_append_left _ _).append (List.Sublist.refl _)).append (List.Sublist.refl _)

theorem inside (tidy : Tidy length opened symbols) (mem : s ∈ symbols) : s.offset < length := by
  have mem : s.offset ∈ opened.reverse ++ symbols.map (·.offset) :=
    List.mem_append_right _ (List.mem_map_of_mem mem)
  exact (List.pairwise_append.1 tidy).2.2 _ mem length List.mem_cons_self

theorem fresh (tidy : Tidy length (x :: opened) symbols) :
    x < length ∧ x ∉ opened ∧ ∀ s ∈ symbols, s.offset ≠ x := by
  obtain ⟨sorted, _, ending⟩ := List.pairwise_append.1 tidy
  obtain ⟨front, _, later⟩ := List.pairwise_append.1 sorted
  rw [List.reverse_cons] at front later ending
  refine ⟨?_, ?_, ?_⟩
  · exact ending x (by simp) length List.mem_cons_self
  · intro mem
    exact Nat.lt_irrefl x ((List.pairwise_append.1 front).2.2 x (by simpa using mem) x (by simp))
  · intro s mem same
    have := later x (by simp) s.offset (List.mem_map_of_mem mem)
    omega

end Tidy

namespace Pairing
variable {p q : Pairing} {opened : List Nat} {symbols : List Symbol}

theorem size_record (p : Pairing) (x : Nat) (pair : GroupPair) :
    (p.record x pair).pairs.size = p.pairs.size := by simp [record]

theorem pairAt?_record (p : Pairing) (x y : Nat) (pair : GroupPair) :
    (p.record x pair).pairAt? y =
      if x = y ∧ x < p.pairs.size then some pair else p.pairAt? y := by
  simp only [pairAt?, record, Array.getElem?_setIfInBounds]
  by_cases same : x = y
  · subst same
    by_cases inside : x < p.pairs.size <;> simp [inside]
  · simp [same]

inductive Scans : Pairing → List Nat → List Symbol → Pairing → Prop
  | done (p : Pairing) : Scans p [] [] p
  | pass {p q : Pairing} {opened : List Nat} {s : Symbol} {rest after : List Symbol} :
      after <:+ rest → Scans p opened after q → Scans p opened (s :: rest) q
  | opens {p q : Pairing} {opened : List Nat} {s : Symbol} {rest : List Symbol} :
      s.glyph = .plain '(' → Scans p (s.offset :: opened) rest q → Scans p opened (s :: rest) q
  | closes {p q : Pairing} {opened : List Nat} {x : Nat} {s : Symbol} {rest : List Symbol} :
      Scans (p.record x ⟨s.offset, quantifierFollows rest⟩) opened rest q →
      Scans p (x :: opened) (s :: rest) q

theorem scans_of_scan (scanned : scan p opened symbols = .ok q) : Scans p opened symbols q := by
  fun_induction scan p opened symbols with
  | case1 =>
    cases scanned
    exact .done _
  | case2 | case3 | case6 => cases scanned
  | case4 _ _ _ _ _ _ _ ends _ ih => exact .pass (Pairing.suffix_of_classEnd? ends) (ih scanned)
  | case5 _ _ _ _ paren ih => exact .opens paren (ih scanned)
  | case7 _ _ _ _ _ _ ih => exact .closes (ih scanned)
  | case8 _ _ _ _ _ _ _ ih => exact .pass (List.suffix_refl _) (ih scanned)

namespace Scans

theorem settled {x : Nat} (scans : Scans p opened symbols q) (closed : x ∉ opened)
    (gone : ∀ s ∈ symbols, s.offset ≠ x) : q.pairAt? x = p.pairAt? x := by
  induction scans with
  | done => rfl
  | pass later _ ih => exact ih closed fun s mem => gone s (List.mem_cons_of_mem _ (later.mem mem))
  | @opens _ _ _ s _ _ _ ih =>
    have other : s.offset ≠ x := gone s List.mem_cons_self
    refine ih ?_ fun s mem => gone s (List.mem_cons_of_mem _ mem)
    simpa [Ne.symm other] using closed
  | @closes _ _ _ y _ _ _ ih =>
    rw [List.mem_cons, not_or] at closed
    obtain ⟨other, closed⟩ := closed
    rw [ih closed fun s mem => gone s (List.mem_cons_of_mem _ mem), pairAt?_record,
      if_neg fun same => other same.1.symm]

theorem paired {x : Nat} (scans : Scans p opened symbols q) (inside : x < p.pairs.size)
    (found : x ∈ opened ∨ (p.pairAt? x).isSome = true) : (q.pairAt? x).isSome = true := by
  induction scans with
  | done => exact found.resolve_left (by simp)
  | pass _ _ ih => exact ih inside found
  | opens _ _ ih => exact ih inside (found.imp_left fun mem => List.mem_cons_of_mem _ mem)
  | @closes p _ _ y _ _ _ ih =>
    apply ih (by rwa [size_record])
    rw [pairAt?_record]
    by_cases same : y = x
    · right
      rw [if_pos ⟨same, by omega⟩]
      rfl
    · rw [if_neg fun both => same both.1]
      refine found.imp_left fun mem => ?_
      exact (List.mem_cons.1 mem).resolve_left (Ne.symm same)

theorem of_paired {x : Nat} {pair : GroupPair} (scans : Scans p opened symbols q)
    (found : q.pairAt? x = some pair) :
    p.pairAt? x = some pair ∨ x ∈ opened ∨ ∃ s ∈ symbols, s.glyph = .plain '(' ∧ s.offset = x := by
  have later {s : Symbol} {rest after : List Symbol} (suffix : after <:+ rest) :
      (∃ t ∈ after, t.glyph = .plain '(' ∧ t.offset = x) →
        ∃ t ∈ s :: rest, t.glyph = .plain '(' ∧ t.offset = x := by
    rintro ⟨t, mem, opening⟩
    exact ⟨t, List.mem_cons_of_mem s (suffix.mem mem), opening⟩
  induction scans with
  | done => exact .inl found
  | pass suffix _ ih => exact (ih found).imp_right fun place => place.imp_right (later suffix)
  | @opens _ _ _ s _ paren _ ih =>
    rcases ih found with old | mem | coming
    · exact .inl old
    · rcases List.mem_cons.1 mem with rfl | mem
      · exact .inr (.inr ⟨s, List.mem_cons_self, paren, rfl⟩)
      · exact .inr (.inl mem)
    · exact .inr (.inr (later (List.suffix_refl _) coming))
  | @closes _ _ _ y _ _ _ ih =>
    rcases ih found with old | mem | coming
    · rw [pairAt?_record] at old
      split at old
      · rename_i same
        exact .inr (.inl (same.1 ▸ List.mem_cons_self))
      · exact .inl old
    · exact .inr (.inl (List.mem_cons_of_mem _ mem))
    · exact .inr (.inr (later (List.suffix_refl _) coming))

theorem length_opened_le (scans : Scans p opened symbols q) : opened.length ≤ symbols.length := by
  induction scans with
  | done => exact Nat.le_refl _
  | pass later _ ih => exact Nat.le_succ_of_le (Nat.le_trans ih later.length_le)
  | opens _ _ ih => exact Nat.le_succ_of_le (Nat.le_trans (Nat.le_succ _) ih)
  | closes _ ih => exact Nat.succ_le_succ ih

end Scans

end Pairing

namespace Reading
variable {scope : Scope} {r r' : Reading} {s : Symbol} {rest : List Symbol} {p : Piece}
  {tag : Option TagId} {offset : Nat} {E : PatternError → Prop}

/-- The scan that paired the parens would find the same pairing from where the reading is. -/
structure InStepWith (scope : Scope) (before : Pairing) (opened : List Nat) (r : Reading) : Prop where
  scanned : before.scan opened r.rest = .ok scope.pairing
  tidy : Tidy scope.length opened r.rest
  size : before.pairs.size = scope.length
  groups : List.Forall₂ (fun x group => scope.pairing.pairAt? x = some group.pair) opened r.opened
  /-- Each group with a name has a paren of its own. -/
  named : r.names.size + r.rest.length ≤ scope.length

def InStep (scope : Scope) (r : Reading) : Prop :=
  ∃ before opened, InStepWith scope before opened r

/-- Errors at places of the pattern are among `E`, and so are those of limits that such a pattern
could pass. -/
structure Admits (E : PatternError → Prop) (options : Options) (length : Nat) : Prop where
  placed : ∀ e k, e.offset = some k → k ≤ length → E e
  limits : (∀ cause, E (.anywhere cause)) ∨
    options.stateLimit = none ∧ 2 * length + 3 ≤ Index.limit

theorem Admits.located (admits : Admits E scope.options scope.length) {opened : List Nat}
    {symbols : List Symbol} (tidy : Tidy scope.length opened symbols) {e : PatternError}
    (located : Located scope.length symbols e) : E e := by
  obtain ⟨k, offset, rfl | ⟨s, mem, rfl⟩⟩ := located
  · exact admits.placed e _ offset (Nat.le_refl _)
  · exact admits.placed e _ offset (Nat.le_of_lt (tidy.inside mem))

theorem skims_of_readHeader (h : readHeader scope offset r = .ok (tag, r')) :
    Skims r.rest r'.rest := by
  simp only [readHeader] at h
  split at h
  · rw [rest_of_register h]
    exact .refl _
  · rename_i s rest front
    split at h
    · rename_i mark
      have mark := neutral_of_isPlain mark (by decide)
      split at h
      · cases h
      · rename_i t after
        split at h
        · rename_i colon
          cases h
          rw [front]
          exact ((Skims.refl _).cons (neutral_of_isPlain colon (by decide))).cons mark
        · split at h
          · split at h
            · cases h
            · rename_i name
              rw [rest_of_register h, front]
              exact ((Piece.skimming_readName _).skims name).cons mark
          · cases h
    · rw [rest_of_register h]
      exact .refl _

theorem limit_le_of_register {names : GroupNames} {name : String} {e : IndexError}
    (h : names.register name = .error e) : Index.limit ≤ names.size := by
  by_contra room
  have index : Index.ofNat? .tag names.size = .ok ⟨names.size⟩ :=
    Index.ofNat?_eq_ok_iff.2 ⟨by simp only [Index.limit] at room; omega, rfl⟩
  rw [GroupNames.register, index] at h
  cases h

theorem error_of_register {name : String} {e : PatternError}
    (h : register scope offset name r = .error e) :
    e.offset = some offset ∨ ∃ cause, e = .anywhere cause ∧ Index.limit ≤ r.names.size := by
  unfold register at h
  split at h
  · cases h
    exact .inl rfl
  · split at h
    · split at h
      · rename_i failed
        cases h
        exact .inr ⟨_, rfl, limit_le_of_register failed⟩
      · cases h
    · cases h

theorem error_of_readHeader {e : PatternError} (h : readHeader scope offset r = .error e) :
    Located scope.length r.rest e ∨ e.offset = some offset ∨
      ∃ cause, e = .anywhere cause ∧ Index.limit ≤ r.names.size := by
  simp only [readHeader] at h
  split at h
  · have unnamed := error_of_register h
    exact .inr unnamed
  · rename_i s rest front
    rw [front]
    split at h
    · split at h
      · cases h
        exact .inl (.head ..)
      · rename_i t after
        split at h
        · cases h
        · split at h
          · split at h
            · rename_i refused
              cases h
              exact .inl (((Piece.skimming_readName _).located refused).mono (List.suffix_cons ..))
            · have named := error_of_register h
              exact .inr named
          · cases h
            exact .inl (.head ..)
    · have unnamed := error_of_register h
      exact .inr unnamed

theorem size_of_readHeader (h : readHeader scope offset r = .ok (tag, r')) :
    r'.names.size ≤ r.names.size + 1 := by
  rcases (header_of_readHeader h).1.tag with ⟨_, same⟩ | ⟨i, _, index, next⟩
  · exact Nat.le_succ_of_le (Nat.le_of_eq same)
  · exact Nat.le_of_eq (next.trans (congrArg (· + 1) index))

variable {before : Pairing} {opened : List Nat}

theorem InStepWith.skim (inStep : InStepWith scope before opened r)
    (skims : Skims r.rest r'.rest) (names : r'.names.size ≤ r.names.size)
    (same : r'.opened = r.opened) : InStepWith scope before opened r' where
  scanned := (skims.scan before opened).symm.trans inStep.scanned
  tidy := inStep.tidy.suffix skims.suffix
  size := inStep.size
  groups := same ▸ inStep.groups
  named := by
    have := skims.suffix.length_le
    have := inStep.named
    omega

theorem InStepWith.paired (inStep : InStepWith scope before opened r) (front : r.rest = s :: rest)
    (paren : s.glyph = .plain '(') : ∃ pair, scope.pairing.pairAt? s.offset = some pair := by
  obtain ⟨scanned, tidy, size, _, _⟩ := inStep
  rw [front] at scanned tidy
  rw [Pairing.scan_open paren] at scanned
  have inside := tidy.inside List.mem_cons_self
  have found := (Pairing.scans_of_scan scanned).paired (by omega) (.inl List.mem_cons_self)
  exact Option.isSome_iff_exists.1 found

theorem guards_openGroup (admits : Admits E scope.options scope.length)
    (inStep : InStepWith scope before opened r) (front : r.rest = s :: rest)
    (paren : s.glyph = .plain '(') :
    Guards E (fun found => InStep scope found.2)
      (openGroup scope s.offset { r with rest := rest }) := by
  obtain ⟨pair, found⟩ := inStep.paired front paren
  obtain ⟨scanned, tidy, size, groups, named⟩ := inStep
  rw [front] at scanned tidy named
  rw [List.length_cons] at named
  rw [Pairing.scan_open paren] at scanned
  have inside := tidy.inside List.mem_cons_self
  have place (cause : Cause) : E (.here cause s.offset) :=
    admits.placed _ _ rfl (Nat.le_of_lt inside)
  unfold openGroup
  simp only [found]
  split
  · exact place _
  · split
    · rename_i refused
      rcases error_of_readHeader refused with located | here | ⟨cause, rfl, many⟩
      · exact admits.located (tidy.suffix (List.suffix_cons s rest)) located
      · exact admits.placed _ _ here (Nat.le_of_lt inside)
      · rcases admits.limits with all | ⟨_, room⟩
        · exact all cause
        · simp only at many
          omega
    · rename_i tag r' header
      have skims := skims_of_readHeader header
      have names := size_of_readHeader header
      refine ⟨before, s.offset :: opened, ?_, ?_, size, ?_, ?_⟩
      · rw [← skims.scan]
        exact scanned
      · exact tidy.opens.suffix skims.suffix
      · simp only [(header_of_readHeader header).2]
        exact .cons found groups
      · have := skims.suffix.length_le
        simp only at names this ⊢
        omega

/-- The innermost group is closed by the paren that it was paired with. -/
theorem InStepWith.closes (inStep : InStepWith scope before opened r) (front : r.rest = s :: rest)
    (paren : s.glyph = .plain ')') :
    ∃ x outer group groups, opened = x :: outer ∧ r.opened = group :: groups ∧
      scope.pairing.pairAt? x = some group.pair ∧
      group.pair = ⟨s.offset, quantifierFollows rest⟩ ∧
      InStepWith scope (before.record x group.pair) outer { r with rest := rest, opened := groups } := by
  obtain ⟨scanned, tidy, size, groups, named⟩ := inStep
  rw [front] at scanned tidy named
  generalize r.opened = stack at groups ⊢
  cases groups with
  | nil =>
    rw [Pairing.scan_close_nil paren] at scanned
    cases scanned
  | @cons x group outer groups found others =>
    rw [Pairing.scan_close paren] at scanned
    have closed := tidy.suffix (List.suffix_cons s rest)
    obtain ⟨inside, other, gone⟩ := closed.fresh
    -- A paren is scanned once, so what is recorded here is the pair that the group was opened with.
    have settled := (Pairing.scans_of_scan scanned).settled other gone
    rw [Pairing.pairAt?_record, if_pos ⟨rfl, by omega⟩, found, Option.some.injEq] at settled
    refine ⟨x, outer, group, groups, rfl, rfl, found, settled, ?_, closed.closes, ?_, others, ?_⟩
    · rw [settled]
      exact scanned
    · rw [Pairing.size_record, size]
    · rw [List.length_cons] at named
      exact Nat.le_of_succ_le named

section Closing
variable {group : OpenGroup} {groups : List OpenGroup}

theorem closeGroup_once (stack : r.opened = group :: groups) (pair : group.pair = ⟨offset, false⟩) :
    closeGroup scope offset r = .ok (.closeGroup none,
      { r with names := (r.declared.close group.tag).names, opened := groups,
               quantified := false }) := by
  simp only [closeGroup, stack, pair, bne_self_eq_false, Bool.false_eq_true, if_false]
  cases group.tag <;> rfl

theorem closeGroup_refused {e : PatternError} (stack : r.opened = group :: groups)
    (pair : group.pair = ⟨offset, true⟩)
    (refused : Piece.readQuantifier scope.length r.rest = .error e) :
    closeGroup scope offset r = .error (.refused e) := by
  simp only [closeGroup, stack, pair, bne_self_eq_false, Bool.false_eq_true, if_false, if_true,
    refused]

theorem closeGroup_repeated {repetition : Repetition} {after : List Symbol}
    (stack : r.opened = group :: groups) (pair : group.pair = ⟨offset, true⟩)
    (read : Piece.readQuantifier scope.length r.rest = .ok (repetition, after)) :
    closeGroup scope offset r = .ok (.closeGroup (some repetition),
      { r with rest := after, names := (r.declared.close group.tag).names, opened := groups,
               quantified := true }) := by
  simp only [closeGroup, stack, pair, bne_self_eq_false, Bool.false_eq_true, if_false, if_true,
    read]
  cases group.tag <;> rfl

end Closing

theorem guards_closeGroup (admits : Admits E scope.options scope.length)
    (inStep : InStepWith scope before opened r) (front : r.rest = s :: rest)
    (paren : s.glyph = .plain ')') :
    Guards E (fun found => InStep scope found.2)
      (closeGroup scope s.offset { r with rest := rest }) := by
  obtain ⟨x, outer, group, groups, -, stack, -, pair, next⟩ := inStep.closes front paren
  have same : (r.declared.close group.tag).names.size = r.names.size :=
    r.declared.size_close group.tag
  have quantifier : Skimming scope.length rest _ := Piece.skimming_readQuantifier rest
  cases follows : quantifierFollows rest with
  | false =>
    rw [follows] at pair
    rw [closeGroup_once (r := { r with rest := rest }) stack pair]
    exact ⟨_, outer, next.skim (.refl rest) (Nat.le_of_eq same) rfl⟩
  | true =>
    rw [follows] at pair
    cases read : Piece.readQuantifier scope.length rest with
    | error e =>
      rw [closeGroup_refused (r := { r with rest := rest }) stack pair read]
      exact admits.located next.tidy (quantifier.located read)
    | ok found =>
      obtain ⟨repetition, after⟩ := found
      rw [closeGroup_repeated (r := { r with rest := rest }) stack pair read]
      exact ⟨_, outer, next.skim (quantifier.skims read) (Nat.le_of_eq same) rfl⟩

def BeginsAtom (s : Symbol) : Prop :=
  s.isQuantifier = false ∧ ∀ c ∈ ['(', ')', '|', '}', ']'], s.glyph ≠ .plain c

theorem BeginsAtom.isLiteral (begins : BeginsAtom s) (bracket : s.glyph ≠ .plain '[')
    (dot : s.glyph ≠ .plain '.') (backref : ∀ v, s.glyph ≠ .escape 'k' v) :
    Piece.isLiteral s = true := by
  obtain ⟨quantifier, operators⟩ := begins
  unfold Piece.isLiteral
  split
  · rename_i c plain
    rw [Bool.not_eq_true', ← Bool.not_eq_true]
    intro special
    unfold Piece.isMeta at special
    split at special
    · exact dot plain
    · exact operators '(' (by decide) plain
    · exact operators ')' (by decide) plain
    · exact bracket plain
    · exact operators ']' (by decide) plain
    · simp [Symbol.isQuantifier, plain] at quantifier
    · simp [Symbol.isQuantifier, plain] at quantifier
    · simp [Symbol.isQuantifier, plain] at quantifier
    · exact operators '}' (by decide) plain
    · exact operators '|' (by decide) plain
    · cases special
  · rename_i c v escape
    have other : c ≠ 'k' := by
      rintro rfl
      exact backref v escape
    simpa using other
  · rfl

theorem skimming_readBackref (s : Symbol) (neutral : s.Neutral) (r : Reading) :
    Skimming scope.length (s :: r.rest) (readBackref scope s.offset r) := by
  unfold readBackref
  have name : Skimming scope.length r.rest _ := Piece.skimming_readName r.rest
  split
  · rename_i refused
    exact (name.located refused).mono (List.suffix_cons s r.rest)
  · rename_i read
    split
    · exact .head ..
    · split
      · exact (name.skims read).cons neutral
      · exact .head ..

theorem skims_of_readAtom {atom : Atom} {after : List Symbol}
    (h : readAtom scope s r = .ok (atom, after)) : Skims (s :: r.rest) after := by
  unfold readAtom at h
  split at h
  · rename_i bracket
    have reads : Skimming scope.length (s :: r.rest) _ := Piece.skimming_readClass bracket r.rest
    split at h
    · cases h
    · rename_i read
      cases h
      exact reads.skims read
  · rename_i dot
    cases h
    exact (Skims.refl r.rest).cons (neutral_of_plain dot (by decide))
  · rename_i escape
    have reads : Skimming scope.length (s :: r.rest) _ :=
      skimming_readBackref s (by simp [Neutral, escape]) r
    split at h
    · cases h
    · rename_i read
      cases h
      exact reads.skims read
  · have reads : Skimming scope.length (s :: r.rest) _ := Piece.skimming_readRun true (s :: r.rest)
    split at h
    · cases h
    · rename_i read
      cases h
      exact reads.skims read
    · cases h

theorem skims_of_atomPiece (h : atomPiece scope s r = .ok (p, r')) :
    Skims (s :: r.rest) r'.rest := by
  unfold atomPiece at h
  split at h
  · cases h
  · rename_i after read
    have repetition : Skimming scope.length after _ := Piece.skimming_readRepetition after
    split at h
    · cases h
    · rename_i read'
      cases h
      exact (skims_of_readAtom read).trans (repetition.skims read')

theorem skims_of_openGroup (h : openGroup scope offset r = .ok (p, r')) : Skims r.rest r'.rest := by
  unfold openGroup at h
  dsimp only at h
  split at h
  · cases h
  · split at h
    · cases h
    · split at h
      · cases h
      · rename_i after header
        cases h
        have skims : Skims r.rest after.rest := skims_of_readHeader header
        exact skims

theorem skims_of_closeGroup (h : closeGroup scope offset r = .ok (p, r')) :
    Skims r.rest r'.rest := by
  have quantifier : Skimming scope.length r.rest _ := Piece.skimming_readQuantifier r.rest
  unfold closeGroup at h
  dsimp only at h
  split at h
  · cases h
  · split at h
    · cases h
    · split at h
      · split at h
        · cases h
        · rename_i read
          cases h
          exact quantifier.skims read
      · cases h
        exact .refl _

theorem guards_readAtom (located : ∀ e, Located scope.length (s :: r.rest) e → E e)
    (begins : BeginsAtom s) :
    Guards E (fun found => Skims (s :: r.rest) found.2) (readAtom scope s r) := by
  unfold readAtom
  split
  · rename_i bracket
    have reads : Skimming scope.length (s :: r.rest) _ := Piece.skimming_readClass bracket r.rest
    split
    · rename_i refused
      exact located _ (reads.located refused)
    · rename_i read
      exact reads.skims read
  · rename_i dot
    exact (Skims.refl r.rest).cons (neutral_of_plain dot (by decide))
  · rename_i escape
    have reads : Skimming scope.length (s :: r.rest) _ :=
      skimming_readBackref s (by simp [Neutral, escape]) r
    split
    · rename_i refused
      exact located _ (reads.located refused)
    · rename_i read
      exact reads.skims read
  · rename_i bracket dot backref
    have literal := begins.isLiteral bracket dot backref
    have reads : Skimming scope.length (s :: r.rest) _ := Piece.skimming_readRun true (s :: r.rest)
    split
    · rename_i refused
      exact located _ (reads.located refused)
    · rename_i read
      exact reads.skims read
    · rename_i empty
      exact absurd empty (Piece.readRun_ne_nil literal)

theorem guards_atomPiece (admits : Admits E scope.options scope.length)
    (inStep : InStepWith scope before opened r) (front : r.rest = s :: rest)
    (begins : BeginsAtom s) :
    Guards E (fun found => InStep scope found.2)
      (atomPiece scope s { r with rest := rest }) := by
  have located : ∀ e, Located scope.length (s :: rest) e → E e :=
    fun e => admits.located (front ▸ inStep.tidy)
  have atom := guards_readAtom (r := { r with rest := rest }) located begins
  unfold atomPiece
  split
  · rename_i failed
    rw [failed] at atom
    exact atom.fails
  · rename_i after read
    have skims := atom.holds read
    have repetition : Skimming scope.length after _ := Piece.skimming_readRepetition after
    split
    · rename_i refused
      exact located _ ((repetition.located refused).mono skims.suffix)
    · rename_i read'
      have whole := skims.trans (repetition.skims read')
      exact ⟨before, opened, inStep.skim (front ▸ whole) (Nat.le_refl _) rfl⟩

/-- A piece is read in step, or refused at a place of the pattern. -/
theorem guards_pieceAt (admits : Admits E scope.options scope.length) (inStep : InStep scope r)
    (front : r.rest = s :: rest) :
    Guards E (fun found => InStep scope found.2) (pieceAt scope s { r with rest := rest }) := by
  obtain ⟨before, opened, inStep⟩ := inStep
  have place (cause : Cause) : E (.here cause s.offset) :=
    admits.located (front ▸ inStep.tidy) (.head cause s rest)
  unfold pieceAt
  split
  · exact place _
  · rename_i quantifier
    split
    · rename_i paren
      exact guards_openGroup admits inStep front paren
    · rename_i paren
      exact guards_closeGroup admits inStep front paren
    · rename_i bar
      refine ⟨before, opened, inStep.skim ?_ (Nat.le_refl _) rfl⟩
      rw [front]
      exact (Skims.refl rest).cons (neutral_of_plain bar (by decide))
    · exact place _
    · exact place _
    · rename_i opening closing bar brace bracket
      apply guards_atomPiece admits inStep front
      refine ⟨Bool.eq_false_iff.2 quantifier, ?_⟩
      intro c mem
      simp only [List.mem_cons, List.not_mem_nil, or_false] at mem
      rcases mem with rfl | rfl | rfl | rfl | rfl <;> assumption

theorem InStep.run {ps : List Piece} (inStep : InStep scope r) (run : Run scope r ps r') :
    InStep scope r' := by
  induction run with
  | stay => exact inStep
  | step front read _ ih =>
    have admits : Admits (fun _ => True) scope.options scope.length :=
      ⟨fun _ _ _ _ => trivial, .inl fun _ => trivial⟩
    exact ih ((guards_pieceAt admits inStep front).holds read)

theorem guards_ending (admits : Admits E scope.options scope.length) (inStep : InStep scope r) :
    Guards E (fun _ => True) (Outline.ofReading scope r).ending := by
  fun_induction Outline.ofReading scope r with
  | case1 => trivial
  | case2 r s rest front e failed =>
    have guards := guards_pieceAt admits inStep front
    rw [failed] at guards
    exact guards.fails
  | case3 r s rest front p r' read _ _ ih =>
    exact ih ((guards_pieceAt admits inStep front).holds read)

theorem tidy_start (text : List Char) : Tidy text.length [] (ofText text) := by
  rw [Tidy, List.pairwise_append]
  refine ⟨pairwise_read 0 0 text, List.pairwise_singleton _ _, ?_⟩
  intro x mem y last
  obtain ⟨s, found, rfl⟩ := List.mem_map.1 mem
  rw [List.mem_singleton.1 last]
  simpa using (offset_of_read found).2

theorem inStep_start {options : Options} {text : List Char} {pairing : Pairing}
    (paired : Pairing.ofSymbols text.length (ofText text) = .ok pairing) :
    InStep ⟨options, pairing, text.length⟩ (.start (ofText text)) := by
  refine ⟨.unpaired text.length, [], paired, tidy_start text, by simp [Pairing.unpaired], .nil, ?_⟩
  have := length_read_le 0 0 text
  simpa [start, GroupNames.empty, GroupNames.size, ofText] using this

end Reading

end PatternGraph
