import PatternGraph.Proofs.Pattern.GroupParens
import PatternGraph.Proofs.Pattern.Untagging

/-!
Reading a pattern under another nest limit. Nothing changes up to the first paren that opens a group
too deep, and there the reading ends.
-/
namespace PatternGraph
open Symbol

def Scope.under (scope : Scope) (options : Options) : Scope := { scope with options := options }

def Failure.tooDeep (options : Options) (offset : Nat) : Failure :=
  .refused (.here (.nestLimitExceeded options.nestLimit) offset)

namespace Reading
variable {scope : Scope} {options : Options} {r r' : Reading} {s : Symbol} {p : Piece} {offset : Nat}

theorem readHeader_under (same : options.captures = scope.options.captures) (offset : Nat)
    (r : Reading) : readHeader (scope.under options) offset r = readHeader scope offset r := by
  have registers (name : String) (r : Reading) :
      register (scope.under options) offset name r = register scope offset name r := by
    simp only [register, Scope.under, same]
  have length : (scope.under options).length = scope.length := rfl
  simp only [readHeader, registers, length]

theorem openGroup_under (same : options.captures = scope.options.captures)
    (within : r.opened.length < options.nestLimit)
    (opens : openGroup scope offset r = .ok (p, r')) :
    openGroup (scope.under options) offset r = .ok (p, r') := by
  have limit : (scope.under options).options.nestLimit = options.nestLimit := rfl
  have pairing : (scope.under options).pairing = scope.pairing := rfl
  simp only [openGroup, limit, pairing, readHeader_under same, if_neg (Nat.not_le.2 within)]
  simp only [openGroup] at opens
  split at opens
  · cases opens
  · exact opens

theorem pieceAt_under (same : options.captures = scope.options.captures)
    (within : s.glyph = .plain '(' → r.opened.length < options.nestLimit)
    (read : pieceAt scope s r = .ok (p, r')) : pieceAt (scope.under options) s r = .ok (p, r') := by
  unfold pieceAt at read ⊢
  split
  · rename_i quantifier
    rw [if_pos quantifier] at read
    cases read
  · rename_i quantifier
    rw [if_neg quantifier] at read
    split at read
    · rename_i paren
      exact openGroup_under same (within paren) read
    all_goals exact read

theorem pieceAt_tooDeep (scope : Scope) (paren : s.glyph = .plain '(')
    (deep : options.nestLimit ≤ r.opened.length) :
    pieceAt (scope.under options) s r = .error (.tooDeep options s.offset) := by
  have limit : (scope.under options).options.nestLimit = options.nestLimit := rfl
  simp [pieceAt, isQuantifier, paren, openGroup, limit, deep, Failure.tooDeep]

end Reading

namespace Outline
variable {scope : Scope} {options : Options} {r : Reading} {names : GroupNames}

theorem ofReading_under (options : Options) (same : options.captures = scope.options.captures)
    (ended : (ofReading scope r).ending = .ok names)
    (within : ∀ paren ∈ groupParens false r.opened.length r.rest, paren.depth ≤ options.nestLimit) :
    ofReading (scope.under options) r = ofReading scope r := by
  fun_induction ofReading scope r with
  | case1 r front => exact ofReading_done front
  | case2 => cases ended
  | case3 r s rest front p r' read _ _ ih =>
    rw [front] at within
    have shallow : s.glyph = .plain '(' → r.opened.length < options.nestLimit := by
      intro opening
      rw [groupParens_open opening, List.forall_mem_cons] at within
      exact within.1
    have later : ∀ paren ∈ groupParens false r'.opened.length r'.rest,
        paren.depth ≤ options.nestLimit := by
      rcases Reading.groupParens_of_pieceAt read with ⟨_, _, parens⟩ | ⟨_, _, parens⟩
      · rw [parens, List.forall_mem_cons] at within
        exact within.2
      · rwa [parens] at within
    have read' := Reading.pieceAt_under (r := { r with rest := rest }) same shallow read
    rw [ofReading_piece front read', ih ended later]

theorem ofReading_tooDeep {paren : GroupParen} (options : Options)
    (same : options.captures = scope.options.captures)
    (ended : (ofReading scope r).ending = .ok names)
    (first : (groupParens false r.opened.length r.rest).find? (options.nestLimit < ·.depth) =
      some paren) :
    (ofReading (scope.under options) r).pieces <+: (ofReading scope r).pieces ∧
      (ofReading (scope.under options) r).ending = .error (.tooDeep options paren.offset) := by
  fun_induction ofReading scope r with
  | case1 r front =>
    rw [front] at first
    cases first
  | case2 => cases ended
  | case3 r s rest front p r' read _ _ ih =>
    rw [front] at first
    by_cases deep : s.glyph = .plain '(' ∧ options.nestLimit ≤ r.opened.length
    · obtain ⟨opening, deep⟩ := deep
      rw [groupParens_open opening, List.find?_cons_of_pos (by simpa using Nat.lt_succ_of_le deep)]
        at first
      cases first
      have failed := Reading.pieceAt_tooDeep (r := { r with rest := rest }) scope opening deep
      rw [ofReading_error front failed]
      exact ⟨List.nil_prefix, rfl⟩
    · rw [not_and, Nat.not_le] at deep
      have read' := Reading.pieceAt_under (r := { r with rest := rest }) same deep read
      have first : (groupParens false r'.opened.length r'.rest).find? (options.nestLimit < ·.depth) =
          some paren := by
        rcases Reading.groupParens_of_pieceAt read with ⟨opening, _, parens⟩ | ⟨_, _, parens⟩
        · have shallow := Nat.succ_le_of_lt (deep opening)
          rwa [parens, List.find?_cons_of_neg (by simpa using shallow)] at first
        · rwa [parens] at first
      obtain ⟨pieces, ending⟩ := ih ended first
      rw [ofReading_piece front read']
      exact ⟨List.cons_prefix_cons.2 ⟨rfl, pieces⟩, ending⟩

end Outline

end PatternGraph
