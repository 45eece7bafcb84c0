import Mathlib.Algebra.Group.Nat.Defs
import PatternGraph.Proofs.Graph.Realization
import PatternGraph.Proofs.Graph.Totality
import PatternGraph.Proofs.Pattern.Acceptance

/-!
Which patterns are compiled and which are refused: those of the documented grammar are compiled, and
the others are refused at a place that lies within the pattern.
-/
namespace PatternGraph
open Symbol Grammar

variable {options : Options} {pattern : String}

theorem outline_of_denotes {t : Tree} {names : GroupNames}
    (deep : pattern.toList.length ≤ options.nestLimit) (denotes : Denotes options pattern t names) :
    ∃ o names, Outline.ofText options pattern.toList = .ok o ∧ o.ending = .ok names := by
  obtain ⟨gs, unnamed, lexed, spells⟩ := denotes
  obtain rfl := lexed.unique (lexed_read 0 pattern.toList)
  have remainder : Remainder options.captures [] .none (glyphs (ofText pattern.toList)) :=
    spells.remainder rfl .done
  obtain ⟨pairing, scanned⟩ : ∃ pairing,
      Pairing.ofSymbols pattern.toList.length (ofText pattern.toList) = .ok pairing :=
    remainder.scans rfl rfl
  have outlined : Outline.ofText options pattern.toList =
      .ok (Outline.ofReading ⟨options, pairing, pattern.toList.length⟩
        (.start (ofText pattern.toList))) := by
    simp only [Outline.ofText, scanned]
  obtain ⟨names, ended⟩ := Reading.ending_of_remains _ deep (Reading.inStep_start scanned) remainder
  exact ⟨_, names, outlined, ended⟩

theorem compile_of_denotes {t : Tree} {names : GroupNames}
    (deep : pattern.toList.length ≤ options.nestLimit) (unlimited : options.stateLimit = none)
    (short : 2 * pattern.toList.length + 3 ≤ Index.limit)
    (denotes : Denotes options pattern t names) : ∃ g, compile options pattern = .ok g := by
  obtain ⟨o, names, outlined, ended⟩ := outline_of_denotes deep denotes
  have ending : Guards (fun _ => False) (fun _ => True) o.ending := by
    rw [ended]
    trivial
  have assembled := guards_assemble outlined ending (.inr ⟨unlimited, short⟩)
  have compiled : compile options pattern = o.assemble options.stateLimit := by
    rw [compile, outlined]
    rfl
  rw [compiled]
  cases result : o.assemble options.stateLimit with
  | ok g => exact ⟨g, rfl⟩
  | error failure =>
    rw [result] at assembled
    cases failure with
    | refused e => exact assembled.elim
    | defect d => exact assembled.elim

/-- With the limits out of the way, the well-formed patterns are those that are compiled. All others
are refused at one of their characters or at their end. -/
theorem compile_iff_wellFormed (options : Options) (pattern : String)
    (short : pattern.length < 2 ^ 30 - 1) (captures : options.captures = true)
    (unlimited : options.stateLimit = none) (deep : pattern.length ≤ options.nestLimit) :
    ((∃ g, compile options pattern = .ok g) ↔ WellFormed pattern) ∧
      (¬ WellFormed pattern → ∃ e k, compile options pattern = .error (.refused e) ∧
        e.offset = some k ∧ k ≤ pattern.length) := by
  rw [← String.length_toList] at short deep ⊢
  have room : 2 * pattern.toList.length + 3 ≤ Index.limit := by
    simp only [Index.limit, Index.greatest]
    omega
  have denotes : WellFormed pattern ↔ ∃ t names, Denotes options pattern t names :=
    wellFormed_iff_denotes captures (by omega)
  have accepted : (∃ g, compile options pattern = .ok g) ↔ WellFormed pattern := by
    rw [denotes]
    constructor
    · rintro ⟨g, compiled⟩
      obtain ⟨t, realized⟩ := realizes_of_compile compiled
      exact ⟨t, _, realized.1⟩
    · rintro ⟨t, names, denotes⟩
      exact compile_of_denotes deep unlimited room denotes
  refine ⟨accepted, ?_⟩
  intro malformed
  have guards : Guards (fun e => ∃ k, e.offset = some k ∧ k ≤ pattern.toList.length) (fun _ => True)
      (compile options pattern) :=
    guards_compile ⟨fun e k offset inside => ⟨k, offset, inside⟩, .inr ⟨unlimited, room⟩⟩
  cases result : compile options pattern with
  | ok g => exact absurd (accepted.1 ⟨g, result⟩) malformed
  | error failure =>
    rw [result] at guards
    cases failure with
    | refused e =>
      obtain ⟨k, offset, inside⟩ := guards
      exact ⟨e, k, rfl, offset, inside⟩
    | defect d => exact guards.elim

theorem compile_iff_wellFormed_backref :
    WellFormed "(a)\\k<1>" ∧ ∃ e k, compile .unset "\\k<1>(a)" = .error (.refused e) ∧
      e.offset = some k ∧ k ≤ 8 := by
  have closed : (compile .unset "(a)\\k<1>").toOption.isSome = true := by decide +kernel
  have unknown : (compile .unset "\\k<1>(a)").toOption.isSome = false := by decide +kernel
  obtain ⟨accepted, _⟩ := compile_iff_wellFormed .unset "(a)\\k<1>" (by decide) rfl rfl (by decide)
  obtain ⟨accepted', refused⟩ :=
    compile_iff_wellFormed .unset "\\k<1>(a)" (by decide) rfl rfl (by decide)
  refine ⟨accepted.1 (Except.exists_eq_ok closed), refused ?_⟩
  intro wellFormed
  obtain ⟨g, compiled⟩ := accepted'.2 wellFormed
  rw [compiled] at unknown
  cases unknown

end PatternGraph
