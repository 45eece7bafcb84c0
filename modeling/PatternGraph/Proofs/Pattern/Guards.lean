import PatternGraph.Proofs.Graph.Drafting
import PatternGraph.Pattern.Assembly

/-!
Compilations that may refuse a pattern but never contradict themselves. The errors that are allowed
and what holds of a result are carried through a sequence of steps.
-/
namespace PatternGraph

/-- There is no defect, an error is one of `E`, and `post` holds of a result. -/
def Guards {A : Type} (E : PatternError → Prop) (post : A → Prop) : Except Failure A → Prop
  | .ok a => post a
  | .error (.refused e) => E e
  | .error (.defect _) => False

namespace Guards
variable {A B : Type} {E E' : PatternError → Prop} {P Q : A → Prop} {R : B → Prop}

theorem bind {x : Except Failure A} {f : A → Except Failure B} (first : Guards E P x)
    (next : ∀ a, P a → Guards E R (f a)) : Guards E R (x >>= f) := by
  cases x with
  | ok a => exact next a first
  | error failure =>
    cases failure with
    | refused e => exact first
    | defect d => exact first

/-- The errors that are allowed can be told from those that there are. -/
theorem restrict {x : Except Failure A} (guards : Guards E P x)
    (errors : ∀ e, x = .error (.refused e) → E' e) : Guards E' P x := by
  cases x with
  | ok a => exact guards
  | error failure =>
    cases failure with
    | refused e => exact errors e rfl
    | defect d => exact guards

theorem of_refuse {x : Except PatternError A} (ok : ∀ a, x = .ok a → P a)
    (error : ∀ e, x = .error e → E e) : Guards E P (Assembly.refuse x) := by
  cases x with
  | ok a => exact ok a rfl
  | error e => exact error e rfl

theorem of_trust {x : Except Misuse A} {a : A} (ok : x = .ok a) (holds : P a) :
    Guards E P (Assembly.trust x) := by
  subst ok
  exact holds

theorem fails {failure : Failure} (guards : Guards E P (.error failure : Except Failure A)) :
    Guards E R (.error failure : Except Failure B) := by
  cases failure with
  | refused e => exact guards
  | defect d => exact guards

theorem ne_defect {x : Except Failure A} (guards : Guards E P x) (d : Defect) :
    x ≠ .error (.defect d) := by
  rintro rfl
  exact guards

theorem error {x : Except Failure A} (guards : Guards E P x) {e : PatternError}
    (refused : x = .error (.refused e)) : E e := by
  subst refused
  exact guards

theorem holds {x : Except Failure A} (guards : Guards E P x) {a : A} (ok : x = .ok a) : P a := by
  subst ok
  exact guards

end Guards

end PatternGraph
