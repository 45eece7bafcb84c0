import Mathlib.Computability.Language
import PatternGraph.Proofs.Search.Reference

/-!
The words of a syntax tree, and the ways through a tree without backreferences: there is one for
each word that lies ahead. A loop never goes on after a round that consumed nothing and that could
have been left out, yet no word is lost, since the other rounds suffice for it.
-/
namespace PatternGraph
open Cursor

/-- What a backreference matches depends on the groups, so it is given no words. -/
def Tree.language : Tree → Language Char
  | .empty => 1
  | .char c => {[c]}
  | .any => {w | ∃ c, w = [c]}
  | .charClass fits => {w | ∃ c, fits c = true ∧ w = [c]}
  | .backref _ => 0
  | .cat first second => first.language * second.language
  | .alt first second => first.language + second.language
  | .group _ body => body.language
  | .loop b body => {w | ∃ k, b.accepts k = true ∧ w ∈ body.language ^ k}

theorem Tree.language_untagged (t : Tree) : t.untagged.language = t.language := by
  induction t with
  | empty | char | any | charClass | backref => rfl
  | cat _ _ first second | alt _ _ first second => simp only [untagged, language, first, second]
  | group _ _ ih => exact ih
  | loop _ _ ih =>
    rw [untagged, language, ih]
    rfl

inductive Times {S : Type} (R : S → S → Prop) : Nat → S → S → Prop
  | none (c : S) : Times R 0 c c
  | more {k : Nat} {a b c : S} (first : R a b) (rest : Times R k b c) : Times R (k + 1) a c

variable {S T P : Type} [Cursor S T P] [Token T]

namespace Cursor

def Reads (c : S) (words : Language Char) (c' : S) : Prop :=
  ∃ ts : List T, Passes c ts c' ∧ ts.map Token.toChar ∈ words

theorem reads_one {c c' : S} : Reads c 1 c' ↔ c = c' := by
  constructor
  · rintro ⟨ts, passes, word⟩
    rw [Language.mem_one, List.map_eq_nil_iff] at word
    subst word
    cases passes
    rfl
  · rintro rfl
    exact ⟨[], .stay c, rfl⟩

theorem reads_add {l m : Language Char} {c c' : S} :
    Reads c (l + m) c' ↔ Reads c l c' ∨ Reads c m c' := by
  simp only [Reads, Language.mem_add, and_or_left, exists_or]

theorem reads_mul {l m : Language Char} {c c' : S} :
    Reads c (l * m) c' ↔ ∃ c₁ : S, Reads c l c₁ ∧ Reads c₁ m c' := by
  constructor
  · rintro ⟨ts, passes, word⟩
    obtain ⟨u, first, v, second, whole⟩ := Language.mem_mul.1 word
    obtain ⟨us, vs, rfl, rfl, rfl⟩ := List.map_eq_append_iff.1 whole.symm
    obtain ⟨c₁, passes, passes'⟩ := passes.split
    exact ⟨c₁, ⟨us, passes, first⟩, vs, passes', second⟩
  · rintro ⟨c₁, ⟨us, passes, first⟩, vs, passes', second⟩
    refine ⟨us ++ vs, passes.append passes', ?_⟩
    rw [List.map_append]
    exact Language.append_mem_mul first second

theorem reads_single {words : Language Char} {fits : Char → Bool} {c c' : S}
    (single : ∀ w, w ∈ words ↔ ∃ ch, fits ch = true ∧ w = [ch]) :
    Reads c words c' ↔ nextIf (fun t : T => fits (Token.toChar t)) c = some c' := by
  rw [nextIf_eq_some_iff]
  constructor
  · rintro ⟨ts, passes, word⟩
    obtain ⟨ch, fit, word⟩ := (single _).1 word
    obtain ⟨t, rfl, rfl⟩ := List.map_eq_singleton_iff.1 word
    cases passes with
    | step front rest =>
      cases rest
      exact ⟨t, front, fit, rfl⟩
  · rintro ⟨t, front, fit, rfl⟩
    exact ⟨[t], .step front (.stay _), (single _).2 ⟨_, fit, rfl⟩⟩

theorem times_reads {l : Language Char} {k : Nat} {c c' : S} :
    Times (fun a b => Reads a l b) k c c' ↔ Reads c (l ^ k) c' := by
  induction k generalizing c with
  | zero =>
    rw [pow_zero, reads_one]
    constructor
    · intro times
      cases times
      rfl
    · rintro rfl
      exact .none c
  | succ k ih =>
    rw [pow_succ', reads_mul]
    constructor
    · intro times
      cases times with
      | more first rest => exact ⟨_, first, ih.1 rest⟩
    · rintro ⟨c₁, first, rest⟩
      exact .more first (ih.2 rest)

end Cursor

namespace Tree
variable [DecidableEq T] [DecidableEq P]

/-- Where `I` holds, a round goes from cursor to cursor as `R` says, and `I` holds after it. -/
structure Strides (body : Tree) (I : Env S P → Prop) (R : S → S → Prop) : Prop where
  once : ∀ {σ c}, I σ → ((∃ σ' ∈ body.exits σ, σ'.cursor = c) ↔ R σ.cursor c)
  keeps : ∀ {σ σ'}, I σ → σ' ∈ body.exits σ → I σ'
  restores : ∀ {σ}, I σ → Restores σ.cursor

namespace Strides
variable {b : Bounds} {body : Tree} {I : Env S P → Prop} {R : S → S → Prop}

theorem times_of_rounds (strides : Strides body I R) (n : Nat) (σ : Env S P) (holds : I σ) :
    ∀ σ' ∈ rounds b body n σ, ∃ k, b.accepts (n + k) = true ∧ Times R k σ.cursor σ'.cursor := by
  revert holds
  refine rounds_induction b body ?_ n σ
  intro n σ ih holds σ' mem
  rcases mem_rounds_iff.1 mem with ⟨more, σ₁, first, rest⟩ | ⟨accepts, rfl⟩
  · have step := (strides.once holds).1 ⟨σ₁, first, rfl⟩
    split at rest
    · rename_i idle
      rw [List.mem_singleton] at rest
      rw [rest]
      exact ⟨1, Bounds.accepts_of_le idle.2 more (Nat.le_succ n) (Nat.le_refl _),
        .more step (.none _)⟩
    · rename_i busy
      obtain ⟨k, accepts, times⟩ := ih σ₁ first more busy (strides.keeps holds first) σ' rest
      exact ⟨k + 1, by rwa [Nat.add_comm k, ← Nat.add_assoc], .more step times⟩
  · exact ⟨0, accepts, .none _⟩

/-- A round that consumed nothing where the loop could have been left is not needed. -/
theorem rounds_of_times (strides : Strides body I R) {k n : Nat} {σ : Env S P} {c : S}
    (holds : I σ) (accepts : b.accepts (n + k) = true) (times : Times R k σ.cursor c) :
    ∃ σ' ∈ rounds b body n σ, σ'.cursor = c := by
  induction k generalizing n σ with
  | zero =>
    cases times
    exact ⟨σ, mem_rounds_iff.2 (.inr ⟨accepts, rfl⟩), rfl⟩
  | succ k ih =>
    cases times with
    | more step times =>
      obtain ⟨σ₁, first, rfl⟩ := (strides.once holds).2 step
      have within := (Bounds.accepts_iff.1 accepts).2
      by_cases idle : pos σ₁.cursor = pos σ.cursor ∧ b.accepts n = true
      · -- The round consumed nothing, and without it the count is accepted as well.
        have restores := strides.restores holds
        rw [restores.pos_injective (ahead_of_exits first) (.refl _) idle.1] at times
        exact ih holds (Bounds.accepts_of_le idle.2 within (Nat.le_add_right n k) (by omega)) times
      · have more : b.mayRepeat n = true := Bounds.within_of_le within (by omega)
        obtain ⟨σ', rest, rfl⟩ := ih (n := n + 1) (strides.keeps holds first)
          (by rwa [Nat.add_assoc, Nat.add_comm 1]) times
        refine ⟨σ', mem_rounds_iff.2 (.inl ⟨more, σ₁, first, ?_⟩), rfl⟩
        rwa [if_neg idle]

theorem exits_loop_iff (strides : Strides body I R) {σ : Env S P} {c : S} (holds : I σ) :
    (∃ σ' ∈ (Tree.loop b body).exits σ, σ'.cursor = c) ↔
      ∃ k, b.accepts k = true ∧ Times R k σ.cursor c := by
  rw [exits_loop]
  constructor
  · rintro ⟨σ', mem, rfl⟩
    obtain ⟨k, accepts, times⟩ := strides.times_of_rounds 0 σ holds σ' mem
    exact ⟨k, by rwa [Nat.zero_add] at accepts, times⟩
  · rintro ⟨k, accepts, times⟩
    exact strides.rounds_of_times holds (by rwa [Nat.zero_add]) times

end Strides

theorem exits_iff_reads {t : Tree} (plain : ¬ t.HasBackref) {σ : Env S P} {c : S}
    (restores : Restores σ.cursor) :
    (∃ σ' ∈ t.exits σ, σ'.cursor = c) ↔ Reads σ.cursor t.language c := by
  induction t generalizing σ c with
  | empty => simp [exits_empty, language, reads_one]
  | char ch =>
    have single (w : List Char) : w ∈ (Tree.char ch).language ↔ ∃ c, (c == ch) = true ∧ w = [c] := by
      change w = [ch] ↔ _
      simp
    rw [reads_single single]
    simp [exits_char, Env.goTo]
  | any =>
    have single (w : List Char) : w ∈ Tree.any.language ↔ ∃ c, true = true ∧ w = [c] := by
      change (∃ c, w = [c]) ↔ _
      simp
    rw [reads_single single]
    simp [exits_any, Env.goTo]
  | charClass fits =>
    have single (w : List Char) :
        w ∈ (Tree.charClass fits).language ↔ ∃ c, fits c = true ∧ w = [c] := Iff.rfl
    rw [reads_single single]
    simp [exits_charClass, Env.goTo]
  | backref => exact absurd trivial plain
  | cat first second ihf ihs =>
    have plain := not_or.1 plain
    simp only [exits_cat, List.mem_flatMap, language, reads_mul, ← ihf plain.1 restores]
    constructor
    · rintro ⟨σ', ⟨σ₁, one, other⟩, last⟩
      have restores₁ := restores.ahead (ahead_of_exits one)
      exact ⟨σ₁.cursor, ⟨σ₁, one, rfl⟩, (ihs plain.2 restores₁).1 ⟨σ', other, last⟩⟩
    · rintro ⟨c₁, ⟨σ₁, one, rfl⟩, read⟩
      have restores₁ := restores.ahead (ahead_of_exits one)
      obtain ⟨σ', other, last⟩ := (ihs plain.2 restores₁).2 read
      exact ⟨σ', ⟨σ₁, one, other⟩, last⟩
  | alt first second ihf ihs =>
    have plain := not_or.1 plain
    simp only [exits_alt, List.mem_append, or_and_right, exists_or, language, reads_add,
      ihf plain.1 restores, ihs plain.2 restores]
  | group tag body ih =>
    have inner : (∃ σ' ∈ body.exits (σ.enter tag), σ'.cursor = c) ↔ Reads _ _ _ :=
      ih plain (by rwa [Env.cursor_enter])
    rw [Env.cursor_enter] at inner
    rw [language, ← inner, exits_group]
    simp [Env.cursor_leave]
  | loop b body ih =>
    have strides : Strides body (fun σ : Env S P => Restores σ.cursor)
        (fun a b => Reads a body.language b) :=
      ⟨ih plain, fun restores mem => restores.ahead (ahead_of_exits mem), id⟩
    rw [strides.exits_loop_iff restores]
    simp only [times_reads]
    constructor
    · rintro ⟨k, accepts, ts, passes, word⟩
      exact ⟨ts, passes, k, accepts, word⟩
    · rintro ⟨ts, passes, k, accepts, word⟩
      exact ⟨k, accepts, ts, passes, word⟩

end Tree

end PatternGraph
