import PatternGraph.Cursor.Text
import PatternGraph.Cursor.Tokens

/-!
Passages of a cursor over tokens, and the streams on which a saved position can be restored. All the
cursors of a search lie ahead of the one it began with.
-/
namespace PatternGraph.Cursor
variable {S T P : Type} [Cursor S T P]

inductive Passes : S → List T → S → Prop where
  | stay (c : S) : Passes c [] c
  | step {c c' : S} {t : T} {ts : List T} (front : peek c = some t)
      (rest : Passes (advance c 1) ts c') : Passes c (t :: ts) c'

def Ahead (c c' : S) : Prop := ∃ ts : List T, Passes c ts c'

/-- Going back to a position that was read off the stream gives back the cursor it was read off. -/
def Restores (c : S) : Prop :=
  ∀ a b : S, Ahead c a → Ahead c b → moveTo a (pos b) = b

theorem Passes.append {a b c : S} {ts us : List T} (first : Passes a ts b) (second : Passes b us c) :
    Passes a (ts ++ us) c := by
  induction first with
  | stay => exact second
  | step front _ ih => exact .step front (ih second)

theorem Passes.split {a c : S} {ts us : List T} (whole : Passes a (ts ++ us) c) :
    ∃ b, Passes a ts b ∧ Passes b us c := by
  induction ts generalizing a with
  | nil => exact ⟨a, .stay a, whole⟩
  | cons t ts ih =>
    cases whole with
    | step front rest =>
      obtain ⟨b, first, second⟩ := ih rest
      exact ⟨b, .step front first, second⟩

theorem Passes.remaining_le {c c' : S} {ts : List T} (h : Passes c ts c') :
    remaining c' + ts.length ≤ remaining c := by
  induction h with
  | stay => simp
  | step front _ ih =>
    have := remaining_advance _ _ front
    simp only [List.length_cons]
    omega

theorem Passes.unique_of_done {c a b : S} {ts us : List T} (h : Passes c ts a) (h' : Passes c us b)
    (done : isDone a = true) (done' : isDone b = true) : ts = us := by
  induction h generalizing us with
  | stay =>
    cases h' with
    | stay => rfl
    | step front =>
      rw [isDone, front] at done
      cases done
  | step front _ ih =>
    cases h' with
    | stay =>
      rw [isDone, front] at done'
      cases done'
    | step front' rest' =>
      rw [front, Option.some.injEq] at front'
      rw [front', ih rest' done]

theorem Ahead.refl (c : S) : Ahead c c := ⟨[], .stay c⟩

theorem Ahead.trans {a b c : S} (h : Ahead a b) (h' : Ahead b c) : Ahead a c := by
  obtain ⟨ts, first⟩ := h
  obtain ⟨us, second⟩ := h'
  exact ⟨ts ++ us, first.append second⟩

theorem Ahead.next {c : S} {t : T} (front : peek c = some t) : Ahead c (advance c 1) :=
  ⟨[t], .step front (.stay _)⟩

theorem Ahead.eq_or_remaining_lt {c c' : S} (h : Ahead c c') :
    c' = c ∨ remaining c' < remaining c := by
  obtain ⟨ts, passes⟩ := h
  cases passes with
  | stay => exact .inl rfl
  | step front rest =>
    have := remaining_advance _ _ front
    have := rest.remaining_le
    exact .inr (by omega)

theorem Restores.ahead {c c' : S} (restores : Restores c) (h : Ahead c c') : Restores c' :=
  fun a b ha hb => restores a b (h.trans ha) (h.trans hb)

theorem Restores.pos_injective {c a b : S} (restores : Restores c) (ha : Ahead c a)
    (hb : Ahead c b) (same : pos a = pos b) : a = b := by
  have here := restores a a ha ha
  rw [same, restores a b ha hb] at here
  exact here.symm

def nextIf (p : T → Bool) (c : S) : Option S :=
  match peek c with
  | some t => if p t then some (advance c 1) else none
  | none => none

def nextChars [Token T] (c : S) : List Char → Option S
  | [] => some c
  | ch :: rest =>
    match nextIf (fun t : T => Token.toChar t == ch) c with
    | some c' => nextChars c' rest
    | none => none

def nextCopy [DecidableEq T] [DecidableEq P] (source : S) (stop : P) (c : S) : Option S :=
  if pos source = stop then some c
  else
    match h : peek source with
    | none => none
    | some want =>
      have := remaining_advance _ _ h
      match (peek c : Option T) with
      | none => none
      | some t => if t = want then nextCopy (advance source 1) stop (advance c 1) else none
termination_by remaining source

theorem nextIf_eq_some_iff {p : T → Bool} {c c' : S} :
    nextIf p c = some c' ↔ ∃ t, peek c = some t ∧ p t = true ∧ advance c 1 = c' := by
  unfold nextIf
  cases front : (peek c : Option T) with
  | none => simp
  | some t => by_cases fits : p t <;> simp [fits]

theorem ahead_of_nextIf {p : T → Bool} {c c' : S} (h : nextIf p c = some c') : Ahead c c' := by
  obtain ⟨t, front, _, rfl⟩ := nextIf_eq_some_iff.1 h
  exact .next front

theorem nextChars_eq_some_iff [Token T] {cs : List Char} {c c' : S} :
    nextChars c cs = some c' ↔ ∃ ts : List T, Passes c ts c' ∧ ts.map Token.toChar = cs := by
  induction cs generalizing c with
  | nil =>
    simp only [nextChars, Option.some.injEq, List.map_eq_nil_iff]
    constructor
    · rintro rfl
      exact ⟨[], .stay c, rfl⟩
    · rintro ⟨_, passes, rfl⟩
      cases passes
      rfl
  | cons ch cs ih =>
    simp only [nextChars]
    constructor
    · intro h
      split at h
      · rename_i c₁ first
        obtain ⟨t, front, fits, rfl⟩ := nextIf_eq_some_iff.1 first
        obtain ⟨ts, passes, spelled⟩ := ih.1 h
        exact ⟨t :: ts, .step front passes, by simpa [spelled] using fits⟩
      · cases h
    · rintro ⟨ts, passes, spelled⟩
      cases passes with
      | stay => simp at spelled
      | step front rest =>
        rename_i t ts
        simp only [List.map_cons, List.cons.injEq] at spelled
        have first : nextIf (fun t : T => Token.toChar t == ch) c = some (advance c 1) :=
          nextIf_eq_some_iff.2 ⟨t, front, by simp [spelled.1], rfl⟩
        simp only [first]
        exact ih.2 ⟨ts, rest, spelled.2⟩

theorem ahead_of_nextChars [Token T] {cs : List Char} {c c' : S} (h : nextChars c cs = some c') :
    Ahead c c' := by
  obtain ⟨ts, passes, _⟩ := nextChars_eq_some_iff.1 h
  exact ⟨ts, passes⟩

theorem ahead_of_nextCopy [DecidableEq T] [DecidableEq P] {source c c' : S} {stop : P}
    (h : nextCopy source stop c = some c') : Ahead c c' := by
  fun_induction nextCopy source stop c with
  | case1 =>
    cases h
    exact .refl _
  | case2 => cases h
  | case3 => cases h
  | case4 source c apart want front _ _ ih => exact (Ahead.next front).trans (ih h)
  | case5 => cases h

/-- A walk that fails has gone on to some cursor ahead. -/
inductive Walked (c : S) : Option S → Bool × S → Prop
  | passed (c' : S) : Walked c (some c') (true, c')
  | stuck {b : S} : Ahead c b → Walked c none (false, b)

/-- What is handed back where there is, or is not, a cursor to go on to. In the second case the cursor
has not moved, or was taken back to its old position from one ahead. -/
inductive HandsBack (c : S) : Option S → Bool × S → Prop
  | passed (c' : S) : HandsBack c (some c') (true, c')
  | stayed : HandsBack c none (false, c)
  | returned {b : S} : Ahead c b → HandsBack c none (false, moveTo b (pos c))

/-- A cursor that is taken back on a stream that restores positions is the one that set out. -/
theorem HandsBack.restored {c₀ c : S} {back : Bool × S} (h : HandsBack c none back)
    (restores : Restores c₀) (ahead : Ahead c₀ c) : back = (false, c) := by
  cases h with
  | stayed => rfl
  | returned further => rw [restores _ c (ahead.trans further) ahead]

theorem Walked.after {c : S} {t : T} {found : Option S} {walked : Bool × S}
    (front : peek c = some t) (h : Walked (advance c 1) found walked) : Walked c found walked := by
  cases h with
  | passed c' => exact .passed c'
  | stuck ahead => exact .stuck ((Ahead.next front).trans ahead)

theorem Walked.orBack {c : S} {found : Option S} {walked : Bool × S} (h : Walked c found walked) :
    HandsBack c found (orBack (pos c) walked) := by
  cases h with
  | passed c' => exact .passed c'
  | stuck ahead => exact .returned ahead

theorem consumeIf_eq (p : T → Bool) (c : S) :
    consumeIf p c = match nextIf p c with
      | some c' => (true, c')
      | none => (false, c) := by
  unfold nextIf consumeIf
  cases front : (peek c : Option T) with
  | none => rfl
  | some t => by_cases fits : p t = true <;> simp only [fits, if_true] <;> rfl

theorem handsBack_consumeIf (p : T → Bool) (c : S) :
    HandsBack c (nextIf p c) (consumeIf p c) := by
  rw [consumeIf_eq]
  cases nextIf p c with
  | none => exact .stayed
  | some c' => exact .passed c'

theorem walked_walkChars [Token T] (c : S) (cs : List Char) :
    Walked c (nextChars c cs) (walkChars c cs) := by
  induction cs generalizing c with
  | nil => exact .passed c
  | cons ch cs ih =>
    unfold nextChars walkChars nextIf next
    cases front : (peek c : Option T) with
    | none => exact .stuck (.refl c)
    | some t =>
      simp only [Option.map_some]
      by_cases fits : (Token.toChar t == ch) = true
      · simp only [if_pos fits]
        exact (ih (advance c 1)).after front
      · simp only [if_neg fits]
        exact .stuck (.next front)

theorem handsBack_consumeChars [Token T] (c : S) (cs : List Char) :
    HandsBack c (nextChars c cs) (consumeChars c cs) :=
  (walked_walkChars c cs).orBack

section Copies
variable [DecidableEq T] [DecidableEq P] {source c : S} {stop : P}

theorem nextCopy_of_done (apart : pos source ≠ stop) (out : (peek source : Option T) = none) :
    nextCopy source stop c = none := by
  rw [nextCopy, if_neg apart]
  split
  · rfl
  · simp_all

theorem nextCopy_of_peek {want : T} (apart : pos source ≠ stop) (front : peek source = some want) :
    nextCopy source stop c =
      if peek c = some want then nextCopy (advance source 1) stop (advance c 1) else none := by
  rw [nextCopy, if_neg apart]
  split
  · simp_all
  · rename_i t front'
    obtain rfl : t = want := Option.some.inj (front'.symm.trans front)
    split
    · simp_all
    · rename_i u here
      simp [here]

theorem walkCopy_of_done (apart : pos source ≠ stop) (out : (peek source : Option T) = none) :
    walkCopy source stop c = (false, c) := by
  rw [walkCopy, if_neg apart]
  split
  · rfl
  · simp_all

theorem walkCopy_of_peek {want : T} (apart : pos source ≠ stop) (front : peek source = some want) :
    walkCopy source stop c =
      match next c with
      | none => (false, c)
      | some (t, c) => if want = t then walkCopy (advance source 1) stop c else (false, c) := by
  rw [walkCopy, if_neg apart]
  split
  · simp_all
  · rename_i t front'
    obtain rfl : t = want := Option.some.inj (front'.symm.trans front)
    rfl

theorem walked_walkCopy (source : S) (stop : P) (c : S) :
    Walked c (nextCopy source stop c) (walkCopy source stop c) := by
  induction bound : remaining source using Nat.strongRecOn generalizing source c with
  | ind n ih =>
    by_cases there : pos source = stop
    · rw [nextCopy, walkCopy, if_pos there, if_pos there]
      exact .passed c
    · cases ahead : (peek source : Option T) with
      | none =>
        rw [nextCopy_of_done there ahead, walkCopy_of_done there ahead]
        exact .stuck (.refl c)
      | some want =>
        rw [nextCopy_of_peek there ahead, walkCopy_of_peek there ahead, next]
        cases front : (peek c : Option T) with
        | none => exact .stuck (.refl c)
        | some t =>
          simp only [Option.map_some, Option.some.injEq]
          by_cases same : t = want
          · rw [if_pos same, if_pos same.symm]
            have nearer := remaining_advance _ _ ahead
            exact (ih _ (by omega) _ _ rfl).after front
          · rw [if_neg same, if_neg (Ne.symm same)]
            exact .stuck (.next front)

end Copies

theorem handsBack_consumeCopy [DecidableEq T] [DecidableEq P] (source : S) (stop : P) (c : S) :
    HandsBack c (nextCopy source stop c) (consumeCopy source stop c) :=
  (walked_walkCopy source stop c).orBack

end PatternGraph.Cursor

namespace PatternGraph
open Cursor

namespace TokenCursor
variable {T : Type}

theorem ahead_within {c c' : TokenCursor T} (h : Ahead c c') (inside : c.index ≤ c.tokens.size) :
    c'.tokens = c.tokens ∧ c'.index ≤ c'.tokens.size := by
  obtain ⟨ts, passes⟩ := h
  induction passes with
  | stay => exact ⟨rfl, inside⟩
  | step front _ ih =>
    apply ih
    simp only [Cursor.advance, advance]
    split <;> omega

theorem restores {c : TokenCursor T} (inside : c.index ≤ c.tokens.size) : Restores c := by
  intro a b ha hb
  obtain ⟨sameA, _⟩ := ahead_within ha inside
  obtain ⟨sameB, insideB⟩ := ahead_within hb inside
  obtain ⟨tokens, index⟩ := b
  simp only [Cursor.moveTo, moveTo, Cursor.pos] at insideB ⊢
  simp only [sameA, ← show tokens = c.tokens from sameB, Nat.min_eq_left insideB]

end TokenCursor

namespace TextCursor

theorem text_of_ahead {c c' : TextCursor} (h : Ahead c c') : c'.text = c.text := by
  obtain ⟨ts, passes⟩ := h
  induction passes with
  | stay => rfl
  | step front _ ih => rw [ih, show Cursor.advance _ _ = _ from advance_one front]

theorem restores (c : TextCursor) : Restores c := by
  intro a b ha hb
  simp only [Cursor.moveTo, Cursor.pos]
  rw [text_of_ahead ha, ← text_of_ahead hb]

end TextCursor

end PatternGraph
