import PatternGraph.Proofs.Cursor.Passage
import PatternGraph.Proofs.Pattern.Tree

/-!
The reference matcher: a recursion over the syntax tree that hands on the cursor and the captures by
value. It lists every way to match, in the order in which they are to be tried.
-/
namespace PatternGraph
open Cursor

structure Capture (P : Type) where
  start : Option P
  stop : Option P
  deriving DecidableEq, Repr

namespace Capture
variable {P : Type}

def unset : Capture P := ⟨none, none⟩

def opened (here : P) : Capture P := ⟨some here, none⟩

def closed (c : Capture P) (here : P) : Capture P := ⟨c.start, some here⟩

/-- A group that is open, or was never entered, has no span. -/
def span? (c : Capture P) : Option (Span P) :=
  match c.start, c.stop with
  | some start, some stop => some ⟨start, stop⟩
  | _, _ => none

def Settled (c : Capture P) : Prop := c.start.isSome = c.stop.isSome

end Capture

structure Env (S P : Type) where
  cursor : S
  captures : TagId → Capture P

variable {S T P : Type} [Cursor S T P]

namespace Env

def start (c : S) : Env S P := ⟨c, fun _ => .unset⟩

def goTo (σ : Env S P) (c : S) : Env S P := { σ with cursor := c }

def set (σ : Env S P) (tag : TagId) (c : Capture P) : Env S P :=
  { σ with captures := fun t => if t = tag then c else σ.captures t }

def enter (σ : Env S P) : Option TagId → Env S P
  | none => σ
  | some tag => σ.set tag (.opened (pos σ.cursor))

def leave (σ : Env S P) : Option TagId → Env S P
  | none => σ
  | some tag => σ.set tag ((σ.captures tag).closed (pos σ.cursor))

theorem captures_set_of_ne {σ : Env S P} {tag t : TagId} (c : Capture P) (apart : t ≠ tag) :
    (σ.set tag c).captures t = σ.captures t := if_neg apart

@[simp] theorem captures_set_self (σ : Env S P) (tag : TagId) (c : Capture P) :
    (σ.set tag c).captures tag = c := if_pos rfl

theorem cursor_enter (σ : Env S P) (tag : Option TagId) : (σ.enter tag).cursor = σ.cursor := by
  cases tag <;> rfl

theorem cursor_leave (σ : Env S P) (tag : Option TagId) : (σ.leave tag).cursor = σ.cursor := by
  cases tag <;> rfl

theorem ahead_leave {σ σ' : Env S P} {tag : Option TagId}
    (h : Ahead (σ.enter tag).cursor σ'.cursor) : Ahead σ.cursor (σ'.leave tag).cursor := by
  rw [cursor_enter] at h
  rwa [cursor_leave]

def SettledFrom (low : Nat) (σ : Env S P) : Prop := ∀ tag, low ≤ tag.val → (σ.captures tag).Settled

/-- The groups below `low` are as they were, and the others are settled again. -/
def Keeps (low : Nat) (σ σ' : Env S P) : Prop :=
  (∀ tag, tag.val < low → σ'.captures tag = σ.captures tag) ∧
    (σ.SettledFrom low → σ'.SettledFrom low)

omit [Cursor S T P] in
theorem Keeps.refl (low : Nat) (σ : Env S P) : Keeps low σ σ := ⟨fun _ _ => rfl, id⟩

omit [Cursor S T P] in
theorem Keeps.trans {low : Nat} {σ σ₁ σ₂ : Env S P} (h₁ : Keeps low σ σ₁) (h₂ : Keeps low σ₁ σ₂) :
    Keeps low σ σ₂ :=
  ⟨fun tag below => (h₂.1 tag below).trans (h₁.1 tag below), h₂.2 ∘ h₁.2⟩

theorem settledFrom_enter {tag : TagId} {σ : Env S P} {low : Nat} (le : low ≤ tag.val)
    (settled : σ.SettledFrom low) : (σ.enter (some tag)).SettledFrom (tag.val + 1) := by
  intro t above
  have apart : t ≠ tag := by
    rintro rfl
    omega
  rw [enter, captures_set_of_ne _ apart]
  exact settled t (by omega)

theorem Keeps.group {tag : TagId} {low : Nat} {σ σ' : Env S P} (le : low ≤ tag.val)
    (body : Keeps (tag.val + 1) (σ.enter (some tag)) σ') : Keeps low σ (σ'.leave (some tag)) := by
  have others : ∀ t : TagId, t.val < tag.val + 1 → t ≠ tag →
      (σ'.leave (some tag)).captures t = σ.captures t := by
    intro t below apart
    rw [leave, captures_set_of_ne _ apart, body.1 t below, enter, captures_set_of_ne _ apart]
  constructor
  · intro t below
    apply others t (by omega)
    rintro rfl
    omega
  · intro settled t above
    by_cases same : t = tag
    · rw [same, leave, captures_set_self, body.1 tag (by omega), enter, captures_set_self]
      rfl
    · by_cases below : t.val < tag.val + 1
      · rw [others t below same]
        exact settled t above
      · rw [leave, captures_set_of_ne _ same]
        exact body.2 (settledFrom_enter le settled) t (by omega)

def Later (σ : Env S P) : Type := { σ' : Env S P // Ahead σ.cursor σ'.cursor }

namespace Later
variable {σ : Env S P}

def here (σ : Env S P) : Later σ := ⟨σ, .refl _⟩

def andThen (σ' : Later σ) (σ'' : Later σ'.val) : Later σ := ⟨σ''.val, σ'.property.trans σ''.property⟩

end Later

def pass (σ : Env S P) (found : Option S) (ahead : ∀ c, found = some c → Ahead σ.cursor c) :
    List (Later σ) :=
  match found, ahead with
  | none, _ => []
  | some c, ahead => [⟨σ.goTo c, ahead c rfl⟩]

end Env

namespace Cursor

def tokensTo [DecidableEq P] (c : S) (stop : P) : Option (List T) :=
  if pos c = stop then some []
  else
    match h : peek c with
    | none => none
    | some t =>
      have := remaining_advance _ _ h
      (tokensTo (advance c 1) stop).map (t :: ·)
termination_by remaining c

def nextTokens [DecidableEq T] (c : S) : List T → Option S
  | [] => some c
  | t :: ts =>
    match nextIf (fun u : T => u = t) c with
    | none => none
    | some c' => nextTokens c' ts

theorem nextTokens_eq_some_iff [DecidableEq T] {c c' : S} {ts : List T} :
    nextTokens c ts = some c' ↔ Passes c ts c' := by
  induction ts generalizing c with
  | nil =>
    simp only [nextTokens, Option.some.injEq]
    constructor
    · rintro rfl
      exact .stay c
    · intro passes
      cases passes
      rfl
  | cons t ts ih =>
    simp only [nextTokens]
    constructor
    · intro h
      split at h
      · cases h
      · rename_i first
        obtain ⟨u, front, same, rfl⟩ := nextIf_eq_some_iff.1 first
        obtain rfl : u = t := by simpa using same
        exact .step front (ih.1 h)
    · intro passes
      cases passes with
      | step front rest =>
        have first : nextIf (fun u : T => decide (u = t)) c = some (advance c 1) :=
          nextIf_eq_some_iff.2 ⟨t, front, by simp, rfl⟩
        simp only [first]
        exact ih.2 rest

theorem ahead_of_nextTokens [DecidableEq T] {c c' : S} {ts : List T}
    (h : nextTokens c ts = some c') : Ahead c c' := ⟨ts, nextTokens_eq_some_iff.1 h⟩

theorem tokensTo_of_peek [DecidableEq P] {source : S} {stop : P} {t : T} (apart : pos source ≠ stop)
    (front : peek source = some t) :
    tokensTo source stop = (tokensTo (advance source 1) stop).map (t :: ·) := by
  rw [tokensTo, if_neg apart]
  split
  · simp_all
  · rename_i u front'
    rw [front, Option.some.injEq] at front'
    rw [front']

/-- Copying token by token is the same as taking the tokens first and passing them then. -/
theorem nextCopy_eq [DecidableEq T] [DecidableEq P] (source c : S) (stop : P) :
    nextCopy source stop c = (tokensTo source stop).bind fun ts => nextTokens c ts := by
  fun_induction nextCopy source stop c with
  | case1 source c found =>
    rw [tokensTo, if_pos found]
    rfl
  | case2 source c apart out =>
    rw [tokensTo, if_neg apart]
    split
    · rfl
    · simp_all
  | case3 source c apart want front _ out =>
    rw [tokensTo_of_peek apart front]
    cases tokensTo (advance source 1) stop <;> simp [nextTokens, nextIf, out]
  | case4 source c apart want front source_front _ ih =>
    rw [tokensTo_of_peek apart source_front, ih]
    cases tokensTo (advance source 1) stop <;> simp [nextTokens, nextIf, front]
  | case5 source c apart want source_front _ t front differs =>
    rw [tokensTo_of_peek apart source_front]
    cases tokensTo (advance source 1) stop <;> simp [nextTokens, nextIf, front, differs]

end Cursor

namespace Tree
variable [Token T] [DecidableEq T] [DecidableEq P]

omit [Token T] [DecidableEq T] [DecidableEq P] in
/-- A round that is not the last one brings the loop nearer to its end: it consumed something, or
the loop had not come to its least count. -/
theorem round_decreases {b : Bounds} {n : Nat} {σ σ' : Env S P} (more : b.mayRepeat n = true)
    (ahead : Ahead σ.cursor σ'.cursor)
    (busy : ¬ (pos σ'.cursor = pos σ.cursor ∧ b.accepts n = true)) :
    Prod.Lex (· < ·) (· < ·) (remaining σ'.cursor, b.least - (n + 1))
      (remaining σ.cursor, b.least - n) := by
  rcases ahead.eq_or_remaining_lt with still | shorter
  · have short : b.accepts n = false := by simpa [still] using busy
    have := b.lt_least more short
    rw [still]
    exact Prod.Lex.right _ (by omega)
  · exact Prod.Lex.left _ _ shorter

/-- Goes round a loop again where the counts allow for it, and leaves it after that. A round that
consumed nothing, where the loop could have been left before it, is the last one. -/
def goRound (b : Bounds) (body : (σ : Env S P) → List σ.Later) (n : Nat) (σ : Env S P) :
    List σ.Later :=
  (if more : b.mayRepeat n then
    (body σ).flatMap fun σ' =>
      if idle : pos σ'.val.cursor = pos σ.cursor ∧ b.accepts n then [σ']
      else (goRound b body (n + 1) σ'.val).map σ'.andThen
  else []) ++
    if b.accepts n then [.here σ] else []
termination_by (remaining σ.cursor, b.least - n)
decreasing_by exact round_decreases more σ'.property idle

def ways : Tree → (σ : Env S P) → List σ.Later
  | .empty, σ => [.here σ]
  | .char ch, σ => σ.pass (nextIf (fun t : T => Token.toChar t == ch) σ.cursor)
      fun _ h => ahead_of_nextIf h
  | .any, σ => σ.pass (nextIf (fun _ : T => true) σ.cursor) fun _ h => ahead_of_nextIf h
  | .charClass fits, σ => σ.pass (nextIf (fun t : T => fits (Token.toChar t)) σ.cursor)
      fun _ h => ahead_of_nextIf h
  | .backref tag, σ =>
    match (σ.captures tag).span? with
    | none => []
    | some span =>
      match tokensTo (moveTo σ.cursor span.start) span.stop with
      | none => []
      | some ts => σ.pass (nextTokens σ.cursor ts) fun _ h => ahead_of_nextTokens h
  | .cat first second, σ =>
    (first.ways σ).flatMap fun σ' => (second.ways σ'.val).map σ'.andThen
  | .alt first second, σ => first.ways σ ++ second.ways σ
  | .group tag body, σ =>
    (body.ways (σ.enter tag)).map fun σ' => ⟨σ'.val.leave tag, Env.ahead_leave σ'.property⟩
  | .loop b body, σ => goRound b body.ways 0 σ

def exits (t : Tree) (σ : Env S P) : List (Env S P) := (t.ways σ).map (·.val)

def rounds (b : Bounds) (body : Tree) (n : Nat) (σ : Env S P) : List (Env S P) :=
  (goRound b body.ways n σ).map (·.val)

def matchFrom (t : Tree) (matchToEnd : Bool) (c : S) : Option (Env S P) :=
  (t.exits (.start c)).find? fun σ => !matchToEnd || isDone σ.cursor

omit [Token T] [DecidableEq T] [DecidableEq P] in
theorem map_val_pass (σ : Env S P) (found : Option S)
    (ahead : ∀ c, found = some c → Ahead σ.cursor c) :
    (σ.pass found ahead).map (·.val) = found.toList.map σ.goTo := by
  cases found <;> rfl

theorem exits_empty (σ : Env S P) : Tree.empty.exits σ = [σ] := rfl

theorem exits_char (ch : Char) (σ : Env S P) :
    (Tree.char ch).exits σ =
      (nextIf (fun t : T => Token.toChar t == ch) σ.cursor).toList.map σ.goTo :=
  map_val_pass σ _ _

theorem exits_any (σ : Env S P) :
    Tree.any.exits σ = (nextIf (fun _ : T => true) σ.cursor).toList.map σ.goTo :=
  map_val_pass σ _ _

theorem exits_charClass (fits : Char → Bool) (σ : Env S P) :
    (Tree.charClass fits).exits σ =
      (nextIf (fun t : T => fits (Token.toChar t)) σ.cursor).toList.map σ.goTo :=
  map_val_pass σ _ _

theorem exits_backref (tag : TagId) (σ : Env S P) :
    (Tree.backref tag).exits σ =
      match (σ.captures tag).span? with
      | none => []
      | some span =>
        (nextCopy (moveTo σ.cursor span.start) span.stop σ.cursor).toList.map σ.goTo := by
  simp only [exits, ways]
  cases (σ.captures tag).span? with
  | none => rfl
  | some span =>
    simp only [nextCopy_eq]
    cases tokensTo (moveTo σ.cursor span.start) span.stop with
    | none => rfl
    | some ts => exact map_val_pass σ _ _

theorem exits_cat (first second : Tree) (σ : Env S P) :
    (Tree.cat first second).exits σ = (first.exits σ).flatMap second.exits := by
  simp only [exits, ways, List.map_flatMap, List.flatMap_map, List.map_map]
  rfl

theorem exits_alt (first second : Tree) (σ : Env S P) :
    (Tree.alt first second).exits σ = first.exits σ ++ second.exits σ := by
  simp only [exits, ways, List.map_append]

theorem exits_group (tag : Option TagId) (body : Tree) (σ : Env S P) :
    (Tree.group tag body).exits σ = (body.exits (σ.enter tag)).map (·.leave tag) := by
  rw [exits, ways, exits, List.map_map]
  exact List.map_map

theorem exits_loop (b : Bounds) (body : Tree) (σ : Env S P) :
    (Tree.loop b body).exits σ = rounds b body 0 σ := rfl

theorem rounds_eq (b : Bounds) (body : Tree) (n : Nat) (σ : Env S P) :
    rounds b body n σ =
      (if b.mayRepeat n then
        (body.exits σ).flatMap fun σ' =>
          if pos σ'.cursor = pos σ.cursor ∧ b.accepts n then [σ'] else rounds b body (n + 1) σ'
      else []) ++ if b.accepts n then [σ] else [] := by
  rw [rounds, goRound, List.map_append]
  congr 1
  · split
    · simp only [exits, List.map_flatMap, List.flatMap_map]
      congr 1
      funext σ'
      split
      · rfl
      · simp only [rounds, List.map_map]
        rfl
    · rfl
  · split <;> rfl

theorem ahead_of_exits {t : Tree} {σ σ' : Env S P} (h : σ' ∈ t.exits σ) :
    Ahead σ.cursor σ'.cursor := by
  obtain ⟨later, _, rfl⟩ := List.mem_map.1 h
  exact later.property

theorem mem_rounds_iff {b : Bounds} {body : Tree} {n : Nat} {σ σ' : Env S P} :
    σ' ∈ rounds b body n σ ↔
      (b.mayRepeat n = true ∧ ∃ σ₁ ∈ body.exits σ,
        σ' ∈ if pos σ₁.cursor = pos σ.cursor ∧ b.accepts n then [σ₁]
          else rounds b body (n + 1) σ₁) ∨
      (b.accepts n = true ∧ σ' = σ) := by
  rw [rounds_eq, List.mem_append]
  apply or_congr
  · split
    · rename_i more
      rw [List.mem_flatMap]
      exact (and_iff_right more).symm
    · rename_i done
      exact iff_of_false List.not_mem_nil fun h => done h.1
  · split
    · rename_i accepts
      rw [List.mem_singleton]
      exact (and_iff_right accepts).symm
    · rename_i short
      exact iff_of_false List.not_mem_nil fun h => short h.1

@[elab_as_elim]
theorem rounds_induction (b : Bounds) (body : Tree) {motive : Nat → Env S P → Prop}
    (round : ∀ n σ, (∀ σ' ∈ body.exits σ, b.mayRepeat n = true →
      ¬ (pos σ'.cursor = pos σ.cursor ∧ b.accepts n = true) → motive (n + 1) σ') → motive n σ)
    (n : Nat) (σ : Env S P) : motive n σ :=
  round n σ fun σ' _ _ _ => rounds_induction b body round (n + 1) σ'
termination_by (remaining σ.cursor, b.least - n)
decreasing_by
  rename_i mem more busy
  exact round_decreases more (ahead_of_exits mem) busy

theorem rounds_keep {b : Bounds} {body : Tree} {R : Env S P → Env S P → Prop}
    (refl : ∀ σ, R σ σ) (trans : ∀ σ σ₁ σ₂, R σ σ₁ → R σ₁ σ₂ → R σ σ₂)
    (round : ∀ σ, ∀ σ' ∈ body.exits σ, R σ σ') (n : Nat) (σ : Env S P) :
    ∀ σ' ∈ rounds b body n σ, R σ σ' := by
  refine rounds_induction b body ?_ n σ
  intro n σ ih σ' mem
  rcases mem_rounds_iff.1 mem with ⟨more, σ₁, first, rest⟩ | ⟨_, rfl⟩
  · have once := round σ σ₁ first
    split at rest
    · rw [List.mem_singleton] at rest
      rwa [rest]
    · rename_i busy
      exact trans _ _ _ once (ih σ₁ first more busy σ' rest)
  · exact refl σ'

theorem keeps_of_exits {t : Tree} {low : Nat} (tags : t.TagsFrom low) {σ σ' : Env S P}
    (mem : σ' ∈ t.exits σ) : Env.Keeps low σ σ' := by
  induction t generalizing low σ σ' with
  | empty =>
    rw [exits_empty, List.mem_singleton] at mem
    rw [mem]
    exact .refl low σ
  | char | any | charClass =>
    simp only [exits_char, exits_any, exits_charClass, List.mem_map] at mem
    obtain ⟨c, _, rfl⟩ := mem
    exact .refl low σ
  | backref tag =>
    rw [exits_backref] at mem
    split at mem
    · cases mem
    · obtain ⟨c, _, rfl⟩ := List.mem_map.1 mem
      exact .refl low σ
  | cat _ _ ihf ihs =>
    rw [exits_cat] at mem
    obtain ⟨σ₁, first, second⟩ := List.mem_flatMap.1 mem
    exact (ihf tags.1 first).trans (ihs tags.2 second)
  | alt _ _ ihf ihs =>
    rw [exits_alt, List.mem_append] at mem
    rcases mem with first | second
    · exact ihf tags.1 first
    · exact ihs tags.2 second
  | group tag body ih =>
    rw [exits_group] at mem
    obtain ⟨σ₁, inner, rfl⟩ := List.mem_map.1 mem
    cases tag with
    | none => exact ih tags inner
    | some tag => exact .group tags.1 (ih tags.2 inner)
  | loop b body ih =>
    exact rounds_keep (R := Env.Keeps low) (.refl low) (fun _ _ _ h₁ h₂ => h₁.trans h₂)
      (fun σ σ' mem => ih tags mem) 0 σ σ' mem

end Tree

end PatternGraph
