import PatternGraph.Proofs.Graph.Wiring
import PatternGraph.Proofs.Search.Conclusion

/-!
The machine goes through the ways of a tree in the order of the reference matcher. What is done at
the end of a way is left open, so the ways of the parts of a tree are put together by nesting what
is done at their ends.
-/
namespace PatternGraph
open Cursor

variable {S T P : Type} [Cursor S T P] [Token T] [DecidableEq T] [DecidableEq P]

theorem Tree.exits_chars (cs : List Char) (rest : Tree) (σ : Env S P) :
    (Tree.chars cs rest).exits σ =
      (nextChars σ.cursor cs).toList.flatMap fun c => rest.exits (σ.goTo c) := by
  induction cs generalizing σ with
  | nil => exact (List.append_nil _).symm
  | cons ch cs ih =>
    have split : Tree.chars (ch :: cs) rest = .cat (.char ch) (.chars cs rest) := rfl
    rw [split, exits_cat, exits_char, nextChars]
    cases nextIf (fun t : T => Token.toChar t == ch) σ.cursor with
    | none => rfl
    | some c =>
      simp only [Option.toList_some, List.map_cons, List.map_nil, List.flatMap_cons,
        List.flatMap_nil, List.append_nil, ih]
      rfl

namespace Machine
variable {g : Graph} {matchToEnd : Bool} {c₀ : S} {σ : Env S P} {trail : List (TrailEntry P)}
  {slots : Array (Slot P)} {answer : Option (Env S P)}

theorem along_label {label : Label} {t : Tree} (read : label.tree? g = some t)
    (tags : t.TagsBelow g.names.size) (σ : Env S P) :
    ∃ found, along g (σ.table g.names.size) σ.cursor label = .ok found ∧
      t.exits σ = found.toList.map σ.goTo := by
  cases label with
  | empty =>
    cases read
    exact ⟨some σ.cursor, rfl, rfl⟩
  | char ch =>
    cases read
    exact ⟨_, rfl, Tree.exits_char ch σ⟩
  | literal => cases read
  | charClass id =>
    obtain ⟨set, found, rfl⟩ := Option.map_eq_some_iff.1 read
    refine ⟨_, ?_, Tree.exits_charClass set.contains σ⟩
    simp only [along, found]
  | any =>
    cases read
    exact ⟨_, rfl, Tree.exits_any σ⟩
  | backref tag =>
    cases read
    have inside : tag.val < g.names.size := tags
    rw [Tree.exits_backref]
    simp only [along, σ.getElem?_table inside, Capture.span?_tracker]
    cases (σ.captures tag).span? with
    | none => exact ⟨none, rfl, rfl⟩
    | some span => exact ⟨_, rfl, rfl⟩

/-- The loops below `low` are as they were. -/
def Spares (low : Nat) (slots slots' : Array (Slot P)) : Prop := ∀ i < low, slots'[i]? = slots[i]?

omit [Cursor S T P] [Token T] [DecidableEq T] [DecidableEq P] in
theorem Spares.trans {low : Nat} {slots slots₁ slots₂ : Array (Slot P)}
    (h₁ : Spares low slots slots₁) (h₂ : Spares low slots₁ slots₂) : Spares low slots slots₂ :=
  fun i below => (h₂ i below).trans (h₁ i below)

omit [Cursor S T P] [Token T] [DecidableEq T] [DecidableEq P] in
theorem spares_setIfInBounds {low i : Nat} (above : low ≤ i) (slots : Array (Slot P))
    (new : Slot P) : Spares low slots (slots.setIfInBounds i new) :=
  fun _ below => Array.getElem?_setIfInBounds_ne (by omega)

/-- The loops from `low` on are not being gone round. -/
def Idle (low : Nat) (slots : Array (Slot P)) : Prop :=
  ∀ i slot, low ≤ i → slots[i]? = some slot → slot.active = false

/-- The machine can be set on a part of the graph whose loops begin at `low` and whose groups begin
at `first`. -/
structure Poised (g : Graph) (matchToEnd : Bool) (c₀ : S) (low first : Nat) (σ : Env S P)
    (trail : List (TrailEntry P)) (slots : Array (Slot P)) (answer : Option (Env S P)) : Prop where
  ahead : Ahead c₀ σ.cursor
  settled : σ.SettledFrom first
  size : g.trapCount ≤ slots.size
  idle : Idle low slots
  falls : Falls g matchToEnd c₀ σ trail slots answer

def Offers (g : Graph) (id : StateId) (index : Nat) (arrows : List Arrow) : Prop :=
  1 < arrows.length → ∃ state, g.state? id = some state ∧ state.arrows.toList.drop index = arrows

/-- At the end of each way the machine stands before the arrow `out`, and comes from there to what
`go` makes of the way and of what comes after a failure. -/
def Onward (g : Graph) (matchToEnd : Bool) (c₀ : S) (low first : Nat) (slots : Array (Slot P))
    (exits : List (Env S P)) (out : Arrow)
    (go : Env S P → Option (Env S P) → Option (Env S P)) : Prop :=
  ∀ σ' ∈ exits, ∀ trail' slots' answer', Spares low slots slots' →
    Poised g matchToEnd c₀ low first σ' trail' slots' answer' →
    Leads g matchToEnd σ' trail' slots' out (go σ' answer')

/-- From the arrows the machine comes to what is made of all the ways through the tree, in order. -/
def Explores (g : Graph) (matchToEnd : Bool) (c₀ : S) (low first : Nat) (arrows : List Arrow)
    (t : Tree) (out : Arrow) : Prop :=
  ∀ (go : Env S P → Option (Env S P) → Option (Env S P)) (id : StateId) (index : Nat)
    ⦃σ trail slots answer⦄,
    Poised g matchToEnd c₀ low first σ trail slots answer → Offers g id index arrows →
    Onward g matchToEnd c₀ low first slots (t.exits σ) out go →
    Chooses g matchToEnd σ trail slots id index arrows ((t.exits σ).foldr go answer)

theorem offers_single (g : Graph) (id : StateId) (index : Nat) (a : Arrow) : Offers g id index [a] :=
  fun several => absurd several (by simp)

namespace Explores
variable {low first : Nat} {arrows : List Arrow} {t : Tree} {out : Arrow}

theorem empty (a : Arrow) : Explores g matchToEnd c₀ low first [a] .empty a := by
  intro go id index σ trail slots answer poised _ next
  exact next σ (List.mem_singleton.2 rfl) trail slots answer (fun _ _ => rfl) poised

theorem label {label : Label} {target : StateId} (restores : Restores c₀)
    (read : label.tree? g = some t) (tags : t.TagsBelow g.names.size) :
    Explores g matchToEnd c₀ low first [⟨label, target⟩] t (.empty target) := by
  intro go id index σ trail slots answer poised _ next
  obtain ⟨found, goes, exits⟩ := along_label read tags σ
  refine ⟨found, goes, ?_⟩
  cases found with
  | none =>
    rw [exits]
    exact poised.falls.handedBack restores poised.ahead
  | some c =>
    have only : t.exits σ = [σ.goTo c] := exits
    have mem : σ.goTo c ∈ t.exits σ := by rw [only]; exact List.mem_singleton.2 rfl
    rw [only]
    exact Leads.visit <| next _ mem trail slots answer (fun _ _ => rfl)
      ⟨poised.ahead.trans (Tree.ahead_of_exits mem), poised.settled, poised.size, poised.idle,
        poised.falls.goTo c⟩

theorem literal {cs : List Char} {target : StateId} (restores : Restores c₀)
    (inner : Explores g matchToEnd c₀ low first [.empty target] t out) :
    Explores g matchToEnd c₀ low first [⟨.literal cs, target⟩] (.chars cs t) out := by
  intro go id index σ trail slots answer poised _ next
  refine ⟨nextChars σ.cursor cs, rfl, ?_⟩
  rw [Tree.exits_chars] at next ⊢
  cases passed : nextChars σ.cursor cs with
  | none => exact poised.falls.handedBack restores poised.ahead
  | some c =>
    rw [passed] at next
    have only : (some c).toList.flatMap (fun c => t.exits (σ.goTo c)) = t.exits (σ.goTo c) :=
      List.append_nil _
    rw [only] at next ⊢
    exact Leads.visit <| inner go id index
      ⟨poised.ahead.trans (ahead_of_nextChars passed), poised.settled, poised.size, poised.idle,
        poised.falls.goTo c⟩ (offers_single g id index (.empty target)) next

theorem enter {id : StateId} {state : State} {arrows : Array Arrow} (found : g.state? id = some state)
    (choices : state.choices? = some arrows)
    (inner : Explores g matchToEnd c₀ low first arrows.toList t out) :
    Explores g matchToEnd c₀ low first [.empty id] t out := by
  intro go _ _ σ trail slots answer poised _ next
  have same : state.arrows = arrows := by
    cases state <;> simp_all [State.choices?, State.arrows]
  have chooses := inner go id 0 poised
    (fun _ => ⟨state, found, by rw [same, List.drop_zero]⟩) next
  apply leads_empty
  cases state with
  | relay a =>
    cases choices
    refine Leads.ends chooses (.visit id) none ?_
    simp only [step, holding, visit, found]
  | fanout arrows =>
    cases choices
    refine chooses.fanOut (.visit id) ?_
    simp only [step, holding, visit, found]
  | tagOpen | tagClose | trap | terminal => cases choices

theorem relay {id : StateId} (inner : Explores g matchToEnd c₀ low first arrows t (.empty id))
    (found : g.state? id = some (.relay out)) :
    Explores g matchToEnd c₀ low first arrows t out := by
  intro go _ _ σ trail slots answer poised offers next
  apply inner go _ _ poised offers
  intro σ' mem trail' slots' answer' spares poised'
  apply leads_empty
  refine (next σ' mem trail' slots' answer' spares poised').ends (.visit id) none ?_
  simp only [step, holding, visit, found]

theorem cat {t' : Tree} {between : Arrow}
    (one : Explores g matchToEnd c₀ low first arrows t between)
    (other : Explores g matchToEnd c₀ low first [between] t' out) :
    Explores g matchToEnd c₀ low first arrows (.cat t t') out := by
  intro go id index σ trail slots answer poised offers next
  rw [Tree.exits_cat, List.foldr_flatMap]
  apply one _ _ _ poised offers
  intro σ₁ mem₁ trail₁ slots₁ answer₁ spares₁ poised₁
  refine other go id index poised₁ (offers_single g id index between) ?_
  intro σ₂ mem₂ trail₂ slots₂ answer₂ spares₂ poised₂
  refine next σ₂ ?_ trail₂ slots₂ answer₂ (spares₁.trans spares₂) poised₂
  rw [Tree.exits_cat]
  exact List.mem_flatMap.2 ⟨σ₁, mem₁, mem₂⟩

theorem alt {a : Arrow} {rest : List Arrow} {t' : Tree} (restores : Restores c₀)
    (one : Explores g matchToEnd c₀ low first [a] t out)
    (other : Explores g matchToEnd c₀ low first rest t' out) :
    Explores g matchToEnd c₀ low first (a :: rest) (.alt t t') out := by
  intro go id index σ trail slots answer poised offers next
  rw [Tree.exits_alt] at next ⊢
  rw [List.foldr_append]
  have left : Offers g id (index + 1) rest := by
    intro several
    obtain ⟨state, found, drop⟩ := offers (by simp only [List.length_cons]; omega)
    refine ⟨state, found, ?_⟩
    rw [← List.drop_drop, drop]
    rfl
  have second := other go id (index + 1) poised left fun σ' mem =>
    next σ' (List.mem_append_right _ mem)
  clear other left
  cases rest with
  | nil => cases second
  | cons b more =>
    obtain ⟨state, found, drop⟩ := offers (by simp)
    have later := second.later restores poised.ahead found (by rw [← List.drop_drop, drop]; rfl)
    exact one go id index
      ⟨poised.ahead, poised.settled, poised.size, poised.idle, later⟩ (offers_single g id index a)
      fun σ' mem => next σ' (List.mem_append_left _ mem)

theorem group {first' : Nat} {opening closing : StateId} {tag : Option TagId}
    {arrows : Array Arrow} {body : Tree} (opens : g.state? opening = some (.tagOpen tag arrows))
    (closes : g.state? closing = some (.tagClose tag #[out]))
    (tags : (Tree.group tag body).TagsFrom first)
    (inside : ∀ t, tag = some t → first ≤ t.val ∧ t.val < g.names.size)
    (fits : ∀ σ : Env S P, σ.SettledFrom first → (σ.enter tag).SettledFrom first')
    (inner : Explores g matchToEnd c₀ low first' arrows.toList body (.empty closing)) :
    Explores g matchToEnd c₀ low first [.empty opening] (.group tag body) out := by
  intro go _ _ σ trail slots answer poised _ next
  have below : ∀ t, tag = some t → t.val < g.names.size := fun t same => (inside t same).2
  rw [Tree.exits_group, List.foldr_map]
  apply leads_empty
  obtain ⟨trail₁, binds, falls⟩ := bind_enter (.visit opening) below
    (fun t same => poised.settled t (inside t same).1) poised.falls
  have ahead : Ahead c₀ (σ.enter tag).cursor := by
    rw [Env.cursor_enter]
    exact poised.ahead
  have visits : step g matchToEnd (holding g (.visit opening) σ trail slots) =
      fanOut g (holding g (.visit opening) (σ.enter tag) trail₁ slots) opening arrows := by
    simp only [holding] at binds ⊢
    simp only [step, visit, opens, binds]
  refine Chooses.fanOut (.visit opening) (inner _ opening 0
    ⟨ahead, fits σ poised.settled, poised.size, poised.idle, falls⟩
    (fun _ => ⟨_, opens, List.drop_zero⟩) ?_) visits
  intro σ' mem trail' slots' answer' spares poised'
  have mem' : σ'.leave tag ∈ (Tree.group tag body).exits σ := by
    rw [Tree.exits_group]
    exact List.mem_map.2 ⟨σ', mem, rfl⟩
  obtain ⟨trail₂, binds', falls'⟩ := bind_leave (.visit closing) below poised'.falls
  have leads := next (σ'.leave tag) mem' trail₂ slots' answer' spares
    ⟨poised.ahead.trans (Tree.ahead_of_exits mem'),
      (Tree.keeps_of_exits tags mem').2 poised.settled, poised'.size, poised'.idle, falls'⟩
  apply leads_empty
  refine leads.ends (.visit closing) none ?_
  simp only [holding] at binds' ⊢
  simp only [step, visit, closes, binds']
  rfl

end Explores

structure Looping (g : Graph) (matchToEnd : Bool) (c₀ : S) (low first : Nat) (trap : TrapId)
    (old : Slot P) (σ : Env S P) (trail : List (TrailEntry P)) (slots : Array (Slot P))
    (answer : Option (Env S P)) : Prop where
  ahead : Ahead c₀ σ.cursor
  settled : σ.SettledFrom first
  size : g.trapCount ≤ slots.size
  others : ∀ i slot, low ≤ i → i ≠ trap.val → slots[i]? = some slot → slot.active = false
  slot : slots[trap.val]? = some old
  falls : Falls g matchToEnd c₀ σ trail slots answer

namespace Looping
variable {low first : Nat} {trap : TrapId} {old : Slot P}

theorem change (h : Looping g matchToEnd c₀ low first trap old σ trail slots answer) (new : Slot P) :
    Looping g matchToEnd c₀ low first trap new σ (.trap trap old :: trail)
      (slots.setIfInBounds trap.val new) answer where
  ahead := h.ahead
  settled := h.settled
  size := by
    rw [Array.size_setIfInBounds]
    exact h.size
  others i slot above apart found := by
    rw [Array.getElem?_setIfInBounds_ne (Ne.symm apart)] at found
    exact h.others i slot above apart found
  slot := by
    obtain ⟨inside, _⟩ := Array.getElem?_eq_some_iff.1 h.slot
    exact Array.getElem?_setIfInBounds_self_of_lt inside
  falls := h.falls.slot h.slot

theorem left (h : Looping g matchToEnd c₀ low first trap old σ trail slots answer)
    (idle : old.active = false) :
    Poised g matchToEnd c₀ low first σ trail slots answer where
  ahead := h.ahead
  settled := h.settled
  size := h.size
  idle i slot above found := by
    by_cases same : i = trap.val
    · rw [same, h.slot, Option.some.injEq] at found
      rw [← found, idle]
    · exact h.others i slot above same found
  falls := h.falls

theorem inner (h : Looping g matchToEnd c₀ low first trap old σ trail slots answer)
    (above : low ≤ trap.val) : Poised g matchToEnd c₀ (trap.val + 1) first σ trail slots answer where
  ahead := h.ahead
  settled := h.settled
  size := h.size
  idle i slot inside found := h.others i slot (by omega) (by omega) found
  falls := h.falls

theorem after (h : Looping g matchToEnd c₀ low first trap old σ trail slots answer) {σ' : Env S P}
    {trail' : List (TrailEntry P)} {slots' : Array (Slot P)} {answer' : Option (Env S P)}
    (spares : Spares (trap.val + 1) slots slots')
    (poised : Poised g matchToEnd c₀ (trap.val + 1) first σ' trail' slots' answer') :
    Looping g matchToEnd c₀ low first trap old σ' trail' slots' answer' where
  ahead := poised.ahead
  settled := poised.settled
  size := poised.size
  others i slot above apart found := by
    by_cases outer : i < trap.val
    · rw [spares i (by omega)] at found
      exact h.others i slot above apart found
    · exact poised.idle i slot (by omega) found
  slot := by
    rw [spares trap.val (by omega)]
    exact h.slot
  falls := poised.falls

end Looping

section Loop
variable {low first : Nat} {id : StateId} {trap : TrapId} {r : Repetition} {b : Bounds}
  {round out : Arrow} {body : Tree} {old : Slot P}

/-- A loop decides on another round, unless a round that consumed nothing ends it. -/
theorem step_round (matchToEnd : Bool) (trail : List (TrailEntry P)) (trackers : Array (Tracker P))
    {c : S} (state : g.state? id = some (.trap trap r round out))
    (slot : slots[trap.val]? = some old)
    (fresh : (old.active && old.enteredAt = some (pos c) && r.accepts old.count) = false) :
    step g matchToEnd ⟨.visit id, c, ⟨trail, trackers, slots⟩⟩ =
      if r.mayRepeat (arrived old).count then
        take g none ⟨.visit id, c,
          ⟨if r.accepts (arrived old).count then .leave id (pos c) :: .trap trap old :: trail
            else .trap trap old :: trail, trackers,
          slots.setIfInBounds trap.val { arrived old with enteredAt := some (pos c) }⟩⟩ round
      else if r.accepts (arrived old).count then
        take g none ⟨.visit id, c, ⟨.trap trap old :: trail, trackers,
          slots.setIfInBounds trap.val { arrived old with active := false }⟩⟩ out
      else
        .move none ⟨.resume, c, ⟨.trap trap old :: trail, trackers,
          slots.setIfInBounds trap.val (arrived old)⟩⟩ := by
  simp only [step, visit, state, enterTrap, slot]
  refine (if_neg (by rw [Bool.not_eq_true]; exact fresh)).trans ?_
  cases r.mayRepeat (arrived old).count <;> cases r.accepts (arrived old).count <;> rfl

theorem step_emptyRound (state : g.state? id = some (.trap trap r round out))
    (slot : slots[trap.val]? = some old)
    (idle : (old.active && old.enteredAt = some (pos σ.cursor) && r.accepts old.count) = true) :
    step g matchToEnd (holding g (.visit id) σ trail slots) =
      take g (some (.emptyIteration trap (pos σ.cursor)))
        (holding g (.visit id) σ (.trap trap old :: trail)
          (slots.setIfInBounds trap.val { old with active := false })) out := by
  simp only [holding, step, visit, state, enterTrap, slot]
  exact if_pos idle

/-- What is to be done at the end of a round: the loop is left if the round consumed nothing and the
loop could have been left before it. -/
def afterRound (b : Bounds) (body : Tree) (n : Nat) (σ : Env S P)
    (go : Env S P → Option (Env S P) → Option (Env S P)) (σ' : Env S P)
    (answer : Option (Env S P)) : Option (Env S P) :=
  if pos σ'.cursor = pos σ.cursor ∧ b.accepts n then go σ' answer
  else (Tree.rounds b body (n + 1) σ').foldr go answer

def afterRounds (b : Bounds) (n : Nat) (σ : Env S P)
    (go : Env S P → Option (Env S P) → Option (Env S P)) (answer : Option (Env S P)) :
    Option (Env S P) :=
  if b.accepts n then go σ answer else answer

theorem foldr_rounds (go : Env S P → Option (Env S P) → Option (Env S P)) (n : Nat) (σ : Env S P)
    (answer : Option (Env S P)) :
    (Tree.rounds b body n σ).foldr go answer =
      if b.mayRepeat n then
        (body.exits σ).foldr (afterRound b body n σ go) (afterRounds b n σ go answer)
      else afterRounds b n σ go answer := by
  have last : (if b.accepts n then [σ] else []).foldr go answer = afterRounds b n σ go answer := by
    rw [afterRounds]
    split <;> rfl
  rw [Tree.rounds_eq, List.foldr_append, last]
  split
  · rw [List.foldr_flatMap]
    congr 1
    funext σ' answer'
    rw [afterRound]
    split <;> rfl
  · rfl

def entered (old : Slot P) (here : P) : Slot P := { arrived old with enteredAt := some here }

omit [DecidableEq P] in
theorem active_arrived (old : Slot P) : (arrived old).active = true := by
  rw [arrived]
  split
  · assumption
  · rfl

omit [DecidableEq P] in
theorem count_arrived_entered (old : Slot P) (here : P) :
    (arrived (entered old here)).count = Ordinal.saturatingSuccessor (arrived old).count := by
  have active : (entered old here).active = true := active_arrived old
  rw [arrived, if_pos active]
  rfl

/-- The machine arrives in a loop that has been gone round `n` times, after a round that does not
end it. -/
structure Arrives (g : Graph) (matchToEnd : Bool) (c₀ : S) (low first : Nat) (trap : TrapId)
    (r : Repetition) (n : Nat) (old : Slot P) (σ : Env S P) (trail : List (TrailEntry P))
    (slots : Array (Slot P)) (answer : Option (Env S P)) : Prop where
  looping : Looping g matchToEnd c₀ low first trap old σ trail slots answer
  count : (arrived old).count = Bounds.slotCount n
  fresh : (old.active && old.enteredAt = some (pos σ.cursor) && r.accepts old.count) = false

section Rounds
variable {go : Env S P → Option (Env S P) → Option (Env S P)} {n : Nat}

theorem Arrives.enters (arrives : Arrives g matchToEnd c₀ low first trap r n old σ trail slots answer)
    (restores : Restores c₀) (state : g.state? id = some (.trap trap r round out))
    (above : low ≤ trap.val) (counts : r.Counts b) (more : b.mayRepeat n = true)
    (next : Onward g matchToEnd c₀ low first slots (Tree.rounds b body n σ) out go) :
    ∃ trail', Looping g matchToEnd c₀ low first trap (entered old (pos σ.cursor)) σ trail'
        (slots.setIfInBounds trap.val (entered old (pos σ.cursor))) (afterRounds b n σ go answer) ∧
      step g matchToEnd (holding g (.visit id) σ trail slots) =
        take g none (holding g (.visit id) σ trail'
          (slots.setIfInBounds trap.val (entered old (pos σ.cursor)))) round := by
  have decides := step_round matchToEnd trail (σ.table g.names.size) state arrives.looping.slot
    arrives.fresh
  rw [arrives.count, counts.accepts, counts.mayRepeat, if_pos more] at decides
  have changed := arrives.looping.change (entered old (pos σ.cursor))
  by_cases accepts : b.accepts n
  · rw [if_pos accepts] at decides
    rw [afterRounds, if_pos accepts]
    have leads := next σ (Tree.mem_rounds_iff.2 (.inr ⟨accepts, rfl⟩)) _ _ answer
      ((spares_setIfInBounds above _ _).trans (spares_setIfInBounds above _ _))
      ((changed.change { entered old (pos σ.cursor) with active := false }).left rfl)
    exact ⟨_, { changed with
      falls := leads.later restores arrives.looping.ahead state changed.slot }, decides⟩
  · rw [if_neg accepts] at decides
    rw [afterRounds, if_neg accepts]
    exact ⟨_, changed, decides⟩

theorem Arrives.stops (arrives : Arrives g matchToEnd c₀ low first trap r n old σ trail slots answer)
    (state : g.state? id = some (.trap trap r round out)) (above : low ≤ trap.val)
    (counts : r.Counts b) (enough : ¬ b.mayRepeat n = true)
    (next : Onward g matchToEnd c₀ low first slots (Tree.rounds b body n σ) out go) :
    Ends g matchToEnd (holding g (.visit id) σ trail slots) (afterRounds b n σ go answer) := by
  have decides := step_round matchToEnd trail (σ.table g.names.size) state arrives.looping.slot
    arrives.fresh
  rw [arrives.count, counts.accepts, counts.mayRepeat, if_neg enough] at decides
  by_cases accepts : b.accepts n
  · rw [if_pos accepts] at decides
    rw [afterRounds, if_pos accepts]
    have leads := next σ (Tree.mem_rounds_iff.2 (.inr ⟨accepts, rfl⟩)) _ _ answer
      (spares_setIfInBounds above _ _)
      ((arrives.looping.change { arrived old with active := false }).left rfl)
    exact leads.ends (.visit id) none decides
  · rw [if_neg accepts] at decides
    rw [afterRounds, if_neg accepts]
    exact .move decides ((arrives.looping.change (arrived old)).falls.here arrives.looping.ahead)

theorem Arrives.ended (arrives : Arrives g matchToEnd c₀ low first trap r n old σ trail slots answer)
    (counts : r.Counts b) (here : P) :
    ((entered old (pos σ.cursor)).active && (entered old (pos σ.cursor)).enteredAt = some here &&
      r.accepts (entered old (pos σ.cursor)).count) =
      (decide (here = pos σ.cursor) && b.accepts n) := by
  have accepts : r.accepts (entered old (pos σ.cursor)).count = b.accepts n := by
    rw [← counts.accepts, ← arrives.count]
    rfl
  rw [accepts]
  simp [entered, active_arrived, eq_comm]

/-- From a loop that has been gone round `n` times the machine goes through the ways out of it. -/
theorem rounds_explored (restores : Restores c₀) (state : g.state? id = some (.trap trap r round out))
    (above : low ≤ trap.val) (counts : r.Counts b)
    (inner : Explores g matchToEnd c₀ (trap.val + 1) first [round] body (.empty id))
    (n : Nat) (σ : Env S P) : ∀ trail slots answer old,
      Arrives g matchToEnd c₀ low first trap r n old σ trail slots answer →
      Onward g matchToEnd c₀ low first slots (Tree.rounds b body n σ) out go →
      Ends g matchToEnd (holding g (.visit id) σ trail slots)
        ((Tree.rounds b body n σ).foldr go answer) := by
  refine Tree.rounds_induction b body ?_ n σ
  intro n σ ih trail slots answer old arrives next
  rw [foldr_rounds]
  by_cases more : b.mayRepeat n
  · rw [if_pos more]
    obtain ⟨trail₁, looping, enters⟩ := arrives.enters restores state above counts more next
    refine Leads.ends (inner (afterRound b body n σ go) id 0 (looping.inner above)
      (offers_single g id 0 round) ?_) (.visit id) none enters
    intro σ' mem trail' slots' answer' spares' poised'
    -- The machine is back at the trap: the round ends the loop, or the loop goes on with `n + 1`.
    have looping' := looping.after spares' poised'
    have spares := (spares_setIfInBounds above slots (entered old (pos σ.cursor))).trans
      fun i below => spares' i (Nat.lt_succ_of_lt (Nat.lt_of_lt_of_le below above))
    have ended := arrives.ended counts (pos σ'.cursor)
    apply leads_empty
    rw [afterRound]
    by_cases idle : pos σ'.cursor = pos σ.cursor ∧ b.accepts n = true
    · rw [if_pos idle]
      have leads := next σ' (Tree.mem_rounds_iff.2 (.inl ⟨more, σ', mem, by simp [idle]⟩)) _ _ answer'
        (spares.trans (spares_setIfInBounds above _ _))
        ((looping'.change { entered old (pos σ.cursor) with active := false }).left rfl)
      refine leads.ends (.visit id) _ (step_emptyRound state looping'.slot ?_)
      rw [ended]
      simpa using idle
    · rw [if_neg idle]
      refine ih σ' mem more idle trail' slots' answer' _ ⟨looping', ?_, ?_⟩ ?_
      · rw [count_arrived_entered, arrives.count, Bounds.slotCount_succ]
      · rw [ended]
        simpa using idle
      · intro σ₂ mem₂ trail₂ slots₂ answer₂ spares₂
        refine next σ₂ (Tree.mem_rounds_iff.2 (.inl ⟨more, σ', mem, ?_⟩)) trail₂ slots₂ answer₂
          (spares.trans spares₂)
        rw [if_neg idle]
        exact mem₂
  · rw [if_neg more]
    exact arrives.stops state above counts more next

end Rounds

theorem Explores.loop (restores : Restores c₀) (state : g.state? id = some (.trap trap r round out))
    (above : low ≤ trap.val) (inside : trap.val < g.trapCount) (counts : r.Counts b)
    (inner : Explores g matchToEnd c₀ (trap.val + 1) first [round] body (.empty id)) :
    Explores g matchToEnd c₀ low first [.empty id] (.loop b body) out := by
  intro go _ _ σ trail slots answer poised _ next
  have small := Nat.lt_of_lt_of_le inside poised.size
  have slot : slots[trap.val]? = some slots[trap.val] := Array.getElem?_eq_getElem small
  have idle := poised.idle trap.val _ above slot
  apply leads_empty
  rw [Tree.exits_loop]
  refine rounds_explored restores state above counts inner 0 σ trail slots answer _ ⟨⟨poised.ahead,
    poised.settled, poised.size, fun i s above' _ => poised.idle i s above', slot, poised.falls⟩,
    ?_, ?_⟩ next
  · simp only [arrived, idle]
    rfl
  · simp only [idle, Bool.false_and]

end Loop

/-- What is wired like a tree is gone through like the tree. -/
theorem explores (restores : Restores c₀) {low : Nat} {arrows : List Arrow} {t : Tree} {out : Arrow}
    (wired : Wired g low arrows t out) {first : Nat} (tagsFrom : t.TagsFrom first)
    (tagsBelow : t.TagsBelow g.names.size) :
    Explores g matchToEnd c₀ low first arrows t out := by
  induction wired generalizing first with
  | empty a => exact Explores.empty a
  | label read => exact Explores.label restores read tagsBelow
  | @literal _ cs _ rest _ _ ih =>
    have tags : rest.TagsFrom first ∧ rest.TagsBelow g.names.size := by
      induction cs with
      | nil => exact ⟨tagsFrom, tagsBelow⟩
      | cons _ _ ih => exact ih tagsFrom.2 tagsBelow.2
    exact Explores.literal restores (ih tags.1 tags.2)
  | enter found choices _ ih => exact Explores.enter found choices (ih tagsFrom tagsBelow)
  | relay _ found ih => exact Explores.relay (ih tagsFrom tagsBelow) found
  | cat _ _ one other => exact Explores.cat (one tagsFrom.1 tagsBelow.1) (other tagsFrom.2 tagsBelow.2)
  | alt _ _ one other =>
    exact Explores.alt restores (one tagsFrom.1 tagsBelow.1) (other tagsFrom.2 tagsBelow.2)
  | @group _ _ _ tag _ _ _ opens _ closes ih =>
    cases tag with
    | none =>
      exact Explores.group opens closes tagsFrom (by simp) (fun _ settled => settled)
        (ih tagsFrom tagsBelow)
    | some tag =>
      refine Explores.group opens closes tagsFrom ?_ (fun _ => Env.settledFrom_enter tagsFrom.1)
        (ih tagsFrom.2 tagsBelow.2)
      rintro _ ⟨⟩
      exact ⟨tagsFrom.1, tagsBelow.1⟩
  | loop state above inside counts _ ih =>
    exact Explores.loop restores state above inside counts (ih tagsFrom tagsBelow)

end Machine

end PatternGraph
