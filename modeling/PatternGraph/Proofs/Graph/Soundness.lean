import PatternGraph.Proofs.Graph.Realization
import PatternGraph.Proofs.Pattern.Guards

/-!
Drafts that can be finished. As long as arrows lead to states that are there, and only the traps of
open groups are unfinished, no operation on a draft is a misuse; whether there is room for more states
is a matter of the limits.
-/
namespace PatternGraph

namespace DraftState

def targets : DraftState → List StateId
  | .fanout as | .tagOpen _ as | .tagClose _ as => as.toList.map (·.target)
  | .trap _ _ body leave => (body.toList ++ leave.toList).map (·.target)
  | .terminal => []

def takesArrows : DraftState → Bool
  | .fanout _ | .tagOpen .. | .tagClose .. => true
  | .trap .. | .terminal => false

def isTrap : DraftState → Bool
  | .trap .. => true
  | _ => false

def hasBody : DraftState → Bool
  | .trap _ _ (some _) _ => true
  | _ => false

structure Turns (s s' : DraftState) : Prop where
  takesArrows : s.takesArrows = true → s'.takesArrows = true
  isTrap : s.isTrap = true → s'.isTrap = true
  hasBody : s.hasBody = true → s'.hasBody = true

theorem Turns.refl (s : DraftState) : s.Turns s := ⟨id, id, id⟩

theorem Turns.trans {s s₁ s₂ : DraftState} (h : s.Turns s₁) (h' : s₁.Turns s₂) : s.Turns s₂ :=
  ⟨h'.takesArrows ∘ h.takesArrows, h'.isTrap ∘ h.isTrap, h'.hasBody ∘ h.hasBody⟩

theorem Turns.trap {trap trap' : TrapId} {r r' : Option Repetition} {body leave leave' : Option Arrow}
    {a : Arrow} : (DraftState.trap trap r body leave).Turns (.trap trap' r' (some a) leave') :=
  ⟨id, id, fun _ => rfl⟩

theorem targets_of_finish? {s : DraftState} {state : State} (h : s.finish? = some state) :
    state.targets = s.targets := by
  cases s with
  | fanout as =>
    rcases as with ⟨_ | ⟨a, _ | ⟨b, rest⟩⟩⟩ <;>
    · cases h
      rfl
  | tagOpen tag as | tagClose tag as =>
    cases h
    rfl
  | trap id r body leave =>
    cases r <;> cases body <;> cases leave <;> cases h
    rfl
  | terminal =>
    cases h
    rfl

theorem finishes_of_takesArrows {s : DraftState} (takes : s.takesArrows = true) :
    s.finish?.isSome = true := by
  cases s with
  | fanout as => rcases as with ⟨_ | ⟨a, _ | ⟨b, rest⟩⟩⟩ <;> rfl
  | tagOpen | tagClose => rfl
  | trap | terminal => cases takes

theorem addArrow?_of_takesArrows {s : DraftState} (takes : s.takesArrows = true) (a : Arrow) :
    ∃ s', s.addArrow? a = some s' ∧ s.Turns s' ∧ s'.targets = s.targets ++ [a.target] := by
  cases s with
  | fanout as | tagOpen tag as | tagClose tag as => exact ⟨_, rfl, ⟨id, id, id⟩, by simp [targets]⟩
  | trap | terminal => cases takes

end DraftState

namespace Draft
variable {d d' : Draft} {id : StateId} {s : DraftState} {pending pending' : List StateId}

/-- All arrows lead to states, and all states are finished but the pending ones. -/
structure Sound (d : Draft) (pending : List StateId) : Prop where
  targets : ∀ (i : Nat) s, d.states[i]? = some s → ∀ t ∈ s.targets, t.val < d.size
  finishes : ∀ (i : Nat) s, d.states[i]? = some s → s.finish?.isSome = true ∨ ⟨i⟩ ∈ pending

def TakesArrows (d : Draft) (id : StateId) : Prop :=
  ∃ s, d.states[id.val]? = some s ∧ s.takesArrows = true

def IsTrap (d : Draft) (id : StateId) : Prop :=
  ∃ s, d.states[id.val]? = some s ∧ s.isTrap = true

def HasBody (d : Draft) (id : StateId) : Prop :=
  ∃ s, d.states[id.val]? = some s ∧ s.hasBody = true

theorem TakesArrows.lt_size (takes : d.TakesArrows id) : id.val < d.size := by
  obtain ⟨s, found, _⟩ := takes
  exact (Array.getElem?_eq_some_iff.1 found).1

theorem IsTrap.lt_size (trap : d.IsTrap id) : id.val < d.size := by
  obtain ⟨s, found, _⟩ := trap
  exact (Array.getElem?_eq_some_iff.1 found).1

theorem HasBody.lt_size (body : d.HasBody id) : id.val < d.size := by
  obtain ⟨s, found, _⟩ := body
  exact (Array.getElem?_eq_some_iff.1 found).1

/-- What could be done with the states of a draft can still be done. -/
structure Serves (d d' : Draft) : Prop where
  size : d.size ≤ d'.size
  turns : ∀ (i : Nat) s, d.states[i]? = some s → ∃ s', d'.states[i]? = some s' ∧ s.Turns s'

namespace Serves

theorem trans {d₁ d₂ : Draft} (h : d.Serves d₁) (h' : d₁.Serves d₂) : d.Serves d₂ where
  size := Nat.le_trans h.size h'.size
  turns i s found := by
    obtain ⟨s₁, found₁, turns₁⟩ := h.turns i s found
    obtain ⟨s₂, found₂, turns₂⟩ := h'.turns i s₁ found₁
    exact ⟨s₂, found₂, turns₁.trans turns₂⟩

theorem takesArrows (h : d.Serves d') (takes : d.TakesArrows id) : d'.TakesArrows id := by
  obtain ⟨s, found, takes⟩ := takes
  obtain ⟨s', found', turns⟩ := h.turns _ s found
  exact ⟨s', found', turns.takesArrows takes⟩

theorem isTrap (h : d.Serves d') (trap : d.IsTrap id) : d'.IsTrap id := by
  obtain ⟨s, found, trap⟩ := trap
  obtain ⟨s', found', turns⟩ := h.turns _ s found
  exact ⟨s', found', turns.isTrap trap⟩

theorem hasBody (h : d.Serves d') (body : d.HasBody id) : d'.HasBody id := by
  obtain ⟨s, found, body⟩ := body
  obtain ⟨s', found', turns⟩ := h.turns _ s found
  exact ⟨s', found', turns.hasBody body⟩

end Serves

theorem Adds.found (adds : d.Adds id s d') (i : Nat) (s' : DraftState)
    (found : d'.states[i]? = some s') : d.states[i]? = some s' ∨ i = id.val ∧ s' = s := by
  have inside : i < d'.size := (Array.getElem?_eq_some_iff.1 found).1
  have size := adds.size
  have index := adds.index
  by_cases old : i < d.size
  · left
    rw [← adds.kept.states i old not_false, found]
  · right
    obtain rfl : i = id.val := by omega
    rw [adds.state, Option.some.injEq] at found
    exact ⟨rfl, found.symm⟩

theorem Adds.serves (adds : d.Adds id s d') : d.Serves d' where
  size := adds.kept.size
  turns i s' found := by
    have inside := (Array.getElem?_eq_some_iff.1 found).1
    exact ⟨s', by rw [adds.kept.states i inside not_false, found], .refl s'⟩

theorem Sound.adds (sound : d.Sound pending) (adds : d.Adds id s d') (bare : s.targets = [])
    (finishes : s.finish?.isSome = true ∨ id ∈ pending')
    (covered : ∀ t ∈ pending, t ∈ pending') : d'.Sound pending' where
  targets i s' found t mem := by
    have grows := adds.kept.size
    rcases adds.found i s' found with old | ⟨_, rfl⟩
    · exact Nat.lt_of_lt_of_le (sound.targets i s' old t mem) grows
    · rw [bare] at mem
      cases mem
  finishes i s' found := by
    rcases adds.found i s' found with old | ⟨rfl, rfl⟩
    · exact (sound.finishes i s' old).imp_right (covered _)
    · exact finishes

structure Edits (d d' : Draft) : Prop where
  serves : d.Serves d'
  size : d'.size = d.size
  classes : d'.classes = d.classes
  traps : d'.trapCount = d.trapCount
  stateLimit : d'.stateLimit = d.stateLimit

theorem Edits.trans {d₁ d₂ : Draft} (h : d.Edits d₁) (h' : d₁.Edits d₂) : d.Edits d₂ where
  serves := h.serves.trans h'.serves
  size := h'.size.trans h.size
  classes := h'.classes.trans h.classes
  traps := h'.traps.trans h.traps
  stateLimit := h'.stateLimit.trans h.stateLimit

theorem update_eq_ok {s' : DraftState} (change : DraftState → Option DraftState)
    (refusal : DraftState → Misuse) (found : d.states[id.val]? = some s)
    (changed : change s = some s') (turns : s.Turns s') :
    ∃ d', d.update id change refusal = .ok d' ∧ d.Puts id.val s' d' ∧ d.Edits d' := by
  obtain ⟨inside, same⟩ := Array.getElem?_eq_some_iff.1 found
  have updated : d.update id change refusal =
      .ok { d with states := d.states.set id.val s' inside } := by
    rw [update, dif_pos inside, same, changed]
  obtain ⟨_, s₁, found₁, changed₁, puts⟩ := puts_of_update updated
  rw [found, Option.some.injEq] at found₁
  rw [← found₁, changed, Option.some.injEq] at changed₁
  subst changed₁
  refine ⟨_, updated, puts, ⟨Nat.le_of_eq puts.size.symm, fun i s₀ found₀ => ?_⟩, puts.size,
    puts.classes, puts.traps, rfl⟩
  have states := puts.states i
  split at states
  · rename_i here
    rw [here, found, Option.some.injEq] at found₀
    exact ⟨s', states, found₀ ▸ turns⟩
  · exact ⟨s₀, states.trans found₀, .refl s₀⟩

theorem Sound.puts {i : Nat} (sound : d.Sound pending) (puts : d.Puts i s d')
    (inside : ∀ t ∈ s.targets, t.val < d.size)
    (finishes : s.finish?.isSome = true ∨ ⟨i⟩ ∈ pending')
    (covered : ∀ t ∈ pending, t.val ≠ i → t ∈ pending') : d'.Sound pending' where
  targets j s' found t mem := by
    rw [puts.size]
    rw [puts.states] at found
    split at found
    · cases found
      exact inside t mem
    · exact sound.targets j s' found t mem
  finishes j s' found := by
    rw [puts.states] at found
    split at found
    · rename_i same
      cases found
      exact same ▸ finishes
    · rename_i other
      exact (sound.finishes j s' found).imp_right fun mem => covered _ mem other

theorem Sound.addArrow {source target : StateId} (sound : d.Sound pending)
    (takes : d.TakesArrows source) (inside : target.val < d.size) (label : Label) :
    ∃ d', d.addArrow source label target = .ok d' ∧ d'.Sound pending ∧ d.Edits d' := by
  obtain ⟨s, found, takes⟩ := takes
  obtain ⟨s', added, turns, targets⟩ := DraftState.addArrow?_of_takesArrows takes ⟨label, target⟩
  obtain ⟨d', updated, puts, edits⟩ := update_eq_ok _ (.holdsNoArrows source) found added turns
  refine ⟨d', updated, sound.puts puts ?_ ?_ fun _ mem _ => mem, edits⟩
  · intro t mem
    rw [targets, List.mem_append, List.mem_singleton] at mem
    rcases mem with mem | rfl
    · exact sound.targets _ s found t mem
    · exact inside
  · exact .inl (DraftState.finishes_of_takesArrows (turns.takesArrows takes))

theorem Sound.setTrapBody {target : StateId} (sound : d.Sound pending) (trap : d.IsTrap id)
    (mem : id ∈ pending) (inside : target.val < d.size) (label : Label) :
    ∃ d', d.setTrapBody id label target = .ok d' ∧ d'.Sound pending ∧ d.Edits d' ∧
      d'.HasBody id := by
  obtain ⟨s, found, trap⟩ := trap
  cases s with
  | fanout | tagOpen | tagClose | terminal => cases trap
  | trap trap r body leave =>
    obtain ⟨d', updated, puts, edits⟩ := update_eq_ok (·.withBody? ⟨label, target⟩) .notATrap found
      rfl .trap
    refine ⟨d', updated, sound.puts puts ?_ (.inr mem) fun _ mem _ => mem, edits, ?_⟩
    · intro t mem
      simp only [DraftState.targets, Option.toList_some, List.cons_append, List.nil_append,
        List.map_cons, List.mem_cons] at mem
      rcases mem with rfl | mem
      · exact inside
      · refine sound.targets _ _ found t ?_
        rw [DraftState.targets, List.map_append]
        exact List.mem_append_right _ mem
    · exact ⟨_, by rw [puts.states, if_pos rfl], rfl⟩

theorem Sound.complete {target : StateId} (sound : d.Sound pending) (body : d.HasBody id)
    (inside : target.val < d.size) (r : Repetition)
    (covered : ∀ t ∈ pending, t ≠ id → t ∈ pending') :
    ∃ d₁ d₂, d.setTrapLeave id target = .ok d₁ ∧ d₁.setTrapRepetition id r = .ok d₂ ∧
      d₂.Sound pending' ∧ d.Edits d₂ := by
  obtain ⟨s, found, has⟩ := body
  unfold DraftState.hasBody at has
  split at has
  · rename_i trap repetition body leave
    obtain ⟨d₁, left, puts, edits⟩ := update_eq_ok (·.withLeave? (.empty target)) .notATrap found rfl
      .trap
    have found₁ : d₁.states[id.val]? =
        some (.trap trap repetition (some body) (some (.empty target))) := by
      rw [puts.states, if_pos rfl]
    obtain ⟨d₂, repeated, puts', edits'⟩ := update_eq_ok (·.withRepetition? r) .notATrap found₁ rfl
      .trap
    refine ⟨d₁, d₂, left, repeated, sound.puts (puts.again puts') ?_ (.inl rfl) ?_,
      edits.trans edits'⟩
    · intro t mem
      simp only [DraftState.targets, Option.toList_some, List.cons_append, List.nil_append,
        List.map_cons, List.map_nil, List.mem_cons, List.not_mem_nil, or_false] at mem
      rcases mem with rfl | rfl
      · exact sound.targets _ _ found _ (by simp [DraftState.targets])
      · exact inside
    · intro t mem other
      exact covered t mem fun same => other (congrArg Index.val same)
  · cases has

/-- There is room for `n` more states and loops and `k` more classes, unless limits are among the
errors. -/
def Room (E : PatternError → Prop) (d : Draft) (n k : Nat) : Prop :=
  (∀ cause, E (.anywhere cause)) ∨ d.stateLimit = none ∧ d.size + n ≤ Index.limit ∧
    d.trapCount + n ≤ Index.limit ∧ d.classes.size + k ≤ Index.limit

variable {E : PatternError → Prop} {n n' k k' : Nat}

theorem Room.mono (room : Room E d n k) (fewer : n' ≤ n) (fewer' : k' ≤ k) : Room E d n' k' := by
  refine room.imp_right ?_
  rintro ⟨limit, states, traps, classes⟩
  exact ⟨limit, by omega, by omega, by omega⟩

theorem Room.edits (room : Room E d n k) (edits : d.Edits d') : Room E d' n k := by
  refine room.imp_right ?_
  rintro ⟨limit, states, traps, classes⟩
  rw [edits.stateLimit, edits.size, edits.traps, edits.classes]
  exact ⟨limit, states, traps, classes⟩

theorem ofNat?_eq_ok {kind : IndexKind} {i : Nat} (room : i + 1 ≤ Index.limit) :
    Index.ofNat? kind i = .ok ⟨i⟩ :=
  Index.ofNat?_eq_ok_iff.2 ⟨by simp only [Index.limit] at room; omega, rfl⟩

theorem others_of_push (h : d.push s = .ok (id, d')) :
    d'.stateLimit = d.stateLimit ∧ d'.classes = d.classes := by
  unfold Draft.push at h
  split at h
  · cases h
  · cases h
    exact ⟨rfl, rfl⟩

theorem error_of_push {e : PatternError} (h : d.push s = .error e) :
    ∃ cause, e = .anywhere cause ∧ (d.stateLimit = none → Index.limit ≤ d.size) := by
  unfold Draft.push at h
  split at h
  · rename_i full
    cases h
    unfold nextId at full
    split at full
    · rename_i failed
      cases full
      refine ⟨_, rfl, fun _ => Nat.le_of_not_lt fun room => ?_⟩
      rw [ofNat?_eq_ok room] at failed
      cases failed
    · split at full
      · rename_i limited
        split at full
        · cases full
          refine ⟨_, rfl, fun unlimited => ?_⟩
          rw [unlimited] at limited
          cases limited
        · cases full
      · cases full
  · cases h

theorem error_of_addTrap {e : PatternError} (h : d.addTrap = .error e) :
    ∃ cause, e = .anywhere cause ∧
      (d.stateLimit = none → Index.limit ≤ d.size ∨ Index.limit ≤ d.trapCount) := by
  unfold Draft.addTrap at h
  split at h
  · rename_i failed
    cases h
    refine ⟨_, rfl, fun _ => .inr (Nat.le_of_not_lt fun room => ?_)⟩
    rw [ofNat?_eq_ok room] at failed
    cases failed
  · split at h
    · rename_i full
      cases h
      obtain ⟨cause, rfl, limited⟩ := error_of_push full
      exact ⟨cause, rfl, fun unlimited => .inl (limited unlimited)⟩
    · cases h

theorem Room.push (room : Room E d (n + 1) k) (s : DraftState) :
    Guards E (fun found => d.Adds found.1 s found.2 ∧ Room E found.2 n k)
      (Assembly.refuse (d.push s)) := by
  apply Guards.of_refuse
  · rintro ⟨id, d'⟩ pushed
    obtain ⟨adds, traps⟩ := adds_of_push pushed
    obtain ⟨limit', classes'⟩ := others_of_push pushed
    refine ⟨adds, room.imp_right ?_⟩
    rintro ⟨limit, states, loops, classes⟩
    rw [limit', classes', adds.size, traps]
    exact ⟨limit, by omega, by omega, classes⟩
  · intro e refused
    obtain ⟨cause, rfl, full⟩ := error_of_push refused
    rcases room with all | ⟨limit, states, _⟩
    · exact all cause
    · have := full limit
      omega

theorem Room.addTrap (room : Room E d (n + 1) k) :
    Guards E (fun found => d.Adds found.1 (.trap ⟨d.trapCount⟩ none none none) found.2 ∧
        Room E found.2 n k)
      (Assembly.refuse d.addTrap) := by
  apply Guards.of_refuse
  · rintro ⟨id, d'⟩ added
    obtain ⟨adds, traps⟩ := adds_of_addTrap added
    have others : d'.stateLimit = d.stateLimit ∧ d'.classes = d.classes := by
      unfold Draft.addTrap at added
      split at added
      · cases added
      · split at added
        · cases added
        · rename_i pushed
          cases added
          have others := others_of_push pushed
          exact others
    refine ⟨adds, room.imp_right ?_⟩
    rintro ⟨limit, states, loops, classes⟩
    rw [others.1, others.2, adds.size, traps]
    exact ⟨limit, by omega, by omega, classes⟩
  · intro e refused
    obtain ⟨cause, rfl, full⟩ := error_of_addTrap refused
    rcases room with all | ⟨limit, states, loops, _⟩
    · exact all cause
    · have := full limit
      omega

theorem Room.addClass (room : Room E d n (k + 1)) (set : CharSet) :
    Guards E (fun found => found.2.states = d.states ∧ Room E found.2 n k)
      (Assembly.refuse (d.addClass set)) := by
  unfold Draft.addClass
  rcases room with all | ⟨limit, states, loops, classes⟩
  · split
    · exact all _
    · exact ⟨rfl, .inl all⟩
  · rw [ofNat?_eq_ok (by omega)]
    refine ⟨rfl, .inr ⟨limit, states, loops, ?_⟩⟩
    simp only [Array.size_push]
    omega

theorem finishStates_complete {count i : Nat} {ss : List DraftState}
    (sound : ∀ s ∈ ss, s.finish?.isSome = true ∧ ∀ t ∈ s.targets, t.val < count) :
    ∃ states, finishStates count i ss = .ok states := by
  induction ss generalizing i with
  | nil => exact ⟨[], rfl⟩
  | cons s rest ih =>
    obtain ⟨⟨finishes, inside⟩, others⟩ := List.forall_mem_cons.1 sound
    obtain ⟨state, finished⟩ := Option.isSome_iff_exists.1 finishes
    obtain ⟨states, more⟩ := @ih (i + 1) others
    have targets : state.targets.find? (fun t => count ≤ t.val) = none := by
      rw [DraftState.targets_of_finish? finished, List.find?_eq_none]
      intro t mem
      have := inside t mem
      simpa using this
    exact ⟨state :: states, by simp only [finishStates, finished, targets, more]; rfl⟩

theorem finishStates_sound {count i : Nat} {ss : List DraftState} {states : List State}
    (h : finishStates count i ss = .ok states) :
    ∀ s ∈ ss, s.finish?.isSome = true ∧ ∀ t ∈ s.targets, t.val < count := by
  induction ss generalizing i states with
  | nil => exact List.forall_mem_nil _
  | cons s rest ih =>
    unfold finishStates at h
    split at h
    · cases h
    · rename_i state finished
      split at h
      · cases h
      · rename_i inside
        obtain ⟨states, more, _⟩ := Except.map_eq_ok.1 h
        refine List.forall_mem_cons.2 ⟨⟨by rw [finished]; rfl, fun t mem => ?_⟩, ih more⟩
        rw [← DraftState.targets_of_finish? finished] at mem
        simpa using List.find?_eq_none.1 inside t mem

theorem isSome_lastTerminal? {states : Array State} :
    (lastTerminal? states).isSome = true ↔ State.terminal ∈ states.toList := by
  rw [lastTerminal?, Option.isSome_map, List.find?_isSome]
  constructor
  · rintro ⟨⟨s, i⟩, member, terminal⟩
    have found := List.fst_mem_of_mem_zipIdx (List.mem_reverse.1 member)
    cases s with
    | terminal => exact found
    | relay | fanout | trap | tagOpen | tagClose => cases terminal
  · intro member
    obtain ⟨i, found⟩ := List.mem_iff_getElem?.1 member
    exact ⟨(.terminal, i), List.mem_reverse.2 (List.mem_zipIdx_iff_getElem?.2 found), rfl⟩

theorem terminal_of_finish? {s : DraftState} (h : s.finish? = some .terminal) : s = .terminal := by
  cases s with
  | fanout as => rcases as with ⟨_ | ⟨a, _ | ⟨b, rest⟩⟩⟩ <;> cases h
  | tagOpen | tagClose => cases h
  | trap id r body leave => cases r <;> cases body <;> cases leave <;> cases h
  | terminal => rfl

/-- What it takes for a draft to be finished; all else is a misuse. -/
theorem exists_finish_iff {start : StateId} {names : GroupNames} :
    (∃ g, d.finish start names = .ok g) ↔
      (∀ s ∈ d.states.toList, s.finish?.isSome = true ∧ ∀ t ∈ s.targets, t.val < d.size) ∧
        start.val < d.size ∧ DraftState.terminal ∈ d.states.toList := by
  have ends {states : List State} (finished : finishStates d.size 0 d.states.toList = .ok states) :
      State.terminal ∈ states ↔ DraftState.terminal ∈ d.states.toList := by
    obtain ⟨length, all⟩ := finishStates_eq_ok finished
    constructor
    · intro member
      obtain ⟨i, found⟩ := List.mem_iff_getElem?.1 member
      have inside := (List.getElem?_eq_some_iff.1 found).1
      have drafted := List.getElem?_eq_getElem (length ▸ inside)
      obtain ⟨state, same, found'⟩ := all i _ drafted
      rw [found, Option.some.injEq] at found'
      rw [← terminal_of_finish? (found' ▸ same)]
      exact List.mem_of_getElem? drafted
    · intro member
      obtain ⟨i, found⟩ := List.mem_iff_getElem?.1 member
      obtain ⟨state, same, found'⟩ := all i _ found
      cases same
      exact List.mem_of_getElem? found'
  constructor
  · rintro ⟨g, h⟩
    simp only [finish, Except.bind_eq_ok] at h
    obtain ⟨states, finished, h⟩ := h
    have sound := finishStates_sound finished
    have length : states.length = d.size := (finishStates_eq_ok finished).1
    split at h
    · cases h
    · rename_i inside
      split at h
      · cases h
      · rename_i terminal last
        have last : State.terminal ∈ states := isSome_lastTerminal?.1 (by rw [last]; rfl)
        refine ⟨sound, ?_, (ends finished).1 last⟩
        simpa [length] using inside
  · rintro ⟨sound, inside, terminal⟩
    obtain ⟨states, finished⟩ := finishStates_complete (i := 0) sound
    have length : states.toArray.size = d.size := (finishStates_eq_ok finished).1
    have room : ¬ states.toArray.size ≤ start.val := by omega
    have last : (lastTerminal? states.toArray).isSome = true :=
      isSome_lastTerminal?.2 ((ends finished).2 terminal)
    obtain ⟨id, last⟩ := Option.isSome_iff_exists.1 last
    refine ⟨⟨states.toArray, start, id, d.classes, names, d.trapCount,
      leadingLiteral states.toArray start⟩, ?_⟩
    rw [Draft.finish, finished]
    simp only [bind, Except.bind, if_neg room, last]
    rfl

theorem Sound.finish {start terminal : StateId} (sound : d.Sound []) (begins : start.val < d.size)
    (ends : d.states[terminal.val]? = some .terminal) (names : GroupNames) :
    ∃ g, d.finish start names = .ok g := by
  refine exists_finish_iff.2 ⟨fun s mem => ?_, begins, ?_⟩
  · obtain ⟨i, found⟩ := List.mem_iff_getElem?.1 mem
    rw [Array.getElem?_toList] at found
    exact ⟨(sound.finishes i s found).resolve_right (by simp), sound.targets i s found⟩
  · rw [← Array.getElem?_toList] at ends
    exact List.mem_of_getElem? ends

end Draft

end PatternGraph
