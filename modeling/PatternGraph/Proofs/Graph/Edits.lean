import PatternGraph.Proofs.Graph.Soundness

/-!
A draft in the hands of a caller, who makes one call on it after the other. A call may be refused because
a limit is reached, and then leaves the draft alone. The calls as a row of checks and writes in place do
what the operations on drafts do.
-/
namespace PatternGraph

inductive StateKind
  | fanout
  | tagOpen (tag : Option TagId)
  | tagClose (tag : Option TagId)
  | trap
  | terminal
  deriving DecidableEq

inductive Edit
  | add (kind : StateKind)
  | addClass (set : CharSet)
  | addArrow (source : StateId) (label : Label) (target : StateId)
  | setTrapBody (trap : StateId) (label : Label) (target : StateId)
  | setTrapLeave (trap target : StateId)
  | setTrapRepetition (trap : StateId) (r : Repetition)
  | setStateLimit (limit : Option Nat)

inductive Receipt
  | state (id : StateId)
  | charClass (id : ClassId)
  | done
  deriving DecidableEq

namespace Draft

def add (d : Draft) : StateKind → Except PatternError (StateId × Draft)
  | .fanout => d.addFanout
  | .tagOpen tag => d.addTagOpen tag
  | .tagClose tag => d.addTagClose tag
  | .trap => d.addTrap
  | .terminal => d.addTerminal

/-- What the caller has after an operation: when it is refused, the draft of before. -/
def after {A : Type} (d : Draft) (answer : A → Receipt) :
    Except PatternError (A × Draft) → Except PatternError Receipt × Draft
  | .ok (a, d') => (.ok (answer a), d')
  | .error e => (.error e, d)

theorem after_cases {A : Type} {d d' : Draft} {answer : A → Receipt}
    {x : Except PatternError (A × Draft)} {outcome : Except PatternError Receipt}
    (h : d.after answer x = (outcome, d')) :
    (∃ a, x = .ok (a, d') ∧ outcome = .ok (answer a)) ∨
      ∃ refusal, outcome = .error refusal ∧ d' = d := by
  cases x with
  | ok found =>
    cases h
    exact .inl ⟨_, rfl, rfl⟩
  | error refusal =>
    cases h
    exact .inr ⟨refusal, rfl, rfl⟩

/-- Calls that write to a draft in place. What was written stays when a call is refused later on. -/
abbrev InPlace := ExceptT PatternError (StateT Draft (Except Misuse))

namespace InPlace

def index (kind : IndexKind) (n : Nat) (refusal : Cause) : InPlace (Index kind) :=
  match Index.ofNat? kind n with
  | .ok id => pure id
  | .error _ => throw (.anywhere refusal)

def push (s : DraftState) : InPlace StateId := do
  let id ← index .state (← get).size (.tooManyStates Index.limit)
  if let some limit := (← get).stateLimit then
    if limit ≤ (← get).size then
      throw (.anywhere (.tooManyStates limit))
  modify fun d => { d with states := d.states.push s }
  return id

def addTrap : InPlace StateId := do
  let trap ← index .trap (← get).trapCount .tooManyIndices
  let id ← push (.trap trap none none none)
  modify fun d => { d with trapCount := d.trapCount + 1 }
  return id

def addClass (set : CharSet) : InPlace ClassId := do
  let id ← index .charClass (← get).classes.size .tooManyIndices
  modify fun d => { d with classes := d.classes.push set }
  return id

def change (f : Draft → Except Misuse Draft) : InPlace Unit := do
  let d ← (f (← get) : Except Misuse Draft)
  set d

def add : StateKind → InPlace StateId
  | .fanout => push (.fanout #[])
  | .tagOpen tag => push (.tagOpen tag #[])
  | .tagClose tag => push (.tagClose tag #[])
  | .trap => addTrap
  | .terminal => push .terminal

end InPlace

namespace InPlace
variable {A B : Type}

def outcome (call : InPlace A) (d : Draft) : Except Misuse (Except PatternError A × Draft) :=
  StateT.run (ExceptT.run call) d

@[simp] theorem outcome_pure (a : A) (d : Draft) : (pure a : InPlace A).outcome d = .ok (.ok a, d) :=
  rfl

@[simp] theorem outcome_throw (e : PatternError) (d : Draft) :
    (throw e : InPlace A).outcome d = .ok (.error e, d) := rfl

@[simp] theorem outcome_get (d : Draft) : (get : InPlace Draft).outcome d = .ok (.ok d, d) := rfl

@[simp] theorem outcome_modify (f : Draft → Draft) (d : Draft) :
    (modify f : InPlace PUnit).outcome d = .ok (.ok ⟨⟩, f d) := rfl

@[simp] theorem outcome_bind (call : InPlace A) (next : A → InPlace B) (d : Draft) :
    (call >>= next).outcome d =
      match call.outcome d with
      | .ok (.ok a, d') => (next a).outcome d'
      | .ok (.error e, d') => .ok (.error e, d')
      | .error m => .error m := by
  change Except.bind (call.outcome d) _ = _
  rcases call.outcome d with m | ⟨e | a, d'⟩ <;> rfl

@[simp] theorem outcome_map (f : A → B) (call : InPlace A) (d : Draft) :
    (f <$> call).outcome d =
      match call.outcome d with
      | .ok (.ok a, d') => .ok (.ok (f a), d')
      | .ok (.error e, d') => .ok (.error e, d')
      | .error m => .error m := by
  change Except.bind (call.outcome d) _ = _
  rcases call.outcome d with m | ⟨e | a, d'⟩ <;> rfl

theorem outcome_change (f : Draft → Except Misuse Draft) (d : Draft) :
    ((fun _ => Receipt.done) <$> change f).outcome d = (f d).map (.ok .done, ·) := by
  rw [outcome_map, change, outcome_bind, outcome_get]
  dsimp only
  rw [outcome_bind]
  cases f d <;> rfl

/-- What a call in place leaves is what the operation leaves, and one refused has written nothing. -/
def Performs (call : InPlace A) (operation : Draft → Except PatternError (A × Draft)) : Prop :=
  ∀ d, call.outcome d = .ok (match operation d with
    | .ok (a, d') => (.ok a, d')
    | .error e => (.error e, d))

theorem Performs.outcome {call : InPlace A} {operation : Draft → Except PatternError (A × Draft)}
    (performs : call.Performs operation) (answer : A → Receipt) (d : Draft) :
    (answer <$> call).outcome d = .ok (d.after answer (operation d)) := by
  rw [outcome_map, performs]
  cases operation d <;> rfl

theorem performs_push (s : DraftState) : (push s).Performs (·.push s) := by
  intro d
  unfold Draft.push nextId
  cases room : Index.ofNat? .state d.size with
  | error e => simp [push, index, room]
  | ok id =>
    cases limited : d.stateLimit with
    | none => simp [push, index, room, limited]
    | some limit =>
      by_cases full : limit ≤ d.size
      · simp [push, index, room, limited, full]
      · simp [push, index, room, limited, full]

theorem performs_addTrap : addTrap.Performs Draft.addTrap := by
  intro d
  unfold Draft.addTrap
  cases room : Index.ofNat? .trap d.trapCount with
  | error e => simp [addTrap, index, room]
  | ok trap =>
    simp only [addTrap, outcome_bind, outcome_get, index, room, outcome_pure,
      performs_push (.trap trap none none none) d]
    cases d.push (.trap trap none none none) with
    | error e => rfl
    | ok added => rfl

theorem performs_addClass (set : CharSet) : (addClass set).Performs (·.addClass set) := by
  intro d
  unfold Draft.addClass
  cases room : Index.ofNat? .charClass d.classes.size with
  | error e => simp [addClass, index, room]
  | ok id => simp [addClass, index, room]

theorem performs_add (kind : StateKind) : (add kind).Performs (·.add kind) := by
  cases kind with
  | fanout | tagOpen | tagClose | terminal => exact performs_push _
  | trap => exact performs_addTrap

end InPlace

end Draft

namespace StateKind

def bare (trap : TrapId) : StateKind → DraftState
  | .fanout => .fanout #[]
  | .tagOpen tag => .tagOpen tag #[]
  | .tagClose tag => .tagClose tag #[]
  | .trap => .trap trap none none none
  | .terminal => .terminal

end StateKind

namespace Draft
variable {d d' : Draft}

theorem push_eq_ok {s : DraftState} {id : StateId} (h : d.push s = .ok (id, d')) :
    id = ⟨d.size⟩ ∧ d' = { d with states := d.states.push s } := by
  have index := (adds_of_push h).1.index
  unfold push at h
  split at h
  · cases h
  · cases h
    exact ⟨Index.eq_of_val index, rfl⟩

theorem add_eq_ok {kind : StateKind} {id : StateId} (h : d.add kind = .ok (id, d')) :
    id = ⟨d.size⟩ ∧ d'.states = d.states.push (kind.bare ⟨d.trapCount⟩) ∧ d'.classes = d.classes ∧
      d'.trapCount = d.trapCount + [kind].count .trap := by
  cases kind with
  | fanout | tagOpen | tagClose | terminal =>
    obtain ⟨index, rfl⟩ := push_eq_ok h
    exact ⟨index, rfl, rfl, rfl⟩
  | trap =>
    simp only [add, addTrap] at h
    split at h
    · cases h
    · rename_i number
      obtain ⟨_, rfl⟩ := Index.ofNat?_eq_ok_iff.1 number
      split at h
      · cases h
      · rename_i pushed
        cases h
        obtain ⟨index, rfl⟩ := push_eq_ok pushed
        exact ⟨index, rfl, rfl, rfl⟩

theorem addClass_eq_ok {set : CharSet} {id : ClassId} (h : d.addClass set = .ok (id, d')) :
    id = ⟨d.classes.size⟩ ∧ d' = { d with classes := d.classes.push set } := by
  unfold addClass at h
  split at h
  · cases h
  · rename_i number
    cases h
    exact ⟨(Index.ofNat?_eq_ok_iff.1 number).2, rfl⟩

end Draft

namespace Edit

def on (d : Draft) : Edit → Except Misuse (Except PatternError Receipt × Draft)
  | .add kind => .ok (d.after .state (d.add kind))
  | .addClass set => .ok (d.after .charClass (d.addClass set))
  | .addArrow source label target => (d.addArrow source label target).map (.ok .done, ·)
  | .setTrapBody trap label target => (d.setTrapBody trap label target).map (.ok .done, ·)
  | .setTrapLeave trap target => (d.setTrapLeave trap target).map (.ok .done, ·)
  | .setTrapRepetition trap r => (d.setTrapRepetition trap r).map (.ok .done, ·)
  | .setStateLimit limit => .ok (.ok .done, d.withStateLimit limit)

open Draft (InPlace)

def inPlace : Edit → InPlace Receipt
  | .add kind => .state <$> InPlace.add kind
  | .addClass set => .charClass <$> InPlace.addClass set
  | .addArrow source label target =>
    (fun _ => .done) <$> InPlace.change (·.addArrow source label target)
  | .setTrapBody trap label target =>
    (fun _ => .done) <$> InPlace.change (·.setTrapBody trap label target)
  | .setTrapLeave trap target => (fun _ => .done) <$> InPlace.change (·.setTrapLeave trap target)
  | .setTrapRepetition trap r => (fun _ => .done) <$> InPlace.change (·.setTrapRepetition trap r)
  | .setStateLimit limit => do
    modify (·.withStateLimit limit)
    return .done

theorem outcome_inPlace (e : Edit) (d : Draft) : e.inPlace.outcome d = e.on d := by
  cases e with
  | add kind => exact (InPlace.performs_add kind).outcome .state d
  | addClass set => exact (InPlace.performs_addClass set).outcome .charClass d
  | addArrow | setTrapBody | setTrapLeave | setTrapRepetition => exact InPlace.outcome_change _ d
  | setStateLimit limit => rfl

/-- A call that is refused leaves the draft as it was. -/
theorem eq_of_refused {e : Edit} {d d' : Draft} {refusal : PatternError}
    (h : e.on d = .ok (.error refusal, d')) : d' = d := by
  cases e with
  | add | addClass =>
    obtain ⟨_, _, never⟩ | ⟨_, _, same⟩ := Draft.after_cases (Except.ok.inj h)
    · cases never
    · exact same
  | addArrow | setTrapBody | setTrapLeave | setTrapRepetition =>
    obtain ⟨_, _, never⟩ := Except.map_eq_ok.1 h
    cases never
  | setStateLimit => cases h

end Edit

end PatternGraph
