import PatternGraph.Proofs.Graph.Edits

/-!
What a caller has built after any calls on a draft, up to the first misuse. The log of the calls says it
all: which states there are and under which numbers, with which arrows and parts, and whether the draft
can be finished.
-/
namespace PatternGraph

/-- The calls that were made, with what they returned. -/
abbrev Log := List (Edit × Except PatternError Receipt)

namespace Edit

def kind? : Edit → Option StateKind
  | .add kind => some kind
  | _ => none

def set? : Edit → Option CharSet
  | .addClass set => some set
  | _ => none

def arrow? (i : Nat) : Edit → Option Arrow
  | .addArrow source label target => if source.val = i then some ⟨label, target⟩ else none
  | _ => none

def body? (i : Nat) : Edit → Option Arrow
  | .setTrapBody trap label target => if trap.val = i then some ⟨label, target⟩ else none
  | _ => none

def leave? (i : Nat) : Edit → Option Arrow
  | .setTrapLeave trap target => if trap.val = i then some (.empty target) else none
  | _ => none

def repetition? (i : Nat) : Edit → Option Repetition
  | .setTrapRepetition trap r => if trap.val = i then some r else none
  | _ => none

end Edit

namespace Receipt

def stateId? : Receipt → Option StateId
  | .state id => some id
  | _ => none

def classId? : Receipt → Option ClassId
  | .charClass id => some id
  | _ => none

end Receipt

structure Parts where
  arrows : List Arrow
  body : Option Arrow
  leave : Option Arrow
  repetition : Option Repetition

namespace Parts

def nothing : Parts := ⟨[], none, none, none⟩

/-- The parts of the state number `i` after the call: arrows are appended, other parts replaced. -/
def given (parts : Parts) (e : Edit) (i : Nat) : Parts where
  arrows := parts.arrows ++ (e.arrow? i).toList
  body := (e.body? i).or parts.body
  leave := (e.leave? i).or parts.leave
  repetition := (e.repetition? i).or parts.repetition

theorem given_idle {parts : Parts} {e : Edit} {i : Nat} (arrow : e.arrow? i = none)
    (body : e.body? i = none) (leave : e.leave? i = none) (repetition : e.repetition? i = none) :
    parts.given e i = parts := by
  rw [given, arrow, body, leave, repetition]
  simp

end Parts

def DraftState.trapId? : DraftState → Option TrapId
  | .trap id .. => some id
  | _ => none

namespace StateKind

def drafted (trap : TrapId) (parts : Parts) : StateKind → DraftState
  | .fanout => .fanout parts.arrows.toArray
  | .tagOpen tag => .tagOpen tag parts.arrows.toArray
  | .tagClose tag => .tagClose tag parts.arrows.toArray
  | .trap => .trap trap parts.repetition parts.body parts.leave
  | .terminal => .terminal

/-- The state of the graph; a trap is none before it has all its parts. -/
def finished (trap : TrapId) (parts : Parts) : StateKind → Option State
  | .fanout => some (match parts.arrows with
    | [a] => .relay a
    | as => .fanout as.toArray)
  | .tagOpen tag => some (.tagOpen tag parts.arrows.toArray)
  | .tagClose tag => some (.tagClose tag parts.arrows.toArray)
  | .trap => do return .trap trap (← parts.repetition) (← parts.body) (← parts.leave)
  | .terminal => some .terminal

theorem finish?_drafted (kind : StateKind) (trap : TrapId) (parts : Parts) :
    (kind.drafted trap parts).finish? = kind.finished trap parts := by
  obtain ⟨arrows, body, leave, repetition⟩ := parts
  cases kind with
  | fanout => rcases arrows with _ | ⟨a, _ | ⟨b, rest⟩⟩ <;> rfl
  | tagOpen | tagClose | terminal => rfl
  | trap => cases repetition <;> cases body <;> cases leave <;> rfl

theorem isSome_finished {kind : StateKind} {trap : TrapId} {parts : Parts} :
    (kind.finished trap parts).isSome = true ↔ (kind = .trap → parts.body.isSome = true ∧
      parts.leave.isSome = true ∧ parts.repetition.isSome = true) := by
  obtain ⟨arrows, body, leave, repetition⟩ := parts
  cases kind with
  | fanout | tagOpen | tagClose | terminal => exact iff_of_true rfl nofun
  | trap => cases repetition <;> cases body <;> cases leave <;> simp [finished]

end StateKind

namespace Log
variable {A : Type}

def given (log : Log) (pick : Edit → Receipt → Option A) : List A :=
  log.filterMap fun
    | (e, .ok a) => pick e a
    | (_, .error _) => none

theorem given_refused (log : Log) (e : Edit) (refusal : PatternError)
    (pick : Edit → Receipt → Option A) :
    Log.given (log ++ [(e, .error refusal)]) pick = log.given pick := by
  simp [given, List.filterMap_append]

theorem given_answered (log : Log) (e : Edit) (a : Receipt) (pick : Edit → Receipt → Option A) :
    Log.given (log ++ [(e, .ok a)]) pick = log.given pick ++ (pick e a).toList := by
  cases picked : pick e a <;> simp [given, List.filterMap_append, picked]

def ids (log : Log) : List StateId := log.given fun _ a => a.stateId?

def classIds (log : Log) : List ClassId := log.given fun _ a => a.classId?

def added (log : Log) : List StateKind := log.given fun e _ => e.kind?

def classes (log : Log) : List CharSet := log.given fun e _ => e.set?

/-- The arrows of a state are all that were appended to it, the parts of a trap those set last. -/
def parts (log : Log) (i : Nat) : Parts where
  arrows := log.given fun e _ => e.arrow? i
  body := (log.given fun e _ => e.body? i).getLast?
  leave := (log.given fun e _ => e.leave? i).getLast?
  repetition := (log.given fun e _ => e.repetition? i).getLast?

theorem parts_answered (log : Log) (e : Edit) (a : Receipt) (i : Nat) :
    Log.parts (log ++ [(e, .ok a)]) i = (log.parts i).given e i := by
  have last {B : Type} (found : List B) (next : Option B) :
      (found ++ next.toList).getLast? = next.or found.getLast? := by
    cases next <;> simp
  simp only [parts, given_answered, last, Parts.given]

def trap (log : Log) (i : Nat) : TrapId := ⟨(log.added.take i).count .trap⟩

def drafted? (log : Log) (i : Nat) : Option DraftState :=
  log.added[i]?.map (·.drafted (log.trap i) (log.parts i))

def state? (log : Log) (i : Nat) : Option State :=
  log.added[i]?.bind (·.finished (log.trap i) (log.parts i))

/-- What it takes for a graph: traps with all their parts, targets among the states, and an end. -/
structure Buildable (log : Log) (start : StateId) : Prop where
  complete : ∀ i : Nat, log.added[i]? = some .trap → (log.parts i).body.isSome = true ∧
    (log.parts i).leave.isSome = true ∧ (log.parts i).repetition.isSome = true
  targets : ∀ i s, log.state? i = some s → ∀ t ∈ s.targets, t.val < log.added.length
  start : start.val < log.added.length
  terminal : .terminal ∈ log.added

theorem state?_eq (log : Log) (i : Nat) : log.state? i = (log.drafted? i).bind DraftState.finish? := by
  rw [state?, drafted?, Option.bind_map]
  congr 1
  funext kind
  exact (kind.finish?_drafted _ _).symm

end Log

structure Session where
  log : Log
  draft : Draft

namespace Session

def begin : Session := ⟨[], .empty⟩

def run (s : Session) : List Edit → Session
  | [] => s
  | e :: es =>
    match e.on s.draft with
    | .error _ => s
    | .ok (outcome, d) => run ⟨s.log ++ [(e, outcome)], d⟩ es

structure Tells (log : Log) (d : Draft) : Prop where
  states : ∀ i, d.states[i]? = log.drafted? i
  unborn : ∀ i, log.added.length ≤ i → log.parts i = .nothing
  classes : d.classes.toList = log.classes
  traps : d.trapCount = log.added.count .trap
  ids : log.ids = (List.range log.added.length).map Index.mk
  classIds : log.classIds = (List.range log.classes.length).map Index.mk

namespace Tells
variable {log : Log} {d d' : Draft}

theorem begin : Tells [] .empty where
  states _ := rfl
  unborn _ _ := rfl
  classes := rfl
  traps := rfl
  ids := rfl
  classIds := rfl

theorem size (tells : Tells log d) : d.size = log.added.length := by
  have same (i : Nat) : d.size ≤ i ↔ log.added.length ≤ i := by
    rw [Draft.size, ← Array.getElem?_eq_none_iff, ← List.getElem?_eq_none_iff, tells.states,
      Log.drafted?, Option.map_eq_none_iff]
  exact Nat.le_antisymm ((same _).2 (Nat.le_refl _)) ((same _).1 (Nat.le_refl _))

theorem refused (tells : Tells log d) (e : Edit) (refusal : PatternError) :
    Tells (log ++ [(e, .error refusal)]) d := by
  obtain ⟨states, unborn, classes, traps, ids, classIds⟩ := tells
  constructor <;>
    simpa only [Log.drafted?, Log.added, Log.parts, Log.trap, Log.classes, Log.ids, Log.classIds,
      Log.given_refused]

theorem added (tells : Tells log d) {kind : StateKind} {id : StateId}
    (h : d.add kind = .ok (id, d')) : Tells (log ++ [(.add kind, .ok (.state id))]) d' := by
  obtain ⟨rfl, states, classes, traps⟩ := Draft.add_eq_ok h
  have size := tells.size
  have kinds : Log.added (log ++ [(.add kind, .ok (.state ⟨d.size⟩))]) = log.added ++ [kind] :=
    Log.given_answered ..
  have sets : Log.classes (log ++ [(.add kind, .ok (.state ⟨d.size⟩))]) = log.classes ++ [] :=
    Log.given_answered ..
  have parts (i : Nat) : Log.parts (log ++ [(.add kind, .ok (.state ⟨d.size⟩))]) i = log.parts i :=
    (Log.parts_answered ..).trans (Parts.given_idle rfl rfl rfl rfl)
  constructor
  · intro i
    rw [states, Array.getElem?_push, Log.drafted?, Log.trap, kinds, parts]
    split
    · rename_i here
      -- No call can have given anything to a state before it was there, so the new one is bare.
      have last : i = log.added.length := here.trans size
      rw [last, tells.unborn _ (Nat.le_refl _), List.getElem?_concat_length, List.take_left,
        ← tells.traps]
      cases kind <;> rfl
    · rename_i other
      rw [tells.states, Log.drafted?, Log.trap]
      rcases Nat.lt_or_ge i log.added.length with old | new
      · rw [List.getElem?_append_left old, List.take_append_of_le_length (Nat.le_of_lt old)]
      · have past : log.added.length < i := Nat.lt_of_le_of_ne new fun h => other (by
          rw [← h, ← size, Draft.size])
        rw [List.getElem?_eq_none new, List.getElem?_eq_none (by rwa [List.length_append])]
        rfl
  · intro i past
    rw [kinds, List.length_append] at past
    rw [parts, tells.unborn i (by omega)]
  · rw [classes, sets, List.append_nil, tells.classes]
  · rw [traps, kinds, List.count_append, tells.traps]
  · rw [kinds, List.length_append, List.length_singleton, List.range_succ, List.map_append, ← tells.ids,
      ← size]
    exact Log.given_answered ..
  · rw [sets, List.append_nil, ← tells.classIds]
    exact (Log.given_answered ..).trans (List.append_nil _)

theorem given (tells : Tells log d) {e : Edit} {a : Receipt} (kind : e.kind? = none)
    (id : a.stateId? = none) (states : ∀ i : Nat, d'.states[i]? = log.added[i]?.map fun kind =>
      kind.drafted (log.trap i) ((log.parts i).given e i))
    (unborn : ∀ i, d.size ≤ i → (log.parts i).given e i = log.parts i)
    (classes : d'.classes.toList = log.classes ++ e.set?.toList)
    (traps : d'.trapCount = d.trapCount)
    (classIds : log.classIds ++ a.classId?.toList =
      (List.range (log.classes ++ e.set?.toList).length).map Index.mk) :
    Tells (log ++ [(e, .ok a)]) d' := by
  have kinds : Log.added (log ++ [(e, .ok a)]) = log.added := by
    rw [Log.added, Log.given_answered, kind]
    exact List.append_nil _
  have sets : Log.classes (log ++ [(e, .ok a)]) = log.classes ++ e.set?.toList :=
    Log.given_answered ..
  constructor
  · intro i
    rw [states, Log.drafted?, Log.trap, Log.trap, kinds, Log.parts_answered]
  · intro i past
    rw [kinds] at past
    rw [Log.parts_answered, unborn i (tells.size ▸ past), tells.unborn i past]
  · exact classes.trans sets.symm
  · rw [traps, kinds, tells.traps]
  · rw [kinds, ← tells.ids, Log.ids, Log.given_answered, id]
    exact List.append_nil _
  · rw [sets, ← classIds]
    exact Log.given_answered ..

theorem addedClass (tells : Tells log d) {set : CharSet} {id : ClassId}
    (h : d.addClass set = .ok (id, d')) : Tells (log ++ [(.addClass set, .ok (.charClass id))]) d' := by
  obtain ⟨rfl, rfl⟩ := Draft.addClass_eq_ok h
  have idle (i : Nat) : (log.parts i).given (.addClass set) i = log.parts i :=
    Parts.given_idle rfl rfl rfl rfl
  apply tells.given rfl rfl
  · intro i
    rw [idle]
    exact tells.states i
  · exact fun i _ => idle i
  · rw [Array.toList_push, tells.classes]
    rfl
  · rfl
  · rw [List.length_append, ← tells.classes, Array.length_toList]
    simp only [Edit.set?, Option.toList_some, List.length_singleton, List.range_succ, List.map_append]
    rw [tells.classIds, ← tells.classes, Array.length_toList]
    rfl

theorem limited (tells : Tells log d) (limit : Option Nat) :
    Tells (log ++ [(.setStateLimit limit, .ok .done)]) (d.withStateLimit limit) := by
  have idle (i : Nat) : (log.parts i).given (.setStateLimit limit) i = log.parts i :=
    Parts.given_idle rfl rfl rfl rfl
  apply tells.given rfl rfl
  · intro i
    rw [idle]
    exact tells.states i
  · exact fun i _ => idle i
  · exact tells.classes.trans (List.append_nil _).symm
  · rfl
  · simpa [Edit.set?, Receipt.classId?] using tells.classIds

theorem updated (tells : Tells log d) {e : Edit} {id : StateId}
    {change : DraftState → Option DraftState} {refusal : DraftState → Misuse}
    (h : d.update id change refusal = .ok d') (kind : e.kind? = none) (set : e.set? = none)
    (here : ∀ trap parts kind s', change (StateKind.drafted trap parts kind) = some s' →
      s' = kind.drafted trap (parts.given e id.val))
    (elsewhere : ∀ j parts, id.val ≠ j → Parts.given parts e j = parts) :
    Tells (log ++ [(e, .ok .done)]) d' := by
  obtain ⟨s, s', found, changed, puts⟩ := Draft.puts_of_update h
  have inside : id.val < d.size := (Array.getElem?_eq_some_iff.1 found).1
  apply tells.given kind rfl
  · intro j
    rw [puts.states]
    split
    · rename_i same
      subst same
      -- What the state was before is what the log said of it, so the change tells its kind.
      have told := found.symm.trans (tells.states id.val)
      rw [Log.drafted?] at told
      obtain ⟨kind, added, rfl⟩ := Option.map_eq_some_iff.1 told.symm
      rw [added, here _ _ kind s' changed]
      rfl
    · rename_i other
      simp only [elsewhere j _ (Ne.symm other)]
      exact tells.states j
  · exact fun j past => elsewhere j _ (by omega)
  · rw [puts.classes, tells.classes, set]
    exact (List.append_nil _).symm
  · exact puts.traps
  · simpa [set, Receipt.classId?] using tells.classIds

theorem addedArrow (tells : Tells log d) {source target : StateId} {label : Label}
    (h : d.addArrow source label target = .ok d') :
    Tells (log ++ [(.addArrow source label target, .ok .done)]) d' := by
  refine tells.updated h rfl rfl (fun trap parts kind s' added => ?_) fun j parts other => ?_
  · have arrow : (Edit.addArrow source label target).arrow? source.val = some ⟨label, target⟩ :=
      if_pos rfl
    cases kind with
    | fanout | tagOpen | tagClose =>
      cases added
      simp [StateKind.drafted, Parts.given, arrow]
    | trap | terminal => cases added
  · exact Parts.given_idle (if_neg other) rfl rfl rfl

theorem trapBody (tells : Tells log d) {trap target : StateId} {label : Label}
    (h : d.setTrapBody trap label target = .ok d') :
    Tells (log ++ [(.setTrapBody trap label target, .ok .done)]) d' := by
  refine tells.updated h rfl rfl (fun id parts kind s' set => ?_) fun j parts other => ?_
  · have body : (Edit.setTrapBody trap label target).body? trap.val = some ⟨label, target⟩ :=
      if_pos rfl
    cases kind with
    | trap =>
      cases set
      simp [StateKind.drafted, Parts.given, body, Edit.leave?, Edit.repetition?]
    | fanout | tagOpen | tagClose | terminal => cases set
  · exact Parts.given_idle rfl (if_neg other) rfl rfl

theorem trapLeave (tells : Tells log d) {trap target : StateId}
    (h : d.setTrapLeave trap target = .ok d') :
    Tells (log ++ [(.setTrapLeave trap target, .ok .done)]) d' := by
  refine tells.updated h rfl rfl (fun id parts kind s' set => ?_) fun j parts other => ?_
  · have leave : (Edit.setTrapLeave trap target).leave? trap.val = some (.empty target) := if_pos rfl
    cases kind with
    | trap =>
      cases set
      simp [StateKind.drafted, Parts.given, leave, Edit.body?, Edit.repetition?]
    | fanout | tagOpen | tagClose | terminal => cases set
  · exact Parts.given_idle rfl rfl (if_neg other) rfl

theorem trapRepetition (tells : Tells log d) {trap : StateId} {r : Repetition}
    (h : d.setTrapRepetition trap r = .ok d') :
    Tells (log ++ [(.setTrapRepetition trap r, .ok .done)]) d' := by
  refine tells.updated h rfl rfl (fun id parts kind s' set => ?_) fun j parts other => ?_
  · have repetition : (Edit.setTrapRepetition trap r).repetition? trap.val = some r := if_pos rfl
    cases kind with
    | trap =>
      cases set
      simp [StateKind.drafted, Parts.given, repetition, Edit.body?, Edit.leave?]
    | fanout | tagOpen | tagClose | terminal => cases set
  · exact Parts.given_idle rfl rfl rfl (if_neg other)

/-- One call keeps the log true. -/
theorem call (tells : Tells log d) {e : Edit} {outcome : Except PatternError Receipt}
    (h : e.on d = .ok (outcome, d')) : Tells (log ++ [(e, outcome)]) d' := by
  cases e with
  | add kind =>
    obtain ⟨_, added, rfl⟩ | ⟨_, rfl, rfl⟩ := Draft.after_cases (Except.ok.inj h)
    · exact tells.added added
    · exact tells.refused _ _
  | addClass set =>
    obtain ⟨_, added, rfl⟩ | ⟨_, rfl, rfl⟩ := Draft.after_cases (Except.ok.inj h)
    · exact tells.addedClass added
    · exact tells.refused _ _
  | addArrow source label target =>
    obtain ⟨_, changed, same⟩ := Except.map_eq_ok.1 h
    cases same
    exact tells.addedArrow changed
  | setTrapBody trap label target =>
    obtain ⟨_, changed, same⟩ := Except.map_eq_ok.1 h
    cases same
    exact tells.trapBody changed
  | setTrapLeave trap target =>
    obtain ⟨_, changed, same⟩ := Except.map_eq_ok.1 h
    cases same
    exact tells.trapLeave changed
  | setTrapRepetition trap r =>
    obtain ⟨_, changed, same⟩ := Except.map_eq_ok.1 h
    cases same
    exact tells.trapRepetition changed
  | setStateLimit limit =>
    cases h
    exact tells.limited limit

theorem run {s : Session} (tells : Tells s.log s.draft) (es : List Edit) :
    Tells (s.run es).log (s.run es).draft := by
  induction es generalizing s with
  | nil => exact tells
  | cons e es ih =>
    rw [Session.run]
    split
    · exact tells
    · rename_i called
      exact ih (s := ⟨_, _⟩) (tells.call called)

theorem mem_states_iff (tells : Tells log d) {s : DraftState} :
    s ∈ d.states.toList ↔ ∃ i, log.drafted? i = some s := by
  rw [List.mem_iff_getElem?]
  simp only [Array.getElem?_toList, tells.states]

theorem finishes_iff (tells : Tells log d) :
    (∀ s ∈ d.states.toList, s.finish?.isSome = true) ↔
      ∀ i : Nat, log.added[i]? = some .trap → (log.parts i).body.isSome = true ∧
        (log.parts i).leave.isSome = true ∧ (log.parts i).repetition.isSome = true := by
  constructor
  · intro finishes i trap
    have member := tells.mem_states_iff.2 ⟨i, congrArg (Option.map _) trap⟩
    have finished := finishes _ member
    rw [StateKind.finish?_drafted, StateKind.isSome_finished] at finished
    exact finished rfl
  · intro complete s member
    obtain ⟨i, drafted⟩ := tells.mem_states_iff.1 member
    obtain ⟨kind, added, rfl⟩ := Option.map_eq_some_iff.1 drafted
    rw [StateKind.finish?_drafted, StateKind.isSome_finished]
    rintro rfl
    exact complete i added

theorem terminal_iff (tells : Tells log d) :
    DraftState.terminal ∈ d.states.toList ↔ .terminal ∈ log.added := by
  rw [tells.mem_states_iff, List.mem_iff_getElem?]
  refine exists_congr fun i => ?_
  rw [Log.drafted?, Option.map_eq_some_iff]
  constructor
  · rintro ⟨kind, added, same⟩
    cases kind with
    | terminal => exact added
    | fanout | tagOpen | tagClose | trap => cases same
  · exact fun added => ⟨_, added, rfl⟩

theorem exists_finish_iff (tells : Tells log d) {start : StateId} {names : GroupNames} :
    (∃ g, d.finish start names = .ok g) ↔ log.Buildable start := by
  rw [Draft.exists_finish_iff, tells.terminal_iff, tells.size]
  constructor
  · rintro ⟨sound, inside, terminal⟩
    refine ⟨tells.finishes_iff.1 fun s member => (sound s member).1, ?_, inside, terminal⟩
    intro i state finished
    rw [Log.state?_eq, Option.bind_eq_some_iff] at finished
    obtain ⟨s, drafted, finished⟩ := finished
    rw [DraftState.targets_of_finish? finished]
    exact (sound s (tells.mem_states_iff.2 ⟨i, drafted⟩)).2
  · rintro ⟨complete, targets, inside, terminal⟩
    refine ⟨fun s member => ?_, inside, terminal⟩
    have finishes := tells.finishes_iff.2 complete s member
    refine ⟨finishes, ?_⟩
    obtain ⟨i, drafted⟩ := tells.mem_states_iff.1 member
    obtain ⟨state, finished⟩ := Option.isSome_iff_exists.1 finishes
    rw [← DraftState.targets_of_finish? finished]
    exact targets i state (by rw [Log.state?_eq, drafted, Option.bind_some, finished])

theorem state_of_finish (tells : Tells log d) {start : StateId} {names : GroupNames} {g : Graph}
    (h : d.finish start names = .ok g) (i : Nat) : g.states[i]? = log.state? i := by
  have finishes := Draft.finishes_of_finish h
  rw [Log.state?_eq, ← tells.states]
  cases drafted : d.states[i]? with
  | none =>
    have past := Array.getElem?_eq_none_iff.1 drafted
    exact Array.getElem?_eq_none (finishes.size ▸ past)
  | some s =>
    obtain ⟨state, finished, found⟩ := finishes.holds.states i s (Nat.zero_le _) drafted
    exact found.trans finished.symm

theorem trapIds_take (tells : Tells log d) (k : Nat) :
    (d.states.toList.take k).filterMap DraftState.trapId? =
      (List.range ((log.added.take k).count .trap)).map Index.mk := by
  induction k with
  | zero => rfl
  | succ k ih =>
    have drafted : d.states.toList[k]? = log.drafted? k := by
      rw [Array.getElem?_toList, tells.states]
    rw [List.take_add_one, List.take_add_one, List.filterMap_append, ih, List.count_append, drafted,
      Log.drafted?, Log.trap]
    cases log.added[k]? with
    | none => simp
    | some kind =>
      cases kind with
      | trap => simp [StateKind.drafted, DraftState.trapId?, List.range_succ]
      | fanout | tagOpen | tagClose | terminal => simp [StateKind.drafted, DraftState.trapId?]

theorem trapIds (tells : Tells log d) :
    d.states.toList.filterMap DraftState.trapId? = (List.range d.trapCount).map Index.mk := by
  have all := tells.trapIds_take log.added.length
  rwa [List.take_length, List.take_of_length_le (Nat.le_of_eq tells.size), ← tells.traps] at all

end Tells

theorem trap_lt {log : Log} {i : Nat} {trap : TrapId} {r : Repetition} {body leave : Arrow}
    (found : log.state? i = some (.trap trap r body leave)) : trap.val < log.added.count .trap := by
  obtain ⟨kind, added, finished⟩ := Option.bind_eq_some_iff.1 found
  cases kind with
  | fanout =>
    rw [StateKind.finished, Option.some.injEq] at finished
    split at finished <;> cases finished
  | tagOpen | tagClose | terminal => cases finished
  | trap =>
    obtain ⟨_, _, finished⟩ := Option.bind_eq_some_iff.1 finished
    obtain ⟨_, _, finished⟩ := Option.bind_eq_some_iff.1 finished
    obtain ⟨_, _, finished⟩ := Option.bind_eq_some_iff.1 finished
    cases finished
    have next : (log.added.take (i + 1)).count .trap = (log.added.take i).count .trap + 1 := by
      rw [List.take_add_one, added, List.count_append]
      rfl
    have le := (List.take_sublist (i + 1) log.added).count_le .trap
    rw [next] at le
    exact le

/-- Whatever calls are made up to the first misuse, states, classes and traps are numbered in the order
in which they were added, and a call that is refused writes nothing. The draft can be finished exactly
when the log has all that a graph needs, and then the states of the graph are those of the log. -/
theorem run_builds (es : List Edit) :
    let s := begin.run es
    s.log.ids = (List.range s.log.added.length).map Index.mk ∧
    s.log.classIds = (List.range s.log.classes.length).map Index.mk ∧
    s.draft.size = s.log.added.length ∧
    s.draft.states.toList.filterMap DraftState.trapId? = (List.range s.draft.trapCount).map Index.mk ∧
    (∀ (e : Edit) (d : Draft), e.inPlace.outcome d = e.on d) ∧
    (∀ (e : Edit) (d d' : Draft) (refusal : PatternError),
      e.inPlace.outcome d = .ok (.error refusal, d') → d' = d) ∧
    ∀ (start : StateId) (names : GroupNames),
      ((∃ g, s.draft.finish start names = .ok g) ↔ s.log.Buildable start) ∧
      ∀ g, s.draft.finish start names = .ok g →
        g.start = start ∧ g.names = names ∧ g.states.size = s.log.added.length ∧
        (∀ i, g.states[i]? = s.log.state? i) ∧ g.classes.toList = s.log.classes ∧
        g.trapCount = s.draft.trapCount ∧
        ∀ (i : Nat) trap r body leave, g.states[i]? = some (.trap trap r body leave) →
          trap.val < g.trapCount := by
  intro s
  have tells : Tells s.log s.draft := Tells.begin.run (s := begin) es
  refine ⟨tells.ids, tells.classIds, tells.size, tells.trapIds, Edit.outcome_inPlace, ?_, ?_⟩
  · intro e d d' refusal refused
    exact Edit.eq_of_refused (e.outcome_inPlace d ▸ refused)
  · intro start names
    refine ⟨tells.exists_finish_iff, fun g finished => ?_⟩
    have finishes := Draft.finishes_of_finish finished
    have states := tells.state_of_finish finished
    refine ⟨finishes.start, finishes.names, finishes.size.trans tells.size, states,
      finishes.classes ▸ tells.classes, finishes.traps, ?_⟩
    intro i trap r body leave found
    rw [finishes.traps, tells.traps]
    exact trap_lt ((states i).symm.trans found)

/-- A call that is refused takes no number. -/
example : (begin.run [.add .fanout, .setStateLimit (some 1), .add .terminal, .setStateLimit none,
    .add .terminal]).log.ids = [⟨0⟩, ⟨1⟩] := by decide

end Session

end PatternGraph
