import PatternGraph.Proofs.Graph.Realization

/-!
Where the states of a compiled graph lie. Loops and groups are nested in the graph as they are in the
pattern: each state has one place, inside certain loops and in the midst of certain groups, and every
arrow leads from one place to another that fits it. This is known of a draft as soon as a piece has been
added, so nothing has to be read off the finished graph.
-/
namespace PatternGraph

structure Nesting where
  /-- The traps of the loops around, innermost first. -/
  loops : List StateId
  /-- The groups that have been begun and not ended, innermost first. -/
  groups : List TagId

namespace Nesting

def outside : Nesting := ⟨[], []⟩

def inLoop (n : Nesting) (trap : StateId) : Nesting := { n with loops := trap :: n.loops }

def inGroup (n : Nesting) (tag : Option TagId) : Nesting :=
  { n with groups := tag.toList ++ n.groups }

end Nesting

/-- What a state is nested in when it is come to, and what its arrows begin in. -/
structure Place where
  arrive : Nesting
  depart : Nesting

/-- What is nested in `n` may go on to the state. A trap is come to from outside its loop, and from
inside when a round ends. -/
def Nesting.Meets (places : List Place) (n : Nesting) (id : StateId) : Prop :=
  ∃ p, places[id.val]? = some p ∧ (n = p.arrive ∨ n = p.arrive.inLoop id)

theorem List.getElem?_of_prefix {α : Type} {l l' : List α} {i : Nat} {a : α} (pre : l <+: l')
    (found : l[i]? = some a) : l'[i]? = some a := by
  obtain ⟨more, rfl⟩ := pre
  rw [List.getElem?_append_left (List.getElem?_eq_some_iff.1 found).1, found]

theorem Place.found_of_index {places : List Place} {id : StateId} (index : id.val = places.length)
    (p : Place) : (places ++ [p])[id.val]? = some p := by
  rw [index, List.getElem?_concat_length]

theorem Nesting.Meets.mono {places places' : List Place} {n : Nesting} {id : StateId}
    (h : n.Meets places id) (pre : places <+: places') : n.Meets places' id := by
  obtain ⟨p, found, fits⟩ := h
  exact ⟨p, List.getElem?_of_prefix pre found, fits⟩

namespace DraftState
variable {places places' : List Place} {id : StateId} {p : Place} {s s' : DraftState} {a : Arrow}

def ways (id : StateId) (p : Place) : DraftState → List (Nesting × StateId)
  | .fanout as | .tagOpen _ as | .tagClose _ as => as.toList.map fun a => (p.depart, a.target)
  | .trap _ _ body leave =>
    body.toList.map (fun a => (p.arrive.inLoop id, a.target)) ++
      leave.toList.map fun a => (p.depart, a.target)
  | .terminal => []

/-- A place for the state: a group begins and ends once, no loop is inside itself, and a graph ends
outside of all. -/
def Suits (id : StateId) (p : Place) : DraftState → Prop
  | .fanout _ => p.depart = p.arrive
  | .tagOpen tag _ => p.depart = p.arrive.inGroup tag ∧ ∀ t ∈ tag, t ∉ p.arrive.groups
  | .tagClose tag _ => p.arrive = p.depart.inGroup tag ∧ ∀ t ∈ tag, t ∉ p.depart.groups
  | .trap _ _ _ leave =>
    p.depart = p.arrive ∧ id ∉ p.arrive.loops ∧ ∀ a ∈ leave, a.target ≠ id
  | .terminal => p.arrive = .outside

structure Lies (places : List Place) (id : StateId) (p : Place) (s : DraftState) : Prop where
  suits : s.Suits id p
  leads : ∀ way ∈ s.ways id p, way.1.Meets places way.2

theorem Lies.mono (h : s.Lies places id p) (pre : places <+: places') : s.Lies places' id p :=
  ⟨h.suits, fun way mem => (h.leads way mem).mono pre⟩

theorem Lies.addArrow (h : s.Lies places id p) (added : s.addArrow? a = some s')
    (meets : p.depart.Meets places a.target) : s'.Lies places id p := by
  cases s with
  | fanout as | tagOpen tag as | tagClose tag as =>
    cases added
    refine ⟨h.suits, fun way mem => ?_⟩
    simp only [ways, Array.toList_push, List.map_append, List.map_cons, List.map_nil,
      List.mem_append, List.mem_singleton] at mem
    rcases mem with old | rfl
    · exact h.leads way old
    · exact meets
  | trap | terminal => cases added

theorem Lies.withBody (h : s.Lies places id p) (changed : s.withBody? a = some s')
    (meets : (p.arrive.inLoop id).Meets places a.target) : s'.Lies places id p := by
  cases s with
  | trap trap r body leave =>
    cases changed
    refine ⟨h.suits, fun way mem => ?_⟩
    simp only [ways, Option.toList_some, List.map_cons, List.map_nil, List.singleton_append,
      List.mem_cons] at mem
    rcases mem with rfl | old
    · exact meets
    · exact h.leads way (List.mem_append_right _ old)
  | fanout | tagOpen | tagClose | terminal => cases changed

theorem Lies.withLeave (h : s.Lies places id p) (changed : s.withLeave? a = some s')
    (meets : p.depart.Meets places a.target) (elsewhere : a.target ≠ id) : s'.Lies places id p := by
  cases s with
  | trap trap r body leave =>
    cases changed
    obtain ⟨same, apart, _⟩ := h.suits
    refine ⟨⟨same, apart, by simpa using elsewhere⟩, fun way mem => ?_⟩
    simp only [ways, Option.toList_some, List.map_cons, List.map_nil, List.mem_append,
      List.mem_singleton] at mem
    rcases mem with old | rfl
    · exact h.leads way (List.mem_append_left _ old)
    · exact meets
  | fanout | tagOpen | tagClose | terminal => cases changed

theorem Lies.withRepetition {r : Repetition} (h : s.Lies places id p)
    (changed : s.withRepetition? r = some s') : s'.Lies places id p := by
  cases s with
  | trap trap r' body leave =>
    cases changed
    exact ⟨h.suits, h.leads⟩
  | fanout | tagOpen | tagClose | terminal => cases changed

def number? : DraftState → Option TrapId
  | .trap k _ _ _ => some k
  | .fanout _ | .tagOpen .. | .tagClose .. | .terminal => none

theorem number?_addArrow (added : s.addArrow? a = some s') : s'.number? = s.number? := by
  cases s <;> cases added <;> rfl

theorem number?_withBody (changed : s.withBody? a = some s') : s'.number? = s.number? := by
  cases s <;> cases changed
  rfl

theorem number?_withLeave (changed : s.withLeave? a = some s') : s'.number? = s.number? := by
  cases s <;> cases changed
  rfl

theorem number?_withRepetition {r : Repetition} (changed : s.withRepetition? r = some s') :
    s'.number? = s.number? := by
  cases s <;> cases changed
  rfl

end DraftState

/-- The numbers below `count` are given to the traps, each to one of them. -/
structure Numbered (number? : Nat → Option TrapId) (count : Nat) : Prop where
  below : ∀ i k, number? i = some k → k.val < count
  unique : ∀ i j k, number? i = some k → number? j = some k → i = j
  onto : ∀ k < count, ∃ i, number? i = some ⟨k⟩

namespace Draft
variable {d d' : Draft} {places : List Place} {id : StateId} {s : DraftState} {p : Place}

def trapAt? (d : Draft) (i : Nat) : Option TrapId := d.states[i]?.bind DraftState.number?

structure Placed (d : Draft) (places : List Place) : Prop where
  size : places.length = d.size
  lies : ∀ (i : Nat) (s : DraftState), d.states[i]? = some s →
    ∃ p, places[i]? = some p ∧ s.Lies places ⟨i⟩ p
  numbered : Numbered d.trapAt? d.trapCount

theorem trapAt?_of_adds (adds : d.Adds id s d') (i : Nat) :
    d'.trapAt? i = if i = id.val then s.number? else d.trapAt? i := by
  have index := adds.index
  have size := adds.size
  simp only [trapAt?]
  split
  · rename_i same
    rw [same, adds.state]
    rfl
  · rename_i other
    by_cases old : i < d.size
    · rw [adds.kept.states i old not_false]
    · have absent : d.states[i]? = none := Array.getElem?_eq_none (by simpa [Draft.size] using old)
      have absent' : d'.states[i]? = none :=
        Array.getElem?_eq_none (by simp only [Draft.size] at *; omega)
      rw [absent, absent']

theorem trapAt?_of_adds_of_eq_none (adds : d.Adds id s d') (plain : s.number? = none) :
    d'.trapAt? = d.trapAt? := by
  funext i
  rw [trapAt?_of_adds adds]
  split
  · rename_i same
    have absent : d.states[i]? = none :=
      Array.getElem?_eq_none (by simp [same, adds.index, Draft.size])
    rw [trapAt?, absent, plain]
    rfl
  · rfl

theorem numbered_of_adds (numbered : Numbered d.trapAt? d.trapCount) (adds : d.Adds id s d')
    (next : s.number? = some ⟨d.trapCount⟩) : Numbered d'.trapAt? (d.trapCount + 1) where
  below i k found := by
    rw [trapAt?_of_adds adds] at found
    split at found
    · rw [next, Option.some.injEq] at found
      rw [← found]
      exact Nat.lt_succ_self _
    · exact Nat.lt_succ_of_lt (numbered.below i k found)
  unique i j k found found' := by
    rw [trapAt?_of_adds adds] at found found'
    split at found <;> split at found'
    · rename_i same same'
      rw [same, same']
    · rw [next, Option.some.injEq] at found
      have := numbered.below j k found'
      rw [← found] at this
      exact absurd this (Nat.lt_irrefl _)
    · rw [next, Option.some.injEq] at found'
      have := numbered.below i k found
      rw [← found'] at this
      exact absurd this (Nat.lt_irrefl _)
    · exact numbered.unique i j k found found'
  onto k small := by
    by_cases last : k = d.trapCount
    · refine ⟨id.val, ?_⟩
      rw [trapAt?_of_adds adds, if_pos rfl, next, last]
    · obtain ⟨i, found⟩ := numbered.onto k (by omega)
      refine ⟨i, ?_⟩
      rw [trapAt?_of_adds adds, if_neg, found]
      rintro rfl
      have absent : d.states[id.val]? = none :=
        Array.getElem?_eq_none (by simp [adds.index, Draft.size])
      rw [trapAt?, absent] at found
      cases found

theorem lies_of_adds (placed : d.Placed places) (adds : d.Adds id s d') (suits : s.Suits id p)
    (bare : s.ways id p = []) (i : Nat) (s' : DraftState) (found : d'.states[i]? = some s') :
    ∃ p', (places ++ [p])[i]? = some p' ∧ s'.Lies (places ++ [p]) ⟨i⟩ p' := by
  have index := adds.index
  have inside : i < d'.size := (Array.getElem?_eq_some_iff.1 found).1
  rw [adds.size] at inside
  by_cases old : i < d.size
  · rw [adds.kept.states i old not_false] at found
    obtain ⟨p', place, lies⟩ := placed.lies i s' found
    have pre := List.prefix_append places [p]
    exact ⟨p', List.getElem?_of_prefix pre place, lies.mono pre⟩
  · obtain rfl : i = id.val := by omega
    rw [adds.state, Option.some.injEq] at found
    subst found
    refine ⟨p, ?_, suits, by simp [bare]⟩
    rw [index, ← placed.size, List.getElem?_append_right (Nat.le_refl _)]
    simp

theorem Placed.push (placed : d.Placed places) (pushed : d.push s = .ok (id, d'))
    (suits : s.Suits id p) (bare : s.ways id p = []) (plain : s.number? = none) :
    d'.Placed (places ++ [p]) ∧ id.val = places.length := by
  obtain ⟨adds, traps⟩ := adds_of_push pushed
  refine ⟨⟨by simp [adds.size, placed.size], lies_of_adds placed adds suits bare, ?_⟩,
    adds.index.trans placed.size.symm⟩
  rw [trapAt?_of_adds_of_eq_none adds plain, traps]
  exact placed.numbered

theorem Placed.addTrap {n : Nesting} (placed : d.Placed places) (added : d.addTrap = .ok (id, d'))
    (older : ∀ t ∈ n.loops, t.val < places.length) :
    d'.Placed (places ++ [⟨n, n⟩]) ∧ id.val = places.length := by
  obtain ⟨adds, traps⟩ := adds_of_addTrap added
  have apart : id ∉ n.loops := fun inside =>
    absurd (older id inside) (by rw [adds.index, placed.size]; exact Nat.lt_irrefl _)
  refine ⟨⟨by simp [adds.size, placed.size],
    lies_of_adds placed adds (p := ⟨n, n⟩) ⟨rfl, apart, by simp⟩ rfl, ?_⟩,
    adds.index.trans placed.size.symm⟩
  rw [traps]
  exact numbered_of_adds placed.numbered adds rfl

theorem Placed.relabel (placed : d.Placed places) (states : d'.states = d.states)
    (traps : d'.trapCount = d.trapCount) : d'.Placed places := by
  have same : d'.trapAt? = d.trapAt? := by
    funext i
    rw [trapAt?, states, trapAt?]
  refine ⟨by rw [placed.size, Draft.size, Draft.size, states], by rw [states]; exact placed.lies, ?_⟩
  rw [same, traps]
  exact placed.numbered

theorem Placed.update {change : DraftState → Option DraftState} {refusal : DraftState → Misuse}
    (placed : d.Placed places) (updated : d.update id change refusal = .ok d')
    (lies : ∀ s s' p, places[id.val]? = some p → s.Lies places id p → change s = some s' →
      s'.Lies places id p)
    (number : ∀ s s', change s = some s' → s'.number? = s.number?) : d'.Placed places := by
  obtain ⟨s, s', found, changed, puts⟩ := puts_of_update updated
  refine ⟨placed.size.trans puts.size.symm, fun i t state => ?_, ?_⟩
  · rw [puts.states] at state
    split at state
    · rename_i same
      cases state
      obtain ⟨p, place, stood⟩ := placed.lies _ s found
      rw [same]
      exact ⟨p, place, lies s s' p place stood changed⟩
    · exact placed.lies i t state
  · have same : d'.trapAt? = d.trapAt? := by
      funext i
      simp only [trapAt?, puts.states]
      split
      · rename_i same
        rw [same, found]
        exact number s s' changed
      · rfl
    rw [same, puts.traps]
    exact placed.numbered

theorem Placed.addArrow {source target : StateId} {label : Label} (placed : d.Placed places)
    (added : d.addArrow source label target = .ok d') (place : places[source.val]? = some p)
    (meets : p.depart.Meets places target) : d'.Placed places := by
  refine placed.update added ?_ fun _ _ => DraftState.number?_addArrow
  intro s s' p' place' lies changed
  rw [place, Option.some.injEq] at place'
  exact lies.addArrow changed (place' ▸ meets)

theorem Placed.setTrapBody {target : StateId} {label : Label} (placed : d.Placed places)
    (set : d.setTrapBody id label target = .ok d') (place : places[id.val]? = some p)
    (meets : (p.arrive.inLoop id).Meets places target) : d'.Placed places := by
  refine placed.update set ?_ fun _ _ => DraftState.number?_withBody
  intro s s' p' place' lies changed
  rw [place, Option.some.injEq] at place'
  exact lies.withBody changed (place' ▸ meets)

theorem Placed.complete {d₁ : Draft} {target : StateId} {r : Repetition} (placed : d.Placed places)
    (left : d.setTrapLeave id target = .ok d₁) (repeats : d₁.setTrapRepetition id r = .ok d')
    (place : places[id.val]? = some p) (meets : p.depart.Meets places target)
    (elsewhere : target ≠ id) : d'.Placed places := by
  have placed₁ : d₁.Placed places := by
    refine placed.update left ?_ fun _ _ => DraftState.number?_withLeave
    intro s s' p' place' lies changed
    rw [place, Option.some.injEq] at place'
    exact lies.withLeave changed (place' ▸ meets) elsewhere
  exact placed₁.update repeats (fun s s' _ _ lies => lies.withRepetition)
    fun _ _ => DraftState.number?_withRepetition

end Draft

end PatternGraph
