import PatternGraph.Graph.Draft
import PatternGraph.Proofs.Graph.Wiring

/-!
What the operations on a draft change: each puts one state in its place and keeps all others. A part
of a draft stays as it is while states are added elsewhere, so what is known of it holds of the
finished graph.
-/
namespace PatternGraph

theorem Except.bind_eq_ok {ε α β : Type} {x : Except ε α} {f : α → Except ε β} {b : β} :
    (x >>= f) = .ok b ↔ ∃ a, x = .ok a ∧ f a = .ok b := by
  cases x with
  | error e => exact ⟨fun h => (by cases h), fun ⟨_, h, _⟩ => (by cases h)⟩
  | ok a => exact ⟨fun h => ⟨a, rfl, h⟩, fun ⟨_, rfl, h⟩ => h⟩

theorem Except.mapError_eq_ok {ε ε' α : Type} {f : ε → ε'} {x : Except ε α} {a : α} :
    x.mapError f = .ok a ↔ x = .ok a := by
  cases x with
  | error e => exact ⟨fun h => (by cases h), fun h => (by cases h)⟩
  | ok b => exact ⟨fun h => (by cases h; rfl), fun h => (by cases h; rfl)⟩

theorem Except.map_eq_ok {ε α β : Type} {f : α → β} {x : Except ε α} {b : β} :
    x.map f = .ok b ↔ ∃ a, x = .ok a ∧ f a = b := by
  cases x with
  | error e => exact ⟨fun h => (by cases h), fun ⟨_, h, _⟩ => (by cases h)⟩
  | ok a => exact ⟨fun h => ⟨a, rfl, Except.ok.inj h⟩, fun ⟨_, rfl, same⟩ => congrArg Except.ok same⟩

theorem Except.eq_ok_of_toOption {ε α : Type} {x : Except ε α} {a : α} (h : x.toOption = some a) :
    x = .ok a := by
  cases x with
  | error e => cases h
  | ok b => rw [Option.some.inj h]

theorem Except.exists_eq_ok {ε α : Type} {x : Except ε α} (h : x.toOption.isSome = true) :
    ∃ a, x = .ok a := by
  obtain ⟨a, found⟩ := Option.isSome_iff_exists.1 h
  exact ⟨a, eq_ok_of_toOption found⟩

namespace DraftState

def addArrows? (s : DraftState) (arrows : List Arrow) : Option DraftState :=
  arrows.foldlM (fun s a => s.addArrow? a) s

theorem addArrows?_fanout (old : Array Arrow) (arrows : List Arrow) :
    (DraftState.fanout old).addArrows? arrows = some (.fanout (old ++ arrows)) := by
  induction arrows generalizing old with
  | nil => simp [addArrows?]
  | cons a rest ih =>
    have := ih (old.push a)
    simpa [addArrows?, addArrow?] using this

theorem addArrows?_tagOpen (tag : Option TagId) (old : Array Arrow) (arrows : List Arrow) :
    (DraftState.tagOpen tag old).addArrows? arrows = some (.tagOpen tag (old ++ arrows)) := by
  induction arrows generalizing old with
  | nil => simp [addArrows?]
  | cons a rest ih =>
    have := ih (old.push a)
    simpa [addArrows?, addArrow?] using this

theorem addArrows?_append {s s₁ s₂ : DraftState} {as bs : List Arrow}
    (first : s.addArrows? as = some s₁) (second : s₁.addArrows? bs = some s₂) :
    s.addArrows? (as ++ bs) = some s₂ := by
  unfold addArrows? at *
  rw [List.foldlM_append, first]
  exact second

theorem addArrows?_single (s : DraftState) (a : Arrow) : s.addArrows? [a] = s.addArrow? a := by
  simp [addArrows?]

theorem finish?_fanout (arrows : Array Arrow) :
    ∃ state, (DraftState.fanout arrows).finish? = some state ∧ state.choices? = some arrows := by
  rcases arrows with ⟨_ | ⟨a, _ | ⟨b, rest⟩⟩⟩
  · exact ⟨_, rfl, rfl⟩
  · exact ⟨_, rfl, rfl⟩
  · exact ⟨_, rfl, rfl⟩

end DraftState

namespace Draft

/-- The states but those that `but` holds of are kept, and so are the classes. -/
structure Extends (d d' : Draft) (but : Nat → Prop) : Prop where
  size : d.size ≤ d'.size
  states : ∀ i, i < d.size → ¬ but i → d'.states[i]? = d.states[i]?
  classes : ∀ (i : Nat) set, d.classes[i]? = some set → d'.classes[i]? = some set
  traps : d.trapCount ≤ d'.trapCount

theorem Extends.trans {d d₁ d₂ : Draft} {but but' : Nat → Prop} (h : d.Extends d₁ but)
    (h' : d₁.Extends d₂ but') (covered : ∀ i, i < d.size → but' i → but i) : d.Extends d₂ but where
  size := Nat.le_trans h.size h'.size
  states i inside kept := by
    rw [h'.states i (Nat.lt_of_lt_of_le inside h.size) fun changed => kept (covered i inside changed),
      h.states i inside kept]
  classes i set found := h'.classes i set (h.classes i set found)
  traps := Nat.le_trans h.traps h'.traps

theorem Extends.mono {d d' : Draft} {but but' : Nat → Prop} (h : d.Extends d' but)
    (covered : ∀ i, but i → but' i) : d.Extends d' but' :=
  ⟨h.size, fun i inside kept => h.states i inside fun changed => kept (covered i changed),
    h.classes, h.traps⟩

abbrev Precedes (d d' : Draft) : Prop := d.Extends d' fun _ => False

theorem Precedes.trans {d d₁ d₂ : Draft} (h : d.Precedes d₁) (h' : d₁.Precedes d₂) :
    d.Precedes d₂ := Extends.trans h h' fun _ _ never => never

structure Adds (d : Draft) (id : StateId) (s : DraftState) (d' : Draft) : Prop where
  index : id.val = d.size
  size : d'.size = d.size + 1
  state : d'.states[id.val]? = some s
  kept : d.Precedes d'

theorem adds_of_push {d d' : Draft} {s : DraftState} {id : StateId}
    (h : d.push s = .ok (id, d')) : d.Adds id s d' ∧ d'.trapCount = d.trapCount := by
  unfold push at h
  split at h
  · cases h
  · rename_i found
    cases h
    have index : id.val = d.size := by
      unfold nextId at found
      split at found
      · cases found
      · rename_i ok
        obtain ⟨_, rfl⟩ := Index.ofNat?_eq_ok_iff.1 ok
        split at found
        · split at found
          · cases found
          · cases found
            rfl
        · cases found
          rfl
    have size : (d.states.push s).size = d.states.size + 1 := Array.size_push s
    refine ⟨⟨index, size, ?_, ⟨?_, fun i below _ => ?_, fun _ _ found => found, Nat.le_refl _⟩⟩,
      rfl⟩
    · rw [index]
      exact Array.getElem?_push_size
    · simp only [Draft.size, size]
      exact Nat.le_succ _
    · have below : i < d.states.size := below
      simp only [Array.getElem?_push_lt below, Array.getElem?_eq_getElem below]

theorem adds_of_addTrap {d d' : Draft} {id : StateId} (h : d.addTrap = .ok (id, d')) :
    d.Adds id (.trap ⟨d.trapCount⟩ none none none) d' ∧ d'.trapCount = d.trapCount + 1 := by
  unfold addTrap at h
  split at h
  · cases h
  · rename_i trap ok
    obtain ⟨_, rfl⟩ := Index.ofNat?_eq_ok_iff.1 ok
    split at h
    · cases h
    · rename_i pushed
      cases h
      obtain ⟨adds, traps⟩ := adds_of_push pushed
      refine ⟨⟨adds.index, adds.size, adds.state, ⟨adds.kept.size, adds.kept.states,
        adds.kept.classes, ?_⟩⟩, by simp only [traps]⟩
      simp only [traps]
      exact Nat.le_succ _

structure Puts (d : Draft) (i : Nat) (s : DraftState) (d' : Draft) : Prop where
  size : d'.size = d.size
  states : ∀ j, d'.states[j]? = if j = i then some s else d.states[j]?
  classes : d'.classes = d.classes
  traps : d'.trapCount = d.trapCount

theorem Puts.extends {d d' : Draft} {i : Nat} {s : DraftState} (h : d.Puts i s d') :
    d.Extends d' (· = i) where
  size := Nat.le_of_eq h.size.symm
  states j _ kept := by rw [h.states, if_neg kept]
  classes j set found := by rwa [h.classes]
  traps := Nat.le_of_eq h.traps.symm

theorem puts_of_update {d d' : Draft} {id : StateId} {change : DraftState → Option DraftState}
    {refusal : DraftState → Misuse} (h : d.update id change refusal = .ok d') :
    ∃ s s', d.states[id.val]? = some s ∧ change s = some s' ∧ d.Puts id.val s' d' := by
  unfold update at h
  split at h
  · rename_i inside
    split at h
    · rename_i s' changed
      cases h
      refine ⟨_, s', Array.getElem?_eq_getElem inside, changed, by simp [size], fun j => ?_, rfl,
        rfl⟩
      rw [Array.getElem?_set]
      simp only [eq_comm (a := id.val)]
    · cases h
  · cases h

theorem puts_of_addArrow {d d' : Draft} {source target : StateId} {label : Label}
    (h : d.addArrow source label target = .ok d') :
    ∃ s s', d.states[source.val]? = some s ∧ s.addArrow? ⟨label, target⟩ = some s' ∧
      d.Puts source.val s' d' := puts_of_update h

theorem puts_of_setTrapBody {d d' : Draft} {id target : StateId} {label : Label} {trap : TrapId}
    {r : Option Repetition} {body leave : Option Arrow}
    (h : d.setTrapBody id label target = .ok d')
    (state : d.states[id.val]? = some (.trap trap r body leave)) :
    d.Puts id.val (.trap trap r (some ⟨label, target⟩) leave) d' := by
  obtain ⟨s, s', found, changed, puts⟩ := puts_of_update h
  rw [state, Option.some.injEq] at found
  subst found
  cases changed
  exact puts

theorem puts_of_setTrapLeave {d d' : Draft} {id target : StateId} {trap : TrapId}
    {r : Option Repetition} {body leave : Option Arrow} (h : d.setTrapLeave id target = .ok d')
    (state : d.states[id.val]? = some (.trap trap r body leave)) :
    d.Puts id.val (.trap trap r body (some (.empty target))) d' := by
  obtain ⟨s, s', found, changed, puts⟩ := puts_of_update h
  rw [state, Option.some.injEq] at found
  subst found
  cases changed
  exact puts

theorem puts_of_setTrapRepetition {d d' : Draft} {id : StateId} {trap : TrapId} {new : Repetition}
    {r : Option Repetition} {body leave : Option Arrow} (h : d.setTrapRepetition id new = .ok d')
    (state : d.states[id.val]? = some (.trap trap r body leave)) :
    d.Puts id.val (.trap trap (some new) body leave) d' := by
  obtain ⟨s, s', found, changed, puts⟩ := puts_of_update h
  rw [state, Option.some.injEq] at found
  subst found
  cases changed
  exact puts

theorem Puts.again {d d₁ d₂ : Draft} {i : Nat} {s s' : DraftState} (h : d.Puts i s d₁)
    (h' : d₁.Puts i s' d₂) : d.Puts i s' d₂ where
  states j := by
    rw [h'.states, h.states]
    split <;> rfl
  size := h'.size.trans h.size
  classes := h'.classes.trans h.classes
  traps := h'.traps.trans h.traps

theorem puts_of_complete {d d₁ d₂ : Draft} {id target : StateId} {trap : TrapId} {r : Repetition}
    {body : Arrow} (left : d.setTrapLeave id target = .ok d₁)
    (repeats : d₁.setTrapRepetition id r = .ok d₂)
    (state : d.states[id.val]? = some (.trap trap none (some body) none)) :
    d.Puts id.val (.trap trap (some r) (some body) (some (.empty target))) d₂ := by
  have puts := puts_of_setTrapLeave left state
  exact puts.again (puts_of_setTrapRepetition repeats (by rw [puts.states, if_pos rfl]))

/-- The arrows were added to the state `tail`, and nothing else that was there has changed. -/
structure Connects (d : Draft) (tail : StateId) (arrows : List Arrow) (d' : Draft) : Prop where
  kept : d.Extends d' (· = tail.val)
  added : ∃ s s', d.states[tail.val]? = some s ∧ s.addArrows? arrows = some s' ∧
    d'.states[tail.val]? = some s'

theorem connects_of_addArrow {d d' : Draft} {source target : StateId} {label : Label}
    (h : d.addArrow source label target = .ok d') : d.Connects source [⟨label, target⟩] d' := by
  obtain ⟨s, s', found, added, puts⟩ := puts_of_addArrow h
  exact ⟨puts.extends, s, s', found, by rw [DraftState.addArrows?_single, added],
    by rw [puts.states, if_pos rfl]⟩

theorem Connects.trans {d d₁ d₂ : Draft} {tail : StateId} {as bs : List Arrow}
    (h : d.Connects tail as d₁) (h' : d₁.Connects tail bs d₂) : d.Connects tail (as ++ bs) d₂ := by
  obtain ⟨s, s₁, found, added, found₁⟩ := h.added
  obtain ⟨s₁', s₂, found₁', added', found₂⟩ := h'.added
  rw [found₁, Option.some.injEq] at found₁'
  subst found₁'
  exact ⟨h.kept.trans h'.kept fun _ _ same => same, s, s₂, found,
    DraftState.addArrows?_append added added', found₂⟩

theorem Connects.extends {d d₁ d₂ : Draft} {tail : StateId} {as : List Arrow} {but : Nat → Prop}
    (h : d.Connects tail as d₁) (later : d₁.Extends d₂ but) (free : ∀ i, i < d.size → ¬ but i) :
    d.Connects tail as d₂ := by
  obtain ⟨s, s', found, added, found'⟩ := h.added
  have inside := (Array.getElem?_eq_some_iff.1 found).1
  refine ⟨h.kept.trans later fun i below changed => absurd changed (free i below), s, s', found,
    added, ?_⟩
  rw [later.states _ (Nat.lt_of_lt_of_le inside h.kept.size) (free _ inside), found']

theorem Connects.found {d d' : Draft} {tail : StateId} {arrows : List Arrow} {s s' : DraftState}
    (h : d.Connects tail arrows d') (state : d.states[tail.val]? = some s)
    (added : s.addArrows? arrows = some s') : d'.states[tail.val]? = some s' := by
  obtain ⟨s₁, s₂, found, added', found'⟩ := h.added
  rw [state, Option.some.injEq] at found
  rw [← found, added, Option.some.injEq] at added'
  rw [added', found']

theorem Connects.after {d d₁ d₂ : Draft} {tail : StateId} {as : List Arrow}
    (h : d₁.Connects tail as d₂) (before : d.Precedes d₁) (inside : tail.val < d.size) :
    d.Connects tail as d₂ := by
  obtain ⟨s, s', found, added, found'⟩ := h.added
  rw [before.states _ inside not_false] at found
  refine ⟨⟨Nat.le_trans before.size h.kept.size, fun i below kept => ?_, fun i set found => ?_,
    Nat.le_trans before.traps h.kept.traps⟩, s, s', found, added, found'⟩
  · rw [h.kept.states i (Nat.lt_of_lt_of_le below before.size) kept,
      before.states i below not_false]
  · exact h.kept.classes i set (before.classes i set found)

/-- A single arrow can be added at once, and what came besides it comes after it. -/
theorem Connects.split {d d' : Draft} {tail : StateId} {a : Arrow} (h : d.Connects tail [a] d') :
    ∃ d₁, d.addArrow tail a.label a.target = .ok d₁ ∧ d₁.Precedes d' := by
  obtain ⟨s, s', found, added, found'⟩ := h.added
  rw [DraftState.addArrows?_single] at added
  obtain ⟨inside, same⟩ := Array.getElem?_eq_some_iff.1 found
  refine ⟨{ d with states := d.states.set tail.val s' inside }, ?_, ?_⟩
  · rw [addArrow, update, dif_pos inside, same, added]
  · refine ⟨?_, fun i below _ => ?_, h.kept.classes, h.kept.traps⟩
    · have grows := h.kept.size
      simp only [size, Array.size_set] at grows ⊢
      exact grows
    · rw [Array.getElem?_set]
      split
      · rename_i tail
        rw [← tail, found']
      · rename_i other
        exact h.kept.states i (by simpa [size] using below) (Ne.symm other)

end Draft

/-- The states of the draft from `low` on, and its classes, are those of the graph. -/
structure Graph.Holds (g : Graph) (d : Draft) (low : Nat) : Prop where
  states : ∀ i s, low ≤ i → d.states[i]? = some s →
    ∃ state, s.finish? = some state ∧ g.states[i]? = some state
  classes : ∀ (i : Nat) set, d.classes[i]? = some set → g.classes[i]? = some set
  traps : d.trapCount ≤ g.trapCount

namespace Graph.Holds
variable {g : Graph} {d d' : Draft} {low : Nat}

theorem mono {low' : Nat} (h : g.Holds d low) (le : low ≤ low') : g.Holds d low' :=
  ⟨fun i s above found => h.states i s (Nat.le_trans le above) found, h.classes, h.traps⟩

theorem before {but : Nat → Prop} (h : g.Holds d' low) (kept : d.Extends d' but)
    (free : ∀ i, low ≤ i → ¬ but i) : g.Holds d low where
  states i s above found := by
    have inside := (Array.getElem?_eq_some_iff.1 found).1
    rw [← kept.states i inside (free i above)] at found
    exact h.states i s above found
  classes i set found := h.classes i set (kept.classes i set found)
  traps := Nat.le_trans kept.traps h.traps

theorem state {id : StateId} {s : DraftState} {state : State} (h : g.Holds d low)
    (above : low ≤ id.val) (found : d.states[id.val]? = some s) (finished : s.finish? = some state) :
    g.state? id = some state := by
  obtain ⟨state', finished', found'⟩ := h.states id.val s above found
  rw [finished, Option.some.injEq] at finished'
  rw [finished']
  exact found'

end Graph.Holds

end PatternGraph
