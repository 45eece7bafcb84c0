import PatternGraph.Proofs.Graph.Nesting

/-!
Compiled graphs have places for all their states. The groups in progress are nested in each other, and
each piece puts what it adds inside the innermost of them; so when the last group has ended, every state
lies where the pattern has it.
-/
namespace PatternGraph

namespace Nesting

structure Below (n : Nesting) (states tags : Nat) : Prop where
  loops : ∀ t ∈ n.loops, t.val < states
  groups : ∀ t ∈ n.groups, t.val < tags

theorem below_outside (states tags : Nat) : outside.Below states tags := by
  constructor <;> simp [outside]

variable {n : Nesting} {states states' tags tags' : Nat}

theorem Below.mono (h : n.Below states tags) (le : states ≤ states') (le' : tags ≤ tags') :
    n.Below states' tags' :=
  ⟨fun t mem => Nat.lt_of_lt_of_le (h.loops t mem) le,
    fun t mem => Nat.lt_of_lt_of_le (h.groups t mem) le'⟩

theorem Below.inLoop {trap : StateId} (h : n.Below states tags) (below : trap.val < states) :
    (n.inLoop trap).Below states tags :=
  ⟨List.forall_mem_cons.2 ⟨below, h.loops⟩, h.groups⟩

theorem Below.inGroup {tag : Option TagId} (h : n.Below states tags) (below : ∀ t ∈ tag, t.val < tags) :
    (n.inGroup tag).Below states tags := by
  refine ⟨h.loops, fun t mem => ?_⟩
  rcases List.mem_append.1 mem with new | old
  · exact below t (by simpa using new)
  · exact h.groups t old

end Nesting

def Frame.round (f : Frame) (around : Nesting) : Nesting :=
  match f.trap with
  | none => around
  | some t => around.inLoop t

structure Frame.Lies (f : Frame) (places : List Place) (around inside : Nesting) : Prop where
  first : ∃ p, places[f.first.val]? = some p ∧ p.depart = inside
  tail : ∃ p, places[f.tail.val]? = some p ∧ p.depart = inside
  last : places[f.last.val]? = some ⟨inside, f.round around⟩
  trap : ∀ t ∈ f.trap, places[t.val]? = some ⟨around, around⟩

inductive Nested (places : List Place) (tags : Nat) : List Frame → Nesting → Prop
  | whole {f} : places[f.first.val]? = some ⟨.outside, .outside⟩ → f.trap = none →
      f.Lies places .outside .outside → Nested places tags [f] .outside
  | group {f fs around inside} : Nested places tags fs around → f.Lies places around inside →
      inside.Below places.length tags → Nested places tags (f :: fs) inside

namespace Nested
variable {places places' : List Place} {tags tags' : Nat} {f : Frame} {fs : List Frame} {n : Nesting}
  {p : Place} {tail : StateId}

theorem bounded (h : Nested places tags fs n) : n.Below places.length tags := by
  cases h with
  | whole => exact Nesting.below_outside _ _
  | group _ _ below => exact below

theorem lies (h : Nested places tags (f :: fs) n) : ∃ around, f.Lies places around n := by
  cases h with
  | whole _ _ lies => exact ⟨_, lies⟩
  | group _ lies => exact ⟨_, lies⟩

end Nested

theorem Frame.Lies.mono {f : Frame} {places places' : List Place} {around inside : Nesting}
    (h : f.Lies places around inside) (pre : places <+: places') : f.Lies places' around inside where
  first := h.first.imp fun _ ⟨found, departs⟩ => ⟨List.getElem?_of_prefix pre found, departs⟩
  tail := h.tail.imp fun _ ⟨found, departs⟩ => ⟨List.getElem?_of_prefix pre found, departs⟩
  last := List.getElem?_of_prefix pre h.last
  trap t mem := List.getElem?_of_prefix pre (h.trap t mem)

namespace Nested
variable {places places' : List Place} {tags tags' : Nat} {f : Frame} {fs : List Frame} {n : Nesting}
  {p : Place} {tail : StateId}

theorem mono (h : Nested places tags fs n) (pre : places <+: places') (le : tags ≤ tags') :
    Nested places' tags' fs n := by
  induction h with
  | whole first once lies => exact .whole (List.getElem?_of_prefix pre first) once (lies.mono pre)
  | group _ lies below ih => exact .group ih (lies.mono pre) (below.mono pre.length_le le)

theorem withTail (h : Nested places tags (f :: fs) n) (found : places[tail.val]? = some p)
    (departs : p.depart = n) : Nested places tags ({ f with tail := tail } :: fs) n := by
  cases h with
  | whole first once lies =>
    exact .whole first once ⟨lies.first, ⟨p, found, departs⟩, lies.last, lies.trap⟩
  | group outer lies below =>
    exact .group outer ⟨lies.first, ⟨p, found, departs⟩, lies.last, lies.trap⟩ below

end Nested

namespace Assembly
variable {a a' : Assembly} {tags tags' : Nat}

/-- All states that were added lie where they should, and the frames are nested. -/
def Placed (a : Assembly) (tags : Nat) : Prop :=
  ∃ places n, a.draft.Placed places ∧ Nested places tags (a.frame :: a.outer) n

theorem Placed.addAtom {atom : Atom} (placed : a.Placed tags) (added : a.addAtom atom = .ok a') :
    a'.Placed tags := by
  obtain ⟨places, n, placed, nested⟩ := placed
  simp only [Assembly.addAtom, Except.bind_eq_ok, refuse_eq_ok, trust_eq_ok, Prod.exists] at added
  obtain ⟨label, d₁, labelled, next, d₂, pushed, d₃, arrow, ⟨⟩⟩ := added
  have labels := labels_of_label labelled
  obtain ⟨placed, index⟩ :=
    (placed.relabel labels.states labels.traps).push (p := ⟨n, n⟩) pushed rfl rfl rfl
  have place := Place.found_of_index index ⟨n, n⟩
  have nested := nested.mono (List.prefix_append places [⟨n, n⟩]) (Nat.le_refl tags)
  obtain ⟨_, lies⟩ := nested.lies
  obtain ⟨p, tail, rfl⟩ := lies.tail
  exact ⟨_, _, placed.addArrow arrow tail ⟨_, place, .inl rfl⟩, nested.withTail place rfl⟩

theorem Placed.addLoop {atom : Atom} {r : Repetition} (placed : a.Placed tags)
    (added : a.addLoop atom r = .ok a') : a'.Placed tags := by
  obtain ⟨places, n, placed, nested⟩ := placed
  simp only [Assembly.addLoop, Except.bind_eq_ok, refuse_eq_ok, trust_eq_ok, Prod.exists] at added
  obtain ⟨label, d₁, labelled, trap, d₂, trapped, after, d₃, pushed, d₄, entered, d₅, around, d₆,
    left, d₇, repeats, ⟨⟩⟩ := added
  have labels := labels_of_label labelled
  obtain ⟨placed, index⟩ :=
    (placed.relabel labels.states labels.traps).addTrap trapped nested.bounded.loops
  obtain ⟨placed, index'⟩ := placed.push (p := ⟨n, n⟩) pushed rfl rfl rfl
  have place := Place.found_of_index index ⟨n, n⟩
  have place := List.getElem?_of_prefix (List.prefix_append _ [(⟨n, n⟩ : Place)]) place
  have place' := Place.found_of_index index' ⟨n, n⟩
  have nested := nested.mono (List.prefix_append places [⟨n, n⟩]) (Nat.le_refl tags)
  have nested := nested.mono (List.prefix_append _ [⟨n, n⟩]) (Nat.le_refl tags)
  obtain ⟨_, lies⟩ := nested.lies
  obtain ⟨p, tail, rfl⟩ := lies.tail
  have placed := placed.addArrow entered tail ⟨_, place, .inl rfl⟩
  have placed := placed.setTrapBody around place ⟨_, place, .inr rfl⟩
  have elsewhere : after ≠ trap := by
    rintro rfl
    simp [index] at index'
  exact ⟨_, _, placed.complete left repeats place ⟨_, place', .inl rfl⟩ elsewhere,
    nested.withTail place' rfl⟩

theorem Placed.addAlternative (placed : a.Placed tags) (added : a.addAlternative = .ok a') :
    a'.Placed tags := by
  obtain ⟨places, n, placed, nested⟩ := placed
  simp only [Assembly.addAlternative, Except.bind_eq_ok, trust_eq_ok] at added
  obtain ⟨d₁, arrow, ⟨⟩⟩ := added
  obtain ⟨_, lies⟩ := nested.lies
  obtain ⟨p, tail, rfl⟩ := lies.tail
  obtain ⟨p', first, departs⟩ := lies.first
  exact ⟨_, _, placed.addArrow arrow tail ⟨_, lies.last, .inl rfl⟩, nested.withTail first departs⟩

theorem placed_of_group {d d₁ d₂ : Draft} {places : List Place} {tag : Option TagId}
    {first last : StateId} {n : Nesting} (placed : d.Placed places)
    (opened : d.addTagOpen tag = .ok (first, d₁)) (closed : d₁.addTagClose tag = .ok (last, d₂))
    (fresh : ∀ t ∈ tag, t ∉ n.groups) :
    ∃ places', places <+: places' ∧ d₂.Placed places' ∧
      places'[first.val]? = some ⟨n, n.inGroup tag⟩ ∧ places'[last.val]? = some ⟨n.inGroup tag, n⟩ := by
  obtain ⟨placed, index⟩ := placed.push (p := ⟨n, n.inGroup tag⟩) opened ⟨rfl, fresh⟩ rfl rfl
  obtain ⟨placed, index'⟩ := placed.push (p := ⟨n.inGroup tag, n⟩) closed ⟨rfl, fresh⟩ rfl rfl
  have later := List.prefix_append (places ++ [⟨n, n.inGroup tag⟩]) [⟨n.inGroup tag, n⟩]
  exact ⟨_, (List.prefix_append _ _).trans later, placed,
    List.getElem?_of_prefix later (Place.found_of_index index _), Place.found_of_index index' _⟩

theorem Placed.openGroup {tag : Option TagId} {looped : Bool} (placed : a.Placed tags)
    (opened : a.openGroup tag looped = .ok a') (fresh : ∀ t ∈ tag, tags ≤ t.val ∧ t.val < tags')
    (le : tags ≤ tags') : a'.Placed tags' := by
  obtain ⟨places, n, placed, nested⟩ := placed
  have apart : ∀ t ∈ tag, t ∉ n.groups := fun t mem inside =>
    absurd (nested.bounded.groups t inside) (Nat.not_lt.2 (fresh t mem).1)
  simp only [Assembly.openGroup, Except.bind_eq_ok, refuse_eq_ok, Prod.exists] at opened
  obtain ⟨first, d₁, opening, last, d₂, closing, opened⟩ := opened
  cases looped with
  | true =>
    simp only [↓reduceIte, Except.bind_eq_ok, refuse_eq_ok, trust_eq_ok, Prod.exists] at opened
    obtain ⟨trap, d₃, trapped, d₄, entered, d₅, begun, ⟨⟩⟩ := opened
    obtain ⟨places₂, pre, placed, first', last'⟩ :=
      placed_of_group (n := n.inLoop trap) placed opening closing apart
    have nested := nested.mono pre le
    obtain ⟨placed, index⟩ := placed.addTrap trapped nested.bounded.loops
    have place := Place.found_of_index index ⟨n, n⟩
    have pre := List.prefix_append places₂ [⟨n, n⟩]
    have nested := nested.mono pre (Nat.le_refl tags')
    have first' := List.getElem?_of_prefix pre first'
    have last' := List.getElem?_of_prefix pre last'
    obtain ⟨_, lies⟩ := nested.lies
    obtain ⟨p, tail, rfl⟩ := lies.tail
    have placed := placed.addArrow entered tail ⟨_, place, .inl rfl⟩
    have placed := placed.setTrapBody begun place ⟨_, first', .inl rfl⟩
    have below := nested.bounded.inLoop (List.getElem?_eq_some_iff.1 place).1
    refine ⟨_, _, placed, .group nested ⟨⟨_, first', rfl⟩, ⟨_, first', rfl⟩, last', ?_⟩
      (below.inGroup fun t mem => (fresh t mem).2)⟩
    rintro _ ⟨⟩
    exact place
  | false =>
    simp only [Bool.false_eq_true, ↓reduceIte, Except.bind_eq_ok, trust_eq_ok] at opened
    obtain ⟨d₃, entered, ⟨⟩⟩ := opened
    obtain ⟨places₂, pre, placed, first', last'⟩ := placed_of_group placed opening closing apart
    have nested := nested.mono pre le
    obtain ⟨_, lies⟩ := nested.lies
    obtain ⟨p, tail, rfl⟩ := lies.tail
    have placed := placed.addArrow entered tail ⟨_, first', .inl rfl⟩
    exact ⟨_, _, placed, .group nested ⟨⟨_, first', rfl⟩, ⟨_, first', rfl⟩, last', by simp⟩
      (nested.bounded.inGroup fun t mem => (fresh t mem).2)⟩

theorem Placed.closeGroup {r : Option Repetition} (placed : a.Placed tags)
    (closed : a.closeGroup r = .ok a') : a'.Placed tags := by
  obtain ⟨places, n, placed, nested⟩ := placed
  obtain ⟨draft, ⟨first, last, tail, trap⟩, outer⟩ := a
  cases nested with
  | whole => cases closed
  | @group _ _ outside _ nested lies below =>
    cases outer with
    | nil => cases closed
    | cons around outer =>
      simp only [Assembly.closeGroup, Except.bind_eq_ok, trust_eq_ok] at closed
      obtain ⟨d₁, arrow, closed⟩ := closed
      obtain ⟨p, tail', rfl⟩ := lies.tail
      have ended : d₁.Placed places := placed.addArrow arrow tail' ⟨_, lies.last, .inl rfl⟩
      cases trap with
      | none =>
        cases r with
        | some r => cases closed
        | none =>
          cases closed
          exact ⟨_, _, ended, nested.withTail lies.last rfl⟩
      | some trap =>
        cases r with
        | none => cases closed
        | some r =>
          simp only [Except.bind_eq_ok, refuse_eq_ok, trust_eq_ok, Prod.exists] at closed
          obtain ⟨after, d₂, pushed, d₃, again, d₄, left, d₅, repeats, ⟨⟩⟩ := closed
          have inside := (List.getElem?_eq_some_iff.1 (lies.trap trap rfl)).1
          obtain ⟨placed, index⟩ := ended.push (p := ⟨outside, outside⟩) pushed rfl rfl rfl
          have pre := List.prefix_append places [⟨outside, outside⟩]
          have place := List.getElem?_of_prefix pre (lies.trap trap rfl)
          have place' := Place.found_of_index index ⟨outside, outside⟩
          have placed := placed.addArrow again (List.getElem?_of_prefix pre lies.last)
            ⟨_, place, .inr rfl⟩
          have elsewhere : after ≠ trap := by
            rintro rfl
            omega
          exact ⟨_, _, placed.complete left repeats place ⟨_, place', .inl rfl⟩ elsewhere,
            (nested.mono pre (Nat.le_refl tags)).withTail place' rfl⟩

theorem placed_of_run {scope : Scope} {r last : Reading} {ps : List Piece}
    (run : Reading.Run scope r ps last) (placed : a.Placed r.names.size)
    (added : ps.foldlM add a = .ok a') : a'.Placed last.names.size := by
  induction run generalizing a with
  | stay =>
    cases added
    exact placed
  | @step r s rest p r₁ ps _ _ read _ ih =>
    rw [List.foldlM_cons, Except.bind_eq_ok] at added
    obtain ⟨a₁, piece, added⟩ := added
    refine ih ?_ added
    rcases Reading.pieceAt_cases read with ⟨_, opens⟩ | ⟨_, closes⟩ | ⟨_, rfl, rfl⟩ | atom
    · obtain ⟨group, rfl, _, header⟩ := Reading.header_of_openGroup opens
      rcases header.tag with ⟨none, same⟩ | ⟨i, tag, index, next⟩
      · refine placed.openGroup piece ?_ (Nat.le_of_eq same.symm)
        simp [none]
      · have index : i.val = r.names.size := index
        have next : r₁.names.size = i.val + 1 := next
        refine placed.openGroup piece ?_ (by omega)
        rw [tag]
        rintro _ ⟨⟩
        omega
    · obtain ⟨group, _, declared, closes⟩ := Reading.end_of_closeGroup closes
      obtain ⟨repetition, rfl⟩ := closes.piece
      have same := congrArg (·.names.size) declared
      simp only [Declared.size_close] at same
      have same : r₁.names.size = r.names.size := same
      rw [same]
      exact placed.closeGroup piece
    · exact placed.addAlternative piece
    · obtain ⟨atom', repetition, rfl⟩ := Reading.atom_of_atomPiece atom
      obtain ⟨declared, _, _⟩ := Reading.before_of_atomPiece atom true
      have same : r₁.names.size = r.names.size := congrArg (·.names.size) declared
      rw [same]
      cases repetition with
      | none => exact placed.addAtom piece
      | some _ => exact placed.addLoop piece

theorem placed_of_start {stateLimit : Option Nat} (begun : start stateLimit = .ok a) :
    a.Placed 0 := by
  simp only [start, Except.bind_eq_ok, refuse_eq_ok, Prod.exists] at begun
  obtain ⟨first, d₁, pushed, last, d₂, pushed', ⟨⟩⟩ := begun
  have placed : (Draft.empty.withStateLimit stateLimit).Placed [] :=
    ⟨rfl, by simp [Draft.withStateLimit, Draft.empty], by
      constructor <;> simp [Draft.withStateLimit, Draft.empty, Draft.trapAt?]⟩
  obtain ⟨placed, index⟩ := placed.push (p := ⟨.outside, .outside⟩) pushed rfl rfl rfl
  obtain ⟨placed, index'⟩ := placed.push (p := ⟨.outside, .outside⟩) pushed' rfl rfl rfl
  have first' := List.getElem?_of_prefix (List.prefix_append _ [(⟨.outside, .outside⟩ : Place)])
    (Place.found_of_index index ⟨.outside, .outside⟩)
  exact ⟨_, _, placed, .whole first' rfl ⟨⟨_, first', rfl⟩, ⟨_, first', rfl⟩,
    Place.found_of_index index' _, fun _ mem => (by cases mem)⟩⟩

end Assembly

def State.draft : State → DraftState
  | .relay a => .fanout #[a]
  | .fanout arrows => .fanout arrows
  | .tagOpen tag arrows => .tagOpen tag arrows
  | .tagClose tag arrows => .tagClose tag arrows
  | .trap id r body leave => .trap id (some r) (some body) (some leave)
  | .terminal => .terminal

theorem State.draft_of_finish? {s : DraftState} {state : State} (finished : s.finish? = some state) :
    state.draft = s := by
  cases s with
  | fanout arrows =>
    rcases arrows with ⟨_ | ⟨a, _ | ⟨b, rest⟩⟩⟩ <;> cases finished <;> rfl
  | tagOpen | tagClose | terminal =>
    cases finished
    rfl
  | trap id r body leave =>
    cases r <;> cases body <;> cases leave <;> cases finished
    rfl

theorem Draft.Finishes.drafted {d : Draft} {start : StateId} {names : GroupNames} {g : Graph}
    (h : d.Finishes start names g) (i : Nat) : g.states[i]?.map State.draft = d.states[i]? := by
  cases found : d.states[i]? with
  | none =>
    have outside : d.size ≤ i := Array.getElem?_eq_none_iff.1 found
    rw [Array.getElem?_eq_none (by rw [h.size]; exact outside)]
    rfl
  | some s =>
    obtain ⟨state, finished, found'⟩ := h.holds.states i s (Nat.zero_le _) found
    rw [found', Option.map_some, State.draft_of_finish? finished]

/-- A way through the graph begins outside of all, and every state lies where it should. -/
structure Graph.Placed (g : Graph) (places : List Place) : Prop where
  start : Nesting.outside.Meets places g.start
  lies : ∀ id state, g.state? id = some state →
    ∃ p, places[id.val]? = some p ∧ state.draft.Lies places id p
  numbered : Numbered (fun i => g.states[i]?.bind (·.draft.number?)) g.trapCount

theorem Assembly.Placed.finish {a : Assembly} {names : GroupNames} {g : Graph} {tags : Nat}
    (placed : a.Placed tags) (finished : a.finish names = .ok g) : ∃ places, g.Placed places := by
  obtain ⟨places, n, placed, nested⟩ := placed
  obtain ⟨outer, terminal, d₁, d₂, d₃, pushed, arrow, arrow', finishes⟩ := finish_eq_ok finished
  obtain ⟨draft, frame, _⟩ := a
  obtain rfl := outer
  cases nested with
  | group nested => cases nested
  | whole first once lies =>
    have once : frame.trap = none := once
    obtain ⟨placed, index⟩ := placed.push (p := ⟨.outside, .outside⟩) pushed rfl rfl rfl
    have pre := List.prefix_append places [⟨.outside, .outside⟩]
    have lies := lies.mono pre
    have last := lies.last
    rw [Frame.round, once] at last
    obtain ⟨p, tail, departs⟩ := lies.tail
    have placed := placed.addArrow arrow tail ⟨_, last, .inl departs⟩
    have placed := placed.addArrow arrow' last ⟨_, Place.found_of_index index _, .inl rfl⟩
    have same : (fun i => g.states[i]?.bind (·.draft.number?)) = d₃.trapAt? := by
      funext i
      rw [Draft.trapAt?, ← finishes.drafted, Option.bind_map]
      rfl
    refine ⟨places ++ [⟨.outside, .outside⟩], ?_, fun id state found => ?_, ?_⟩
    · rw [finishes.start]
      exact ⟨_, List.getElem?_of_prefix pre first, .inl rfl⟩
    · apply placed.lies id.val
      rw [← finishes.drafted, show g.states[id.val]? = some state from found, Option.map_some]
    · rw [same, finishes.traps]
      exact placed.numbered

theorem placed_of_compile {options : Options} {pattern : String} {g : Graph}
    (compiled : compile options pattern = .ok g) : ∃ places, g.Placed places := by
  simp only [compile, Outline.assemble, Except.bind_eq_ok, Assembly.refuse_eq_ok] at compiled
  obtain ⟨o, outlined, a, begun, a', added, names, ended, finished⟩ := compiled
  unfold Outline.ofText at outlined
  dsimp only at outlined
  split at outlined
  · cases outlined
  · cases outlined
    obtain ⟨last, run, _, rfl⟩ := Reading.run_of_ending ended
    exact (Assembly.placed_of_run run (Assembly.placed_of_start begun) added).finish finished

end PatternGraph
