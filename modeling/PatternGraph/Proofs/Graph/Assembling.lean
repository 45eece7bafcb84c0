import PatternGraph.Proofs.Graph.Soundness

/-!
Putting pieces together as their groups open and close. The states that groups in progress stand on
take arrows, and the loops that are still open are those of groups that a quantifier follows.
-/
namespace PatternGraph

namespace Guards
variable {A B : Type} {E : PatternError → Prop} {R : B → Prop}

theorem bind_trust {x : Except Misuse A} {a : A} {f : A → Except Failure B} (ok : x = .ok a)
    (next : Guards E R (f a)) : Guards E R (Assembly.trust x >>= f) := by
  subst ok
  exact next

end Guards

structure Frame.Stands (f : Frame) (d : Draft) : Prop where
  first : d.TakesArrows f.first
  last : d.TakesArrows f.last
  tail : d.TakesArrows f.tail
  trap : ∀ t ∈ f.trap, d.HasBody t

theorem Frame.Stands.serves {f : Frame} {d d' : Draft} (stands : f.Stands d) (serves : d.Serves d') :
    f.Stands d' where
  first := serves.takesArrows stands.first
  last := serves.takesArrows stands.last
  tail := serves.takesArrows stands.tail
  trap t mem := serves.hasBody (stands.trap t mem)

namespace Assembly
variable {a : Assembly} {d d' : Draft} {E : PatternError → Prop} {n k : Nat} {loops : List Bool}

def frames (a : Assembly) : List Frame := a.frame :: a.outer

/-- `loops` tells which of the open groups are repeated, innermost first; around them is the frame of
the whole pattern, which is not. -/
structure Sound (a : Assembly) (loops : List Bool) : Prop where
  draft : a.draft.Sound (a.frames.filterMap (·.trap))
  stands : ∀ f ∈ a.frames, f.Stands a.draft
  loops : a.frames.map (·.trap.isSome) = loops ++ [false]

theorem Sound.frame (sound : a.Sound loops) : a.frame.Stands a.draft :=
  sound.stands _ List.mem_cons_self

theorem takesArrows_of_adds {id : StateId} {s : DraftState} (adds : d.Adds id s d')
    (takes : s.takesArrows = true) : d'.TakesArrows id := ⟨s, adds.state, takes⟩

theorem Sound.withTail {tail : StateId} (sound : a.Sound loops)
    (draft : d.Sound (a.frames.filterMap (·.trap))) (serves : a.draft.Serves d)
    (takes : d.TakesArrows tail) : (a.withTail d tail).Sound loops where
  draft := draft
  stands := by
    have stands := sound.frame.serves serves
    refine List.forall_mem_cons.2 ⟨⟨stands.first, stands.last, takes, stands.trap⟩, ?_⟩
    intro f mem
    exact (sound.stands f (List.mem_cons_of_mem _ mem)).serves serves
  loops := sound.loops

theorem guards_label (room : Draft.Room E d n (k + 1)) (atom : Atom) :
    Guards E (fun found => found.2.states = d.states ∧ Draft.Room E found.2 n k) (label d atom) := by
  have fewer : Draft.Room E d n k := room.mono (Nat.le_refl n) (Nat.le_succ k)
  cases atom with
  | literal c cs => cases cs <;> exact ⟨rfl, fewer⟩
  | charClass set =>
    refine (room.addClass set).bind ?_
    rintro ⟨id, d'⟩ added
    exact added
  | any => exact ⟨rfl, fewer⟩
  | backref tag => exact ⟨rfl, fewer⟩

theorem sound_of_states {pending : List StateId} (sound : d.Sound pending)
    (same : d'.states = d.states) : d'.Sound pending ∧ d.Serves d' := by
  obtain ⟨states, classes, traps, limit⟩ := d'
  obtain rfl : states = d.states := same
  exact ⟨⟨sound.targets, sound.finishes⟩, ⟨Nat.le_refl _, fun _ s found => ⟨s, found, .refl s⟩⟩⟩

theorem guards_addAtom (sound : a.Sound loops) (room : Draft.Room E a.draft (n + 1) (k + 1))
    (atom : Atom) :
    Guards E (fun a' => a'.Sound loops ∧ Draft.Room E a'.draft n k) (a.addAtom atom) := by
  unfold addAtom
  refine (guards_label room atom).bind ?_
  rintro ⟨label, d₁⟩ ⟨same, room₁⟩
  obtain ⟨sound₁, serves₁⟩ := sound_of_states sound.draft same
  refine (room₁.push (.fanout #[])).bind ?_
  rintro ⟨next, d₂⟩ ⟨adds, room₂⟩
  have sound₂ := sound₁.adds adds rfl (.inl rfl) fun _ mem => mem
  have serves₂ := serves₁.trans adds.serves
  have takes := takesArrows_of_adds adds rfl
  obtain ⟨d₃, added, sound₃, edits⟩ :=
    sound₂.addArrow (serves₂.takesArrows sound.frame.tail) takes.lt_size label
  refine Guards.bind_trust added ⟨?_, room₂.edits edits⟩
  exact sound.withTail sound₃ (serves₂.trans edits.serves) (edits.serves.takesArrows takes)

theorem guards_addLoop (sound : a.Sound loops) (room : Draft.Room E a.draft (n + 2) (k + 1))
    (atom : Atom) (r : Repetition) :
    Guards E (fun a' => a'.Sound loops ∧ Draft.Room E a'.draft n k) (a.addLoop atom r) := by
  unfold addLoop
  refine (guards_label room atom).bind ?_
  rintro ⟨label, d₁⟩ ⟨same, room₁⟩
  obtain ⟨sound₁, serves₁⟩ := sound_of_states sound.draft same
  refine room₁.addTrap.bind ?_
  rintro ⟨trap, d₂⟩ ⟨adds, room₂⟩
  have sound₂ := sound₁.adds adds rfl (.inr List.mem_cons_self) fun _ mem => List.mem_cons_of_mem _ mem
  have isTrap : d₂.IsTrap trap := ⟨_, adds.state, rfl⟩
  refine (room₂.push (.fanout #[])).bind ?_
  rintro ⟨after, d₃⟩ ⟨adds', room₃⟩
  have sound₃ := sound₂.adds adds' rfl (.inl rfl) fun _ mem => mem
  have serves₃ := (serves₁.trans adds.serves).trans adds'.serves
  have takes := takesArrows_of_adds adds' rfl
  have isTrap := adds'.serves.isTrap isTrap
  obtain ⟨d₄, entered, sound₄, edits₄⟩ :=
    sound₃.addArrow (serves₃.takesArrows sound.frame.tail) isTrap.lt_size .empty
  refine Guards.bind_trust entered ?_
  have isTrap := edits₄.serves.isTrap isTrap
  obtain ⟨d₅, around, sound₅, edits₅, body⟩ :=
    sound₄.setTrapBody isTrap List.mem_cons_self isTrap.lt_size label
  refine Guards.bind_trust around ?_
  have serves₅ := edits₄.serves.trans edits₅.serves
  obtain ⟨d₆, d₇, left, repeated, sound₇, edits₇⟩ :=
    sound₅.complete body (serves₅.takesArrows takes).lt_size r
      fun t mem other => (List.mem_cons.1 mem).resolve_left other
  refine Guards.bind_trust left (Guards.bind_trust repeated ?_)
  have edits := (edits₄.trans edits₅).trans edits₇
  refine ⟨?_, room₃.edits edits⟩
  exact sound.withTail sound₇ (serves₃.trans edits.serves) (edits.serves.takesArrows takes)

theorem guards_openGroup (sound : a.Sound loops) (room : Draft.Room E a.draft (n + 3) k)
    (tag : Option TagId) (looped : Bool) :
    Guards E (fun a' => a'.Sound (looped :: loops) ∧ Draft.Room E a'.draft n k)
      (a.openGroup tag looped) := by
  unfold openGroup
  refine (room.push (.tagOpen tag #[])).bind ?_
  rintro ⟨first, d₁⟩ ⟨adds₁, room₁⟩
  have sound₁ := sound.draft.adds adds₁ rfl (.inl rfl) fun _ mem => mem
  refine (room₁.push (.tagClose tag #[])).bind ?_
  rintro ⟨last, d₂⟩ ⟨adds₂, room₂⟩
  have sound₂ := sound₁.adds adds₂ rfl (.inl rfl) fun _ mem => mem
  have serves₂ := adds₁.serves.trans adds₂.serves
  have first_takes := adds₂.serves.takesArrows (takesArrows_of_adds adds₁ rfl)
  have last_takes := takesArrows_of_adds adds₂ rfl
  have around {d : Draft} (serves : d₂.Serves d) : ∀ f ∈ a.frames, f.Stands d :=
    fun f mem => (sound.stands f mem).serves (serves₂.trans serves)
  cases looped with
  | true =>
    refine room₂.addTrap.bind ?_
    rintro ⟨trap, d₃⟩ ⟨adds₃, room₃⟩
    have sound₃ := sound₂.adds adds₃ rfl (.inr List.mem_cons_self)
      fun _ mem => List.mem_cons_of_mem _ mem
    have isTrap : d₃.IsTrap trap := ⟨_, adds₃.state, rfl⟩
    obtain ⟨d₄, entered, sound₄, edits₄⟩ := sound₃.addArrow
      ((serves₂.trans adds₃.serves).takesArrows sound.frame.tail) isTrap.lt_size .empty
    refine Guards.bind_trust entered ?_
    have serves₄ := adds₃.serves.trans edits₄.serves
    obtain ⟨d₅, inside, sound₅, edits₅, body⟩ := sound₄.setTrapBody (edits₄.serves.isTrap isTrap)
      List.mem_cons_self (serves₄.takesArrows first_takes).lt_size .empty
    refine Guards.bind_trust inside ?_
    have serves₅ := serves₄.trans edits₅.serves
    have first_takes := serves₅.takesArrows first_takes
    have last_takes := serves₅.takesArrows last_takes
    refine ⟨⟨sound₅, List.forall_mem_cons.2 ⟨⟨first_takes, last_takes, first_takes, ?_⟩,
      around serves₅⟩, congrArg (true :: ·) sound.loops⟩, room₃.edits (edits₄.trans edits₅)⟩
    rintro _ ⟨⟩
    exact body
  | false =>
    obtain ⟨d₃, entered, sound₃, edits₃⟩ :=
      sound₂.addArrow (serves₂.takesArrows sound.frame.tail) first_takes.lt_size .empty
    refine Guards.bind_trust entered ?_
    have first_takes := edits₃.serves.takesArrows first_takes
    have last_takes := edits₃.serves.takesArrows last_takes
    refine ⟨⟨sound₃, List.forall_mem_cons.2 ⟨⟨first_takes, last_takes, first_takes, by simp⟩,
      around edits₃.serves⟩, congrArg (false :: ·) sound.loops⟩,
      (room₂.edits edits₃).mono (Nat.le_succ n) (Nat.le_refl k)⟩

theorem guards_addAlternative (sound : a.Sound loops) (room : Draft.Room E a.draft n k) :
    Guards E (fun a' => a'.Sound loops ∧ Draft.Room E a'.draft n k) a.addAlternative := by
  unfold addAlternative
  obtain ⟨d, added, sound', edits⟩ :=
    sound.draft.addArrow sound.frame.tail sound.frame.last.lt_size .empty
  refine Guards.bind_trust added ⟨?_, room.edits edits⟩
  exact sound.withTail sound' edits.serves (edits.serves.takesArrows sound.frame.first)

theorem guards_closeGroup {looped : Bool} {r : Option Repetition} (sound : a.Sound (looped :: loops))
    (room : Draft.Room E a.draft (n + 1) k) (agrees : r.isSome = looped) :
    Guards E (fun a' => a'.Sound loops ∧ Draft.Room E a'.draft n k) (a.closeGroup r) := by
  obtain ⟨draft, frame, outer⟩ := a
  obtain ⟨sound, stands, loops'⟩ := sound
  obtain ⟨here, others⟩ := List.forall_mem_cons.1 stands
  obtain ⟨flag, loops'⟩ := List.cons.inj loops'
  cases outer with
  | nil => simp at loops'
  | cons around outer =>
    unfold closeGroup
    obtain ⟨d₁, ended, sound₁, edits₁⟩ := sound.addArrow here.tail here.last.lt_size .empty
    refine Guards.bind_trust ended ?_
    have last := edits₁.serves.takesArrows here.last
    have leave {d : Draft} {tail : StateId} (serves : draft.Serves d) (takes : d.TakesArrows tail) :
        ∀ f ∈ { around with tail := tail } :: outer, f.Stands d := by
      obtain ⟨next, others⟩ := List.forall_mem_cons.1 others
      have next := next.serves serves
      refine List.forall_mem_cons.2 ⟨⟨next.first, next.last, takes, next.trap⟩, ?_⟩
      intro f mem
      exact (others f mem).serves serves
    rw [← agrees] at flag
    obtain ⟨first, last', tail, trap⟩ := frame
    cases trap with
    | none =>
      cases r with
      | some r => cases flag
      | none =>
        have room := (room.edits edits₁).mono (Nat.le_succ n) (Nat.le_refl k)
        exact ⟨⟨sound₁, leave edits₁.serves last, loops'⟩, room⟩
    | some trap =>
      cases r with
      | none => cases flag
      | some r =>
        have body := edits₁.serves.hasBody (here.trap trap rfl)
        refine ((room.edits edits₁).push (.fanout #[])).bind ?_
        rintro ⟨after, d₂⟩ ⟨adds, room₂⟩
        have sound₂ := sound₁.adds adds rfl (.inl rfl) fun _ mem => mem
        have takes := takesArrows_of_adds adds rfl
        obtain ⟨d₃, around', sound₃, edits₃⟩ := sound₂.addArrow (adds.serves.takesArrows last)
          (adds.serves.hasBody body).lt_size .empty
        refine Guards.bind_trust around' ?_
        have serves₃ := adds.serves.trans edits₃.serves
        obtain ⟨d₄, d₅, left, repeated, sound₅, edits₅⟩ := sound₃.complete (serves₃.hasBody body)
          (edits₃.serves.takesArrows takes).lt_size r
          fun t mem other => (List.mem_cons.1 mem).resolve_left other
        refine Guards.bind_trust left (Guards.bind_trust repeated ?_)
        have edits := edits₃.trans edits₅
        have serves := (edits₁.serves.trans adds.serves).trans edits.serves
        have tail := edits.serves.takesArrows takes
        exact ⟨⟨sound₅, leave serves tail, loops'⟩, room₂.edits edits⟩

def LoopsAfter (p : Piece) (loops loops' : List Bool) : Prop :=
  match p with
  | .atom .. | .alternative => loops' = loops
  | .openGroup _ looped => loops' = looped :: loops
  | .closeGroup r => loops = r.isSome :: loops'

def cost : Piece → Nat
  | .atom _ none => 1
  | .atom _ (some _) => 2
  | .openGroup .. => 3
  | .closeGroup _ => 1
  | .alternative => 0

theorem guards_add {p : Piece} {loops' : List Bool} (sound : a.Sound loops)
    (follows : LoopsAfter p loops loops') (room : Draft.Room E a.draft (n + cost p) (k + 1)) :
    Guards E (fun a' => a'.Sound loops' ∧ Draft.Room E a'.draft n k) (a.add p) := by
  have fewer : Draft.Room E a.draft (n + cost p) k := room.mono (Nat.le_refl _) (Nat.le_succ k)
  cases p with
  | atom atom r =>
    obtain rfl : loops' = loops := follows
    cases r with
    | none => exact guards_addAtom sound room atom
    | some r => exact guards_addLoop sound room atom r
  | openGroup tag looped =>
    obtain rfl : loops' = looped :: loops := follows
    exact guards_openGroup sound fewer tag looped
  | closeGroup r =>
    obtain rfl : loops = r.isSome :: loops' := follows
    exact guards_closeGroup sound fewer rfl
  | alternative =>
    obtain rfl : loops' = loops := follows
    exact guards_addAlternative sound fewer

theorem guards_start {stateLimit : Option Nat}
    (room : Draft.Room E (Draft.empty.withStateLimit stateLimit) (n + 2) k) :
    Guards E (fun a => a.Sound [] ∧ Draft.Room E a.draft n k) (start stateLimit) := by
  unfold start
  have sound : (Draft.empty.withStateLimit stateLimit).Sound [] := by
    constructor <;>
    · intro i s found
      simp [Draft.withStateLimit, Draft.empty] at found
  refine (room.push (.fanout #[])).bind ?_
  rintro ⟨first, d₁⟩ ⟨adds₁, room₁⟩
  have sound₁ := sound.adds adds₁ rfl (.inl rfl) fun _ mem => mem
  refine (room₁.push (.fanout #[])).bind ?_
  rintro ⟨last, d₂⟩ ⟨adds₂, room₂⟩
  have sound₂ := sound₁.adds adds₂ rfl (.inl rfl) fun _ mem => mem
  have first_takes := adds₂.serves.takesArrows (takesArrows_of_adds adds₁ rfl)
  refine ⟨⟨sound₂, List.forall_mem_singleton.2 ?_, rfl⟩, room₂⟩
  exact ⟨first_takes, takesArrows_of_adds adds₂ rfl, first_takes, by simp⟩

theorem guards_finish (sound : a.Sound []) (room : Draft.Room E a.draft 1 k) (names : GroupNames) :
    Guards E (fun _ => True) (a.finish names) := by
  obtain ⟨draft, frame, outer⟩ := a
  obtain ⟨sound, stands, loops⟩ := sound
  obtain ⟨flag, loops⟩ := List.cons.inj loops
  obtain rfl : outer = [] := List.map_eq_nil_iff.1 loops
  have here : frame.Stands draft := stands _ List.mem_cons_self
  have closed : [frame].filterMap (·.trap) = [] := by
    simpa using flag
  have sound : draft.Sound [] := closed ▸ sound
  unfold finish
  refine (room.push .terminal).bind ?_
  rintro ⟨terminal, d₁⟩ ⟨adds, _⟩
  have adds : draft.Adds terminal .terminal d₁ := adds
  have sound₁ := sound.adds adds rfl (.inl rfl) fun _ mem => mem
  have last := adds.serves.takesArrows here.last
  obtain ⟨d₂, added, sound₂, edits₂⟩ :=
    sound₁.addArrow (adds.serves.takesArrows here.tail) last.lt_size .empty
  refine Guards.bind_trust added ?_
  have inside : terminal.val < d₂.size := by
    have := adds.index
    have := adds.size
    have := edits₂.size
    omega
  obtain ⟨d₃, added', sound₃, edits₃⟩ :=
    sound₂.addArrow (edits₂.serves.takesArrows last) inside .empty
  refine Guards.bind_trust added' ?_
  -- Both arrows leave from states that were there before the terminal.
  have ends : d₃.states[terminal.val]? = some .terminal := by
    have index := adds.index
    have tail_before := here.tail.lt_size
    have last_before := here.last.lt_size
    have size := adds.size
    rw [(Draft.connects_of_addArrow added').kept.states _ inside (by omega),
      (Draft.connects_of_addArrow added).kept.states _ (by omega) (by omega), adds.state]
  have begins := edits₃.serves.takesArrows (edits₂.serves.takesArrows
    (adds.serves.takesArrows here.first))
  obtain ⟨g, finished⟩ := sound₃.finish begins.lt_size ends names
  exact Guards.of_trust finished trivial

end Assembly

end PatternGraph
