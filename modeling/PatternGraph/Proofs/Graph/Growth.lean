import PatternGraph.Proofs.Graph.Assembling

/-!
How a graph grows while pieces are added to it: new states come after those that there are, and new
arrows after those that a state has. What a piece does to an assembly is told by the states and the
arrows that it adds, so that nothing else has to be known of the operations on drafts.
-/
namespace PatternGraph

/-- What a state is from when it is added, whatever arrows it gets. -/
inductive Role
  | fanout
  | tagOpen (tag : Option TagId)
  | tagClose (tag : Option TagId)
  | trap
  | terminal
  deriving DecidableEq, Repr

namespace DraftState

def role : DraftState → Role
  | .fanout _ => .fanout
  | .tagOpen tag _ => .tagOpen tag
  | .tagClose tag _ => .tagClose tag
  | .trap .. => .trap
  | .terminal => .terminal

def arrows : DraftState → List Arrow
  | .fanout as | .tagOpen _ as | .tagClose _ as => as.toList
  | .trap _ _ body leave => body.toList ++ leave.toList
  | .terminal => []

theorem added_of_addArrow? {s s' : DraftState} {a : Arrow} (added : s.addArrow? a = some s') :
    s'.role = s.role ∧ s'.arrows = s.arrows ++ [a] := by
  cases s with
  | fanout as | tagOpen tag as | tagClose tag as =>
    cases added
    exact ⟨rfl, Array.toList_push⟩
  | trap | terminal => cases added

end DraftState

/-- A label refers to one of the classes, and to one of the groups. -/
def Label.Within (classes tags : Nat) : Label → Prop
  | .charClass id => id.val < classes
  | .backref tag => tag.val < tags
  | .empty | .char _ | .literal _ | .any => True

@[simp]
theorem Label.within_empty (classes tags : Nat) : Label.empty.Within classes tags := trivial

def Atom.Within (tags : Nat) : Atom → Prop
  | .backref tag => tag.val < tags
  | .literal .. | .charClass _ | .any => True

theorem Label.Within.mono {l : Label} {classes classes' tags tags' : Nat}
    (h : l.Within classes tags) (le : classes ≤ classes') (le' : tags ≤ tags') :
    l.Within classes' tags' := by
  cases l with
  | charClass => exact Nat.lt_of_lt_of_le h le
  | backref => exact Nat.lt_of_lt_of_le h le'
  | empty | char | literal | any => trivial

namespace Draft
variable {d d' d₁ : Draft} {id : StateId} {s : DraftState} {new new' : List Role}
  {arcs arcs' : List (StateId × Arrow)}

def roles (d : Draft) : List Role := d.states.toList.map DraftState.role

theorem length_roles (d : Draft) : d.roles.length = d.size := by
  simp [roles, size]

theorem roles_getElem? (d : Draft) (i : Nat) : d.roles[i]? = d.states[i]?.map DraftState.role := by
  simp [roles]

def arrowsAt (d : Draft) (i : StateId) : List Arrow :=
  (d.states[i.val]?.map DraftState.arrows).getD []

theorem arrowsAt_eq (found : d.states[id.val]? = some s) : d.arrowsAt id = s.arrows := by
  simp [arrowsAt, found]

theorem arrowsAt_outside (outside : d.size ≤ id.val) : d.arrowsAt id = [] := by
  have absent : d.states[id.val]? = none := Array.getElem?_eq_none outside
  simp [arrowsAt, absent]

/-- The new states come last, and each new arrow comes last at its state. -/
structure Grows (d : Draft) (new : List Role) (arcs : List (StateId × Arrow)) (d' : Draft) :
    Prop where
  roles : d'.roles = d.roles ++ new
  arrows : ∀ i, d'.arrowsAt i = d.arrowsAt i ++ (arcs.filter (·.1 = i)).map (·.2)
  classes : d.classes.size ≤ d'.classes.size
  /-- Every state has an index. -/
  room : d.size ≤ Index.limit → d'.size ≤ Index.limit

namespace Grows

theorem size (h : d.Grows new arcs d') : d'.size = d.size + new.length := by
  rw [← length_roles, h.roles, List.length_append, length_roles]

theorem trans (h : d.Grows new arcs d₁) (h' : d₁.Grows new' arcs' d') :
    d.Grows (new ++ new') (arcs ++ arcs') d' where
  roles := by rw [h'.roles, h.roles, List.append_assoc]
  arrows i := by
    rw [h'.arrows, h.arrows, List.filter_append, List.map_append, List.append_assoc]
  classes := Nat.le_trans h.classes h'.classes
  room := h'.room ∘ h.room

end Grows

theorem room_of_push (h : d.push s = .ok (id, d')) : d.size + 1 ≤ Index.limit := by
  unfold push nextId at h
  split at h
  · cases h
  · rename_i found
    split at found
    · cases found
    · rename_i index
      have small := (Index.ofNat?_eq_ok_iff.1 index).1
      exact Nat.succ_le_succ small

theorem grows_of_push (h : d.push s = .ok (id, d')) (bare : s.arrows = []) :
    d.Grows [s.role] [] d' ∧ id.val = d.size := by
  obtain ⟨adds, _⟩ := adds_of_push h
  have index := adds.index
  have room : d'.size ≤ Index.limit := by
    rw [adds.size]
    exact room_of_push h
  unfold push at h
  split at h
  · cases h
  · cases h
    refine ⟨⟨by simp [roles], fun i => ?_, Nat.le_refl _, fun _ => room⟩, index⟩
    simp only [arrowsAt, Array.getElem?_push, List.filter_nil, List.map_nil, List.append_nil]
    split
    · rename_i last
      simp [last, bare]
    · rfl

theorem grows_of_addTrap (h : d.addTrap = .ok (id, d')) :
    d.Grows [.trap] [] d' ∧ id.val = d.size := by
  unfold addTrap at h
  split at h
  · cases h
  · split at h
    · cases h
    · rename_i pushed
      cases h
      obtain ⟨grows, index⟩ := grows_of_push pushed rfl
      exact ⟨⟨grows.roles, grows.arrows, grows.classes, grows.room⟩, index⟩

theorem grows_of_update {change : DraftState → Option DraftState} {refusal : DraftState → Misuse}
    (added : List Arrow) (h : d.update id change refusal = .ok d')
    (changes : ∀ s s', d.states[id.val]? = some s → change s = some s' →
      s'.role = s.role ∧ s'.arrows = s.arrows ++ added) :
    d.Grows [] (added.map (id, ·)) d' := by
  obtain ⟨s, s', found, changed, puts⟩ := puts_of_update h
  obtain ⟨role, arrows⟩ := changes s s' found changed
  refine ⟨List.ext_getElem? fun j => ?_, fun i => ?_, Nat.le_of_eq (congrArg _ puts.classes.symm),
    fun room => by rwa [puts.size]⟩
  · rw [List.append_nil, roles_getElem?, roles_getElem?, puts.states]
    split
    · rename_i same
      rw [same, found, Option.map_some, Option.map_some, role]
    · rfl
  · simp only [arrowsAt, puts.states]
    split
    · rename_i same
      obtain rfl := Index.eq_of_val same
      have all : (added.map (i, ·)).filter (·.1 = i) = added.map (i, ·) :=
        List.filter_eq_self.2 (by simp)
      simp [found, arrows, all, Function.comp_def]
    · rename_i other
      have other : id ≠ i := fun same => other (congrArg Index.val same.symm)
      simp [List.filter_map, other]

theorem grows_of_addArrow {source target : StateId} {label : Label}
    (h : d.addArrow source label target = .ok d') :
    d.Grows [] [(source, ⟨label, target⟩)] d' :=
  grows_of_update [⟨label, target⟩] h fun _ _ _ => DraftState.added_of_addArrow?

theorem grows_of_setTrapBody {target : StateId} {label : Label} {trap : TrapId}
    (h : d.setTrapBody id label target = .ok d')
    (bare : d.states[id.val]? = some (.trap trap none none none)) :
    d.Grows [] [(id, ⟨label, target⟩)] d' := by
  refine grows_of_update [⟨label, target⟩] h fun s s' found changed => ?_
  rw [bare, Option.some.injEq] at found
  subst found
  cases changed
  exact ⟨rfl, rfl⟩

/-- The trap of a loop that is still open: it leads into the loop, but not yet out of it. -/
def Hangs (d : Draft) (t : StateId) : Prop :=
  ∃ k body, d.states[t.val]? = some (.trap k none (some body) none)

theorem Hangs.role {t : StateId} (h : d.Hangs t) : d.roles[t.val]? = some .trap := by
  obtain ⟨k, body, found⟩ := h
  rw [roles_getElem?, found]
  rfl

theorem Hangs.arrowsAt_ne_nil {t : StateId} (h : d.Hangs t) : d.arrowsAt t ≠ [] := by
  obtain ⟨k, body, found⟩ := h
  simp [arrowsAt_eq found, DraftState.arrows]

theorem grows_of_complete {target : StateId} {r : Repetition} (hangs : d.Hangs id)
    (left : d.setTrapLeave id target = .ok d₁) (repeats : d₁.setTrapRepetition id r = .ok d') :
    d.Grows [] [(id, .empty target)] d' := by
  obtain ⟨k, body, found⟩ := hangs
  have puts := puts_of_setTrapLeave left found
  have leaves : d.Grows [] [(id, .empty target)] d₁ := by
    refine grows_of_update [.empty target] left fun s s' same changed => ?_
    rw [found, Option.some.injEq] at same
    subst same
    cases changed
    exact ⟨rfl, rfl⟩
  have repeated : d₁.Grows [] [] d' := by
    refine grows_of_update [] repeats fun s s' same changed => ?_
    rw [puts.states, if_pos rfl, Option.some.injEq] at same
    subst same
    cases changed
    exact ⟨rfl, by simp [DraftState.arrows]⟩
  exact leaves.trans repeated

theorem Hangs.adds {t : StateId} (h : d.Hangs t) (adds : d.Adds id s d') : d'.Hangs t := by
  obtain ⟨k, body, found⟩ := h
  exact ⟨k, body, by rw [adds.kept.states _ (Array.getElem?_eq_some_iff.1 found).1 not_false, found]⟩

theorem trap_of_addArrow {source target : StateId} {label : Label} {t : StateId} {k : TrapId}
    {r : Option Repetition} {body leave : Option Arrow}
    (h : d.addArrow source label target = .ok d')
    (found : d.states[t.val]? = some (.trap k r body leave)) :
    d'.states[t.val]? = some (.trap k r body leave) := by
  obtain ⟨s, s', found', added, puts⟩ := puts_of_addArrow h
  rw [puts.states]
  split
  · rename_i same
    rw [same, found', Option.some.injEq] at found
    subst found
    cases added
  · exact found

theorem Hangs.addArrow {t source target : StateId} {label : Label} (h : d.Hangs t)
    (added : d.addArrow source label target = .ok d') : d'.Hangs t := by
  obtain ⟨k, body, found⟩ := h
  exact ⟨k, body, trap_of_addArrow added found⟩

theorem Hangs.puts {t : StateId} {i : Nat} (h : d.Hangs t) (puts : d.Puts i s d')
    (other : t.val ≠ i) : d'.Hangs t := by
  obtain ⟨k, body, found⟩ := h
  exact ⟨k, body, by rw [puts.states, if_neg other, found]⟩

theorem Hangs.lt_size {t : StateId} (h : d.Hangs t) : t.val < d.size := by
  obtain ⟨k, body, found⟩ := h
  exact (Array.getElem?_eq_some_iff.1 found).1

end Draft

namespace Assembly
variable {a a' : Assembly}

/-- What a piece adds. The states that it adds lie on a way from the tail to the new tail, except that
the end of a group is reached only when the group is closed. -/
inductive Step (a : Assembly) : Piece → Assembly → Prop
  | atom {atom label next d} : next.val = a.draft.size →
      (∀ tags, atom.Within tags → label.Within d.classes.size tags) →
      a.draft.Grows [.fanout] [(a.frame.tail, ⟨label, next⟩)] d →
      Step a (.atom atom none) (a.withTail d next)
  | loop {atom r label trap after d} : trap.val = a.draft.size → after.val = a.draft.size + 1 →
      (∀ tags, atom.Within tags → label.Within d.classes.size tags) →
      a.draft.Grows [.trap, .fanout]
        [(a.frame.tail, .empty trap), (trap, ⟨label, trap⟩), (trap, .empty after)] d →
      Step a (.atom atom (some r)) (a.withTail d after)
  | group {tag first last d} : first.val = a.draft.size → last.val = a.draft.size + 1 →
      a.draft.Grows [.tagOpen tag, .tagClose tag] [(a.frame.tail, .empty first)] d →
      Step a (.openGroup tag false) ⟨d, ⟨first, last, first, none⟩, a.frame :: a.outer⟩
  | loopedGroup {tag first last trap d} : first.val = a.draft.size →
      last.val = a.draft.size + 1 → trap.val = a.draft.size + 2 →
      a.draft.Grows [.tagOpen tag, .tagClose tag, .trap]
        [(a.frame.tail, .empty trap), (trap, .empty first)] d →
      Step a (.openGroup tag true) ⟨d, ⟨first, last, first, some trap⟩, a.frame :: a.outer⟩
  | close {around outer d} : a.outer = around :: outer →
      a.draft.Grows [] [(a.frame.tail, .empty a.frame.last)] d →
      Step a (.closeGroup none) ⟨d, { around with tail := a.frame.last }, outer⟩
  | closeLoop {around outer trap after r d} : a.outer = around :: outer →
      a.draft.Hangs trap → after.val = a.draft.size →
      a.draft.Grows [.fanout]
        [(a.frame.tail, .empty a.frame.last), (a.frame.last, .empty trap), (trap, .empty after)] d →
      Step a (.closeGroup (some r)) ⟨d, { around with tail := after }, outer⟩
  | alternative {d} : a.draft.Grows [] [(a.frame.tail, .empty a.frame.last)] d →
      Step a .alternative (a.withTail d a.frame.first)

def traps (a : Assembly) : List StateId := a.frames.filterMap (·.trap)

structure Hangs (a : Assembly) : Prop where
  traps : ∀ t ∈ a.traps, a.draft.Hangs t
  apart : a.traps.Nodup

theorem within_of_label {d d' : Draft} {atom : Atom} {l : Label} (h : label d atom = .ok (l, d')) :
    d.Grows [] [] d' ∧ ∀ tags, atom.Within tags → l.Within d'.classes.size tags := by
  have same : d.Grows [] [] d := ⟨by simp, by simp, Nat.le_refl _, id⟩
  cases atom with
  | literal c cs => cases cs <;> cases h <;> exact ⟨same, fun _ _ => trivial⟩
  | charClass set =>
    simp only [label, Except.bind_eq_ok, refuse_eq_ok, Prod.exists] at h
    obtain ⟨id, d₁, added, ⟨⟩⟩ := h
    unfold Draft.addClass at added
    split at added
    · cases added
    · rename_i index
      obtain ⟨_, rfl⟩ := Index.ofNat?_eq_ok_iff.1 index
      cases added
      exact ⟨⟨same.roles, same.arrows, by simp, same.room⟩, fun _ _ => by simp [Label.Within]⟩
  | any =>
    cases h
    exact ⟨same, fun _ _ => trivial⟩
  | backref tag =>
    cases h
    exact ⟨same, fun _ within => within⟩

theorem Hangs.label {d : Draft} {atom : Atom} {l : Label} (hangs : a.Hangs)
    (h : label a.draft atom = .ok (l, d)) : ∀ t ∈ a.traps, d.Hangs t := by
  intro t mem
  obtain ⟨k, body, found⟩ := hangs.traps t mem
  exact ⟨k, body, by rw [(labels_of_label h).states, found]⟩

theorem step_addAtom {atom : Atom} (hangs : a.Hangs) (added : a.addAtom atom = .ok a') :
    a.Step (.atom atom none) a' ∧ a'.Hangs := by
  simp only [addAtom, Except.bind_eq_ok, refuse_eq_ok, trust_eq_ok, Prod.exists] at added
  obtain ⟨label, d₁, labelled, next, d₂, pushed, d₃, arrow, ⟨⟩⟩ := added
  obtain ⟨labels, within⟩ := within_of_label labelled
  obtain ⟨grows, index⟩ := Draft.grows_of_push pushed rfl
  have linked := Draft.grows_of_addArrow arrow
  refine ⟨.atom (index.trans labels.size) (fun tags refers => ?_) ((labels.trans grows).trans linked),
    fun t mem => ?_, hangs.apart⟩
  · exact (within tags refers).mono (grows.trans linked).classes (Nat.le_refl _)
  · exact ((hangs.label labelled t mem).adds (Draft.adds_of_push pushed).1).addArrow arrow

theorem step_addLoop {atom : Atom} {r : Repetition} (hangs : a.Hangs)
    (added : a.addLoop atom r = .ok a') : a.Step (.atom atom (some r)) a' ∧ a'.Hangs := by
  simp only [addLoop, Except.bind_eq_ok, refuse_eq_ok, trust_eq_ok, Prod.exists] at added
  obtain ⟨label, d₁, labelled, trap, d₂, trapped, after, d₃, pushed, d₄, entered, d₅, around, d₆,
    left, d₇, repeats, ⟨⟩⟩ := added
  obtain ⟨labels, within⟩ := within_of_label labelled
  obtain ⟨grows, index⟩ := Draft.grows_of_addTrap trapped
  obtain ⟨grows', index'⟩ := Draft.grows_of_push pushed rfl
  have adds := (Draft.adds_of_addTrap trapped).1
  have adds' := (Draft.adds_of_push pushed).1
  have linked := Draft.grows_of_addArrow entered
  -- The new trap is bare when it gets its body, and hangs when it is completed.
  have bare := Draft.trap_of_addArrow entered
    ((adds'.kept.states trap.val (Array.getElem?_eq_some_iff.1 adds.state).1 not_false).trans
      adds.state)
  have puts := Draft.puts_of_setTrapBody around bare
  have hung : d₅.Hangs trap := ⟨_, _, by rw [puts.states, if_pos rfl]⟩
  obtain ⟨k, body, found⟩ := id hung
  have completes := Draft.puts_of_complete left repeats found
  have looped := (Draft.grows_of_setTrapBody around bare).trans
    (Draft.grows_of_complete hung left repeats)
  have whole := (((labels.trans grows).trans grows').trans linked).trans looped
  have size := labels.size
  have size' := grows.size
  refine ⟨.loop (index.trans size) (by rw [index', size', size]; rfl) (fun tags refers => ?_) whole,
    fun t mem => ?_, hangs.apart⟩
  · exact (within tags refers).mono (((grows.trans grows').trans linked).trans looped).classes
      (Nat.le_refl _)
  · have kept := hangs.label labelled t mem
    have other : t.val ≠ trap.val := by
      have := kept.lt_size
      omega
    exact (((((kept.adds adds).adds adds').addArrow entered).puts puts other).puts completes other)

theorem step_openGroup {tag : Option TagId} {looped : Bool} (hangs : a.Hangs)
    (opened : a.openGroup tag looped = .ok a') : a.Step (.openGroup tag looped) a' ∧ a'.Hangs := by
  simp only [openGroup, Except.bind_eq_ok, refuse_eq_ok, Prod.exists] at opened
  obtain ⟨first, d₁, opening, last, d₂, closing, opened⟩ := opened
  obtain ⟨grows, index⟩ := Draft.grows_of_push opening rfl
  obtain ⟨grows', index'⟩ := Draft.grows_of_push closing rfl
  have adds := (Draft.adds_of_push opening).1
  have adds' := (Draft.adds_of_push closing).1
  have size := grows.size
  have size' := grows'.size
  have index' : last.val = a.draft.size + 1 := by rw [index', size]; rfl
  cases looped with
  | true =>
    simp only [↓reduceIte, Except.bind_eq_ok, refuse_eq_ok, trust_eq_ok, Prod.exists] at opened
    obtain ⟨trap, d₃, trapped, d₄, entered, d₅, begun, ⟨⟩⟩ := opened
    obtain ⟨grows'', index''⟩ := Draft.grows_of_addTrap trapped
    have adds'' := (Draft.adds_of_addTrap trapped).1
    have bare := Draft.trap_of_addArrow entered adds''.state
    have puts := Draft.puts_of_setTrapBody begun bare
    have index'' : trap.val = a.draft.size + 2 := by rw [index'', size', size]; rfl
    refine ⟨.loopedGroup index index' index'' ?_, fun t mem => ?_, ?_⟩
    · exact (((grows.trans grows').trans grows'').trans (Draft.grows_of_addArrow entered)).trans
        (Draft.grows_of_setTrapBody begun bare)
    · rcases List.mem_cons.1 mem with rfl | old
      · exact ⟨_, _, by rw [puts.states, if_pos rfl]⟩
      · have kept := hangs.traps t old
        have inside := kept.lt_size
        exact ((((kept.adds adds).adds adds').adds adds'').addArrow entered).puts puts (by omega)
    · refine List.nodup_cons.2 ⟨fun old => ?_, hangs.apart⟩
      have inside := (hangs.traps trap old).lt_size
      omega
  | false =>
    simp only [Bool.false_eq_true, ↓reduceIte, Except.bind_eq_ok, trust_eq_ok] at opened
    obtain ⟨d₃, entered, ⟨⟩⟩ := opened
    refine ⟨.group index index' ?_, fun t mem => ?_, hangs.apart⟩
    · exact (grows.trans grows').trans (Draft.grows_of_addArrow entered)
    · exact (((hangs.traps t mem).adds adds).adds adds').addArrow entered

theorem step_closeGroup {r : Option Repetition} (hangs : a.Hangs)
    (closed : a.closeGroup r = .ok a') : a.Step (.closeGroup r) a' ∧ a'.Hangs := by
  obtain ⟨draft, ⟨first, last, tail, trap⟩, outer⟩ := a
  cases outer with
  | nil => cases closed
  | cons around outer =>
    simp only [closeGroup, Except.bind_eq_ok, trust_eq_ok] at closed
    obtain ⟨d₁, ended, closed⟩ := closed
    have grows : draft.Grows [] [(tail, .empty last)] d₁ := Draft.grows_of_addArrow ended
    cases trap with
    | none =>
      cases r with
      | some r => cases closed
      | none =>
        cases closed
        exact ⟨.close rfl grows, fun t mem => (hangs.traps t mem).addArrow ended, hangs.apart⟩
    | some trap =>
      cases r with
      | none => cases closed
      | some r =>
        simp only [Except.bind_eq_ok, refuse_eq_ok, trust_eq_ok, Prod.exists] at closed
        obtain ⟨after, d₂, pushed, d₃, again, d₄, left, d₅, repeats, ⟨⟩⟩ := closed
        obtain ⟨grows', index⟩ := Draft.grows_of_push pushed rfl
        have adds := (Draft.adds_of_push pushed).1
        obtain ⟨fresh, apart⟩ := List.nodup_cons.1 hangs.apart
        have hung : draft.Hangs trap := hangs.traps trap List.mem_cons_self
        have hung' := ((hung.addArrow ended).adds adds).addArrow again
        obtain ⟨k, body, found⟩ := id hung'
        have puts := Draft.puts_of_complete left repeats found
        refine ⟨.closeLoop rfl hung (index.trans grows.size) ?_, fun t mem => ?_, apart⟩
        · exact ((grows.trans grows').trans (Draft.grows_of_addArrow again)).trans
            (Draft.grows_of_complete hung' left repeats)
        · have kept := (((hangs.traps t (List.mem_cons_of_mem _ mem)).addArrow ended).adds
            adds).addArrow again
          exact kept.puts puts fun same => fresh (Index.eq_of_val same ▸ mem)

theorem step_addAlternative (hangs : a.Hangs) (added : a.addAlternative = .ok a') :
    a.Step .alternative a' ∧ a'.Hangs := by
  simp only [addAlternative, Except.bind_eq_ok, trust_eq_ok] at added
  obtain ⟨d₁, arrow, ⟨⟩⟩ := added
  exact ⟨.alternative (Draft.grows_of_addArrow arrow),
    fun t mem => (hangs.traps t mem).addArrow arrow, hangs.apart⟩

theorem step_of_add {p : Piece} (hangs : a.Hangs) (added : a.add p = .ok a') :
    a.Step p a' ∧ a'.Hangs := by
  cases p with
  | atom atom r =>
    cases r with
    | none => exact step_addAtom hangs added
    | some r => exact step_addLoop hangs added
  | openGroup tag looped => exact step_openGroup hangs added
  | closeGroup r => exact step_closeGroup hangs added
  | alternative => exact step_addAlternative hangs added

theorem hangs_of_begins (begins : a.Begins) (bare : a.frame.trap = none) : a.Hangs := by
  have none : a.traps = [] := by simp [traps, frames, begins.outer, bare]
  constructor <;> simp [none]

end Assembly

end PatternGraph
