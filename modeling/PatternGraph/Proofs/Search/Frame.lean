import PatternGraph.Proofs.Search.UndoLog

/-!
What lies deep on the trail. A search does not look at it until it has nothing newer left to go back to,
and by then it has taken back all that it has changed since.
-/
namespace PatternGraph
open Cursor

variable {S T P : Type}

def Machine.onto (m : Machine S P) (floor : List (TrailEntry P)) : Machine S P :=
  ⟨m.control, m.cursor, ⟨m.cache.trail ++ floor, m.cache.trackers, m.cache.slots⟩⟩

def Step.onto (floor : List (TrailEntry P)) : Step S P → Step S P
  | .move event m => .move event (m.onto floor)
  | .accept m => .accept (m.onto floor)
  | .exhaust m => .exhaust (m.onto floor)
  | .fault f => .fault f

namespace Machine
variable [Cursor S T P] {floor : List (TrailEntry P)}

theorem bind_onto (m : Machine S P) (tag : Option TagId)
    (change : Tracker P → P → Tracker.Undo P × Tracker P) :
    (m.onto floor).bind tag change = (m.bind tag change).map (·.onto floor) := by
  cases tag with
  | none => rfl
  | some tag =>
    simp only [bind, onto]
    cases m.cache.trackers[tag.val]? with
    | none => rfl
    | some t => rfl

variable [Token T] [DecidableEq T] [DecidableEq P] {g : Graph}

theorem take_onto (m : Machine S P) (event : Option (Event P)) (a : Arrow) :
    take g event (m.onto floor) a = (take g event m a).onto floor := by
  have same : follow g (m.onto floor).cache.trackers (m.onto floor).cursor a.label =
      follow g m.cache.trackers m.cursor a.label := rfl
  rw [take, take, same]
  cases follow g m.cache.trackers m.cursor a.label with
  | error f => rfl
  | ok back =>
    obtain ⟨found, c⟩ := back
    cases found with
    | false => rfl
    | true => rfl

theorem fanOut_onto (m : Machine S P) (id : StateId) (arrows : Array Arrow) :
    fanOut g (m.onto floor) id arrows = (fanOut g m id arrows).onto floor := by
  unfold fanOut
  cases arrows[0]? with
  | none => rfl
  | some a =>
    dsimp only
    split
    · exact take_onto (m.push _) none a
    · exact take_onto m none a

theorem enterTrap_onto (m : Machine S P) (id : StateId) (trap : TrapId) (r : Repetition)
    (body leave : Arrow) :
    enterTrap g (m.onto floor) id trap r body leave = (enterTrap g m id trap r body leave).onto floor := by
  have same : (m.onto floor).cache.slots[trap.val]? = m.cache.slots[trap.val]? := rfl
  unfold enterTrap
  rw [same]
  cases m.cache.slots[trap.val]? with
  | none => rfl
  | some old =>
    have here : (m.onto floor).cursor = m.cursor := rfl
    dsimp only
    rw [here]
    split
    · exact take_onto (m.setSlot trap old _) _ leave
    · split
      · split
        · exact take_onto ((m.setSlot trap old _).push _) none body
        · exact take_onto (m.setSlot trap old _) none body
      · split
        · exact take_onto (m.setSlot trap old _) none leave
        · rfl

theorem visit_onto (m : Machine S P) (matchToEnd : Bool) (id : StateId) :
    visit g matchToEnd (m.onto floor) id = (visit g matchToEnd m id).onto floor := by
  unfold visit
  cases g.state? id with
  | none => rfl
  | some state =>
    cases state with
    | relay a => exact take_onto m none a
    | fanout arrows => exact fanOut_onto m id arrows
    | tagOpen tag arrows =>
      dsimp only
      rw [bind_onto]
      cases m.bind tag Tracker.bindStart with
      | error f => rfl
      | ok m => exact fanOut_onto m id arrows
    | tagClose tag arrows =>
      dsimp only
      rw [bind_onto]
      cases m.bind tag Tracker.bindStop with
      | error f => rfl
      | ok m => exact fanOut_onto m id arrows
    | trap trap r body leave => exact enterTrap_onto m id trap r body leave
    | terminal =>
      have here : (m.onto floor).cursor = m.cursor := rfl
      dsimp only
      rw [here]
      split
      · rfl
      · rfl

theorem resumeArrow_onto (m : Machine S P) (id : StateId) (index : Nat) (here : P) :
    resumeArrow g (m.onto floor) id index here = (resumeArrow g m id index here).onto floor := by
  unfold resumeArrow
  cases g.state? id with
  | none => rfl
  | some state =>
    dsimp only
    cases state.arrows[index]? with
    | none => rfl
    | some a =>
      dsimp only
      split
      · exact take_onto (push ⟨m.control, moveTo m.cursor here, m.cache⟩ _) _ a
      · exact take_onto ⟨m.control, moveTo m.cursor here, m.cache⟩ _ a

theorem resumeLeave_onto (m : Machine S P) (id : StateId) (here : P) :
    resumeLeave g (m.onto floor) id here = (resumeLeave g m id here).onto floor := by
  unfold resumeLeave
  cases g.state? id with
  | none => rfl
  | some state =>
    cases state with
    | trap trap r body leave =>
      have same : (m.onto floor).cache.slots[trap.val]? = m.cache.slots[trap.val]? := rfl
      dsimp only
      rw [same]
      cases m.cache.slots[trap.val]? with
      | none => rfl
      | some slot =>
        exact take_onto (setSlot ⟨m.control, moveTo m.cursor here, m.cache⟩ trap slot _) _ leave
    | _ => rfl

/-- A step looks at no more of the trail than its newest entry. -/
theorem step_onto (m : Machine S P) (matchToEnd : Bool)
    (above : m.control = .resume → m.cache.trail ≠ []) :
    step g matchToEnd (m.onto floor) = (step g matchToEnd m).onto floor := by
  obtain ⟨control, cursor, ⟨trail, trackers, slots⟩⟩ := m
  cases control with
  | visit id => exact visit_onto _ matchToEnd id
  | resume =>
    cases trail with
    | nil => exact absurd rfl (above rfl)
    | cons entry trail =>
      cases entry with
      | arrow id index here =>
        exact resumeArrow_onto ⟨.resume, cursor, ⟨trail, trackers, slots⟩⟩ id index here
      | leave id here =>
        exact resumeLeave_onto ⟨.resume, cursor, ⟨trail, trackers, slots⟩⟩ id here
      | tag tag undo => rfl
      | trap trap slot => rfl

end Machine

variable [Cursor S T P] [Token T] [DecidableEq T] [DecidableEq P] {g : Graph} {matchToEnd : Bool}
  {c₀ : S}

theorem Mirrors.next {initial : Tables P} {m m' : Machine S P} {k : CopyMachine S P}
    {event : Option (Event P)} (restores : Restores c₀) (h : Mirrors c₀ initial m k)
    (moved : m.step g matchToEnd = .move event m') : ∃ k', Mirrors c₀ initial m' k' := by
  rcases h.step (g := g) restores matchToEnd with ⟨m₁, moved₁, _, later, _⟩ | ⟨_, both⟩
  · rw [moved₁] at moved
    cases moved
    exact ⟨k, later⟩
  · rw [moved] at both
    cases stepped : k.step g matchToEnd <;> simp only [stepped, MirrorsStep] at both
    exact ⟨_, both⟩

namespace Machine
variable {floor : List (TrailEntry P)}

omit [Cursor S T P] [Token T] [DecidableEq T] [DecidableEq P] in
/-- The next entry that the machine looks at is not one of those below. -/
def Above (m : Machine S P) (floor : List (TrailEntry P)) : Prop :=
  m.control = .resume → floor.length < m.cache.trail.length

/-- After everything newer has failed, the search goes back to what it left below, for the first time. -/
inductive ComesBack (g : Graph) (matchToEnd : Bool) (floor : List (TrailEntry P)) :
    Machine S P → Machine S P → Prop
  | here {m} : m.control = .resume → m.cache.trail = floor → ComesBack g matchToEnd floor m m
  | move {m event m' z} : m.Above floor → step g matchToEnd m = .move event m' →
      ComesBack g matchToEnd floor m' z → ComesBack g matchToEnd floor m z

/-- By the time the search goes back below, it holds what it held when it last was there. -/
theorem ComesBack.restored {m z : Machine S P} (back : ComesBack g matchToEnd floor m z)
    (restores : Restores c₀) {n : Machine S P} {k : CopyMachine S P} {initial : Tables P}
    (stands : m = n.onto floor) (mirrors : Mirrors c₀ initial n k) :
    z.control = .resume ∧ z.cache = ⟨floor, initial.1, initial.2⟩ ∧ Ahead c₀ z.cursor := by
  induction back generalizing n k with
  | @here m resumes bottom =>
    subst stands
    have empty : n.cache.trail = [] :=
      List.append_cancel_right (bottom.trans (List.nil_append floor).symm)
    obtain ⟨control, cursor, ⟨trail, trackers, slots⟩⟩ := n
    obtain rfl : trail = [] := empty
    obtain rfl : (trackers, slots) = initial := mirrors.unwinds
    exact ⟨resumes, rfl, mirrors.ahead⟩
  | @move m event m' z above moved _ ih =>
    subst stands
    have busy : n.control = .resume → n.cache.trail ≠ [] := by
      intro resumes empty
      have := above resumes
      simp [onto, empty] at this
    rw [step_onto n matchToEnd busy] at moved
    cases stepped : step g matchToEnd n <;> simp only [stepped, Step.onto, reduceCtorEq] at moved
    cases moved
    obtain ⟨k', mirrors'⟩ := mirrors.next restores stepped
    exact ih rfl mirrors'

theorem cache_of_take {e m : Machine S P} {event event' : Option (Event P)} {a : Arrow}
    (moved : take g event e a = .move event' m) : m.cache = e.cache := by
  unfold take at moved
  split at moved
  · cases moved
  · cases moved
    rfl
  · cases moved
    rfl

theorem ahead_of_take {e m : Machine S P} {event event' : Option (Event P)} {a : Arrow}
    (restores : Restores c₀) (ahead : Ahead c₀ e.cursor)
    (moved : take g event e a = .move event' m) : Ahead c₀ m.cursor := by
  cases goes : along g e.cache.trackers e.cursor a.label with
  | error f =>
    rw [take_of_fault goes] at moved
    cases moved
  | ok found =>
    cases found with
    | none =>
      rw [take_of_stuck restores ahead goes] at moved
      cases moved
      exact ahead
    | some c =>
      rw [take_of_some goes] at moved
      cases moved
      exact ahead.trans (ahead_of_along goes)

/-- Whatever an arrow leads to, once it has failed the search holds what it held before the arrow. -/
theorem restored_of_take {e m z : Machine S P} {event event' : Option (Event P)} {a : Arrow}
    (restores : Restores c₀) (ahead : Ahead c₀ e.cursor) (moved : take g event e a = .move event' m)
    (back : ComesBack g matchToEnd e.cache.trail m z) :
    z.control = .resume ∧ z.cache = e.cache ∧ Ahead c₀ z.cursor := by
  have same := cache_of_take moved
  have further := ahead_of_take restores ahead moved
  have stands :
      m = onto ⟨m.control, m.cursor, ⟨[], e.cache.trackers, e.cache.slots⟩⟩ e.cache.trail := by
    rw [onto, List.nil_append, ← same]
  have mirrors : Mirrors c₀ (e.cache.trackers, e.cache.slots)
      ⟨m.control, m.cursor, ⟨[], e.cache.trackers, e.cache.slots⟩⟩
      ⟨m.control, ⟨m.cursor, e.cache.trackers, e.cache.slots⟩, []⟩ :=
    ⟨rfl, fun _ => rfl, rfl, rfl, further, by simp⟩
  exact back.restored restores stands mirrors

end Machine

end PatternGraph
