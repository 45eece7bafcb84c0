import Mathlib.Data.List.Forall2
import PatternGraph.Proofs.Search.Exploration
import PatternGraph.Proofs.Search.Frame

/-!
Loops whose body is a single token. The ways out of such a loop, in the order in which a search tries
them, are told by the counts that the loop accepts and by how many tokens fit.
-/
namespace PatternGraph
open Cursor Ordinal

namespace Repetition
variable {r : Repetition} {j k : Nat}

/-- The loop may be left after `k` rounds. Beyond the counts that a slot can hold, it may be if there is
no greatest count. -/
def Allows (r : Repetition) (k : Nat) : Prop :=
  if k < UInt32.size then r.accepts (.ofNat k) = true else r.greatest? = none

instance (r : Repetition) (k : Nat) : Decidable (r.Allows k) :=
  inferInstanceAs (Decidable (if k < UInt32.size then _ else _))

theorem greatest?_eq_none_iff : r.greatest? = none ↔ r.accepts unbounded = true := by
  constructor
  · intro endless
    rw [greatest?] at endless
    split at endless
    · cases endless
    · rename_i s last
      split at endless
      · rename_i top
        rw [accepts, ← top]
        exact SegmentSet.contains_high_of_last last
      · cases endless
  · intro accepted
    obtain ⟨s, last, le⟩ := SegmentSet.le_last_of_contains accepted
    have top : s.high = unbounded :=
      rank_injective (Nat.le_antisymm (rank_le_greatest s.high) le)
    rw [greatest?, last]
    exact if_pos top

theorem allows_iff : r.Allows k ↔ r.accepts (Bounds.slotCount k) = true := by
  have size : UInt32.size = 4294967296 := rfl
  rw [Allows]
  split
  · have small : Bounds.slotCount k = .ofNat k := by
      rw [Bounds.slotCount, Nat.min_eq_left (by omega)]
    rw [small]
  · have large : Bounds.slotCount k = unbounded := by
      rw [Bounds.slotCount, Nat.min_eq_right (by omega)]
      rfl
    rw [large, greatest?_eq_none_iff]

theorem mayRepeat_of_allows (more : k < j) (allowed : r.Allows j) :
    r.mayRepeat (Bounds.slotCount k) = true := by
  rw [allows_iff] at allowed
  obtain ⟨s, last, le⟩ := SegmentSet.le_last_of_contains allowed
  rw [mayRepeat, greatest?, last]
  by_cases top : s.high = unbounded
  · simp only [if_pos top]
  · have finite : rank s.high ≠ 4294967295 := fun same =>
      top (rank_injective (same.trans (by decide)))
    have := rank_le_greatest s.high
    have greatest : rank (Ordinal.greatest : UInt32) = 4294967295 := by decide
    rw [Bounds.rank_slotCount] at le
    have less : rank (Bounds.slotCount k) < rank s.high := by
      rw [Bounds.rank_slotCount]
      omega
    simp only [if_neg top]
    exact decide_eq_true less

end Repetition

def Label.fits? (g : Graph) : Label → Option (Char → Bool)
  | .char ch => some (· == ch)
  | .charClass id => (g.class? id).map CharSet.contains
  | .any => some fun _ => true
  | .empty | .literal _ | .backref _ => none

namespace Cursor
variable {S T P : Type} [Cursor S T P] [Token T] {fits : Char → Bool} {j k : Nat} {c c' c₁ : S}

def Walks (fits : Char → Bool) (k : Nat) (c c' : S) : Prop :=
  ∃ ts : List T, Passes c ts c' ∧ ts.length = k ∧ ∀ t ∈ ts, fits (Token.toChar t) = true

theorem walks_zero : Walks fits 0 c c' ↔ c' = c := by
  constructor
  · rintro ⟨ts, passes, none, _⟩
    obtain rfl := List.length_eq_zero_iff.1 none
    cases passes
    rfl
  · rintro rfl
    exact ⟨[], .stay _, rfl, by simp⟩

theorem walks_succ : Walks fits (k + 1) c c' ↔
    ∃ c₁, Walks fits k c c₁ ∧ nextIf (fun t : T => fits (Token.toChar t)) c₁ = some c' := by
  constructor
  · rintro ⟨ts, passes, length, all⟩
    obtain ⟨us, t, rfl⟩ : ∃ us t, ts = us ++ [t] := by
      rcases List.eq_nil_or_concat ts with rfl | ⟨us, t, split⟩
      · cases length
      · exact ⟨us, t, by rw [split, List.concat_eq_append]⟩
    obtain ⟨c₁, first, last⟩ := passes.split
    cases last with
    | step front rest =>
      cases rest
      refine ⟨c₁, ⟨us, first, by simpa using length, fun u mem => all u (by simp [mem])⟩, ?_⟩
      exact nextIf_eq_some_iff.2 ⟨t, front, all t (by simp), rfl⟩
  · rintro ⟨c₁, ⟨us, passes, rfl, all⟩, next⟩
    obtain ⟨t, front, fit, rfl⟩ := nextIf_eq_some_iff.1 next
    refine ⟨us ++ [t], passes.append (.step front (.stay _)), by simp, ?_⟩
    intro u mem
    rcases List.mem_append.1 mem with mem | mem
    · exact all u mem
    · rw [List.mem_singleton.1 mem]
      exact fit

theorem Walks.unique (first : Walks fits k c c') (second : Walks fits k c c₁) : c' = c₁ := by
  induction k generalizing c' c₁ with
  | zero => rw [walks_zero.1 first, walks_zero.1 second]
  | succ k ih =>
    obtain ⟨a, before, next⟩ := walks_succ.1 first
    obtain ⟨b, before', next'⟩ := walks_succ.1 second
    rw [ih before before', next', Option.some.injEq] at next
    exact next.symm

theorem Walks.ahead (walks : Walks fits k c c') : Ahead c c' := by
  obtain ⟨ts, passes, _⟩ := walks
  exact ⟨ts, passes⟩

theorem Walks.shorter (walks : Walks fits j c c') (le : k ≤ j) : ∃ c₁, Walks fits k c c₁ := by
  induction j generalizing c' with
  | zero =>
    obtain rfl := Nat.le_zero.1 le
    exact ⟨c', walks⟩
  | succ j ih =>
    by_cases same : k = j + 1
    · rw [same]
      exact ⟨c', walks⟩
    · obtain ⟨c₁, before, _⟩ := walks_succ.1 walks
      exact ih before (by omega)

theorem Walks.ends (walks : Walks fits k c c₁)
    (stuck : nextIf (fun t : T => fits (Token.toChar t)) c₁ = none) (more : k < j) :
    ¬ ∃ c', Walks fits j c c' := by
  rintro ⟨c', longer⟩
  obtain ⟨c₂, next⟩ := longer.shorter (Nat.succ_le_of_lt more)
  obtain ⟨a, before, next⟩ := walks_succ.1 next
  rw [before.unique walks, stuck] at next
  cases next

end Cursor

variable {S T P : Type} [Cursor S T P] [Token T] [DecidableEq T] [DecidableEq P]

namespace Machine
variable {g : Graph} {matchToEnd : Bool} {id : StateId} {c₀ : S} {home : Cache P}
  {trail : List (TrailEntry P)} {trackers : Array (Tracker P)} {slots : Array (Slot P)}
  {later : List (Machine S P)}

theorem follow_of_fits {label : Label} {fits : Char → Bool} (asks : label.fits? g = some fits)
    (trackers : Array (Tracker P)) (c : S) :
    follow g trackers c label = .ok (consumeIf (fun t : T => fits (Token.toChar t)) c) := by
  cases label with
  | char ch =>
    cases asks
    rfl
  | charClass id =>
    obtain ⟨set, found, rfl⟩ := Option.map_eq_some_iff.1 asks
    simp only [follow, found]
  | any =>
    cases asks
    rfl
  | empty | literal | backref => cases asks

/-- The machine is about to go along the leave arrow of the loop at `id`, and what it holds then: either
it has arrived there and does not go round again, or it goes back to leave the loop. -/
inductive Leaves (g : Graph) (matchToEnd : Bool) (id : StateId) : Machine S P → Machine S P → Prop
  | now {m trap r body leave old new event} : m.control = .visit id →
      g.state? id = some (.trap trap r body leave) → m.cache.slots[trap.val]? = some old →
      new.active = false → step g matchToEnd m = take g event (m.setSlot trap old new) leave →
      Leaves g matchToEnd id m (m.setSlot trap old new)
  | back {c trail trackers slots trap r body leave slot here} :
      g.state? id = some (.trap trap r body leave) → slots[trap.val]? = some slot →
      Leaves g matchToEnd id ⟨.resume, c, ⟨.leave id here :: trail, trackers, slots⟩⟩
        (setSlot ⟨.resume, moveTo c here, ⟨trail, trackers, slots⟩⟩ trap slot
          { slot with active := false })

omit [Token T] [DecidableEq T] [DecidableEq P] in
structure Failed (c₀ : S) (e z : Machine S P) : Prop where
  resumes : z.control = .resume
  cache : z.cache = e.cache
  ahead : Ahead c₀ z.cursor

/-- The exits through the leave arrow of the loop at `id` that are tried, each with what the machine holds
as it takes it, until the search goes back to what it had left before, with `home`. What an exit leads to
is left open: if the search comes back from it at all it has failed there, and once it has failed there
the next exit is tried. -/
inductive Tries (g : Graph) (matchToEnd : Bool) (c₀ : S) (id : StateId) (home : Cache P) :
    Machine S P → List (Machine S P) → Prop
  | home {m} : m.control = .resume → m.cache = home → Tries g matchToEnd c₀ id home m []
  | move {m event m' exits} : m.Above home.trail → (∀ e, ¬ Leaves g matchToEnd id m e) →
      step g matchToEnd m = .move event m' → Tries g matchToEnd c₀ id home m' exits →
      Tries g matchToEnd c₀ id home m exits
  | exit {m e exits} : m.Above home.trail → Leaves g matchToEnd id m e →
      (∀ event m' z, step g matchToEnd m = .move event m' →
        ComesBack g matchToEnd e.cache.trail m' z → Failed c₀ e z) →
      (∀ z, Failed c₀ e z → Tries g matchToEnd c₀ id home z exits) →
      Tries g matchToEnd c₀ id home m (e :: exits)

theorem Leaves.step {m e : Machine S P} (leaves : Leaves g matchToEnd id m e) :
    ∃ event leave, m.step g matchToEnd = take g event e leave := by
  cases leaves with
  | now _ _ _ _ stepped => exact ⟨_, _, stepped⟩
  | @back c trail trackers slots trap r body leave slot here state found =>
    refine ⟨some (.resumedLeave id), leave, ?_⟩
    simp only [Machine.step, resume, resumeLeave, state, found]

theorem not_leaves_of_active {m m' e : Machine S P} {event : Option (Event P)} {trap : TrapId}
    {r : Repetition} {body leave : Arrow} {slot : Slot P} (visits : m.control = .visit id)
    (state : g.state? id = some (.trap trap r body leave))
    (moved : m.step g matchToEnd = .move event m') (found : m'.cache.slots[trap.val]? = some slot)
    (active : slot.active = true) : ¬ Leaves g matchToEnd id m e := by
  intro leaves
  cases leaves with
  | @now _ trap' r' body' leave' old new event' _ state' found' idle stepped =>
    rw [state, Option.some.injEq, State.trap.injEq] at state'
    obtain ⟨rfl, _⟩ := state'
    rw [stepped] at moved
    have same := cache_of_take moved
    obtain ⟨inside, _⟩ := Array.getElem?_eq_some_iff.1 found'
    have set : (m.setSlot trap old new).cache.slots[trap.val]? = some new :=
      Array.getElem?_setIfInBounds_self_of_lt inside
    rw [same, set, Option.some.injEq] at found
    rw [found, active] at idle
    cases idle
  | back => cases visits

def Later (g : Graph) (matchToEnd : Bool) (c₀ : S) (id : StateId) (home : Cache P)
    (trail : List (TrailEntry P)) (trackers : Array (Tracker P)) (slots : Array (Slot P))
    (later : List (Machine S P)) : Prop :=
  ∀ c, Ahead c₀ c → Tries g matchToEnd c₀ id home ⟨.resume, c, ⟨trail, trackers, slots⟩⟩ later

theorem Later.slot {trap : TrapId} {old new : Slot P} (found : slots[trap.val]? = some old)
    (le : home.trail.length ≤ trail.length)
    (rest : Later g matchToEnd c₀ id home trail trackers slots later) :
    Later g matchToEnd c₀ id home (.trap trap old :: trail) trackers
      (slots.setIfInBounds trap.val new) later := by
  intro c ahead
  have sets : step g matchToEnd ⟨.resume, c, ⟨.trap trap old :: trail, trackers,
      slots.setIfInBounds trap.val new⟩⟩ = .move none ⟨.resume, c, ⟨trail, trackers, slots⟩⟩ := by
    simp only [step, resume, setIfInBounds_undo found]
  refine .move (fun _ => Nat.lt_succ_of_le le) ?_ sets (rest c ahead)
  intro e leaves
  cases leaves with
  | now visits => cases visits

/-- Once an exit has failed, the search turns to what lies below. -/
theorem Tries.leave {m e : Machine S P} (restores : Restores c₀) (ahead : Ahead c₀ e.cursor)
    (above : m.Above home.trail) (leaves : Leaves g matchToEnd id m e)
    (rest : Later g matchToEnd c₀ id home e.cache.trail e.cache.trackers e.cache.slots later) :
    Tries g matchToEnd c₀ id home m (e :: later) := by
  apply Tries.exit above leaves
  · intro event m' z moved comesBack
    obtain ⟨event', out, takes⟩ := leaves.step
    rw [takes] at moved
    obtain ⟨resumes, cache, ahead'⟩ := restored_of_take restores ahead moved comesBack
    exact ⟨resumes, cache, ahead'⟩
  · rintro ⟨control, cursor, cache⟩ failed
    obtain rfl : control = .resume := failed.resumes
    obtain rfl : cache = e.cache := failed.cache
    exact rest cursor failed.ahead

theorem Later.leave {trap : TrapId} {r : Repetition} {body leave : Arrow} {slot : Slot P} {c : S}
    (restores : Restores c₀) (ahead : Ahead c₀ c)
    (state : g.state? id = some (.trap trap r body leave)) (found : slots[trap.val]? = some slot)
    (le : home.trail.length ≤ trail.length)
    (rest : Later g matchToEnd c₀ id home trail trackers slots later) :
    Later g matchToEnd c₀ id home (.leave id (pos c) :: trail) trackers slots
      (setSlot ⟨.resume, c, ⟨trail, trackers, slots⟩⟩ trap slot { slot with active := false } ::
        later) := by
  intro c' ahead'
  have back : moveTo c' (pos c) = c := restores c' c ahead' ahead
  have leaves : Leaves g matchToEnd id ⟨.resume, c', ⟨.leave id (pos c) :: trail, trackers, slots⟩⟩
      (setSlot ⟨.resume, c, ⟨trail, trackers, slots⟩⟩ trap slot { slot with active := false }) := by
    have leaves : Leaves g matchToEnd id
        ⟨.resume, c', ⟨.leave id (pos c) :: trail, trackers, slots⟩⟩
        (setSlot ⟨.resume, moveTo c' (pos c), ⟨trail, trackers, slots⟩⟩ trap slot
          { slot with active := false }) := .back state found
    rwa [back] at leaves
  exact .leave restores ahead (fun _ => Nat.lt_succ_of_le le) leaves (rest.slot found le)

/-- The exits after at least `k` rounds of a loop that the search has entered at `start`: one for each
count that is accepted and for which enough tokens fit, the largest count first. -/
structure Exits (fits : Char → Bool) (r : Repetition) (start : S) (k : Nat)
    (trackers : Array (Tracker P)) (counts : List Nat) (exits : List (Machine S P)) : Prop where
  mem_iff : ∀ j, j ∈ counts ↔ k ≤ j ∧ r.Allows j ∧ ∃ c, Walks fits j start c
  descending : counts.Pairwise (· > ·)
  stands : List.Forall₂
    (fun j e => Walks fits j start e.cursor ∧ e.cache.trackers = trackers) counts exits

namespace Exits
variable {fits : Char → Bool} {r : Repetition} {start : S} {k : Nat} {counts : List Nat}
  {exits : List (Machine S P)}

omit [DecidableEq T] [DecidableEq P] in
theorem none_left (none : ∀ j, k ≤ j → r.Allows j → ¬ ∃ c, Walks fits j start c) :
    Exits fits r start k trackers [] ([] : List (Machine S P)) where
  mem_iff j := by
    constructor
    · intro mem
      cases mem
    · rintro ⟨le, allowed, walks⟩
      exact absurd walks (none j le allowed)
  descending := .nil
  stands := .nil

omit [DecidableEq T] [DecidableEq P] in
theorem skip (rest : Exits fits r start (k + 1) trackers counts exits) (refused : ¬ r.Allows k) :
    Exits fits r start k trackers counts exits where
  mem_iff j := by
    rw [rest.mem_iff]
    constructor
    · rintro ⟨le, allowed, walks⟩
      exact ⟨by omega, allowed, walks⟩
    · rintro ⟨le, allowed, walks⟩
      have other : j ≠ k := by
        rintro rfl
        exact refused allowed
      exact ⟨by omega, allowed, walks⟩
  descending := rest.descending
  stands := rest.stands

omit [DecidableEq T] [DecidableEq P] in
theorem last (rest : Exits fits r start (k + 1) trackers counts exits) (allowed : r.Allows k)
    {e : Machine S P} (walks : Walks fits k start e.cursor) (same : e.cache.trackers = trackers) :
    Exits fits r start k trackers (counts ++ [k]) (exits ++ [e]) where
  mem_iff j := by
    rw [List.mem_append, List.mem_singleton, rest.mem_iff]
    constructor
    · rintro (⟨le, more⟩ | rfl)
      · exact ⟨by omega, more⟩
      · exact ⟨Nat.le_refl _, allowed, _, walks⟩
    · rintro ⟨le, more⟩
      rcases Nat.eq_or_lt_of_le le with rfl | less
      · exact .inr rfl
      · exact .inl ⟨less, more⟩
  descending := by
    rw [List.pairwise_append]
    refine ⟨rest.descending, List.pairwise_singleton _ _, ?_⟩
    intro j mem i single
    rw [List.mem_singleton.1 single]
    exact ((rest.mem_iff j).1 mem).1
  stands := List.rel_append rest.stands (.cons ⟨walks, same⟩ .nil)

end Exits

section Rounds
variable {trap : TrapId} {r : Repetition} {label : Label} {leave : Arrow} {fits : Char → Bool}
  {old : Slot P} {k : Nat} {start c : S}

structure Turned (g : Graph) (id : StateId) (trap : TrapId) (r : Repetition) (label : Label)
    (leave : Arrow) (fits : Char → Bool) (start : S) (k : Nat) (old : Slot P) (c : S)
    (slots : Array (Slot P)) : Prop where
  state : g.state? id = some (.trap trap r ⟨label, id⟩ leave)
  asks : label.fits? g = some fits
  slot : slots[trap.val]? = some old
  count : (arrived old).count = Bounds.slotCount k
  fresh : (old.active && old.enteredAt = some (pos c) && r.accepts old.count) = false
  walks : Walks fits k start c

def left (id : StateId) (trap : TrapId) (r : Repetition) (old : Slot P) (here : P)
    (trail : List (TrailEntry P)) : List (TrailEntry P) :=
  if r.accepts (arrived old).count then .leave id here :: .trap trap old :: trail
  else .trap trap old :: trail

/-- The search that arrives at the loop here tries its exits after at least `k` rounds, and then what lies
below. -/
def Unrolls (g : Graph) (matchToEnd : Bool) (id : StateId) (fits : Char → Bool) (r : Repetition)
    (start : S) (k : Nat) (c : S) (trail : List (TrailEntry P)) (trackers : Array (Tracker P))
    (slots : Array (Slot P)) : Prop :=
  ∃ counts exits, Exits fits r start k trackers counts exits ∧
    ∀ home later, home.trail.length ≤ trail.length →
      Later g matchToEnd start id home trail trackers slots later →
      Tries g matchToEnd start id home ⟨.visit id, c, ⟨trail, trackers, slots⟩⟩ (exits ++ later)

namespace Turned

omit [DecidableEq T] in
theorem accepts_iff (turned : Turned g id trap r label leave fits start k old c slots) :
    r.accepts (arrived old).count = true ↔ r.Allows k := by
  rw [turned.count, Repetition.allows_iff]

omit [DecidableEq T] in
theorem set_slot (turned : Turned g id trap r label leave fits start k old c slots) (new : Slot P) :
    (slots.setIfInBounds trap.val new)[trap.val]? = some new := by
  obtain ⟨inside, _⟩ := Array.getElem?_eq_some_iff.1 turned.slot
  exact Array.getElem?_setIfInBounds_self_of_lt inside

omit [DecidableEq T] in
/-- After a token the loop is somewhere else, so no round counts as one that consumed nothing. -/
theorem again (restores : Restores start)
    (turned : Turned g id trap r label leave fits start k old c slots) {c' : S}
    (next : nextIf (fun t : T => fits (Token.toChar t)) c = some c') :
    Turned g id trap r label leave fits start (k + 1) (entered old (pos c)) c'
      (slots.setIfInBounds trap.val (entered old (pos c))) where
  state := turned.state
  asks := turned.asks
  slot := turned.set_slot _
  count := by rw [count_arrived_entered, turned.count, Bounds.slotCount_succ]
  fresh := by
    obtain ⟨t, front, _, rfl⟩ := nextIf_eq_some_iff.1 next
    have apart : pos c ≠ pos (advance c 1) := by
      intro same
      have here := restores.pos_injective turned.walks.ahead
        (turned.walks.ahead.trans (.next front)) same
      have := remaining_advance c t front
      rw [← here] at this
      exact Nat.lt_irrefl _ this
    simp [entered, apart]
  walks := walks_succ.2 ⟨c, turned.walks, next⟩

omit [Cursor S T P] [Token T] [DecidableEq T] [DecidableEq P] in
theorem left_le (home : Cache P) (here : P) (le : home.trail.length ≤ trail.length) :
    home.trail.length ≤ (left id trap r old here trail).length := by
  unfold left
  split
  · simp only [List.length_cons]
    omega
  · simp only [List.length_cons]
    omega

theorem comes_later (restores : Restores start)
    (turned : Turned g id trap r label leave fits start k old c slots)
    {counts : List Nat} {exits : List (Machine S P)}
    (rest : Exits fits r start (k + 1) trackers counts exits) :
    ∃ counts' last, Exits fits r start k trackers counts' (exits ++ last) ∧
      ∀ home later, home.trail.length ≤ trail.length →
        Later g matchToEnd start id home trail trackers slots later →
        Later g matchToEnd start id home (left id trap r old (pos c) trail) trackers
          (slots.setIfInBounds trap.val (entered old (pos c))) (last ++ later) := by
  unfold left
  by_cases accepted : r.accepts (arrived old).count = true
  · rw [if_pos accepted]
    refine ⟨_, [_], rest.last (turned.accepts_iff.1 accepted)
      (e := setSlot ⟨.resume, c, ⟨.trap trap old :: trail, trackers,
        slots.setIfInBounds trap.val (entered old (pos c))⟩⟩ trap (entered old (pos c))
        { entered old (pos c) with active := false }) turned.walks rfl, ?_⟩
    intro home later le below
    exact (below.slot turned.slot le).leave restores turned.walks.ahead turned.state
      (turned.set_slot _) (Nat.le_succ_of_le le)
  · rw [if_neg accepted]
    refine ⟨counts, [], ?_, ?_⟩
    · rw [List.append_nil]
      exact rest.skip fun allowed => accepted (turned.accepts_iff.2 allowed)
    · intro home later le below
      exact below.slot turned.slot le

theorem goes_on (turned : Turned g id trap r label leave fits start k old c slots)
    {m' : Machine S P} {new : Slot P} {exits : List (Machine S P)}
    (moved : step g matchToEnd ⟨.visit id, c, ⟨trail, trackers, slots⟩⟩ = .move none m')
    (same : m'.cache.slots = slots.setIfInBounds trap.val new) (active : new.active = true)
    (tries : Tries g matchToEnd start id home m' exits) :
    Tries g matchToEnd start id home ⟨.visit id, c, ⟨trail, trackers, slots⟩⟩ exits := by
  have stays (e : Machine S P) :
      ¬ Leaves g matchToEnd id ⟨.visit id, c, ⟨trail, trackers, slots⟩⟩ e := by
    apply not_leaves_of_active rfl turned.state moved _ active
    rw [same]
    exact turned.set_slot new
  exact .move (fun resumes => by cases resumes) stays moved tries

theorem stops (restores : Restores start)
    (turned : Turned g id trap r label leave fits start k old c slots)
    (enough : ¬ r.mayRepeat (arrived old).count = true) :
    Unrolls g matchToEnd id fits r start k c trail trackers slots := by
  have decides := step_round matchToEnd trail trackers turned.state turned.slot turned.fresh
  rw [if_neg enough] at decides
  have rest : Exits fits r start (k + 1) trackers [] ([] : List (Machine S P)) := by
    apply Exits.none_left
    intro j le allowed
    rw [turned.count] at enough
    exact absurd (Repetition.mayRepeat_of_allows le allowed) enough
  by_cases accepted : r.accepts (arrived old).count = true
  · rw [if_pos accepted] at decides
    have leaves : Leaves g matchToEnd id ⟨.visit id, c, ⟨trail, trackers, slots⟩⟩
        (setSlot ⟨.visit id, c, ⟨trail, trackers, slots⟩⟩ trap old
          { arrived old with active := false }) := .now rfl turned.state turned.slot rfl decides
    have exits := rest.last (turned.accepts_iff.1 accepted)
      (e := setSlot ⟨.visit id, c, ⟨trail, trackers, slots⟩⟩ trap old
        { arrived old with active := false }) turned.walks rfl
    refine ⟨_, _, exits, ?_⟩
    intro home later le below
    exact .leave restores turned.walks.ahead (fun resumes => by cases resumes) leaves
      (below.slot turned.slot le)
  · rw [if_neg accepted] at decides
    refine ⟨[], [], rest.skip fun allowed => accepted (turned.accepts_iff.2 allowed), ?_⟩
    intro home later le below
    exact turned.goes_on decides rfl (active_arrived old)
      (below.slot turned.slot le c turned.walks.ahead)

variable (matchToEnd trail trackers) in
theorem step_again (turned : Turned g id trap r label leave fits start k old c slots)
    (more : r.mayRepeat (arrived old).count = true) :
    step g matchToEnd ⟨.visit id, c, ⟨trail, trackers, slots⟩⟩ =
      match nextIf (fun t : T => fits (Token.toChar t)) c with
      | none => .move none ⟨.resume, c, ⟨left id trap r old (pos c) trail, trackers,
          slots.setIfInBounds trap.val (entered old (pos c))⟩⟩
      | some c' => .move none ⟨.visit id, c', ⟨left id trap r old (pos c) trail, trackers,
          slots.setIfInBounds trap.val (entered old (pos c))⟩⟩ := by
  rw [step_round matchToEnd trail trackers turned.state turned.slot turned.fresh, if_pos more, take]
  simp only [follow_of_fits turned.asks trackers c, consumeIf_eq]
  cases nextIf (fun t : T => fits (Token.toChar t)) c with
  | none => rfl
  | some c' => rfl

variable (matchToEnd trail trackers) in
theorem explored (restores : Restores start)
    (turned : Turned g id trap r label leave fits start k old c slots) :
    Unrolls g matchToEnd id fits r start k c trail trackers slots := by
  induction rounds : remaining c using Nat.strongRecOn generalizing k old c trail slots with
  | ind n ih =>
    subst rounds
    by_cases more : r.mayRepeat (arrived old).count = true
    · have moved := turned.step_again matchToEnd trail trackers more
      cases next : nextIf (fun t : T => fits (Token.toChar t)) c with
      | none =>
        rw [next] at moved
        have rest : Exits fits r start (k + 1) trackers [] ([] : List (Machine S P)) :=
          .none_left fun j le _ => turned.walks.ends next le
        obtain ⟨counts, last, exits, tries⟩ := turned.comes_later restores rest
        refine ⟨counts, last, exits, ?_⟩
        intro home later le below
        exact turned.goes_on moved rfl (active_arrived old)
          (tries home later le below c turned.walks.ahead)
      | some c' =>
        rw [next] at moved
        obtain ⟨t, front, _, further⟩ := nextIf_eq_some_iff.1 next
        have shorter : remaining c' < remaining c := by
          rw [← further]
          exact remaining_advance c t front
        obtain ⟨_, exits', rest, goesOn⟩ := ih _ shorter _ (turned.again restores next) rfl
        obtain ⟨counts, last, exits, tries⟩ := turned.comes_later restores rest
        refine ⟨counts, exits' ++ last, exits, ?_⟩
        intro home later le below
        rw [List.append_assoc]
        exact turned.goes_on moved rfl (active_arrived old)
          (goesOn home (last ++ later) (left_le home _ le) (tries home later le below))
    · exact turned.stops restores more

end Turned

end Rounds

/-- A loop whose body is one token, entered from outside: its exits are tried for just the counts that it
accepts and for which as many tokens fit, the largest first and each once, with all groups as they were
when the search arrived. -/
theorem exits_of_tokenLoop (g : Graph) (matchToEnd : Bool) (id : StateId) (start : S) (cache : Cache P)
    {trap : TrapId} {r : Repetition} {label : Label} {leave : Arrow} {fits : Char → Bool} {old : Slot P}
    (state : g.state? id = some (.trap trap r ⟨label, id⟩ leave)) (asks : label.fits? g = some fits)
    (slot : cache.slots[trap.val]? = some old) (outside : old.active = false)
    (restores : Restores start) :
    ∃ counts exits, (∀ k, k ∈ counts ↔ r.Allows k ∧ ∃ c, Walks fits k start c) ∧
      counts.Pairwise (· > ·) ∧
      List.Forall₂ (fun k e => Walks fits k start e.cursor ∧ e.cache.trackers = cache.trackers)
        counts exits ∧
      Tries g matchToEnd start id cache ⟨.visit id, start, cache⟩ exits := by
  have turned : Turned g id trap r label leave fits start 0 old start cache.slots := by
    refine ⟨state, asks, slot, ?_, ?_, walks_zero.2 rfl⟩
    · rw [arrived, outside]
      rfl
    · rw [outside]
      rfl
  obtain ⟨counts, exits, found, tries⟩ :=
    turned.explored matchToEnd cache.trail cache.trackers restores
  refine ⟨counts, exits, ?_, found.descending, found.stands, ?_⟩
  · intro k
    rw [found.mem_iff, and_iff_right (Nat.zero_le k)]
  · have tries := tries cache [] (Nat.le_refl _) fun c _ => .home rfl rfl
    rwa [List.append_nil] at tries

def gappedLoop : Graph where
  states := #[.trap ⟨0⟩ ((Repetition.between 1 2).addRange 5 4) ⟨.char 'a', ⟨0⟩⟩ ⟨.char 'c', ⟨1⟩⟩,
    .terminal]
  start := ⟨0⟩
  terminal := ⟨1⟩
  classes := #[]
  names := .empty
  trapCount := 1
  leading := none

theorem exits_of_tokenLoop_gapped :
    ∃ counts exits, (∀ k, k ∈ counts ↔ k = 1 ∨ k = 2 ∨ k = 4) ∧ counts.Pairwise (· > ·) ∧
      List.Forall₂ (fun k e =>
        Walks (· == 'a') k (TokenCursor.start #['a', 'a', 'a', 'a', 'b']) e.cursor ∧
          e.cache.trackers = (Cache.ofGraph gappedLoop).trackers) counts exits ∧
      Tries gappedLoop false (TokenCursor.start #['a', 'a', 'a', 'a', 'b']) ⟨0⟩ (.ofGraph gappedLoop)
        ⟨.visit ⟨0⟩, TokenCursor.start #['a', 'a', 'a', 'a', 'b'], .ofGraph gappedLoop⟩ exits := by
  obtain ⟨counts, exits, mem_iff, descending, stands, tries⟩ :=
    exits_of_tokenLoop gappedLoop false ⟨0⟩ (TokenCursor.start #['a', 'a', 'a', 'a', 'b'])
      (.ofGraph gappedLoop) rfl rfl rfl rfl (TokenCursor.restores (Nat.zero_le _))
  have longest : Walks (· == 'a') 4 (TokenCursor.start #['a', 'a', 'a', 'a', 'b'])
      ⟨#['a', 'a', 'a', 'a', 'b'], 4⟩ :=
    ⟨['a', 'a', 'a', 'a'], .step rfl (.step rfl (.step rfl (.step rfl (.stay _)))), rfl, by simp [Token.toChar]⟩
  refine ⟨counts, exits, ?_, descending, stands, tries⟩
  intro k
  rw [mem_iff]
  constructor
  · rintro ⟨allowed, walks⟩
    have small : k ≤ 4 := by
      apply Nat.le_of_not_lt
      intro more
      exact longest.ends rfl more walks
    revert allowed
    match k, small with
    | 0, _ | 1, _ | 2, _ | 3, _ | 4, _ => decide
  · intro accepted
    refine ⟨?_, longest.shorter (by omega)⟩
    rcases accepted with rfl | rfl | rfl <;> decide

/-- Where the loop is left, in a search that fails after each exit. -/
example : ((Machine.start gappedLoop ⟨[], #[], #[]⟩
      (TokenCursor.start #['a', 'a', 'a', 'a', 'b'])).course gappedLoop false 40).filterMap
      (fun
        | .seen ⟨.choice (.leave _), here, _, _⟩ => some here
        | _ => none) = [4, 2, 1] := by decide +kernel

end Machine

end PatternGraph
