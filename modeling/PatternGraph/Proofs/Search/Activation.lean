import PatternGraph.Proofs.Pattern.Layout
import PatternGraph.Proofs.Search.History
import PatternGraph.Proofs.Search.UndoLog

/-!
What the tables of a search say. A slot tells the rounds that its loop has been gone round since it was
last left, and a tracker whether its group is in progress. This holds where the search is, and the trail
takes the tables back to where it held of every choice that was left for later.
-/
namespace PatternGraph
open Cursor

namespace Tracker
variable {P : Type} {t : Tracker P} {inside : Prop}

/-- No more than one start is pending, and an end has its start. -/
structure Tidy (t : Tracker P) : Prop where
  single : t.starts.length ≤ 1
  started : t.stop.isSome = true → t.starts.length = 1

/-- A group in progress has only a start; any other has both ends or none. -/
structure Fits (t : Tracker P) (inside : Prop) : Prop where
  pending : inside → ∃ s, t = ⟨[s], none⟩
  settled : ¬inside → t = empty ∨ ∃ s e, t = ⟨[s], some e⟩

theorem Fits.tidy (fits : t.Fits inside) : t.Tidy := by
  by_cases within : inside
  · obtain ⟨s, rfl⟩ := fits.pending within
    constructor <;> simp
  · rcases fits.settled within with rfl | ⟨s, e, rfl⟩
    · constructor <;> simp [empty]
    · constructor <;> simp

theorem Fits.bindStart {within : Prop} (fits : t.Fits inside) (before : ¬inside) (after : within)
    (p : P) : (t.bindStart p).2.Fits within := by
  refine ⟨fun _ => ⟨p, ?_⟩, fun outside => absurd after outside⟩
  rcases fits.settled before with rfl | ⟨s, e, rfl⟩ <;> rfl

theorem Fits.bindStop {within : Prop} (fits : t.Fits inside) (before : inside) (after : ¬within)
    (p : P) : (t.bindStop p).2.Fits within := by
  refine ⟨fun within => absurd within after, fun _ => .inr ?_⟩
  obtain ⟨s, rfl⟩ := fits.pending before
  exact ⟨s, p, rfl⟩

theorem Fits.stopped (fits : t.Fits inside) (outside : ¬inside) (started : t.starts ≠ []) :
    t.stop.isSome = true := by
  rcases fits.settled outside with rfl | ⟨s, e, rfl⟩
  · exact absurd rfl started
  · rfl

end Tracker

namespace Slot
variable {P : Type} {s : Slot P} {rounds : List P}

/-- What a slot says of the rounds that were begun since the loop was last left, newest first. The
newest is in progress, and the count stops at its largest value. -/
def Tells (s : Slot P) : List P → Prop
  | [] => s.active = false
  | here :: older => s = ⟨true, Bounds.slotCount older.length, some here⟩

theorem Tells.active_iff (tells : s.Tells rounds) : s.active = true ↔ rounds ≠ [] := by
  cases rounds with
  | nil => simp [show s.active = false from tells]
  | cons here older =>
    obtain rfl : s = _ := tells
    simp

theorem Tells.arrived (tells : s.Tells rounds) (here : P) :
    Tells { Machine.arrived s with enteredAt := some here } (here :: rounds) := by
  cases rounds with
  | nil =>
    have outside : s.active = false := tells
    rw [Machine.arrived, outside]
    rfl
  | cons last older =>
    obtain rfl : s = _ := tells
    simp [Tells, Machine.arrived, Bounds.slotCount_succ]

end Slot

variable {S T P : Type} [Cursor S T P]

theorem rounds_cons_of_ne {trap out : StateId} {leg : Leg P} (other : leg.source ≠ trap)
    (path : List (Leg P)) : rounds trap out (leg :: path) = rounds trap out path := by
  rw [rounds, if_neg other]

section Tables
variable {g : Graph} {path path' : List (Leg P)} {trackers : Array (Tracker P)}
  {slots : Array (Slot P)} {groups groups' : List TagId}

def TrackersFit (groups : List TagId) (trackers : Array (Tracker P)) : Prop :=
  ∀ (i : Nat) t, trackers[i]? = some t → t.Fits (⟨i⟩ ∈ groups)

def SlotsTell (g : Graph) (path : List (Leg P)) (slots : Array (Slot P)) : Prop :=
  ∀ trap k r body leave, g.state? trap = some (.trap k r body leave) →
    ∃ slot, slots[k.val]? = some slot ∧ slot.Tells (rounds trap leave.target path)

theorem TrackersFit.tidy (fits : TrackersFit groups trackers) : ∀ t ∈ trackers, t.Tidy := by
  intro t mem
  obtain ⟨i, found⟩ := Array.mem_iff_getElem?.1 mem
  exact (fits i t found).tidy

theorem TrackersFit.set (fits : TrackersFit groups trackers) {tag : TagId} {t : Tracker P}
    (others : ∀ tag', tag' ≠ tag → (tag' ∈ groups' ↔ tag' ∈ groups)) (new : t.Fits (tag ∈ groups')) :
    TrackersFit groups' (trackers.setIfInBounds tag.val t) := by
  intro i t' found
  rw [Array.getElem?_setIfInBounds] at found
  split at found
  · rename_i same
    split at found
    · cases found
      rw [← same]
      exact new
    · cases found
  · rename_i other
    rw [others ⟨i⟩ fun same => other (congrArg Index.val same).symm]
    exact fits i t' found

theorem SlotsTell.leg (tells : SlotsTell g path slots) {leg : Leg P} {state : State}
    (found : g.state? leg.source = some state) (plain : state.draft.number? = none) :
    SlotsTell g (leg :: path) slots := by
  intro trap k r body leave state'
  rw [rounds_cons_of_ne]
  · exact tells trap k r body leave state'
  · rintro rfl
    cases found.symm.trans state'
    cases plain

theorem SlotsTell.set {places : List Place} (placed : g.Placed places)
    (tells : SlotsTell g path slots) {id : StateId} {k : TrapId} {r : Repetition} {body leave : Arrow}
    (found : g.state? id = some (.trap k r body leave)) {slot : Slot P}
    (others : ∀ trap out, trap ≠ id → rounds trap out path' = rounds trap out path)
    (new : slot.Tells (rounds id leave.target path')) :
    SlotsTell g path' (slots.setIfInBounds k.val slot) := by
  intro trap k' r' body' leave' found'
  obtain ⟨old, inside, told⟩ := tells trap k' r' body' leave' found'
  have numbered : ∀ {id k r body leave}, g.state? id = some (.trap k r body leave) →
      g.states[id.val]?.bind (·.draft.number?) = some k := by
    intro id k r body leave found
    rw [show g.states[id.val]? = _ from found]
    rfl
  rw [Array.getElem?_setIfInBounds]
  -- No two traps have the same number, so the slots of other loops stay as they are.
  by_cases same : k' = k
  · subst same
    have same := placed.numbered.unique _ _ _ (numbered found') (numbered found)
    obtain rfl : trap = id := by
      cases trap
      cases id
      exact congrArg Index.mk same
    cases found'.symm.trans found
    refine ⟨slot, ?_, new⟩
    rw [if_pos rfl, if_pos (Array.getElem?_eq_some_iff.1 inside).1]
  · refine ⟨old, ?_, ?_⟩
    · rw [if_neg fun equal => same (by cases k; cases k'; exact congrArg Index.mk equal.symm), inside]
    · rw [others]
      · exact told
      · rintro rfl
        cases found'.symm.trans found
        exact same rfl

end Tables

/-- Once what was changed since is taken back, the tables say of each choice on the trail what is so on
the path to it. A loop that could have been left is still in its newest round then. -/
inductive Backed (g : Graph) (places : List Place) :
    List (TrailEntry P) → List (List (Leg P)) → Array (Tracker P) → Array (Slot P) → Prop
  | bottom {trackers slots} : (∀ t ∈ trackers, t.Tidy) → trackers.size = g.names.size →
      slots.size = g.trapCount → Backed g places [] [] trackers slots
  | arrow {id index here state p n path trail kept trackers slots} : g.state? id = some state →
      index < state.arrows.size → places[id.val]? = some p → g.Route places path id n →
      TrackersFit p.depart.groups trackers → SlotsTell g path slots →
      Backed g places trail kept trackers slots →
      Backed g places (.arrow id index here :: trail) (path :: kept) trackers slots
  | leave {id here k r body leave p n path trail kept trackers slots} :
      g.state? id = some (.trap k r body leave) → places[id.val]? = some p →
      g.Route places path id n → TrackersFit p.arrive.groups trackers →
      SlotsTell g (⟨id, here, body.target⟩ :: path) slots → Backed g places trail kept trackers slots →
      Backed g places (.leave id here :: trail) (path :: kept) trackers slots
  | tag {tag undo path trail kept trackers slots} : tag.val < trackers.size →
      (∀ t ∈ trackers, t.Tidy) →
      Backed g places trail kept (trackers.modify tag.val (·.undo undo)) slots →
      Backed g places (.tag tag undo :: trail) (path :: kept) trackers slots
  | trap {k slot path trail kept trackers slots} : k.val < slots.size →
      Backed g places trail kept trackers (slots.setIfInBounds k.val slot) →
      Backed g places (.trap k slot :: trail) (path :: kept) trackers slots

namespace Backed
variable {g : Graph} {places : List Place} {trail : List (TrailEntry P)} {kept : List (List (Leg P))}
  {trackers : Array (Tracker P)} {slots : Array (Slot P)}

theorem tidy (h : Backed g places trail kept trackers slots) : ∀ t ∈ trackers, t.Tidy := by
  induction h with
  | bottom tidy => exact tidy
  | arrow _ _ _ _ _ _ _ ih => exact ih
  | leave _ _ _ _ _ _ ih => exact ih
  | tag _ tidy => exact tidy
  | trap _ _ ih => exact ih

theorem size_trackers (h : Backed g places trail kept trackers slots) :
    trackers.size = g.names.size := by
  induction h with
  | bottom _ size => exact size
  | arrow _ _ _ _ _ _ _ ih => exact ih
  | leave _ _ _ _ _ _ ih => exact ih
  | tag _ _ _ ih => simpa using ih
  | trap _ _ ih => exact ih

theorem size_slots (h : Backed g places trail kept trackers slots) : slots.size = g.trapCount := by
  induction h with
  | bottom _ _ size => exact size
  | arrow _ _ _ _ _ _ _ ih => exact ih
  | leave _ _ _ _ _ _ ih => exact ih
  | tag _ _ _ ih => exact ih
  | trap _ _ ih => simpa using ih

theorem length (h : Backed g places trail kept trackers slots) : kept.length = trail.length := by
  induction h with
  | bottom => rfl
  | arrow _ _ _ _ _ _ _ ih => exact congrArg (· + 1) ih
  | leave _ _ _ _ _ _ ih => exact congrArg (· + 1) ih
  | tag _ _ _ ih => exact congrArg (· + 1) ih
  | trap _ _ ih => exact congrArg (· + 1) ih

end Backed

structure Tallies (g : Graph) (places : List Place) (m : Machine S P) (h : History P) : Prop where
  backed : Backed g places m.cache.trail h.kept m.cache.trackers m.cache.slots
  visits : ∀ id, m.control = .visit id → ∃ n, g.Route places h.path id n ∧
    TrackersFit n.groups m.cache.trackers ∧ SlotsTell g h.path m.cache.slots

def TalliesAfter (g : Graph) (places : List Place) (m : Machine S P) (h : History P) :
    Step S P → Prop
  | .move _ m' => Tallies g places m' (h.after m m')
  | .accept _ | .exhaust _ | .fault _ => True

def Backs (g : Graph) (places : List Place) (past : History P) (m : Machine S P) : Prop :=
  ∃ n, Backed g places m.cache.trail (List.replicate n past.path ++ past.kept) m.cache.trackers
    m.cache.slots

namespace Backs
variable {g : Graph} {places : List Place} {past : History P} {m : Machine S P} {id : StateId}
  {p : Place} {n : Nesting}

theorem push {e : TrailEntry P} (backs : Backs g places past m)
    (entry : ∀ {kept}, Backed g places m.cache.trail kept m.cache.trackers m.cache.slots →
      Backed g places (e :: m.cache.trail) (past.path :: kept) m.cache.trackers m.cache.slots) :
    Backs g places past (m.push e) := by
  obtain ⟨n, backed⟩ := backs
  exact ⟨n + 1, entry backed⟩

theorem setSlot (backs : Backs g places past m) {k : TrapId} {old : Slot P}
    (found : m.cache.slots[k.val]? = some old) (new : Slot P) :
    Backs g places past (m.setSlot k old new) := by
  obtain ⟨n, backed⟩ := backs
  have inside : k.val < (m.cache.slots.setIfInBounds k.val new).size := by
    rw [Array.size_setIfInBounds]
    exact (Array.getElem?_eq_some_iff.1 found).1
  have back : (m.cache.slots.setIfInBounds k.val new).setIfInBounds k.val old = m.cache.slots :=
    setIfInBounds_undo found
  rw [← back] at backed
  exact ⟨n + 1, .trap inside backed⟩

theorem bind (backs : Backs g places past m) {tag : TagId} {t : Tracker P} {undo : Tracker.Undo P}
    {new : Tracker P} (found : m.cache.trackers[tag.val]? = some t) (reverts : new.undo undo = t)
    (tidy : ∀ t ∈ m.cache.trackers.setIfInBounds tag.val new, t.Tidy) :
    Backs g places past { m with cache := { m.cache with
      trail := .tag tag undo :: m.cache.trail
      trackers := m.cache.trackers.setIfInBounds tag.val new } } := by
  obtain ⟨n, backed⟩ := backs
  have inside : tag.val < (m.cache.trackers.setIfInBounds tag.val new).size := by
    rw [Array.size_setIfInBounds]
    exact (Array.getElem?_eq_some_iff.1 found).1
  rw [← modify_setIfInBounds_undo (f := (·.undo undo)) found reverts] at backed
  exact ⟨n + 1, .tag inside tidy backed⟩

end Backs

namespace TalliesAfter
variable {g : Graph} {places : List Place} {m m₀ : Machine S P} {h : History P}
  {event : Option (Event P)}

theorem resuming (backs : Backs g places (h.recalled m₀.control) m) :
    TalliesAfter g places m₀ h (.move event m.resuming) := by
  obtain ⟨n, backed⟩ := backs
  have length := backed.length
  rw [List.length_append, List.length_replicate] at length
  refine ⟨?_, fun id visits => (by cases visits)⟩
  have added : m.cache.trail.length - (h.recalled m₀.control).kept.length = n := by omega
  simp only [History.after, Machine.resuming, added]
  exact backed

variable [Token T] [DecidableEq T] [DecidableEq P] {id : StateId} {here : P} {a : Arrow} {n : Nesting}

theorem take (backs : Backs g places (h.recalled m₀.control) m) (origin : m₀.origin? = some (id, here))
    (route : g.Route places (⟨id, here, a.target⟩ :: (h.recalled m₀.control).path) a.target n)
    (fits : TrackersFit n.groups m.cache.trackers)
    (tells : SlotsTell g (⟨id, here, a.target⟩ :: (h.recalled m₀.control).path) m.cache.slots) :
    TalliesAfter g places m₀ h (Machine.take g event m a) := by
  unfold Machine.take
  cases Machine.follow g m.cache.trackers m.cursor a.label with
  | error f => trivial
  | ok found =>
    obtain ⟨fit, c⟩ := found
    cases fit with
    | false => exact resuming (m := { m with cursor := c }) backs
    | true =>
      obtain ⟨n', backed⟩ := backs
      have length := backed.length
      rw [List.length_append, List.length_replicate] at length
      have added : m.cache.trail.length - (h.recalled m₀.control).kept.length = n' := by omega
      constructor
      · simp only [History.after, added]
        exact backed
      · rintro _ ⟨⟩
        refine ⟨n, ?_⟩
        simp only [History.after, origin]
        exact ⟨route, fits, tells⟩

end TalliesAfter

structure Departs (g : Graph) (places : List Place) (past : History P) (id : StateId) (state : State)
    (p : Place) (m : Machine S P) : Prop where
  backs : Backs g places past m
  found : g.state? id = some state
  place : places[id.val]? = some p
  route : ∃ n, g.Route places past.path id n
  fits : TrackersFit p.depart.groups m.cache.trackers
  tells : SlotsTell g past.path m.cache.slots

structure Visiting (g : Graph) (places : List Place) (m : Machine S P) (h : History P) (id : StateId)
    (p : Place) : Prop where
  origin : m.origin? = some (id, pos m.cursor)
  backs : Backs g places (h.recalled m.control) m
  place : places[id.val]? = some p
  route : ∃ n, g.Route places (h.recalled m.control).path id n
  fits : TrackersFit p.arrive.groups m.cache.trackers
  tells : SlotsTell g (h.recalled m.control).path m.cache.slots

section Steps
variable [Token T] [DecidableEq T] [DecidableEq P] {g : Graph} {places : List Place} {past : History P}
  {m m₀ : Machine S P} {h : History P} {event : Option (Event P)} {id : StateId} {state : State}
  {p : Place} {here : P} {a : Arrow}

omit [Token T] [DecidableEq T] [DecidableEq P] in
theorem Departs.push (departs : Departs g places past id state p m) {index : Nat} (here : P)
    (more : index < state.arrows.size) :
    Departs g places past id state p (m.push (.arrow id index here)) := by
  obtain ⟨n, route⟩ := departs.route
  exact { departs with
    backs := departs.backs.push
      (.arrow departs.found more departs.place route departs.fits departs.tells) }

theorem Departs.take (departs : Departs g places (h.recalled m₀.control) id state p m)
    (origin : m₀.origin? = some (id, here)) (mem : a ∈ state.arrows) :
    TalliesAfter g places m₀ h (Machine.take g event m a) := by
  obtain ⟨n, route⟩ := departs.route
  have plain : state.draft.number? = none := by
    cases state with
    | relay | fanout | tagOpen | tagClose | terminal => rfl
    | trap => simp [State.arrows] at mem
  exact .take departs.backs origin
    (.leg here route departs.found departs.place (State.way_of_arrow mem)) departs.fits
    (departs.tells.leg departs.found plain)

theorem Departs.fanOut (departs : Departs g places (h.recalled m₀.control) id state p m)
    (origin : m₀.origin? = some (id, here)) :
    TalliesAfter g places m₀ h (Machine.fanOut g m id state.arrows) := by
  unfold Machine.fanOut
  cases first : state.arrows[0]? with
  | none => exact .resuming departs.backs
  | some a =>
    have mem := Array.mem_of_getElem? first
    dsimp only
    split
    · rename_i more
      exact (departs.push _ more).take origin mem
    · exact departs.take origin mem

omit [Token T] [DecidableEq T] [DecidableEq P] in
theorem Tallies.visiting (placed : g.Placed places) (tallies : Tallies g places m h)
    (visits : m.control = .visit id) : ∃ p, Visiting g places m h id p := by
  obtain ⟨n, route, fits, tells⟩ := tallies.visits id visits
  obtain ⟨p, place, meets⟩ := route.meets placed
  have groups : n.groups = p.arrive.groups := by
    rcases meets with rfl | rfl <;> rfl
  rw [groups] at fits
  have past : h.recalled m.control = h := by
    rw [visits]
    rfl
  have backs : Backs g places (h.recalled m.control) m := by
    rw [past]
    exact ⟨0, tallies.backed⟩
  rw [← past] at route tells
  have origin : m.origin? = some (id, pos m.cursor) := by
    rw [Machine.origin?, visits]
  exact ⟨p, origin, backs, place, ⟨n, route⟩, fits, tells⟩

theorem talliesAfter_leave (placed : g.Placed places) {k : TrapId} {r : Repetition}
    {body leave : Arrow} {n : Nesting} {path : List (Leg P)} {old new : Slot P}
    (backs : Backs g places (h.recalled m₀.control) m) (origin : m₀.origin? = some (id, here))
    (found : g.state? id = some (.trap k r body leave)) (place : places[id.val]? = some p)
    (route : g.Route places (h.recalled m₀.control).path id n)
    (fits : TrackersFit p.arrive.groups m.cache.trackers) (tells : SlotsTell g path m.cache.slots)
    (others : ∀ trap out, trap ≠ id →
      rounds trap out (h.recalled m₀.control).path = rounds trap out path)
    (inside : m.cache.slots[k.val]? = some old) (inactive : new.active = false) :
    TalliesAfter g places m₀ h (Machine.take g event (m.setSlot k old new) leave) := by
  obtain ⟨p', place', lies⟩ := placed.lies id _ found
  obtain rfl := Option.some.inj (place'.symm.trans place)
  have departs : p'.depart = p'.arrive := lies.suits.1
  refine .take (backs.setSlot inside new) origin
    (.leg here route found place (State.mem_ways_trap.2 (.inr rfl))) (departs ▸ fits)
    (tells.set placed found ?_ ?_)
  · intro trap out other
    rw [rounds_cons_of_ne (Ne.symm other), others trap out other]
  · rw [rounds, if_pos rfl, if_pos rfl]
    exact inactive

theorem talliesAfter_enterTrap (placed : g.Placed places) {k : TrapId} {r : Repetition}
    {body leave : Arrow} (visiting : Visiting g places m h id p)
    (found : g.state? id = some (.trap k r body leave)) :
    TalliesAfter g places m h (Machine.enterTrap g m id k r body leave) := by
  obtain ⟨origin, backs, place, ⟨n, route⟩, fits, tells⟩ := visiting
  obtain ⟨old, inside, told⟩ := tells id k r body leave found
  have leaves {event} {new : Slot P} (inactive : new.active = false) :
      TalliesAfter g places m h (Machine.take g event (m.setSlot k old new) leave) :=
    talliesAfter_leave placed backs origin found place route fits tells (fun _ _ _ => rfl) inside
      inactive
  have begun : SlotsTell g (⟨id, pos m.cursor, body.target⟩ :: (h.recalled m.control).path)
      (m.cache.slots.setIfInBounds k.val
        { Machine.arrived old with enteredAt := some (pos m.cursor) }) := by
    refine tells.set placed found (fun trap out other => rounds_cons_of_ne (Ne.symm other) _) ?_
    rw [rounds, if_pos rfl, if_neg (placed.apart found)]
    exact told.arrived (pos m.cursor)
  have around : g.Route places (⟨id, pos m.cursor, body.target⟩ :: (h.recalled m.control).path)
      body.target (p.arrive.inLoop id) :=
    .leg (pos m.cursor) route found place (State.mem_ways_trap.2 (.inl rfl))
  have entered := backs.setSlot inside { Machine.arrived old with enteredAt := some (pos m.cursor) }
  -- A round that consumed nothing ends the loop, and so does a count that allows for no more.
  unfold Machine.enterTrap
  rw [inside]
  dsimp only
  split
  · exact leaves rfl
  · split
    · refine .take ?_ origin around ?_ ?_
      · split
        · exact entered.push (.leave found place route fits begun)
        · exact entered
      · split <;> exact fits
      · split <;> exact begun
    · split
      · exact leaves rfl
      · exact .resuming (backs.setSlot inside _)

omit [Token T] [DecidableEq T] [DecidableEq P] in
theorem Visiting.departs (visiting : Visiting g places m h id p) (found : g.state? id = some state)
    (same : p.depart = p.arrive) : Departs g places (h.recalled m.control) id state p m := by
  refine ⟨visiting.backs, found, visiting.place, visiting.route, ?_, visiting.tells⟩
  rw [same]
  exact visiting.fits

omit [Token T] [DecidableEq T] [DecidableEq P] in
theorem Visiting.departs_of_bind (visiting : Visiting g places m h id p)
    (found : g.state? id = some state) {tag : Option TagId}
    {change : Tracker P → P → Tracker.Undo P × Tracker P} {m' : Machine S P}
    (reverts : ∀ t here, (change t here).2.undo (change t here).1 = t)
    (others : ∀ t, tag ≠ some t → (t ∈ p.depart.groups ↔ t ∈ p.arrive.groups))
    (changes : ∀ t, tag = some t → ∀ (tracker : Tracker P) here,
      tracker.Fits (t ∈ p.arrive.groups) → (change tracker here).2.Fits (t ∈ p.depart.groups))
    (bound : m.bind tag change = .ok m') :
    Departs g places (h.recalled m.control) id state p m' := by
  obtain ⟨_, backs, place, route, fits, tells⟩ := visiting
  cases tag with
  | none =>
    cases bound
    refine ⟨backs, found, place, route, fun i t within => ?_, tells⟩
    rw [others ⟨i⟩ (by simp)]
    exact fits i t within
  | some tag =>
    unfold Machine.bind at bound
    dsimp only at bound
    split at bound
    · cases bound
    · rename_i t within
      cases bound
      have fits : TrackersFit p.depart.groups (m.cache.trackers.setIfInBounds tag.val _) :=
        fits.set (fun t' other => others t' fun same => other (Option.some.inj same).symm)
          (changes tag rfl t (pos m.cursor) (fits tag.val t within))
      exact ⟨backs.bind within (reverts t _) fits.tidy, found, place, route, fits, tells⟩

theorem talliesAfter_visit (placed : g.Placed places) (matchToEnd : Bool)
    (visiting : Visiting g places m h id p) :
    TalliesAfter g places m h (Machine.visit g matchToEnd m id) := by
  unfold Machine.visit
  cases found : g.state? id with
  | none => trivial
  | some state =>
    obtain ⟨p', place, lies⟩ := placed.lies id state found
    obtain rfl := Option.some.inj (place.symm.trans visiting.place)
    have suits := lies.suits
    cases state with
    | relay a =>
      have departs : Departs g places (h.recalled m.control) id (.relay a) p' m :=
        visiting.departs found suits
      exact departs.take visiting.origin (Array.mem_singleton.2 rfl)
    | fanout arrows => exact (visiting.departs found suits).fanOut visiting.origin
    | tagOpen tag arrows =>
      obtain ⟨departs, fresh⟩ : p'.depart = p'.arrive.inGroup tag ∧ ∀ t ∈ tag, t ∉ p'.arrive.groups :=
        suits
      dsimp only
      cases bound : m.bind tag Tracker.bindStart with
      | error f => trivial
      | ok m' =>
        have departs := visiting.departs_of_bind found Tracker.undo_bindStart
          (fun t other => by simp [departs, Nesting.inGroup, other])
          (fun t same tracker here fits => fits.bindStart (fresh t same)
            (by simp [departs, Nesting.inGroup, same]) here) bound
        exact departs.fanOut visiting.origin
    | tagClose tag arrows =>
      obtain ⟨arrives, fresh⟩ : p'.arrive = p'.depart.inGroup tag ∧ ∀ t ∈ tag, t ∉ p'.depart.groups :=
        suits
      dsimp only
      cases bound : m.bind tag Tracker.bindStop with
      | error f => trivial
      | ok m' =>
        have departs := visiting.departs_of_bind found Tracker.undo_bindStop
          (fun t other => by simp [arrives, Nesting.inGroup, other])
          (fun t same tracker here fits => fits.bindStop
            (by simp [arrives, Nesting.inGroup, same]) (fresh t same) here) bound
        exact departs.fanOut visiting.origin
    | trap k r body leave => exact talliesAfter_enterTrap placed visiting found
    | terminal =>
      dsimp only
      split
      · exact .resuming visiting.backs
      · trivial

theorem talliesAfter_resume (placed : g.Placed places) (tallies : Tallies g places m h)
    (resumes : m.control = .resume) : TalliesAfter g places m h (Machine.resume g m) := by
  obtain ⟨control, cursor, ⟨trail, trackers, slots⟩⟩ := m
  obtain ⟨path, kept⟩ := h
  obtain rfl : control = .resume := resumes
  have backed : Backed g places trail kept trackers slots := tallies.backed
  cases backed with
  | bottom => trivial
  | @arrow id index here state p n path' trail kept _ _ found more place route fits tells backed =>
    simp only [Machine.resume, Machine.resumeArrow, found, Array.getElem?_eq_getElem more]
    have departs : Departs g places ⟨path', kept⟩ id state p
        ⟨.resume, moveTo cursor here, ⟨trail, trackers, slots⟩⟩ :=
      ⟨⟨0, backed⟩, found, place, ⟨n, route⟩, fits, tells⟩
    split
    · rename_i further
      exact (departs.push here further).take rfl (Array.getElem_mem more)
    · exact departs.take rfl (Array.getElem_mem more)
  | @leave id here k r body leave p n path' trail kept _ _ found place route fits tells backed =>
    obtain ⟨slot, inside, _⟩ := tells id k r body leave found
    simp only [Machine.resume, Machine.resumeLeave, found, inside]
    refine talliesAfter_leave placed (h := ⟨path, path' :: kept⟩)
      (m := ⟨.resume, moveTo cursor here, ⟨trail, trackers, slots⟩⟩) ⟨0, backed⟩ rfl found place route
      fits tells ?_ inside rfl
    intro trap out other
    exact (rounds_cons_of_ne (Ne.symm other) path').symm
  | @tag tag undo path' trail kept _ _ _ _ backed =>
    exact .resuming (m := ⟨.resume, cursor, ⟨trail, _, slots⟩⟩) ⟨0, backed⟩
  | @trap k slot path' trail kept _ _ _ backed =>
    exact .resuming (m := ⟨.resume, cursor, ⟨trail, trackers, _⟩⟩) ⟨0, backed⟩

theorem Tallies.step (placed : g.Placed places) (tallies : Tallies g places m h) (matchToEnd : Bool) :
    TalliesAfter g places m h (Machine.step g matchToEnd m) := by
  unfold Machine.step
  split
  · rename_i id visits
    obtain ⟨p, visiting⟩ := tallies.visiting placed visits
    exact talliesAfter_visit placed matchToEnd visiting
  · rename_i resumes
    exact talliesAfter_resume placed tallies resumes

theorem tallies_of_records (placed : g.Placed places) {matchToEnd : Bool} {cache : Cache P} {c : S}
    (records : Records g matchToEnd (.start g cache c) m h) : Tallies g places m h := by
  induction records with
  | begin =>
    rw [Machine.start, prepare_eq_ofGraph]
    have idle : SlotsTell g [] (Array.replicate g.trapCount (.idle : Slot P)) := by
      intro trap k r body leave found
      refine ⟨.idle, ?_, rfl⟩
      rw [Array.getElem?_replicate, if_pos]
      refine placed.numbered.below trap.val k ?_
      rw [show g.states[trap.val]? = _ from found]
      rfl
    have empty : (Cache.ofGraph g : Cache P).trackers = Array.replicate g.names.size .empty := by
      simp [Cache.ofGraph, Cache.prepare]
    have fresh : TrackersFit [] (Cache.ofGraph g : Cache P).trackers := by
      intro i t found
      refine ⟨fun inside => (by cases inside), fun _ => .inl ?_⟩
      rw [empty] at found
      exact (Array.mem_replicate.1 (Array.mem_of_getElem? found)).2
    refine ⟨.bottom fresh.tidy (by simp [empty]) (by simp [Cache.ofGraph, Cache.prepare]), ?_⟩
    rintro _ ⟨⟩
    exact ⟨_, .start, fresh, idle⟩
  | step _ moved ih =>
    have tallies := ih.step placed matchToEnd
    rw [moved] at tallies
    exact tallies

theorem cache_of_take {event' : Option (Event P)} {m' : Machine S P}
    (moved : Machine.take g event m a = .move event' m') :
    m'.cache = m.cache := by
  unfold Machine.take at moved
  split at moved <;> cases moved <;> rfl

theorem count_of_enterTrap {k : TrapId} {r : Repetition} {body leave : Arrow} {old : Slot P}
    {m' : Machine S P} (inside : m.cache.slots[k.val]? = some old) (outside : old.active = false)
    (moved : Machine.enterTrap g m id k r body leave = .move event m') :
    ∃ slot, m'.cache.slots[k.val]? = some slot ∧ slot.count = 0 := by
  have arrived : Machine.arrived old = ⟨true, 0, none⟩ := by
    rw [Machine.arrived, outside]
    rfl
  have set (new : Slot P) : (m.setSlot k old new).cache.slots[k.val]? = some new := by
    have bound := (Array.getElem?_eq_some_iff.1 inside).1
    simp [Machine.setSlot, bound]
  unfold Machine.enterTrap at moved
  simp only [inside, outside, Bool.false_and, Bool.false_eq_true, ↓reduceIte, arrived] at moved
  split at moved
  · rw [cache_of_take moved]
    refine ⟨⟨true, 0, some (pos m.cursor)⟩, ?_, rfl⟩
    split
    · exact set _
    · exact set _
  · split at moved
    · rw [cache_of_take moved]
      exact ⟨_, set _, rfl⟩
    · cases moved
      exact ⟨_, set _, rfl⟩

end Steps

/-- Wherever a search comes, its tables tell the path to there. A tracker has one start at most, and
one if it has an end. A slot is active inside of its loop, between the arrow into the body and the one
out of it; it then holds how many rounds were completed and where the one in progress began. A loop that
is come to from outside starts again, and a search ends outside of all loops and groups. -/
theorem tables_tell_path [Token T] [DecidableEq T] [DecidableEq P] {options : Options}
    {pattern : String} {g : Graph} (compiled : compile options pattern = .ok g) {matchToEnd : Bool}
    {cache : Cache P} {c : S} {m : Machine S P} {h : History P}
    (records : Records g matchToEnd (.start g cache c) m h) :
    (∀ t ∈ m.cache.trackers, t.starts.length ≤ 1 ∧ (t.stop.isSome = true → t.starts.length = 1)) ∧
    (∀ k < m.cache.slots.size, ∃ trap r body leave, g.state? trap = some (.trap ⟨k⟩ r body leave)) ∧
    ∀ id, m.control = .visit id →
      (∀ trap k r body leave, g.state? trap = some (.trap k r body leave) →
        ∃ slot, m.cache.slots[k.val]? = some slot ∧ slot.Tells (rounds trap leave.target h.path) ∧
          (slot.active = true ↔
            ∃ leg, h.path.head? = some leg ∧ g.LoopArrow trap leg.source leg.target) ∧
          (trap = id → slot.active = false → ∀ event m', Machine.step g matchToEnd m = .move event m' →
            ∃ slot', m'.cache.slots[k.val]? = some slot' ∧ slot'.count = 0)) ∧
      (g.state? id = some .terminal → (∀ s ∈ m.cache.slots, s.active = false) ∧
        ∀ t ∈ m.cache.trackers, t.starts ≠ [] → t.stop.isSome = true) := by
  obtain ⟨places, placed⟩ := placed_of_compile compiled
  have tallies := tallies_of_records placed records
  have numbered : ∀ k < m.cache.slots.size,
      ∃ trap r body leave, g.state? trap = some (.trap ⟨k⟩ r body leave) := by
    intro k inside
    rw [tallies.backed.size_slots] at inside
    obtain ⟨i, found⟩ := placed.numbered.onto k inside
    obtain ⟨state, found, number⟩ := Option.bind_eq_some_iff.1 found
    cases state with
    | trap k' r body leave =>
      cases number
      exact ⟨⟨i⟩, r, body, leave, found⟩
    | relay | fanout | tagOpen | tagClose | terminal => cases number
  refine ⟨fun t mem => ?_, numbered, fun id visits => ?_⟩
  · have tidy := tallies.backed.tidy t mem
    exact ⟨tidy.single, tidy.started⟩
  obtain ⟨n, route, fits, tells⟩ := tallies.visits id visits
  refine ⟨fun trap k r body leave found => ?_, fun ends => ?_⟩
  · obtain ⟨slot, inside, told⟩ := tells trap k r body leave found
    refine ⟨slot, inside, told, ?_, ?_⟩
    · rw [told.active_iff, route.rounds_ne_nil_iff placed found]
    · rintro rfl outside event m' moved
      simp only [Machine.step, visits, Machine.visit, found] at moved
      exact count_of_enterTrap inside outside moved
  · obtain ⟨p, place, lies⟩ := placed.lies id _ ends
    obtain ⟨_, place', meets⟩ := route.meets placed
    obtain rfl := Option.some.inj (place.symm.trans place')
    have arrives : p.arrive = .outside := lies.suits
    constructor
    · intro s mem
      obtain ⟨k, found⟩ := Array.mem_iff_getElem?.1 mem
      obtain ⟨trap, r, body, leave, state⟩ :=
        numbered k (Array.getElem?_eq_some_iff.1 found).1
      obtain ⟨slot, inside, told⟩ := tells trap _ r body leave state
      obtain rfl := Option.some.inj (found.symm.trans inside)
      apply Bool.eq_false_iff.2
      intro active
      have inLoop := (route.mem_loops_iff placed state).2 (told.active_iff.1 active)
      rcases meets with rfl | rfl
      · rw [arrives] at inLoop
        cases inLoop
      · rw [arrives] at inLoop
        obtain rfl := List.mem_singleton.1 inLoop
        cases state.symm.trans ends
    · intro t mem started
      obtain ⟨i, found⟩ := Array.mem_iff_getElem?.1 mem
      refine (fits i t found).stopped ?_ started
      rcases meets with rfl | rfl <;> rw [arrives] <;> exact List.not_mem_nil

theorem tables_tell_path_nestedLoops :
    ∃ g, compile .unset "(a*)*" = .ok g ∧ ∃ m h,
      Records g true (.start g (.ofGraph g) (TextCursor.start "aab")) m h ∧
      m.control = .visit ⟨5⟩ ∧ m.cache.slots = #[⟨true, 1, some 2⟩, ⟨false, 2, some 2⟩] ∧
      (∀ t ∈ m.cache.trackers, t.starts.length ≤ 1 ∧ (t.stop.isSome = true → t.starts.length = 1)) ∧
      ∀ trap k r body leave, g.state? trap = some (.trap k r body leave) →
        ∃ slot, m.cache.slots[k.val]? = some slot ∧ slot.Tells (rounds trap leave.target h.path) ∧
          (slot.active = true ↔
            ∃ leg, h.path.head? = some leg ∧ g.LoopArrow trap leg.source leg.target) := by
  have recorded : ((compile .unset "(a*)*").toOption.map fun g =>
      let m := (record g true 11 (.start g (.ofGraph g) (TextCursor.start "aab")) .empty).1
      (m.control, m.cache.slots)) =
      some (.visit ⟨5⟩, #[⟨true, 1, some 2⟩, ⟨false, 2, some 2⟩]) := by decide +kernel
  have compiles : (compile .unset "(a*)*").toOption.isSome = true := by decide +kernel
  obtain ⟨g, compiled⟩ := Except.exists_eq_ok compiles
  rw [compiled] at recorded
  obtain ⟨control, slots⟩ := Prod.mk.inj (Option.some.inj recorded)
  have begins : Records g true (.start g (.ofGraph g) (TextCursor.start "aab"))
      (.start g (.ofGraph g) (TextCursor.start "aab")) .empty := .begin
  have records := records_record g true 11 begins
  obtain ⟨trackers, _, tells⟩ := tables_tell_path compiled records
  refine ⟨g, compiled, _, _, records, control, slots, trackers, ?_⟩
  intro trap k r body leave found
  obtain ⟨slot, inside, told, active, _⟩ := (tells _ control).1 trap k r body leave found
  exact ⟨slot, inside, told, active⟩

end PatternGraph
