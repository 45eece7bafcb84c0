import PatternGraph.Proofs.Graph.Places
import PatternGraph.Search.Machine

/-!
The way that a search has come, without what it has gone back on. The machine does not keep it: it is
recorded beside a run, one leg for each arrow, together with the paths to what was put on the trail. In a
compiled graph the last leg alone tells which loops the path is in, since loops are nested.
-/
namespace PatternGraph
open Cursor

structure Leg (P : Type) where
  source : StateId
  pos : P
  target : StateId

/-- The legs from the start to where the machine is, newest first, and for each entry of the trail those
to where it was put there. -/
structure History (P : Type) where
  path : List (Leg P)
  kept : List (List (Leg P))

namespace History
variable {P : Type}

def empty : History P := ⟨[], []⟩

/-- Going back takes an entry off the trail and the path with it. -/
def recalled (h : History P) : Control → History P
  | .visit _ => h
  | .resume => ⟨h.kept.headD [], h.kept.tail⟩

end History

variable {S T P : Type} [Cursor S T P]

/-- Where the next arrow is gone along from, unless the step is to take a change back. -/
def Machine.origin? (m : Machine S P) : Option (StateId × P) :=
  match m.control, m.cache.trail with
  | .visit id, _ => some (id, pos m.cursor)
  | .resume, .arrow id _ here :: _ | .resume, .leave id here :: _ => some (id, here)
  | .resume, _ => none

def History.after (h : History P) (m m' : Machine S P) : History P :=
  let past := h.recalled m.control
  { path := match m.origin?, m'.control with
      | some (id, here), .visit next => ⟨id, here, next⟩ :: past.path
      | _, _ => past.path
    kept := List.replicate (m'.cache.trail.length - past.kept.length) past.path ++ past.kept }

inductive Records [Token T] [DecidableEq T] [DecidableEq P] (g : Graph) (matchToEnd : Bool)
    (start : Machine S P) : Machine S P → History P → Prop
  | begin : Records g matchToEnd start start .empty
  | step {m h event m'} : Records g matchToEnd start m h →
      Machine.step g matchToEnd m = .move event m' → Records g matchToEnd start m' (h.after m m')

section Record
variable [Token T] [DecidableEq T] [DecidableEq P] (g : Graph) (matchToEnd : Bool)

/-- The machine after some steps, or where it comes to an end before, and its history. -/
def record : Nat → Machine S P → History P → Machine S P × History P
  | 0, m, h => (m, h)
  | steps + 1, m, h =>
    match Machine.step g matchToEnd m with
    | .move _ m' => record steps m' (h.after m m')
    | .accept _ | .exhaust _ | .fault _ => (m, h)

theorem records_record {start m : Machine S P} {h : History P} (steps : Nat)
    (records : Records g matchToEnd start m h) :
    Records g matchToEnd start (record g matchToEnd steps m h).1 (record g matchToEnd steps m h).2 := by
  induction steps generalizing m h with
  | zero => exact records
  | succ steps ih =>
    unfold record
    split
    · rename_i moved
      exact ih (records.step moved)
    · exact records
    · exact records
    · exact records

end Record

/-- Where the rounds of a loop began since it was last left, newest first. `out` is where the loop is
left to. -/
def rounds (trap out : StateId) : List (Leg P) → List P
  | [] => []
  | leg :: path =>
    if leg.source = trap then
      if leg.target = out then [] else leg.pos :: rounds trap out path
    else rounds trap out path

/-- The arrows in a loop: one leads from its trap into the body, and the others on from there until the
trap is come to again. -/
inductive Graph.LoopArrow (g : Graph) (trap : StateId) : StateId → StateId → Prop
  | body {k r body leave} : g.state? trap = some (.trap k r body leave) →
      LoopArrow g trap trap body.target
  | onward {source id state target} : LoopArrow g trap source id → id ≠ trap →
      g.state? id = some state → target ∈ state.targets → LoopArrow g trap id target

namespace State
variable {id : StateId} {p : Place} {state : State} {target : StateId}

theorem mem_ways_trap {k : TrapId} {r : Repetition} {body leave : Arrow} {way : Nesting × StateId} :
    way ∈ (State.trap k r body leave).draft.ways id p ↔
      way = (p.arrive.inLoop id, body.target) ∨ way = (p.depart, leave.target) := by
  simp [draft, DraftState.ways]

theorem exists_way (mem : target ∈ state.targets) : ∃ n, (n, target) ∈ state.draft.ways id p := by
  cases state with
  | relay | fanout | tagOpen | tagClose =>
    obtain ⟨a, inside, rfl⟩ := List.mem_map.1 mem
    exact ⟨p.depart, List.mem_map.2 ⟨a, inside, rfl⟩⟩
  | trap k r body leave =>
    simp only [targets, List.mem_cons, List.not_mem_nil, or_false] at mem
    rcases mem with rfl | rfl
    · exact ⟨_, mem_ways_trap.2 (.inl rfl)⟩
    · exact ⟨_, mem_ways_trap.2 (.inr rfl)⟩
  | terminal => cases mem

theorem target_of_way {way : Nesting × StateId} (mem : way ∈ state.draft.ways id p) :
    way.2 ∈ state.targets := by
  cases state with
  | relay | fanout | tagOpen | tagClose =>
    obtain ⟨a, inside, rfl⟩ := List.mem_map.1 mem
    exact List.mem_map.2 ⟨a, inside, rfl⟩
  | trap k r body leave =>
    rcases mem_ways_trap.1 mem with rfl | rfl
    · exact List.mem_cons_self
    · exact List.mem_cons_of_mem _ List.mem_cons_self
  | terminal => cases mem

theorem way_of_arrow {a : Arrow} (mem : a ∈ state.arrows) :
    (p.depart, a.target) ∈ state.draft.ways id p := by
  cases state with
  | relay | fanout | tagOpen | tagClose => exact List.mem_map.2 ⟨a, Array.mem_toList_iff.2 mem, rfl⟩
  | trap | terminal => simp [arrows] at mem

end State

namespace DraftState.Lies
variable {places : List Place} {id trap : StateId} {p : Place} {s : DraftState}

theorem mem_loops_iff (h : s.Lies places id p) {way : Nesting × StateId} (mem : way ∈ s.ways id p)
    {n : Nesting} (fits : n = p.arrive ∨ n = p.arrive.inLoop id) (other : trap ≠ id) :
    trap ∈ way.1.loops ↔ trap ∈ n.loops := by
  have around : trap ∈ n.loops ↔ trap ∈ p.arrive.loops := by
    rcases fits with rfl | rfl
    · rfl
    · simp [Nesting.inLoop, other]
  rw [around]
  have suits := h.suits
  cases s with
  | fanout as =>
    obtain ⟨a, _, rfl⟩ := List.mem_map.1 mem
    rw [suits]
  | tagOpen tag as =>
    obtain ⟨a, _, rfl⟩ := List.mem_map.1 mem
    rw [suits.1]
    rfl
  | tagClose tag as =>
    obtain ⟨a, _, rfl⟩ := List.mem_map.1 mem
    rw [suits.1]
    rfl
  | trap k r body leave =>
    rcases List.mem_append.1 mem with mem | mem
    · obtain ⟨a, _, rfl⟩ := List.mem_map.1 mem
      simp [Nesting.inLoop, other]
    · obtain ⟨a, _, rfl⟩ := List.mem_map.1 mem
      rw [suits.1]
  | terminal => cases mem

end DraftState.Lies

namespace Graph
variable {g : Graph} {places : List Place} {id trap : StateId} {n : Nesting} {path : List (Leg P)}
  {k : TrapId} {r : Repetition} {body leave : Arrow}

theorem Placed.apart (placed : g.Placed places) (found : g.state? trap = some (.trap k r body leave)) :
    body.target ≠ leave.target := by
  intro same
  obtain ⟨p, _, lies⟩ := placed.lies trap _ found
  obtain ⟨departs, _, elsewhere⟩ := lies.suits
  obtain ⟨q, place, fits⟩ := lies.leads (p.arrive.inLoop trap, body.target) List.mem_cons_self
  obtain ⟨q', place', fits'⟩ :=
    lies.leads (p.depart, leave.target) (List.mem_cons_of_mem _ List.mem_cons_self)
  rw [departs] at fits'
  rw [same] at place fits
  obtain rfl := Option.some.inj (place'.symm.trans place)
  rcases fits with fits | fits
  · rcases fits' with fits' | fits'
    · rw [← fits'] at fits
      exact absurd (congrArg (·.loops.length) fits) (Nat.succ_ne_self _)
    · rw [← fits] at fits'
      have := congrArg (·.loops.length) fits'
      simp only [Nesting.inLoop, List.length_cons] at this
      omega
  · have := congrArg (·.loops.head?) fits
    exact elsewhere leave rfl (Option.some.inj this).symm

inductive Route (g : Graph) (places : List Place) : List (Leg P) → StateId → Nesting → Prop
  | start : Route g places [] g.start .outside
  | leg {path id n state p way} (here : P) : Route g places path id n → g.state? id = some state →
      places[id.val]? = some p → way ∈ state.draft.ways id p →
      Route g places (⟨id, here, way.2⟩ :: path) way.2 way.1

theorem Route.meets (route : g.Route places path id n) (placed : g.Placed places) :
    n.Meets places id := by
  cases route with
  | start => exact placed.start
  | leg _ _ found place mem =>
    obtain ⟨p, place', lies⟩ := placed.lies _ _ found
    obtain rfl := Option.some.inj (place'.symm.trans place)
    exact lies.leads _ mem

theorem Route.mem_loops_iff (route : g.Route places path id n) (placed : g.Placed places)
    (found : g.state? trap = some (.trap k r body leave)) :
    trap ∈ n.loops ↔ rounds trap leave.target path ≠ [] := by
  induction route with
  | start => simp [Nesting.outside, rounds]
  | @leg path id n state p way here route state' place mem ih =>
    obtain ⟨q, place', lies⟩ := placed.lies _ _ state'
    obtain rfl := Option.some.inj (place'.symm.trans place)
    by_cases same : id = trap
    · subst same
      obtain rfl := Option.some.inj (state'.symm.trans found)
      obtain ⟨departs, apart, _⟩ := lies.suits
      rcases State.mem_ways_trap.1 mem with rfl | rfl
      · simp [rounds, Nesting.inLoop, placed.apart found]
      · simp [rounds, departs, apart]
    · obtain ⟨_, place', fits⟩ := route.meets placed
      obtain rfl := Option.some.inj (place'.symm.trans place)
      rw [lies.mem_loops_iff mem fits (Ne.symm same), ih, rounds, if_neg same]

theorem LoopArrow.mem_loops {source target : StateId} (arrow : g.LoopArrow trap source target)
    (placed : g.Placed places) (found : g.state? trap = some (.trap k r body leave)) :
    ∃ state p, g.state? source = some state ∧ places[source.val]? = some p ∧
      target ∈ state.targets ∧
      ∀ n, (n, target) ∈ state.draft.ways source p → trap ∈ n.loops := by
  induction arrow with
  | @body k' r' body' leave' found' =>
    obtain ⟨⟩ := Option.some.inj (found'.symm.trans found)
    obtain ⟨p, place, _⟩ := placed.lies _ _ found
    refine ⟨_, p, found, place, List.mem_cons_self, fun n mem => ?_⟩
    rcases State.mem_ways_trap.1 mem with same | same
    · obtain rfl := congrArg Prod.fst same
      exact List.mem_cons_self
    · exact absurd (congrArg Prod.snd same) (placed.apart found)
  | @onward source id state target _ other state' mem ih =>
    obtain ⟨before, q, found₁, place₁, mem₁, all⟩ := ih
    obtain ⟨p, place, lies⟩ := placed.lies _ _ state'
    refine ⟨state, p, state', place, mem, fun n way => ?_⟩
    obtain ⟨n₁, way₁⟩ : ∃ n, (n, id) ∈ before.draft.ways source q := State.exists_way mem₁
    obtain ⟨q', place', lies₁⟩ := placed.lies _ _ found₁
    obtain rfl := Option.some.inj (place'.symm.trans place₁)
    obtain ⟨_, place', fits⟩ := lies₁.leads _ way₁
    obtain rfl := Option.some.inj (place'.symm.trans place)
    exact (lies.mem_loops_iff way fits (Ne.symm other)).2 (all n₁ way₁)

theorem Route.loopArrow (route : g.Route places path id n) (placed : g.Placed places)
    (found : g.state? trap = some (.trap k r body leave)) (inside : trap ∈ n.loops) :
    ∃ leg, path.head? = some leg ∧ leg.target = id ∧ g.LoopArrow trap leg.source id := by
  induction route with
  | start => cases inside
  | @leg path id n state p way here route state' place mem ih =>
    refine ⟨_, rfl, rfl, ?_⟩
    obtain ⟨q, place', lies⟩ := placed.lies _ _ state'
    obtain rfl := Option.some.inj (place'.symm.trans place)
    by_cases same : id = trap
    · subst same
      obtain rfl := Option.some.inj (state'.symm.trans found)
      obtain ⟨departs, apart, _⟩ := lies.suits
      rcases State.mem_ways_trap.1 mem with rfl | rfl
      · exact .body found
      · rw [departs] at inside
        exact absurd inside apart
    · obtain ⟨_, place', fits⟩ := route.meets placed
      obtain rfl := Option.some.inj (place'.symm.trans place)
      obtain ⟨leg, _, _, before⟩ := ih ((lies.mem_loops_iff mem fits (Ne.symm same)).1 inside)
      exact .onward before same state' (State.target_of_way mem)

theorem Route.rounds_ne_nil_iff (route : g.Route places path id n) (placed : g.Placed places)
    (found : g.state? trap = some (.trap k r body leave)) :
    rounds trap leave.target path ≠ [] ↔
      ∃ leg, path.head? = some leg ∧ g.LoopArrow trap leg.source leg.target := by
  rw [← route.mem_loops_iff placed found]
  constructor
  · intro inside
    obtain ⟨leg, newest, rfl, arrow⟩ := route.loopArrow placed found inside
    exact ⟨leg, newest, arrow⟩
  · rintro ⟨leg, newest, arrow⟩
    obtain ⟨state, p, state', place, _, all⟩ := arrow.mem_loops placed found
    cases route with
    | start => cases newest
    | leg _ _ state'' place' mem =>
      cases newest
      obtain rfl := Option.some.inj (state''.symm.trans state')
      obtain rfl := Option.some.inj (place'.symm.trans place)
      exact all _ mem

end Graph

end PatternGraph
