import PatternGraph.Proofs.Search.Exploration
import PatternGraph.Search.Backtracker

/-!
What a search of a graph that is wired like a tree comes to.
-/
namespace PatternGraph
open Cursor

variable {S T P : Type} [Cursor S T P] [Token T] [DecidableEq T] [DecidableEq P]

namespace Machine
variable {g : Graph} {matchToEnd : Bool} {c : S} {answer : Option (Env S P)}

/-- A machine comes to an end after some number of steps, and more steps change nothing. -/
theorem Ends.run {m : Machine S P} (ends : Ends g matchToEnd m answer) :
    ∃ n m', (∀ steps, n ≤ steps → run g matchToEnd steps m = .ok (answer.isSome, m')) ∧
      ∀ σ, answer = some σ → m'.cursor = σ.cursor ∧ m'.cache.trackers = σ.table g.names.size := by
  induction ends with
  | @accept m m' σ accepts cursor trackers =>
    refine ⟨1, m', fun steps enough => ?_, ?_⟩
    · obtain ⟨k, rfl⟩ := Nat.exists_eq_add_of_le' enough
      rw [Machine.run, accepts]
      rfl
    · rintro _ ⟨⟩
      exact ⟨cursor, trackers⟩
  | @exhaust m m' exhausts =>
    refine ⟨1, m', fun steps enough => ?_, by simp⟩
    obtain ⟨k, rfl⟩ := Nat.exists_eq_add_of_le' enough
    rw [Machine.run, exhausts]
    rfl
  | @move m event m₁ answer moves _ ih =>
    obtain ⟨n, m', runs, holds⟩ := ih
    refine ⟨n + 1, m', fun steps enough => ?_, holds⟩
    obtain ⟨k, rfl⟩ := Nat.exists_eq_add_of_le' enough
    rw [← Nat.add_assoc, Machine.run, moves]
    exact runs (k + n) (by omega)

omit [DecidableEq P] in
theorem start_eq_holding (g : Graph) (cache : Cache P) (c : S) :
    start g cache c =
      holding g (.visit g.start) (.start c) [] (Array.replicate g.trapCount .idle) := by
  rw [start, prepare_eq_ofGraph, holding, Env.table_start]
  simp [Cache.ofGraph, Cache.prepare, Env.start]

theorem step_terminal (matchToEnd : Bool) (σ : Env S P) (trail : List (TrailEntry P))
    (slots : Array (Slot P)) {id : StateId} (state : g.state? id = some .terminal) :
    step g matchToEnd (holding g (.visit id) σ trail slots) =
      if !matchToEnd || isDone σ.cursor then .accept (holding g (.visit id) σ trail slots)
      else .move none (holding g .resume σ trail slots) := by
  simp only [step, holding, visit, state, resuming]
  cases matchToEnd with
  | false => rfl
  | true => by_cases done : isDone σ.cursor = true <;> simp [done]

/-- The machine comes to what the reference matcher comes to. -/
theorem ends_of_realizes {t : Tree} (realizes : g.Realizes t) (restores : Restores c)
    (matchToEnd : Bool) (cache : Cache P) :
    Ends g matchToEnd (start g cache c) (t.matchFrom matchToEnd c) := by
  let stops (σ : Env S P) : Bool := !matchToEnd || isDone σ.cursor
  let go (σ : Env S P) (answer : Option (Env S P)) := if stops σ then some σ else answer
  have first : t.matchFrom matchToEnd c = (t.exits (.start c)).foldr go none := by
    rw [Tree.matchFrom]
    induction t.exits (.start c) with
    | nil => rfl
    | cons σ rest ih =>
      rw [List.find?_cons, List.foldr_cons, ← ih]
      change (match stops σ with | true => some σ | false => rest.find? stops) =
        if stops σ then some σ else rest.find? stops
      cases stops σ <;> rfl
  -- To begin with no loop is being gone round, and a failure has nothing to go back to.
  have poised : Poised g matchToEnd c 0 0 (.start c) [] (Array.replicate g.trapCount .idle) none := by
    refine ⟨.refl c, fun _ _ => rfl, by simp, ?_, fun c' _ => .exhaust rfl⟩
    intro i slot _ found
    obtain ⟨_, rfl⟩ := Array.getElem?_eq_some_iff.1 found
    simp [Slot.idle]
  rw [first, start_eq_holding]
  refine Leads.visit ?_
  refine explores restores realizes.wired realizes.tagsFrom realizes.tagsBelow go g.start 0 poised
    (offers_single g g.start 0 (.empty g.start)) ?_
  intro σ _ trail slots answer _ poised
  apply leads_empty
  have stands := step_terminal matchToEnd σ trail slots realizes.terminal
  change step g matchToEnd _ = if stops σ then _ else _ at stands
  change Ends g matchToEnd _ (if stops σ then some σ else answer)
  cases accepts : stops σ with
  | true =>
    rw [accepts] at stands
    exact .accept stands rfl rfl
  | false =>
    rw [accepts] at stands
    exact .move stands (poised.falls.here poised.ahead)

def Unfinished : Step S P → Prop
  | .move .. | .fault _ => True
  | .accept _ | .exhaust _ => False

theorem unfinished_take (event : Option (Event P)) (m : Machine S P) (a : Arrow) :
    Unfinished (take g event m a) := by
  rw [take]
  split <;> trivial

theorem unfinished_fanOut (m : Machine S P) (id : StateId) (arrows : Array Arrow) :
    Unfinished (fanOut g m id arrows) := by
  rw [fanOut]
  split
  · trivial
  · split <;> exact unfinished_take ..

theorem unfinished_enterTrap (m : Machine S P) (id : StateId) (trap : TrapId) (r : Repetition)
    (body leave : Arrow) : Unfinished (enterTrap g m id trap r body leave) := by
  rw [enterTrap]
  split
  · trivial
  · simp only []
    split
    · exact unfinished_take ..
    · split
      · exact unfinished_take ..
      · split
        · exact unfinished_take ..
        · trivial

theorem unfinished_visit (m : Machine S P) {id : StateId}
    (ordinary : g.state? id ≠ some .terminal) : Unfinished (visit g matchToEnd m id) := by
  rw [visit]
  split
  · trivial
  · exact unfinished_take ..
  · exact unfinished_fanOut ..
  · split
    · trivial
    · exact unfinished_fanOut ..
  · split
    · trivial
    · exact unfinished_fanOut ..
  · exact unfinished_enterTrap ..
  · contradiction

theorem unfinished_resume {m : Machine S P} (left : m.cache.trail ≠ []) :
    Unfinished (resume g m) := by
  rcases m with ⟨control, cursor, ⟨trail, trackers, slots⟩⟩
  cases trail with
  | nil => contradiction
  | cons entry trail =>
    cases entry with
    | arrow id index here =>
      simp only [resume, resumeArrow]
      split
      · trivial
      · split
        · trivial
        · split <;> exact unfinished_take ..
    | leave id here =>
      simp only [resume, resumeLeave]
      split
      · trivial
      · split
        · trivial
        · exact unfinished_take ..
      · trivial
    | tag | trap => trivial

structure Over (g : Graph) (found : Bool) (m : Machine S P) : Prop where
  accepted : found = true → ∃ id, m.control = .visit id ∧ g.state? id = some .terminal
  exhausted : found = false → m.control = .resume ∧ m.cache.trail = []

theorem over_of_step {m m' : Machine S P} {found : Bool}
    (ended : step g matchToEnd m = if found then .accept m' else .exhaust m') : Over g found m' := by
  have finished : ¬ Unfinished (step g matchToEnd m) := by
    rw [ended]
    cases found <;> exact id
  rcases m with ⟨control, cursor, ⟨trail, trackers, slots⟩⟩
  cases control with
  | visit id =>
    by_cases state : g.state? id = some .terminal
    · simp only [step, visit, state] at ended
      split at ended <;> cases found <;> cases ended
      exact ⟨fun _ => ⟨id, rfl, state⟩, by simp⟩
    · exact absurd (unfinished_visit _ state) finished
  | resume =>
    cases trail with
    | nil =>
      cases found <;> cases ended
      exact ⟨by simp, fun _ => ⟨rfl, rfl⟩⟩
    | cons entry trail =>
      exact absurd (unfinished_resume (g := g) (m := ⟨.resume, cursor, ⟨entry :: trail, trackers,
        slots⟩⟩) (List.cons_ne_nil _ _)) finished

theorem over_of_run {n : Nat} {m m' : Machine S P} {found : Bool}
    (ended : run g matchToEnd n m = .ok (found, m')) : Over g found m' := by
  induction n generalizing m with
  | zero => cases ended
  | succ n ih =>
    rw [run] at ended
    split at ended
    · exact ih ended
    · rename_i accepts
      cases ended
      exact over_of_step (m := m) accepts
    · rename_i exhausts
      cases ended
      exact over_of_step (m := m) exhausts
    · cases ended

end Machine

theorem Backtracker.search_of_realizes {g : Graph} {t : Tree} (realizes : g.Realizes t) {c : S}
    (restores : Restores c) (matchToEnd : Bool) (cache : Cache P) :
    ∃ n, ∀ steps, n ≤ steps → ∃ cache',
      (Backtracker.mk g matchToEnd).search steps cache c =
        .ok ((t.matchFrom matchToEnd c).map (·.cursor), cache') ∧
      ∀ tag : TagId, tag.val < g.names.size → (cache'.tracker? tag).bind Tracker.span? =
        (t.matchFrom matchToEnd c).bind fun σ => (σ.captures tag).span? := by
  obtain ⟨n, m, runs, holds⟩ :=
    (Machine.ends_of_realizes realizes restores matchToEnd cache).run
  refine ⟨n, fun steps enough => ?_⟩
  simp only [search, runs steps enough]
  cases answer : t.matchFrom matchToEnd c with
  | none =>
    refine ⟨_, rfl, fun tag _ => ?_⟩
    simp only [Cache.tracker?, Cache.settle, Option.isSome_none, Bool.false_eq_true, if_false,
      Array.getElem?_map, Option.bind_none]
    cases m.cache.trackers[tag.val]? <;> rfl
  | some σ =>
    obtain ⟨cursor, trackers⟩ := holds σ answer
    refine ⟨m.cache.settle true, by simp [cursor], fun tag inside => ?_⟩
    simp only [Cache.tracker?, Cache.settle, if_true, trackers, σ.getElem?_table inside,
      Option.bind_some, Capture.span?_tracker]

end PatternGraph
