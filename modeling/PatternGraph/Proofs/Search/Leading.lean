import PatternGraph.Proofs.Graph.Realization
import PatternGraph.Proofs.Search.Rewinding
import PatternGraph.Search.Backtracker

/-!
The literal at the front of a graph. As long as a single way leads on from the start, nothing is left
for later on the trail, so a search that fails on that way fails for good: a graph of any shape
accepts only where its leading literal lies ahead.
-/
namespace PatternGraph
open Cursor

variable {S T P : Type} [Cursor S T P] [Token T] [DecidableEq T] [DecidableEq P]

/-- The entry takes a change back and offers no other way. -/
def TrailEntry.Undoes : TrailEntry P → Prop
  | .arrow .. | .leave .. => False
  | .tag .. | .trap .. => True

namespace Machine
variable {g : Graph} {matchToEnd : Bool}

theorem run_mono {n k : Nat} {m : Machine S P} {r : Bool × Machine S P}
    (ran : run g matchToEnd n m = .ok r) (le : n ≤ k) : run g matchToEnd k m = .ok r := by
  induction n generalizing m k with
  | zero => cases ran
  | succ n ih =>
    obtain ⟨k, rfl⟩ := Nat.exists_eq_add_of_le' (Nat.lt_of_lt_of_le (Nat.succ_pos n) le)
    rw [run] at ran ⊢
    split at ran
    · exact ih ran (by omega)
    · exact ran
    · exact ran
    · cases ran

theorem run_unique {n k : Nat} {m : Machine S P} {r r' : Bool × Machine S P}
    (ran : run g matchToEnd n m = .ok r) (ran' : run g matchToEnd k m = .ok r') : r = r' := by
  have same := run_mono ran (Nat.le_max_left n k)
  rw [run_mono ran' (Nat.le_max_right n k), Except.ok.injEq] at same
  exact same.symm

/-- With no other way left on the trail, going back does not lead to acceptance. -/
theorem not_accepts_of_undoes {n : Nat} {m m' : Machine S P} (going : m.control = .resume)
    (undoes : ∀ e ∈ m.cache.trail, e.Undoes) : run g matchToEnd n m ≠ .ok (true, m') := by
  intro ran
  induction n generalizing m with
  | zero => cases ran
  | succ n ih =>
    obtain ⟨control, cursor, ⟨trail, trackers, slots⟩⟩ := m
    obtain rfl : control = .resume := going
    cases trail with
    | nil => cases ran
    | cons entry trail =>
      have rest : ∀ e ∈ trail, e.Undoes := fun e mem => undoes e (List.mem_cons_of_mem _ mem)
      cases entry with
      | arrow | leave => exact undoes _ (List.mem_cons_self ..)
      | tag tag undo =>
        apply ih (m := ⟨.resume, cursor, ⟨trail, trackers.modify tag.val (·.undo undo), slots⟩⟩) rfl
        · exact rest
        · exact ran
      | trap trap slot =>
        apply ih (m := ⟨.resume, cursor, ⟨trail, trackers, slots.setIfInBounds trap.val slot⟩⟩) rfl
        · exact rest
        · exact ran

omit [Token T] [DecidableEq T] [DecidableEq P] in
theorem bind_keeps {m m₁ : Machine S P} {tag : Option TagId}
    {change : Tracker P → P → Tracker.Undo P × Tracker P} (bound : m.bind tag change = .ok m₁)
    (undoes : ∀ e ∈ m.cache.trail, e.Undoes) :
    m₁.cursor = m.cursor ∧ ∀ e ∈ m₁.cache.trail, e.Undoes := by
  unfold bind at bound
  split at bound
  · cases bound
    exact ⟨rfl, undoes⟩
  · simp only at bound
    split at bound
    · cases bound
    · cases bound
      constructor
      · rfl
      · intro e mem
        rcases List.mem_cons.1 mem with rfl | mem
        · trivial
        · exact undoes e mem

theorem fanOut_single {m : Machine S P} {id : StateId} {arrows : Array Arrow} {a : Arrow}
    (single : arrows.size = 1) (only : arrows[0]? = some a) : fanOut g m id arrows = take g none m a := by
  rw [fanOut, only, single]
  rfl

/-- Where one way leads on, the machine takes it and leaves nothing for later. -/
theorem visit_onlyArrow {m : Machine S P} {id : StateId} {state : State} {a : Arrow}
    (found : g.state? id = some state) (only : state.onlyArrow? = some a)
    (undoes : ∀ e ∈ m.cache.trail, e.Undoes) :
    (∃ f, visit g matchToEnd m id = .fault f) ∨
      ∃ m₁ : Machine S P, visit g matchToEnd m id = take g none m₁ a ∧ m₁.cursor = m.cursor ∧
        ∀ e ∈ m₁.cache.trail, e.Undoes := by
  have tagged (tag : Option TagId) (arrows : Array Arrow)
      (change : Tracker P → P → Tracker.Undo P × Tracker P)
      (faults : ∀ f, m.bind tag change = .error f → visit g matchToEnd m id = .fault f)
      (visits : ∀ m₁, m.bind tag change = .ok m₁ →
        visit g matchToEnd m id = fanOut g m₁ id arrows)
      (only : (if arrows.size = 1 then arrows[0]? else none) = some a) :
      (∃ f, visit g matchToEnd m id = .fault f) ∨
        ∃ m₁ : Machine S P, visit g matchToEnd m id = take g none m₁ a ∧ m₁.cursor = m.cursor ∧
          ∀ e ∈ m₁.cache.trail, e.Undoes := by
    cases bound : m.bind tag change with
    | error f => exact .inl ⟨f, faults f bound⟩
    | ok m₁ =>
      split at only
      · rename_i single
        rw [visits m₁ bound]
        exact .inr ⟨m₁, fanOut_single single only, bind_keeps bound undoes⟩
      · cases only
  cases state with
  | relay b =>
    cases only
    exact .inr ⟨m, by rw [visit, found], rfl, undoes⟩
  | fanout | trap | terminal => cases only
  | tagOpen tag arrows =>
    refine tagged tag arrows Tracker.bindStart ?_ ?_ only
    · intro f bound
      simp only [visit, found, bound]
    · intro m₁ bound
      simp only [visit, found, bound]
  | tagClose tag arrows =>
    refine tagged tag arrows Tracker.bindStop ?_ ?_ only
    · intro f bound
      simp only [visit, found, bound]
    · intro m₁ bound
      simp only [visit, found, bound]

theorem along_of_take {n : Nat} {m m' : Machine S P} {a : Arrow} {event : Option (Event P)}
    (undoes : ∀ e ∈ m.cache.trail, e.Undoes) (takes : step g matchToEnd m' = take g event m a)
    {m'' : Machine S P} (ran : run g matchToEnd n m' = .ok (true, m'')) :
    ∃ k c, along g m.cache.trackers m.cursor a.label = .ok (some c) ∧
      run g matchToEnd k { m with control := .visit a.target, cursor := c } = .ok (true, m'') := by
  cases n with
  | zero => cases ran
  | succ n =>
    rw [run, takes] at ran
    cases goes : along g m.cache.trackers m.cursor a.label with
    | error f =>
      rw [take_of_fault goes] at ran
      cases ran
    | ok found =>
      cases found with
      | none =>
        obtain ⟨c, _, taken⟩ := take_of_none event goes
        rw [taken] at ran
        exact absurd ran (not_accepts_of_undoes rfl undoes)
      | some c =>
        rw [take_of_some goes] at ran
        exact ⟨n, c, rfl, ran⟩

theorem passes_of_leadingWalk {n k : Nat} {id : StateId} {m m' : Machine S P} {cs : List Char}
    (walk : leadingWalk g.states k id = some cs) (visiting : m.control = .visit id)
    (undoes : ∀ e ∈ m.cache.trail, e.Undoes) (ran : run g matchToEnd n m = .ok (true, m')) :
    ∃ c, nextChars m.cursor cs = some c := by
  induction k generalizing id m n with
  | zero => cases walk
  | succ k ih =>
    rw [leadingWalk] at walk
    split at walk
    · cases walk
    · rename_i a only
      obtain ⟨state, found, only⟩ := Option.bind_eq_some_iff.1 only
      have stands : step g matchToEnd m = visit g matchToEnd m id := by rw [step, visiting]
      have visits : (∃ f, visit g matchToEnd m id = .fault f) ∨ _ := visit_onlyArrow found only undoes
      rcases visits with ⟨f, faults⟩ | ⟨m₁, takes, cursor, undoes₁⟩
      · cases n with
        | zero => cases ran
        | succ n =>
          rw [run, stands, faults] at ran
          cases ran
      · obtain ⟨n₁, c, goes, ran₁⟩ := along_of_take undoes₁ (stands.trans takes) ran
        rw [cursor] at goes
        split at walk
        · rename_i empty
          rw [empty] at goes
          cases goes
          exact ih (m := { m₁ with control := .visit a.target, cursor := m.cursor }) walk rfl undoes₁
            ran₁
        · rename_i ch label
          cases walk
          rw [label, along, Except.ok.injEq] at goes
          exact ⟨c, by rw [nextChars, goes]; rfl⟩
        · rename_i label
          cases walk
          rw [label, along, Except.ok.injEq] at goes
          exact ⟨c, goes⟩
        · cases walk
        · cases walk
        · cases walk

theorem passes_of_leadingLiteral {n : Nat} {cache : Cache P} {c : S} {m' : Machine S P}
    {cs : List Char} (leading : leadingLiteral g.states g.start = some cs)
    (ran : run g matchToEnd n (start g cache c) = .ok (true, m')) :
    ∃ c', nextChars c cs = some c' := by
  apply passes_of_leadingWalk (m := start g cache c) leading rfl
  · intro e mem
    cases mem
  · exact ran

end Machine

namespace Backtracker

theorem run_of_search {b : Backtracker} {steps : Nat} {cache cache' : Cache P} {c : S}
    {found : Option S} (searched : b.search steps cache c = .ok (found, cache')) :
    ∃ m, Machine.run b.graph b.matchToEnd steps (.start b.graph cache c) = .ok (found.isSome, m) ∧
      (∀ c', found = some c' → m.cursor = c') := by
  unfold search at searched
  split at searched
  · cases searched
  · rename_i accepted m ran
    cases searched
    cases accepted with
    | false => exact ⟨m, ran, by simp⟩
    | true => exact ⟨m, ran, by simp⟩

end Backtracker

/-- A search that succeeds begins where the tokens ahead stand for the leading literal. This holds of the
graph of every draft, however its states are joined, and whatever the match has to consume. -/
theorem search_begins_with_leading {d : Draft} {start : StateId} {names : GroupNames} {g : Graph}
    {cs : List Char} (built : d.finish start names = .ok g) (leading : g.leading = some cs)
    {matchToEnd : Bool} {steps : Nat} {cache cache' : Cache P} {c c' : S}
    (searched : (Backtracker.mk g matchToEnd).search steps cache c = .ok (some c', cache')) :
    ∃ (ts : List T) (c₁ : S), Passes c ts c₁ ∧ ts.map Token.toChar = cs := by
  obtain ⟨m, ran, -⟩ := Backtracker.run_of_search searched
  rw [(Draft.finishes_of_finish built).leading] at leading
  obtain ⟨c₁, passed⟩ := Machine.passes_of_leadingLiteral leading ran
  obtain ⟨ts, passes, spelled⟩ := nextChars_eq_some_iff.1 passed
  exact ⟨ts, c₁, passes, spelled⟩

def literalRound : Draft where
  states := #[.fanout #[.empty ⟨1⟩], .tagOpen (some ⟨0⟩) #[⟨.literal ['a', 'b'], ⟨2⟩⟩],
    .tagClose (some ⟨0⟩) #[.empty ⟨3⟩], .fanout #[.empty ⟨0⟩, .empty ⟨4⟩], .terminal]
  classes := #[]
  trapCount := 0
  stateLimit := none

def literalRoundGraph : Graph where
  states := #[.relay (.empty ⟨1⟩), .tagOpen (some ⟨0⟩) #[⟨.literal ['a', 'b'], ⟨2⟩⟩],
    .tagClose (some ⟨0⟩) #[.empty ⟨3⟩], .fanout #[.empty ⟨0⟩, .empty ⟨4⟩], .terminal]
  start := ⟨0⟩
  terminal := ⟨4⟩
  classes := #[]
  names := .single
  trapCount := 0
  leading := some ['a', 'b']

theorem search_begins_with_leading_literalRound :
    literalRound.finish ⟨0⟩ .single = .ok literalRoundGraph ∧
      ∃ c' cache', (Backtracker.mk literalRoundGraph true).search 50 ⟨[], #[], #[]⟩
          (TokenCursor.start #['a', 'b', 'a', 'b']) = .ok (some c', cache') ∧
        ∃ (ts : List Char) (c₁ : TokenCursor Char),
          Passes (TokenCursor.start #['a', 'b', 'a', 'b']) ts c₁ ∧
            ts.map Token.toChar = ['a', 'b'] := by
  have built : literalRound.finish ⟨0⟩ .single = .ok literalRoundGraph := rfl
  have succeeds : ((Backtracker.mk literalRoundGraph true).search 50 ⟨[], #[], #[]⟩
      (TokenCursor.start #['a', 'b', 'a', 'b'])).toOption.map (·.1.isSome) = some true := by
    decide +kernel
  cases searched : (Backtracker.mk literalRoundGraph true).search 50 ⟨[], #[], #[]⟩
      (TokenCursor.start #['a', 'b', 'a', 'b']) with
  | error f =>
    rw [searched] at succeeds
    cases succeeds
  | ok result =>
    obtain ⟨found, cache'⟩ := result
    rw [searched] at succeeds
    obtain ⟨c', rfl⟩ := Option.isSome_iff_exists.1 (Option.some.inj succeeds)
    exact ⟨built, c', cache', rfl, search_begins_with_leading built rfl searched⟩

/-- From a circle of states with nothing to choose no literal is read off. -/
example : leadingLiteral #[.relay (.empty ⟨1⟩), .relay (.empty ⟨0⟩)] ⟨0⟩ = none := by decide

end PatternGraph
