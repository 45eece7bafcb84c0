import PatternGraph.Proofs.Search.UndoLog
import PatternGraph.Search.Backtracker

/-!
Caches that are used again. A search prepares the cache that it is given, whatever that was used for
before, so it comes to the answer that it has with a cache of its own, and it leaves the cache in a
state that fits the graph it went through.
-/
namespace PatternGraph
open Cursor

section Tables
variable {S T P : Type}

namespace Machine

def Tracks (n : Nat) : Step S P → Prop
  | .move _ m | .accept m | .exhaust m => m.cache.trackers.size = n
  | .fault _ => True

variable [Cursor S T P]

theorem size_trackers_of_bind {m m' : Machine S P} {tag : Option TagId}
    {change : Tracker P → P → Tracker.Undo P × Tracker P} (bound : m.bind tag change = .ok m') :
    m'.cache.trackers.size = m.cache.trackers.size := by
  unfold bind at bound
  split at bound
  · cases bound
    rfl
  · simp only at bound
    split at bound
    · cases bound
    · cases bound
      exact Array.size_setIfInBounds

variable [Token T] [DecidableEq T] [DecidableEq P] {g : Graph} {n : Nat}

theorem tracks_take (event : Option (Event P)) {m : Machine S P} (a : Arrow)
    (size : m.cache.trackers.size = n) : Tracks n (take g event m a) := by
  rw [take]
  split
  · trivial
  · exact size
  · exact size

theorem tracks_fanOut {m : Machine S P} (id : StateId) (arrows : Array Arrow)
    (size : m.cache.trackers.size = n) : Tracks n (fanOut g m id arrows) := by
  rw [fanOut]
  split
  · exact size
  · split
    · exact tracks_take _ _ size
    · exact tracks_take _ _ size

theorem tracks_enterTrap {m : Machine S P} (id : StateId) (trap : TrapId) (r : Repetition)
    (body leave : Arrow) (size : m.cache.trackers.size = n) :
    Tracks n (enterTrap g m id trap r body leave) := by
  rw [enterTrap]
  split
  · trivial
  · simp only []
    split
    · exact tracks_take _ _ size
    · split
      · refine tracks_take _ _ ?_
        split <;> exact size
      · split
        · exact tracks_take _ _ size
        · exact size

theorem tracks_visit (matchToEnd : Bool) {m : Machine S P} (id : StateId)
    (size : m.cache.trackers.size = n) : Tracks n (visit g matchToEnd m id) := by
  rw [visit]
  split
  · trivial
  · exact tracks_take _ _ size
  · exact tracks_fanOut _ _ size
  · split
    · trivial
    · rename_i bound
      exact tracks_fanOut _ _ ((size_trackers_of_bind bound).trans size)
  · split
    · trivial
    · rename_i bound
      exact tracks_fanOut _ _ ((size_trackers_of_bind bound).trans size)
  · exact tracks_enterTrap _ _ _ _ _ size
  · split <;> exact size

theorem tracks_resume {m : Machine S P} (size : m.cache.trackers.size = n) :
    Tracks n (resume g m) := by
  rcases m with ⟨control, cursor, ⟨trail, trackers, slots⟩⟩
  cases trail with
  | nil => exact size
  | cons entry trail =>
    cases entry with
    | arrow id index here =>
      simp only [resume, resumeArrow]
      split
      · trivial
      · split
        · trivial
        · split <;> exact tracks_take _ _ size
    | leave id here =>
      simp only [resume, resumeLeave]
      split
      · trivial
      · split
        · trivial
        · exact tracks_take _ _ size
      · trivial
    | tag => exact Array.size_modify.trans size
    | trap => exact size

theorem tracks_step (matchToEnd : Bool) {m : Machine S P} (size : m.cache.trackers.size = n) :
    Tracks n (step g matchToEnd m) := by
  rw [step]
  split
  · exact tracks_visit _ _ size
  · exact tracks_resume size

theorem size_trackers_of_run {matchToEnd found : Bool} {steps : Nat} {m m' : Machine S P}
    (ran : run g matchToEnd steps m = .ok (found, m')) :
    m'.cache.trackers.size = m.cache.trackers.size := by
  induction steps generalizing m with
  | zero => cases ran
  | succ steps ih =>
    have tracks := tracks_step (g := g) matchToEnd (m := m) rfl
    rw [run] at ran
    split at ran
    · rename_i moved
      rw [moved] at tracks
      exact (ih ran).trans tracks
    · rename_i accepted
      rw [accepted] at tracks
      cases ran
      exact tracks
    · rename_i exhausted
      rw [exhausted] at tracks
      cases ran
      exact tracks
    · cases ran

end Machine

namespace Cache

theorem size_trackers_ofGraph (g : Graph) : (ofGraph g : Cache P).trackers.size = g.names.size := by
  simp [ofGraph, prepare]

theorem size_trackers_settle (cache : Cache P) (found : Bool) :
    (cache.settle found).trackers.size = cache.trackers.size := by
  cases found
  · exact Array.size_map
  · rfl

structure LeftBy (g : Graph) (found : Bool) (cache : Cache P) : Prop where
  trail : cache.trail = []
  trackers : cache.trackers.size = g.names.size
  /-- Without a match no group has a position. -/
  unmatched : found = false → ∀ t ∈ cache.trackers, t = .empty

theorem leftBy_settle {g : Graph} {cache : Cache P} (size : cache.trackers.size = g.names.size)
    (found : Bool) : (cache.settle found).LeftBy g found where
  trail := rfl
  trackers := (size_trackers_settle cache found).trans size
  unmatched := by
    rintro rfl t mem
    obtain ⟨_, _, rfl⟩ := Array.mem_map.1 mem
    rfl

end Cache
end Tables

variable {P : Type}

section Search
variable {S T : Type} [Cursor S T P] [Token T] [DecidableEq T] [DecidableEq P] (b : Backtracker)

/-- What was searched before makes no difference. -/
theorem Backtracker.search_prepared (steps : Nat) (cache cache' : Cache P) (c : S) :
    b.search steps cache c = b.search steps cache' c := by
  have start (cache : Cache P) :
      Machine.start b.graph cache c = ⟨.visit b.graph.start, c, .ofGraph b.graph⟩ := by
    rw [Machine.start, prepare_eq_ofGraph]
  rw [search, search, start cache, start cache']

theorem Backtracker.leftBy_of_search {steps : Nat} {cache cache' : Cache P} {c : S} {found : Option S}
    (searched : b.search steps cache c = .ok (found, cache')) :
    cache'.LeftBy b.graph found.isSome := by
  unfold search at searched
  split at searched
  · cases searched
  · rename_i matched m ran
    cases searched
    have size := Machine.size_trackers_of_run ran
    rw [Machine.start, prepare_eq_ofGraph, Cache.size_trackers_ofGraph] at size
    cases matched <;> exact Cache.leftBy_settle size _

omit [DecidableEq P] in
theorem Backtracker.groupSpan?_of_unmatched {cache : Cache P} (left : cache.LeftBy b.graph false)
    (name : String) : b.groupSpan? cache name = none := by
  rw [groupSpan?]
  split
  · rfl
  · rename_i tag _
    cases found : cache.tracker? tag with
    | none => rfl
    | some t =>
      rw [left.unmatched rfl t (Array.mem_of_getElem? found)]
      rfl

end Search

/-- A search to be made with some cache: which graph is gone through and in which mode, where on which
stream the search begins, and how many steps it may take. -/
structure Task (P : Type) : Type 1 where
  {S T : Type}
  [cursors : Cursor S T P]
  [tokens : Token T]
  [equality : DecidableEq T]
  backtracker : Backtracker
  steps : Nat
  first : S

attribute [instance] Task.cursors Task.tokens Task.equality

/-- What is done with caches, which are known by their places. -/
inductive Operation (P : Type) : Type 1
  | create (g : Graph)
  | copy (cache : Nat)
  | search (cache : Nat) (task : Task P)

variable [DecidableEq P]

def Task.answer (task : Task P) (cache : Cache P) : Except Fault (Option task.S × Cache P) :=
  task.backtracker.search task.steps cache task.first

structure Answered (P : Type) : Type 1 where
  task : Task P
  answer : Except Fault (Option task.S × Cache P)

/-- The answers to the searches of a session, in order, up to the first that is cut short. Operations
on caches that do not exist are passed over. -/
def session : Array (Cache P) → List (Operation P) → List (Answered P)
  | _, [] => []
  | caches, .create g :: later => session (caches.push (.ofGraph g)) later
  | caches, .copy i :: later =>
    match caches[i]? with
    | none => session caches later
    | some cache => session (caches.push cache) later
  | caches, .search i task :: later =>
    match caches[i]? with
    | none => session caches later
    | some cache =>
      ⟨task, task.answer cache⟩ ::
        match task.answer cache with
        | .error _ => []
        | .ok (_, cache') => session (caches.setIfInBounds i cache') later

/-- The answers if every search has a new cache for itself. All that is known of the caches that the
operations name is how many they are. -/
def sessionApart : Nat → List (Operation P) → List (Answered P)
  | _, [] => []
  | count, .create _ :: later => sessionApart (count + 1) later
  | count, .copy i :: later => sessionApart (if i < count then count + 1 else count) later
  | count, .search i task :: later =>
    if i < count then
      ⟨task, task.answer (.ofGraph task.backtracker.graph)⟩ ::
        match task.answer (.ofGraph task.backtracker.graph) with
        | .error _ => []
        | .ok _ => sessionApart count later
    else sessionApart count later

theorem session_eq_apart (caches : Array (Cache P)) (operations : List (Operation P)) :
    session caches operations = sessionApart caches.size operations := by
  induction operations generalizing caches with
  | nil => rfl
  | cons operation later ih =>
    cases operation with
    | create g =>
      rw [session, sessionApart, ih, Array.size_push]
    | copy i =>
      rw [session, sessionApart]
      by_cases inside : i < caches.size
      · rw [Array.getElem?_eq_getElem inside, if_pos inside]
        simp only [ih, Array.size_push]
      · rw [Array.getElem?_eq_none (Nat.not_lt.1 inside), if_neg inside]
        exact ih caches
    | search i task =>
      rw [session, sessionApart]
      by_cases inside : i < caches.size
      · have same : task.answer caches[i] = task.answer (.ofGraph task.backtracker.graph) :=
          task.backtracker.search_prepared task.steps caches[i] _ task.first
        rw [Array.getElem?_eq_getElem inside, if_pos inside]
        simp only [same]
        cases task.answer (.ofGraph task.backtracker.graph) with
        | error => rfl
        | ok => simp only [ih, Array.size_setIfInBounds]
      · rw [Array.getElem?_eq_none (Nat.not_lt.1 inside), if_neg inside]
        exact ih caches

theorem answer_of_sessionApart {count : Nat} {operations : List (Operation P)} {a : Answered P}
    (mem : a ∈ sessionApart count operations) :
    a.answer = a.task.answer (.ofGraph a.task.backtracker.graph) := by
  induction operations generalizing count with
  | nil => cases mem
  | cons operation later ih =>
    cases operation with
    | create g => exact ih mem
    | copy i => exact ih mem
    | search i task =>
      rw [sessionApart] at mem
      split at mem
      · rcases List.mem_cons.1 mem with rfl | mem
        · rfl
        · split at mem
          · cases mem
          · exact ih mem
      · exact ih mem

/-- However caches are used one search after the other and copied in between, every search has the answer
that it has with a new cache. It leaves an empty trail and one tracker for each group of its graph, and
if it failed, none of these groups has a position. -/
theorem session_answers (caches : Array (Cache P)) (operations : List (Operation P)) :
    session caches operations = sessionApart caches.size operations ∧
    ∀ a ∈ session caches operations,
      a.answer = a.task.answer (.ofGraph a.task.backtracker.graph) ∧
      ∀ found cache, a.answer = .ok (found, cache) →
        cache.trail = [] ∧ cache.trackers.size = a.task.backtracker.graph.names.size ∧
        (found = none → (∀ t ∈ cache.trackers, t = .empty) ∧
          ∀ name, a.task.backtracker.groupSpan? cache name = none) := by
  refine ⟨session_eq_apart caches operations, fun a mem => ?_⟩
  rw [session_eq_apart] at mem
  have alone := answer_of_sessionApart mem
  refine ⟨alone, fun found cache answered => ?_⟩
  rw [alone] at answered
  have left := a.task.backtracker.leftBy_of_search answered
  refine ⟨left.trail, left.trackers, ?_⟩
  rintro rfl
  exact ⟨left.unmatched rfl, a.task.backtracker.groupSpan?_of_unmatched left⟩

def copiedInBetween : List (Operation Nat) :=
  [.create ⟨#[.terminal], ⟨0⟩, ⟨0⟩, #[], .empty, 0, none⟩,
    .search 0 ⟨⟨loopedChoice, true⟩, 20, TokenCursor.start #['a', 'a']⟩,
    .copy 0,
    .search 1 ⟨⟨loopedChoice, true⟩, 50, TokenCursor.start #['a', 'b', 'c']⟩]

theorem session_answers_copiedInBetween :
    session #[] copiedInBetween = sessionApart 0 copiedInBetween ∧
      ∃ a ∈ session #[] copiedInBetween, ∃ cache, a.answer = .ok (none, cache) ∧
        a.answer = a.task.answer (.ofGraph a.task.backtracker.graph) ∧ cache.trail = [] ∧
        cache.trackers.size = a.task.backtracker.graph.names.size ∧
        ∀ t ∈ cache.trackers, t = .empty := by
  obtain ⟨apart, answers⟩ := session_answers #[] copiedInBetween
  have found : (session #[] copiedInBetween).map
      (fun a => a.answer.toOption.map fun r => (r.1.isSome, r.2.trackers)) =
      [some (true, #[⟨[1], some 2⟩]), some (false, #[.empty])] := by decide +kernel
  have failed : some (false, #[.empty]) ∈ (session #[] copiedInBetween).map
      (fun a => a.answer.toOption.map fun r => (r.1.isSome, r.2.trackers)) := by
    rw [found]
    exact List.mem_cons_of_mem _ List.mem_cons_self
  obtain ⟨a, mem, unmatched⟩ := List.mem_map.1 failed
  cases answered : a.answer with
  | error f =>
    rw [answered] at unmatched
    cases unmatched
  | ok r =>
    obtain ⟨_ | c, cache⟩ := r
    · obtain ⟨alone, left⟩ := answers a mem
      obtain ⟨trail, trackers, unset⟩ := left none cache answered
      exact ⟨apart, a, mem, cache, answered, alone, trail, trackers, (unset rfl).1⟩
    · rw [answered] at unmatched
      cases unmatched

end PatternGraph
