import PatternGraph.Proofs.Capture.NameTables
import PatternGraph.Proofs.Capture.Rebinding
import PatternGraph.Proofs.Search.CopyMachine
import PatternGraph.Proofs.Search.Rewinding

/-!
The trail as an undo log. Each entry that records a change takes that change back, so unwinding the
trail gives the copies that a copying machine would have kept, and at its end the tables that the
search began with.
-/
namespace PatternGraph
open Cursor

abbrev Tables (P : Type) := Array (Tracker P) × Array (Slot P)

variable {S T P : Type} [Cursor S T P]

def Choice.entry (here : P) : Choice → TrailEntry P
  | .arrow id index => .arrow id index here
  | .leave id => .leave id here

/-- What the choices on a trail would be as copies, given the tables at its newest end. -/
def copies (c₀ : S) :
    List (TrailEntry P) → Array (Tracker P) → Array (Slot P) → List (Saved S P)
  | [], _, _ => []
  | .arrow id index here :: trail, trackers, slots =>
    ⟨.arrow id index, moveTo c₀ here, trackers, slots⟩ :: copies c₀ trail trackers slots
  | .leave id here :: trail, trackers, slots =>
    ⟨.leave id, moveTo c₀ here, trackers, slots⟩ :: copies c₀ trail trackers slots
  | .tag tag undo :: trail, trackers, slots =>
    copies c₀ trail (trackers.modify tag.val (·.undo undo)) slots
  | .trap trap slot :: trail, trackers, slots =>
    copies c₀ trail trackers (slots.setIfInBounds trap.val slot)

def unwound : List (TrailEntry P) → Array (Tracker P) → Array (Slot P) → Tables P
  | [], trackers, slots => (trackers, slots)
  | .arrow .. :: trail, trackers, slots | .leave .. :: trail, trackers, slots =>
    unwound trail trackers slots
  | .tag tag undo :: trail, trackers, slots =>
    unwound trail (trackers.modify tag.val (·.undo undo)) slots
  | .trap trap slot :: trail, trackers, slots =>
    unwound trail trackers (slots.setIfInBounds trap.val slot)

def TrailEntry.Within (c₀ : S) : TrailEntry P → Prop
  | .arrow _ _ here | .leave _ here => ∃ b : S, Ahead c₀ b ∧ pos b = here
  | .tag .. | .trap .. => True

/-- The two machines hold the same and have left the same for later, and nothing that the search
began with is lost. -/
structure Matches (c₀ : S) (initial : Tables P) (m : Machine S P) (k : CopyMachine S P) : Prop where
  memory : k.memory = m.memory
  unwinds : unwound m.cache.trail m.cache.trackers m.cache.slots = initial
  saved : k.saved = copies c₀ m.cache.trail m.cache.trackers m.cache.slots
  ahead : Ahead c₀ m.cursor
  within : ∀ e ∈ m.cache.trail, e.Within c₀

/-- While changes are being undone, only what is left for later has to agree. -/
structure Mirrors (c₀ : S) (initial : Tables P) (m : Machine S P) (k : CopyMachine S P) : Prop where
  control : k.control = m.control
  memory : m.control ≠ .resume → k.memory = m.memory
  unwinds : unwound m.cache.trail m.cache.trackers m.cache.slots = initial
  saved : k.saved = copies c₀ m.cache.trail m.cache.trackers m.cache.slots
  ahead : Ahead c₀ m.cursor
  within : ∀ e ∈ m.cache.trail, e.Within c₀

def MirrorsStep (c₀ : S) (initial : Tables P) : Step S P → CopyStep S P → Prop
  | .move _ m, .move k => Mirrors c₀ initial m k
  | .accept _, .accept => True
  | .exhaust m, .exhaust => m.cache = ⟨[], initial.1, initial.2⟩
  | .fault f, .fault f' => f = f'
  | _, _ => False

theorem modify_setIfInBounds_undo {α : Type} {xs : Array α} {i : Nat} {old new : α} {f : α → α}
    (found : xs[i]? = some old) (reverts : f new = old) :
    (xs.setIfInBounds i new).modify i f = xs := by
  apply Array.ext_getElem?
  intro j
  rw [Array.getElem?_modify, Array.getElem?_setIfInBounds]
  by_cases same : i = j
  · subst same
    obtain ⟨inside, rfl⟩ := Array.getElem?_eq_some_iff.1 found
    simp [inside, reverts]
  · simp [same]

theorem setIfInBounds_undo {α : Type} {xs : Array α} {i : Nat} {old new : α}
    (found : xs[i]? = some old) : (xs.setIfInBounds i new).setIfInBounds i old = xs := by
  apply Array.ext_getElem?
  intro j
  rw [Array.getElem?_setIfInBounds, Array.getElem?_setIfInBounds]
  by_cases same : i = j
  · subst same
    obtain ⟨inside, rfl⟩ := Array.getElem?_eq_some_iff.1 found
    simp [inside]
  · simp [same]

namespace Matches
variable {c₀ : S} {initial : Tables P} {m : Machine S P} {k : CopyMachine S P}

theorem resuming (h : Matches c₀ initial m k) : Mirrors c₀ initial m.resuming k.resuming where
  control := rfl
  memory stays := absurd rfl stays
  unwinds := h.unwinds
  saved := h.saved
  ahead := h.ahead
  within := h.within

theorem push (restores : Restores c₀) (h : Matches c₀ initial m k) (choice : Choice) :
    Matches c₀ initial (m.push (choice.entry (pos m.cursor))) (k.save choice) where
  memory := h.memory
  unwinds := by cases choice <;> exact h.unwinds
  saved := by
    have back := restores c₀ m.cursor (.refl c₀) h.ahead
    cases choice <;>
      simp [CopyMachine.save, Machine.push, Choice.entry, copies, h.saved, h.memory, back,
        Machine.memory]
  ahead := h.ahead
  within := by
    intro e mem
    rcases List.mem_cons.1 mem with rfl | mem
    · cases choice <;> exact ⟨m.cursor, h.ahead, rfl⟩
    · exact h.within e mem

theorem setSlot (h : Matches c₀ initial m k) {trap : TrapId} {old new : Slot P}
    (found : m.cache.slots[trap.val]? = some old) :
    Matches c₀ initial (m.setSlot trap old new) (k.setSlot trap new) where
  memory := by simp [CopyMachine.setSlot, Machine.setSlot, h.memory, Machine.memory]
  unwinds := by simp only [Machine.setSlot, unwound, setIfInBounds_undo found, h.unwinds]
  saved := by
    simp [CopyMachine.setSlot, Machine.setSlot, copies, h.saved, setIfInBounds_undo found]
  ahead := h.ahead
  within := by
    intro e mem
    rcases List.mem_cons.1 mem with rfl | mem
    · trivial
    · exact h.within e mem

theorem bind (h : Matches c₀ initial m k) (tag : Option TagId)
    {change : Tracker P → P → Tracker.Undo P × Tracker P}
    (reverts : ∀ t p, (change t p).2.undo (change t p).1 = t) :
    (∃ f, m.bind tag change = .error f ∧ k.bind tag change = .error f) ∨
      ∃ m' k', m.bind tag change = .ok m' ∧ k.bind tag change = .ok k' ∧ Matches c₀ initial m' k' := by
  cases tag with
  | none => exact .inr ⟨m, k, rfl, rfl, h⟩
  | some tag =>
    cases found : m.cache.trackers[tag.val]? with
    | none =>
      refine .inl ⟨.noSuchTag tag, ?_, ?_⟩
      · simp [Machine.bind, found]
      · simp [CopyMachine.bind, h.memory, Machine.memory, found]
    | some t =>
      refine .inr ⟨_, _, by simp [Machine.bind, found]; rfl,
        by simp [CopyMachine.bind, h.memory, Machine.memory, found]; rfl, ?_⟩
      have back := modify_setIfInBounds_undo (f := (·.undo (change t (pos m.cursor)).1)) found
        (reverts t _)
      refine ⟨?_, ?_, ?_, h.ahead, ?_⟩
      · simp [Machine.memory]
      · simp only [unwound, back, h.unwinds]
      · simp only [copies, h.saved, back]
      · intro e mem
        rcases List.mem_cons.1 mem with rfl | mem
        · trivial
        · exact h.within e mem

variable [Token T] [DecidableEq T] [DecidableEq P] {g : Graph}

theorem take (restores : Restores c₀) (h : Matches c₀ initial m k) (event : Option (Event P))
    (a : Arrow) : MirrorsStep c₀ initial (Machine.take g event m a) (k.take g a) := by
  have same : Machine.follow g k.memory.trackers k.memory.cursor a.label =
      Machine.follow g m.cache.trackers m.cursor a.label := by
    rw [h.memory, Machine.memory]
  rw [CopyMachine.take, same]
  cases goes : Machine.along g m.cache.trackers m.cursor a.label with
  | error f =>
    rw [Machine.take_of_fault goes, Machine.follow_of_fault goes]
    rfl
  | ok found =>
    cases found with
    | none =>
      obtain ⟨c, _, followed⟩ := Machine.follow_of_stuck goes
      rw [Machine.take_of_stuck restores h.ahead goes, followed]
      exact h.resuming
    | some c =>
      rw [Machine.take_of_some goes, Machine.follow_of_along goes, h.memory]
      have ahead := h.ahead.trans (Machine.ahead_of_along goes)
      exact ⟨rfl, fun _ => rfl, h.unwinds, h.saved, ahead, h.within⟩

theorem fanOut (restores : Restores c₀) (h : Matches c₀ initial m k) (id : StateId)
    (arrows : Array Arrow) :
    MirrorsStep c₀ initial (Machine.fanOut g m id arrows) (k.fanOut g id arrows) := by
  unfold Machine.fanOut CopyMachine.fanOut
  cases arrows[0]? with
  | none => exact h.resuming
  | some a =>
    dsimp only
    split
    · exact (h.push restores (.arrow id 1)).take restores none a
    · exact h.take restores none a

theorem enterTrap (restores : Restores c₀) (h : Matches c₀ initial m k) (id : StateId) (trap : TrapId)
    (r : Repetition) (body leave : Arrow) :
    MirrorsStep c₀ initial (Machine.enterTrap g m id trap r body leave)
      (k.enterTrap g id trap r body leave) := by
  unfold Machine.enterTrap CopyMachine.enterTrap
  rw [h.memory]
  cases found : m.cache.slots[trap.val]? with
  | none => rfl
  | some old =>
    by_cases idle : (old.active && decide (old.enteredAt = some (pos m.cursor)) &&
        r.accepts old.count) = true
    · simp only [idle, ↓reduceIte]
      exact (h.setSlot found).take restores _ leave
    · simp only [idle, Bool.false_eq_true, ↓reduceIte]
      by_cases more : r.mayRepeat (Machine.arrived old).count = true
      · simp only [more, ↓reduceIte]
        by_cases enough : r.accepts (Machine.arrived old).count = true
        · simp only [enough, ↓reduceIte]
          exact ((h.setSlot found).push restores (.leave id)).take restores none body
        · simp only [enough, Bool.false_eq_true, ↓reduceIte]
          exact (h.setSlot found).take restores none body
      · simp only [more, Bool.false_eq_true, ↓reduceIte]
        by_cases enough : r.accepts (Machine.arrived old).count = true
        · simp only [enough, ↓reduceIte]
          exact (h.setSlot found).take restores none leave
        · simp only [enough, Bool.false_eq_true, ↓reduceIte]
          exact (h.setSlot found).resuming

theorem visit (restores : Restores c₀) (h : Matches c₀ initial m k) (matchToEnd : Bool) (id : StateId) :
    MirrorsStep c₀ initial (Machine.visit g matchToEnd m id) (k.visit g matchToEnd id) := by
  unfold Machine.visit CopyMachine.visit
  cases g.state? id with
  | none => rfl
  | some state =>
    cases state with
    | relay a => exact h.take restores none a
    | fanout arrows => exact h.fanOut restores id arrows
    | tagOpen tag arrows =>
      rcases h.bind tag Tracker.undo_bindStart with ⟨f, em, ek⟩ | ⟨m', k', em, ek, bound⟩
      · simp only [em, ek]
        rfl
      · simp only [em, ek]
        exact bound.fanOut restores id arrows
    | tagClose tag arrows =>
      rcases h.bind tag Tracker.undo_bindStop with ⟨f, em, ek⟩ | ⟨m', k', em, ek, bound⟩
      · simp only [em, ek]
        rfl
      · simp only [em, ek]
        exact bound.fanOut restores id arrows
    | trap trap r body leave => exact h.enterTrap restores id trap r body leave
    | terminal =>
      simp only [h.memory, Machine.memory]
      split
      · exact h.resuming
      · trivial

/-- The trail says where to go back to, while the copy holds the cursor itself. -/
theorem takeUp {b : S} (restores : Restores c₀) (h : Matches c₀ initial { m with cursor := b } k)
    (back : moveTo m.cursor (pos b) = b) (choice : Choice) :
    MirrorsStep c₀ initial
      (match choice with
        | .arrow id index => Machine.resumeArrow g m id index (pos b)
        | .leave id => Machine.resumeLeave g m id (pos b))
      (k.takeUp g choice) := by
  cases choice with
  | arrow id index =>
    simp only [Machine.resumeArrow, CopyMachine.takeUp, back]
    cases g.state? id with
    | none => rfl
    | some state =>
      dsimp only
      cases state.arrows[index]? with
      | none => rfl
      | some a =>
        dsimp only
        split
        · exact (h.push restores (.arrow id (index + 1))).take restores _ a
        · exact h.take restores _ a
  | leave id =>
    simp only [Machine.resumeLeave, CopyMachine.takeUp, back, h.memory]
    cases g.state? id with
    | none => rfl
    | some state =>
      cases state with
      | trap trap r body leave =>
        dsimp only
        cases found : m.cache.slots[trap.val]? with
        | none => rfl
        | some slot => exact (h.setSlot found).take restores _ leave
      | _ => rfl

end Matches

namespace Mirrors
variable {c₀ : S} {initial : Tables P} {m : Machine S P} {k : CopyMachine S P}

theorem matches_of_visit (h : Mirrors c₀ initial m k) (visits : m.control ≠ .resume) :
    Matches c₀ initial m k :=
  ⟨h.memory visits, h.unwinds, h.saved, h.ahead, h.within⟩

variable [Token T] [DecidableEq T] [DecidableEq P] {g : Graph}

/-- A step undoes a change, which the copying machine has no need to, or both machines step. -/
theorem step (restores : Restores c₀) (h : Mirrors c₀ initial m k) (matchToEnd : Bool) :
    (∃ m', Machine.step g matchToEnd m = .move none m' ∧ m.sighting? = none ∧ Mirrors c₀ initial m' k ∧
      m'.cache.trail.length < m.cache.trail.length) ∨
    (m.sighting? = k.sighting? ∧
      MirrorsStep c₀ initial (Machine.step g matchToEnd m) (k.step g matchToEnd)) := by
  obtain ⟨control, cursor, ⟨trail, trackers, slots⟩⟩ := m
  obtain ⟨control', memory, saved⟩ := k
  obtain rfl : control' = control := h.control
  cases control' with
  | visit id =>
    have same := h.matches_of_visit (by simp)
    refine .inr ⟨?_, same.visit restores matchToEnd id⟩
    simp [Machine.sighting?, CopyMachine.sighting?, show memory = _ from same.memory]
  | resume =>
    have saved_eq : saved = copies c₀ trail trackers slots := h.saved
    have ahead : Ahead c₀ cursor := h.ahead
    have within : ∀ e ∈ trail, e.Within c₀ := h.within
    cases trail with
    | nil =>
      subst saved_eq
      obtain rfl : (trackers, slots) = initial := h.unwinds
      exact .inr ⟨rfl, rfl⟩
    | cons entry trail =>
      have later : ∀ e ∈ trail, e.Within c₀ := fun e mem => within e (List.mem_cons_of_mem _ mem)
      cases entry with
      | arrow id index here =>
        obtain ⟨b, reached, rfl⟩ := within _ List.mem_cons_self
        have fromStart := restores c₀ b (.refl c₀) reached
        simp only [copies, fromStart] at saved_eq
        subst saved_eq
        exact .inr ⟨rfl, Matches.takeUp restores ⟨rfl, h.unwinds, rfl, reached, later⟩
          (restores cursor b ahead reached) (.arrow id index)⟩
      | leave id here =>
        obtain ⟨b, reached, rfl⟩ := within _ List.mem_cons_self
        have fromStart := restores c₀ b (.refl c₀) reached
        simp only [copies, fromStart] at saved_eq
        subst saved_eq
        exact .inr ⟨rfl, Matches.takeUp restores ⟨rfl, h.unwinds, rfl, reached, later⟩
          (restores cursor b ahead reached) (.leave id)⟩
      | tag tag undo =>
        refine .inl ⟨_, rfl, rfl, ?_, by simp⟩
        exact ⟨rfl, fun stays => absurd rfl stays, h.unwinds, saved_eq, ahead, later⟩
      | trap trap slot =>
        refine .inl ⟨_, rfl, rfl, ?_, by simp⟩
        exact ⟨rfl, fun stays => absurd rfl stays, h.unwinds, saved_eq, ahead, later⟩

/-- Every step shows the same on both sides, or nothing at all on the side of the log. -/
theorem course_copied (restores : Restores c₀) (h : Mirrors c₀ initial m k) (matchToEnd : Bool)
    (n : Nat) :
    ∃ j, m.course g matchToEnd n = k.course g matchToEnd j := by
  induction n generalizing m k with
  | zero => exact ⟨0, rfl⟩
  | succ n ih =>
    rcases h.step (g := g) restores matchToEnd with ⟨m', moved, unseen, later, _⟩ | ⟨seen, both⟩
    · obtain ⟨j, same⟩ := ih later
      exact ⟨j, by simpa [Machine.course, moved, unseen] using same⟩
    · cases stepped : Machine.step g matchToEnd m <;>
        cases stepped' : k.step g matchToEnd <;>
        simp only [stepped, stepped', MirrorsStep] at both
      · obtain ⟨j, same⟩ := ih both
        exact ⟨j + 1, by simp [Machine.course, CopyMachine.course, stepped, stepped', seen, same]⟩
      · exact ⟨1, by simp [Machine.course, CopyMachine.course, stepped, stepped', seen]⟩
      · exact ⟨1, by simp [Machine.course, CopyMachine.course, stepped, stepped', seen]⟩
      · exact ⟨1, by simp [Machine.course, CopyMachine.course, stepped, stepped', seen, both]⟩

/-- Undoing comes to an end because it shortens the trail. -/
theorem copied_course (restores : Restores c₀) (h : Mirrors c₀ initial m k) (matchToEnd : Bool)
    (j : Nat) :
    ∃ n, k.course g matchToEnd j = m.course g matchToEnd n := by
  induction j generalizing m k with
  | zero => exact ⟨0, rfl⟩
  | succ j ih =>
    induction size : m.cache.trail.length using Nat.strongRecOn generalizing m with
    | ind size undoing =>
      rcases h.step (g := g) restores matchToEnd with
        ⟨m', moved, unseen, later, shorter⟩ | ⟨seen, both⟩
      · obtain ⟨n, same⟩ := undoing _ (size ▸ shorter) later rfl
        exact ⟨n + 1, by simpa [Machine.course, moved, unseen] using same⟩
      · cases stepped : Machine.step g matchToEnd m <;>
          cases stepped' : k.step g matchToEnd <;>
          simp only [stepped, stepped', MirrorsStep] at both
        · obtain ⟨n, same⟩ := ih both
          exact ⟨n + 1, by simp [Machine.course, CopyMachine.course, stepped, stepped', seen, same]⟩
        · exact ⟨1, by simp [Machine.course, CopyMachine.course, stepped, stepped', seen]⟩
        · exact ⟨1, by simp [Machine.course, CopyMachine.course, stepped, stepped', seen]⟩
        · exact ⟨1, by simp [Machine.course, CopyMachine.course, stepped, stepped', seen, both]⟩

theorem run_exhausted (restores : Restores c₀) (h : Mirrors c₀ initial m k) {matchToEnd : Bool}
    {n : Nat} {last : Machine S P} (failed : Machine.run g matchToEnd n m = .ok (false, last)) :
    last.cache = ⟨[], initial.1, initial.2⟩ := by
  induction n generalizing m k with
  | zero => cases failed
  | succ n ih =>
    simp only [Machine.run] at failed
    rcases h.step (g := g) restores matchToEnd with ⟨m', moved, _, later, _⟩ | ⟨_, both⟩
    · rw [moved] at failed
      exact ih later failed
    · cases stepped : Machine.step g matchToEnd m <;>
        cases stepped' : k.step g matchToEnd <;>
        simp only [stepped, stepped', MirrorsStep] at both failed
      · exact ih both failed
      · cases failed
      · cases failed
        exact both
      · cases failed

end Mirrors

omit [Cursor S T P] in
theorem prepare_eq_ofGraph (cache : Cache P) (g : Graph) : cache.prepare g = .ofGraph g := by
  have cleared : ∀ xs : Array (Tracker P), xs.map Tracker.clear = Array.replicate xs.size .empty :=
    fun xs => Array.map_const'
  simp only [Cache.ofGraph, Cache.prepare, Cache.mk.injEq, true_and, and_true, cleared,
    Array.replicate_append_replicate]
  congr 1
  simp
  omega

theorem Mirrors.start (g : Graph) (cache : Cache P) (c : S) :
    Mirrors c ((cache.prepare g).trackers, (cache.prepare g).slots) (Machine.start g cache c)
      (CopyMachine.start g cache c) where
  control := rfl
  memory _ := rfl
  unwinds := rfl
  saved := rfl
  ahead := .refl c
  within := by simp [Machine.start, Cache.prepare]

/-- However far the search has come, the undo log and full copies show the same states, positions,
trackers and slots in the same order, and a search that fails has taken everything back. -/
theorem course_eq_copied [Token T] [DecidableEq T] [DecidableEq P] (g : Graph) (matchToEnd : Bool)
    (cache : Cache P) {c : S} (restores : Restores c) :
    (∀ n, ∃ k, (Machine.start g cache c).course g matchToEnd n =
        (CopyMachine.start g cache c).course g matchToEnd k) ∧
      (∀ k, ∃ n, (CopyMachine.start g cache c).course g matchToEnd k =
        (Machine.start g cache c).course g matchToEnd n) ∧
      ∀ n m, Machine.run g matchToEnd n (.start g cache c) = .ok (false, m) →
        m.cache = .ofGraph g := by
  have begin := Mirrors.start g cache c
  refine ⟨fun n => begin.course_copied restores matchToEnd n,
    fun k => begin.copied_course restores matchToEnd k, fun n m failed => ?_⟩
  rw [begin.run_exhausted restores failed, ← prepare_eq_ofGraph cache g]
  rfl

def loopedChoice : Graph where
  states := #[.trap ⟨0⟩ .star (.empty ⟨1⟩) (.empty ⟨3⟩),
    .tagOpen (some ⟨0⟩) #[⟨.char 'a', ⟨2⟩⟩, ⟨.literal ['a', 'b'], ⟨2⟩⟩],
    .tagClose (some ⟨0⟩) #[.empty ⟨0⟩], .terminal]
  start := ⟨0⟩
  terminal := ⟨3⟩
  classes := #[]
  names := .single
  trapCount := 1
  leading := none

theorem course_eq_copied_loopedChoice :
    Restores (TokenCursor.start #['a', 'b', 'c']) ∧
      (∀ n, ∃ k, (Machine.start loopedChoice ⟨[], #[], #[]⟩
          (TokenCursor.start #['a', 'b', 'c'])).course loopedChoice true n =
        (CopyMachine.start loopedChoice ⟨[], #[], #[]⟩
          (TokenCursor.start #['a', 'b', 'c'])).course loopedChoice true k) ∧
      (∀ k, ∃ n, (CopyMachine.start loopedChoice ⟨[], #[], #[]⟩
          (TokenCursor.start #['a', 'b', 'c'])).course loopedChoice true k =
        (Machine.start loopedChoice ⟨[], #[], #[]⟩
          (TokenCursor.start #['a', 'b', 'c'])).course loopedChoice true n) ∧
      ∃ m, Machine.run loopedChoice true 50 (.start loopedChoice ⟨[], #[], #[]⟩
          (TokenCursor.start #['a', 'b', 'c'])) = .ok (false, m) ∧
        m.cache = .ofGraph loopedChoice := by
  have restores : Restores (TokenCursor.start #['a', 'b', 'c']) :=
    TokenCursor.restores (Nat.zero_le _)
  obtain ⟨copied, course, failed⟩ := course_eq_copied loopedChoice true ⟨[], #[], #[]⟩ restores
  have fails : (Machine.run loopedChoice true 50 (.start loopedChoice ⟨[], #[], #[]⟩
      (TokenCursor.start #['a', 'b', 'c']))).toOption.map (·.1) = some false := by decide +kernel
  cases ended : Machine.run loopedChoice true 50 (.start loopedChoice ⟨[], #[], #[]⟩
      (TokenCursor.start #['a', 'b', 'c'])) with
  | error f =>
    rw [ended] at fails
    cases fails
  | ok result =>
    obtain ⟨found, m⟩ := result
    obtain rfl : found = false := by
      rw [ended] at fails
      exact Option.some.inj fails
    exact ⟨restores, copied, course, m, rfl, failed 50 m ended⟩

end PatternGraph
