import PatternGraph.Cursor.Basic
import PatternGraph.Event
import PatternGraph.Search.Cache

/-!
The backtracking machine, one step at a time. Either it visits a state, or it goes back over the
trail to the last way not tried. A graph may be cyclic, so a run is given a number of steps that it
must not exceed; running out of them is a fault and not a failure to match.
-/
namespace PatternGraph
open Cursor

inductive Fault
  | noSuchState (id : StateId)
  | noSuchArrow (state : StateId) (index : Nat)
  | noSuchClass (id : ClassId)
  | noSuchTag (tag : TagId)
  | noSuchTrap (trap : TrapId)
  /-- The trail offers to leave a loop at a state that is none. -/
  | leaveOutsideTrap (state : StateId)
  /-- A search was to begin inside a character. -/
  | notABoundary (pos : Nat)
  /-- A group's end lies before its start. -/
  | invalidSpan (span : Span Nat)
  | outOfSteps
  deriving DecidableEq, Repr

inductive Control
  | visit (state : StateId)
  | resume
  deriving DecidableEq, Repr

structure Machine (S P : Type) where
  control : Control
  cursor : S
  cache : Cache P

inductive Step (S P : Type)
  | move (event : Option (Event P)) (m : Machine S P)
  | accept (m : Machine S P)
  | exhaust (m : Machine S P)
  | fault (f : Fault)

namespace Machine

variable {S T P : Type} [Cursor S T P]

def start (g : Graph) (cache : Cache P) (c : S) : Machine S P := ⟨.visit g.start, c, cache.prepare g⟩

def resuming (m : Machine S P) : Machine S P := { m with control := .resume }

def push (m : Machine S P) (e : TrailEntry P) : Machine S P :=
  { m with cache := { m.cache with trail := e :: m.cache.trail } }

/-- Sets a slot and puts what it takes to set it back on the trail. -/
def setSlot (m : Machine S P) (trap : TrapId) (old new : Slot P) : Machine S P :=
  match m with
  | ⟨control, cursor, ⟨trail, trackers, slots⟩⟩ =>
    ⟨control, cursor, ⟨.trap trap old :: trail, trackers, slots.setIfInBounds trap.val new⟩⟩

/-- Binds a position of a group and puts what it takes to unbind it on the trail. A group without a
tag has no positions. -/
def bind (m : Machine S P) (tag : Option TagId)
    (change : Tracker P → P → Tracker.Undo P × Tracker P) : Except Fault (Machine S P) :=
  match tag with
  | none => .ok m
  | some tag =>
    match m with
    | ⟨control, cursor, ⟨trail, trackers, slots⟩⟩ =>
      match trackers[tag.val]? with
      | none => .error (.noSuchTag tag)
      | some t =>
        let (undo, t) := change t (pos cursor)
        .ok ⟨control, cursor, ⟨.tag tag undo :: trail, trackers.setIfInBounds tag.val t, slots⟩⟩

variable [Token T] [DecidableEq T] [DecidableEq P]

def follow (g : Graph) (trackers : Array (Tracker P)) (c : S) : Label → Except Fault (Bool × S)
  | .empty => .ok (true, c)
  | .char ch => .ok (consumeIf (fun t : T => Token.toChar t == ch) c)
  | .literal cs => .ok (consumeChars c cs)
  | .charClass id =>
    match g.class? id with
    | none => .error (.noSuchClass id)
    | some set => .ok (consumeIf (fun t : T => set.contains (Token.toChar t)) c)
  | .any => .ok (consumeIf (fun _ : T => true) c)
  | .backref tag =>
    match trackers[tag.val]? with
    | none => .error (.noSuchTag tag)
    | some t =>
      match t.span? with
      | none => .ok (false, c)
      | some span => .ok (consumeCopy (moveTo c span.start) span.stop c)

def take (g : Graph) (event : Option (Event P)) (m : Machine S P) (a : Arrow) : Step S P :=
  match follow g m.cache.trackers m.cursor a.label with
  | .error f => .fault f
  | .ok (false, c) => .move event { m with control := .resume, cursor := c }
  | .ok (true, c) => .move event { m with control := .visit a.target, cursor := c }

def fanOut (g : Graph) (m : Machine S P) (state : StateId) (arrows : Array Arrow) : Step S P :=
  match arrows[0]? with
  | none => .move none m.resuming
  | some a =>
    if 1 < arrows.size then take g none (m.push (.arrow state 1 (pos m.cursor))) a
    else take g none m a

/-- The slot after arriving at a trap: a first round is about to begin, or one was completed. -/
def arrived (s : Slot P) : Slot P :=
  if s.active then { s with count := Ordinal.saturatingSuccessor s.count } else ⟨true, 0, none⟩

/-- Another round, if the counts allow for one; the loop can be left later if the count is
accepted. -/
def enterTrap (g : Graph) (m : Machine S P) (state : StateId) (trap : TrapId) (r : Repetition)
    (body leave : Arrow) : Step S P :=
  match m.cache.slots[trap.val]? with
  | none => .fault (.noSuchTrap trap)
  | some old =>
    let here := pos m.cursor
    if old.active && old.enteredAt = some here && r.accepts old.count then
      -- The round consumed nothing, and the loop could have been left before it.
      let m := m.setSlot trap old { old with active := false }
      take g (some (.emptyIteration trap here)) m leave
    else
      let slot := arrived old
      if r.mayRepeat slot.count then
        let m := m.setSlot trap old { slot with enteredAt := some here }
        take g none (if r.accepts slot.count then m.push (.leave state here) else m) body
      else if r.accepts slot.count then
        take g none (m.setSlot trap old { slot with active := false }) leave
      else .move none (m.setSlot trap old slot).resuming

def visit (g : Graph) (matchToEnd : Bool) (m : Machine S P) (id : StateId) : Step S P :=
  match g.state? id with
  | none => .fault (.noSuchState id)
  | some (.relay a) => take g none m a
  | some (.fanout arrows) => fanOut g m id arrows
  | some (.tagOpen tag arrows) =>
    match m.bind tag Tracker.bindStart with
    | .error f => .fault f
    | .ok m => fanOut g m id arrows
  | some (.tagClose tag arrows) =>
    match m.bind tag Tracker.bindStop with
    | .error f => .fault f
    | .ok m => fanOut g m id arrows
  | some (.trap trap r body leave) => enterTrap g m id trap r body leave
  | some .terminal => if matchToEnd && !isDone m.cursor then .move none m.resuming else .accept m

def resumeArrow (g : Graph) (m : Machine S P) (id : StateId) (index : Nat) (here : P) : Step S P :=
  match g.state? id with
  | none => .fault (.noSuchState id)
  | some state =>
    match state.arrows[index]? with
    | none => .fault (.noSuchArrow id index)
    | some a =>
      let m := { m with cursor := moveTo m.cursor here }
      let event := some (.resumedArrow index id)
      if index + 1 < state.arrows.size then take g event (m.push (.arrow id (index + 1) here)) a
      else take g event m a

def resumeLeave (g : Graph) (m : Machine S P) (id : StateId) (here : P) : Step S P :=
  match g.state? id with
  | none => .fault (.noSuchState id)
  | some (.trap trap _ _ leave) =>
    match m.cache.slots[trap.val]? with
    | none => .fault (.noSuchTrap trap)
    | some slot =>
      let m := { m with cursor := moveTo m.cursor here }
      take g (some (.resumedLeave id)) (m.setSlot trap slot { slot with active := false }) leave
  | some _ => .fault (.leaveOutsideTrap id)

def resume (g : Graph) (m : Machine S P) : Step S P :=
  match m with
  | ⟨control, cursor, ⟨[], trackers, slots⟩⟩ => .exhaust ⟨control, cursor, ⟨[], trackers, slots⟩⟩
  | ⟨control, cursor, ⟨entry :: trail, trackers, slots⟩⟩ =>
    match entry with
    | .arrow id index here => resumeArrow g ⟨control, cursor, ⟨trail, trackers, slots⟩⟩ id index here
    | .leave id here => resumeLeave g ⟨control, cursor, ⟨trail, trackers, slots⟩⟩ id here
    | .tag tag undo =>
      .move none ⟨control, cursor, ⟨trail, trackers.modify tag.val (·.undo undo), slots⟩⟩
    | .trap trap slot =>
      .move none ⟨control, cursor, ⟨trail, trackers, slots.setIfInBounds trap.val slot⟩⟩

def step (g : Graph) (matchToEnd : Bool) (m : Machine S P) : Step S P :=
  match m.control with
  | .visit id => visit g matchToEnd m id
  | .resume => resume g m

def run (g : Graph) (matchToEnd : Bool) : Nat → Machine S P → Except Fault (Bool × Machine S P)
  | 0, _ => .error .outOfSteps
  | steps + 1, m =>
    match step g matchToEnd m with
    | .move _ m => run g matchToEnd steps m
    | .accept m => .ok (true, m)
    | .exhaust m => .ok (false, m)
    | .fault f => .error f

/-- What the machine reports on the way, after the events that are given, newest first. -/
def events (g : Graph) (matchToEnd : Bool) :
    Nat → List (Event P) → Machine S P → List (Event P)
  | 0, past, _ => past
  | steps + 1, past, m =>
    match step g matchToEnd m with
    | .move (some e) m => events g matchToEnd steps (e :: past) m
    | .move none m => events g matchToEnd steps past m
    | .accept _ | .exhaust _ | .fault _ => past

end Machine

end PatternGraph
