import PatternGraph.Search.Machine

/-!
A machine without undo entries: whatever it leaves for later is kept with a full copy of what was
held at that time, and the copy is put back when the choice is taken up again. It is what the
backtracking machine is compared with.
-/
namespace PatternGraph
open Cursor

structure Memory (S P : Type) where
  cursor : S
  trackers : Array (Tracker P)
  slots : Array (Slot P)

inductive Choice
  | arrow (state : StateId) (index : Nat)
  | leave (state : StateId)
  deriving DecidableEq, Repr

structure Saved (S P : Type) where
  choice : Choice
  memory : Memory S P

structure CopyMachine (S P : Type) where
  control : Control
  memory : Memory S P
  /-- Newest first. -/
  saved : List (Saved S P)

inductive CopyStep (S P : Type)
  | move (m : CopyMachine S P)
  | accept
  | exhaust
  | fault (f : Fault)

inductive Spot
  | state (id : StateId)
  | choice (c : Choice)
  deriving DecidableEq, Repr

structure Sighting (P : Type) where
  spot : Spot
  pos : P
  trackers : Array (Tracker P)
  slots : Array (Slot P)
  deriving DecidableEq, Repr

inductive Mark (P : Type)
  | seen (s : Sighting P)
  | accepted
  | exhausted
  | fault (f : Fault)
  deriving DecidableEq, Repr

variable {S T P : Type} [Cursor S T P]

def Memory.sighting (m : Memory S P) (spot : Spot) : Sighting P :=
  ⟨spot, pos m.cursor, m.trackers, m.slots⟩

namespace CopyMachine

def start (g : Graph) (cache : Cache P) (c : S) : CopyMachine S P :=
  ⟨.visit g.start, ⟨c, (cache.prepare g).trackers, (cache.prepare g).slots⟩, []⟩

def resuming (m : CopyMachine S P) : CopyMachine S P := { m with control := .resume }

def save (m : CopyMachine S P) (choice : Choice) : CopyMachine S P :=
  { m with saved := ⟨choice, m.memory⟩ :: m.saved }

def setSlot (m : CopyMachine S P) (trap : TrapId) (s : Slot P) : CopyMachine S P :=
  { m with memory := { m.memory with slots := m.memory.slots.setIfInBounds trap.val s } }

def bind (m : CopyMachine S P) (tag : Option TagId)
    (change : Tracker P → P → Tracker.Undo P × Tracker P) : Except Fault (CopyMachine S P) :=
  match tag with
  | none => .ok m
  | some tag =>
    match m.memory.trackers[tag.val]? with
    | none => .error (.noSuchTag tag)
    | some t =>
      let trackers := m.memory.trackers.setIfInBounds tag.val (change t (pos m.memory.cursor)).2
      .ok { m with memory := { m.memory with trackers := trackers } }

variable [Token T] [DecidableEq T] [DecidableEq P]

def take (g : Graph) (m : CopyMachine S P) (a : Arrow) : CopyStep S P :=
  match Machine.follow g m.memory.trackers m.memory.cursor a.label with
  | .error f => .fault f
  | .ok (false, _) => .move m.resuming
  | .ok (true, c) => .move ⟨.visit a.target, { m.memory with cursor := c }, m.saved⟩

def fanOut (g : Graph) (m : CopyMachine S P) (state : StateId) (arrows : Array Arrow) :
    CopyStep S P :=
  match arrows[0]? with
  | none => .move m.resuming
  | some a => if 1 < arrows.size then take g (m.save (.arrow state 1)) a else take g m a

def enterTrap (g : Graph) (m : CopyMachine S P) (state : StateId) (trap : TrapId) (r : Repetition)
    (body leave : Arrow) : CopyStep S P :=
  match m.memory.slots[trap.val]? with
  | none => .fault (.noSuchTrap trap)
  | some old =>
    let here := pos m.memory.cursor
    if old.active && old.enteredAt = some here && r.accepts old.count then
      take g (m.setSlot trap { old with active := false }) leave
    else
      let slot := Machine.arrived old
      if r.mayRepeat slot.count then
        let m := m.setSlot trap { slot with enteredAt := some here }
        take g (if r.accepts slot.count then m.save (.leave state) else m) body
      else if r.accepts slot.count then take g (m.setSlot trap { slot with active := false }) leave
      else .move (m.setSlot trap slot).resuming

def visit (g : Graph) (matchToEnd : Bool) (m : CopyMachine S P) (id : StateId) : CopyStep S P :=
  match g.state? id with
  | none => .fault (.noSuchState id)
  | some (.relay a) => take g m a
  | some (.fanout arrows) => fanOut g m id arrows
  | some (.tagOpen tag arrows) =>
    match m.bind tag Tracker.bindStart with
    | .error f => .fault f
    | .ok m => fanOut g m id arrows
  | some (.tagClose tag arrows) =>
    match m.bind tag Tracker.bindStop with
    | .error f => .fault f
    | .ok m => fanOut g m id arrows
  | some (.trap trap r body leave) => enterTrap g m id trap r body leave
  | some .terminal => if matchToEnd && !isDone m.memory.cursor then .move m.resuming else .accept

def takeUp (g : Graph) (m : CopyMachine S P) : Choice → CopyStep S P
  | .arrow id index =>
    match g.state? id with
    | none => .fault (.noSuchState id)
    | some state =>
      match state.arrows[index]? with
      | none => .fault (.noSuchArrow id index)
      | some a =>
        if index + 1 < state.arrows.size then take g (m.save (.arrow id (index + 1))) a
        else take g m a
  | .leave id =>
    match g.state? id with
    | none => .fault (.noSuchState id)
    | some (.trap trap _ _ leave) =>
      match m.memory.slots[trap.val]? with
      | none => .fault (.noSuchTrap trap)
      | some slot => take g (m.setSlot trap { slot with active := false }) leave
    | some _ => .fault (.leaveOutsideTrap id)

def resume (g : Graph) (m : CopyMachine S P) : CopyStep S P :=
  match m.saved with
  | [] => .exhaust
  | s :: older => takeUp g ⟨m.control, s.memory, older⟩ s.choice

def step (g : Graph) (matchToEnd : Bool) (m : CopyMachine S P) : CopyStep S P :=
  match m.control with
  | .visit id => visit g matchToEnd m id
  | .resume => resume g m

omit [Token T] [DecidableEq T] [DecidableEq P] in
def sighting? (m : CopyMachine S P) : Option (Sighting P) :=
  match m.control with
  | .visit id => some (m.memory.sighting (.state id))
  | .resume => m.saved.head?.map fun s => s.memory.sighting (.choice s.choice)

def course (g : Graph) (matchToEnd : Bool) : Nat → CopyMachine S P → List (Mark P)
  | 0, _ => []
  | steps + 1, m =>
    m.sighting?.toList.map .seen ++
      match step g matchToEnd m with
      | .move m => course g matchToEnd steps m
      | .accept => [.accepted]
      | .exhaust => [.exhausted]
      | .fault f => [.fault f]

end CopyMachine

namespace Machine

abbrev memory (m : Machine S P) : Memory S P := ⟨m.cursor, m.cache.trackers, m.cache.slots⟩

/-- There is nothing to be seen while changes are undone. -/
def sighting? (m : Machine S P) : Option (Sighting P) :=
  match m.control, m.cache.trail with
  | .visit id, _ => some (m.memory.sighting (.state id))
  | .resume, .arrow id index here :: _ =>
    some ⟨.choice (.arrow id index), here, m.cache.trackers, m.cache.slots⟩
  | .resume, .leave id here :: _ =>
    some ⟨.choice (.leave id), here, m.cache.trackers, m.cache.slots⟩
  | .resume, _ => none

variable [Token T] [DecidableEq T] [DecidableEq P]

def course (g : Graph) (matchToEnd : Bool) : Nat → Machine S P → List (Mark P)
  | 0, _ => []
  | steps + 1, m =>
    m.sighting?.toList.map .seen ++
      match step g matchToEnd m with
      | .move _ m => course g matchToEnd steps m
      | .accept _ => [.accepted]
      | .exhaust _ => [.exhausted]
      | .fault f => [.fault f]

end Machine

end PatternGraph
