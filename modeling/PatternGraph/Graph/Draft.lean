import PatternGraph.Graph.LeadingLiteral
import PatternGraph.Graph.Printer
import PatternGraph.Pattern.Error

/-!
Graphs under construction. States get their numbers in the order in which they are added; arrows
and the parts of a trap follow later. A limit on the number of states is an error of the pattern,
while putting arrows where none can go, or leaving a trap unfinished, is a misuse of the draft.
-/
namespace PatternGraph

inductive DraftState
  | fanout (arrows : Array Arrow)
  | tagOpen (tag : Option TagId) (arrows : Array Arrow)
  | tagClose (tag : Option TagId) (arrows : Array Arrow)
  | trap (id : TrapId) (repetition : Option Repetition) (body leave : Option Arrow)
  | terminal

inductive Misuse
  | noSuchState (id : StateId)
  | holdsNoArrows (id : StateId) (state : DraftState)
  | notATrap (state : DraftState)
  | unfinishedTrap (state : Nat)
  | noSuchTarget (state : Nat) (target : StateId)
  | noSuchStart
  | noTerminal

namespace DraftState

def renderOption {A : Type} (text : A → String) : Option A → String
  | none => "None"
  | some a => "Some(" ++ text a ++ ")"

def renderFields (fields : List (String × String)) : String :=
  " \x7b " ++ ", ".intercalate (fields.map fun f => f.1 ++ ": " ++ f.2) ++ " \x7d"

def renderList (arrows : Array Arrow) : String := "[" ++ renderArrows arrows ++ "]"

def render : DraftState → String
  | .fanout as => "Fanout" ++ renderFields [("arrows", renderList as)]
  | .tagOpen tag as =>
    "TagOpen" ++ renderFields [("tag", renderOption Index.render tag), ("arrows", renderList as)]
  | .tagClose tag as =>
    "TagClose" ++ renderFields [("tag", renderOption Index.render tag), ("arrows", renderList as)]
  | .trap id repetition body leave =>
    "Trap" ++ renderFields
      [("trap", id.render), ("iteration", renderOption Repetition.render repetition),
        ("body", renderOption Arrow.render body), ("leave", renderOption Arrow.render leave)]
  | .terminal => "Terminal"

/-- The arrows of a trap are its parts and are not appended. -/
def addArrow? (a : Arrow) : DraftState → Option DraftState
  | .fanout as => some (.fanout (as.push a))
  | .tagOpen tag as => some (.tagOpen tag (as.push a))
  | .tagClose tag as => some (.tagClose tag (as.push a))
  | .trap .. | .terminal => none

def withBody? (a : Arrow) : DraftState → Option DraftState
  | .trap id repetition _ leave => some (.trap id repetition (some a) leave)
  | _ => none

def withLeave? (a : Arrow) : DraftState → Option DraftState
  | .trap id repetition body _ => some (.trap id repetition body (some a))
  | _ => none

def withRepetition? (r : Repetition) : DraftState → Option DraftState
  | .trap id _ body leave => some (.trap id (some r) body leave)
  | _ => none

/-- A fanout with a single arrow has nothing to choose. -/
def finish? : DraftState → Option State
  | .fanout #[a] => some (.relay a)
  | .fanout as => some (.fanout as)
  | .tagOpen tag as => some (.tagOpen tag as)
  | .tagClose tag as => some (.tagClose tag as)
  | .trap id (some r) (some body) (some leave) => some (.trap id r body leave)
  | .trap .. => none
  | .terminal => some .terminal

end DraftState

def Misuse.message? : Misuse → Option String
  | .noSuchState _ => none
  | .holdsNoArrows id state =>
    some ("cannot add an arrow to state " ++ toString id.val ++ " (" ++ state.render ++ ")")
  | .notATrap state => some ("state " ++ state.render ++ " is not a trap")
  | .unfinishedTrap state => some ("trap state " ++ toString state ++ " was never completed")
  | .noSuchTarget state target =>
    some ("state " ++ toString state ++ " has an arrow to nonexistent state " ++
      toString target.val)
  | .noSuchStart => some "invalid start state"
  | .noTerminal => some "graph must contain a terminal state"

structure Draft where
  states : Array DraftState
  classes : Array CharSet
  trapCount : Nat
  stateLimit : Option Nat

namespace Draft

def empty : Draft := ⟨#[], #[], 0, none⟩

def withStateLimit (d : Draft) (limit : Option Nat) : Draft := { d with stateLimit := limit }

def size (d : Draft) : Nat := d.states.size

def isEmpty (d : Draft) : Bool := d.states.isEmpty

def nextId (d : Draft) : Except PatternError StateId :=
  match Index.ofNat? .state d.size with
  | .error _ => .error (.anywhere (.tooManyStates Index.limit))
  | .ok id =>
    match d.stateLimit with
    | some limit => if limit ≤ d.size then .error (.anywhere (.tooManyStates limit)) else .ok id
    | none => .ok id

def push (d : Draft) (s : DraftState) : Except PatternError (StateId × Draft) :=
  match d.nextId with
  | .error e => .error e
  | .ok id => .ok (id, { d with states := d.states.push s })

def addFanout (d : Draft) : Except PatternError (StateId × Draft) := d.push (.fanout #[])

def addTagOpen (d : Draft) (tag : Option TagId) : Except PatternError (StateId × Draft) :=
  d.push (.tagOpen tag #[])

def addTagClose (d : Draft) (tag : Option TagId) : Except PatternError (StateId × Draft) :=
  d.push (.tagClose tag #[])

def addTerminal (d : Draft) : Except PatternError (StateId × Draft) := d.push .terminal

def addTrap (d : Draft) : Except PatternError (StateId × Draft) :=
  match Index.ofNat? .trap d.trapCount with
  | .error _ => .error (.anywhere .tooManyIndices)
  | .ok trap =>
    match d.push (.trap trap none none none) with
    | .error e => .error e
    | .ok (id, d) => .ok (id, { d with trapCount := d.trapCount + 1 })

def addClass (d : Draft) (set : CharSet) : Except PatternError (ClassId × Draft) :=
  match Index.ofNat? .charClass d.classes.size with
  | .error _ => .error (.anywhere .tooManyIndices)
  | .ok id => .ok (id, { d with classes := d.classes.push set })

def update (d : Draft) (id : StateId) (change : DraftState → Option DraftState)
    (refusal : DraftState → Misuse) : Except Misuse Draft :=
  if h : id.val < d.states.size then
    match change d.states[id.val] with
    | some s => .ok { d with states := d.states.set id.val s h }
    | none => .error (refusal d.states[id.val])
  else .error (.noSuchState id)

def addArrow (d : Draft) (source : StateId) (label : Label) (target : StateId) :
    Except Misuse Draft :=
  d.update source (·.addArrow? ⟨label, target⟩) (.holdsNoArrows source)

def setTrapBody (d : Draft) (trap : StateId) (label : Label) (target : StateId) :
    Except Misuse Draft :=
  d.update trap (·.withBody? ⟨label, target⟩) .notATrap

def setTrapLeave (d : Draft) (trap target : StateId) : Except Misuse Draft :=
  d.update trap (·.withLeave? (.empty target)) .notATrap

def setTrapRepetition (d : Draft) (trap : StateId) (r : Repetition) : Except Misuse Draft :=
  d.update trap (·.withRepetition? r) .notATrap

def finishStates (count : Nat) : Nat → List DraftState → Except Misuse (List State)
  | _, [] => .ok []
  | i, s :: rest =>
    match s.finish? with
    | none => .error (.unfinishedTrap i)
    | some state =>
      match state.targets.find? fun t => count ≤ t.val with
      | some t => .error (.noSuchTarget i t)
      | none => (finishStates count (i + 1) rest).map (state :: ·)

def lastTerminal? (states : Array State) : Option StateId :=
  (states.toList.zipIdx.reverse.find? (·.1.isTerminal)).map fun s => ⟨s.2⟩

def finish (d : Draft) (start : StateId) (names : GroupNames) : Except Misuse Graph := do
  let states := (← finishStates d.size 0 d.states.toList).toArray
  if states.size ≤ start.val then throw .noSuchStart
  match lastTerminal? states with
  | none => throw .noTerminal
  | some terminal =>
    return {
      states
      start
      terminal
      classes := d.classes
      names
      trapCount := d.trapCount
      leading := leadingLiteral states start }

end Draft

end PatternGraph
