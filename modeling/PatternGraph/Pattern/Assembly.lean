import PatternGraph.Pattern.Outline

/-!
Graphs put together from the pieces of a pattern. Each group in progress has a state where its
alternatives begin, one where they all end, and the tail to which the next piece is joined; a group
that is repeated hangs on a trap, and a repeated atom is a trap whose body is the atom alone.
-/
namespace PatternGraph

/-- A group in progress, or the whole pattern. -/
structure Frame where
  first : StateId
  last : StateId
  tail : StateId
  trap : Option StateId

structure Assembly where
  draft : Draft
  frame : Frame
  /-- The groups around the current one, innermost first. -/
  outer : List Frame

namespace Assembly

def refuse {A : Type} : Except PatternError A → Except Failure A :=
  Except.mapError .refused

def trust {A : Type} : Except Misuse A → Except Failure A :=
  Except.mapError (.defect ∘ .misuse)

def start (stateLimit : Option Nat) : Except Failure Assembly := do
  let draft := Draft.empty.withStateLimit stateLimit
  let (first, draft) ← refuse draft.addFanout
  let (last, draft) ← refuse draft.addFanout
  return ⟨draft, ⟨first, last, first, none⟩, []⟩

def label (draft : Draft) : Atom → Except Failure (Label × Draft)
  | .literal c [] => .ok (.char c, draft)
  | .literal c cs => .ok (.literal (c :: cs), draft)
  | .charClass set => do
    let (id, draft) ← refuse (draft.addClass set)
    return (.charClass id, draft)
  | .any => .ok (.any, draft)
  | .backref tag => .ok (.backref tag, draft)

def withTail (a : Assembly) (draft : Draft) (tail : StateId) : Assembly :=
  { a with draft := draft, frame := { a.frame with tail := tail } }

def addAtom (a : Assembly) (atom : Atom) : Except Failure Assembly := do
  let (label, draft) ← label a.draft atom
  let (next, draft) ← refuse draft.addFanout
  let draft ← trust (draft.addArrow a.frame.tail label next)
  return a.withTail draft next

/-- The arrow of the atom leads from the trap straight back to it. -/
def addLoop (a : Assembly) (atom : Atom) (r : Repetition) : Except Failure Assembly := do
  let (label, draft) ← label a.draft atom
  let (trap, draft) ← refuse draft.addTrap
  let (after, draft) ← refuse draft.addFanout
  let draft ← trust (draft.addArrow a.frame.tail .empty trap)
  let draft ← trust (draft.setTrapBody trap label trap)
  let draft ← trust (draft.setTrapLeave trap after)
  let draft ← trust (draft.setTrapRepetition trap r)
  return a.withTail draft after

def openGroup (a : Assembly) (tag : Option TagId) (looped : Bool) : Except Failure Assembly := do
  let (first, draft) ← refuse (a.draft.addTagOpen tag)
  let (last, draft) ← refuse (draft.addTagClose tag)
  if looped then
    let (trap, draft) ← refuse draft.addTrap
    let draft ← trust (draft.addArrow a.frame.tail .empty trap)
    let draft ← trust (draft.setTrapBody trap .empty first)
    return ⟨draft, ⟨first, last, first, some trap⟩, a.frame :: a.outer⟩
  else
    let draft ← trust (draft.addArrow a.frame.tail .empty first)
    return ⟨draft, ⟨first, last, first, none⟩, a.frame :: a.outer⟩

def closeGroup (a : Assembly) (r : Option Repetition) : Except Failure Assembly := do
  match a.outer with
  | [] => throw (.defect .unbalancedGroups)
  | around :: outer =>
    let draft ← trust (a.draft.addArrow a.frame.tail .empty a.frame.last)
    match a.frame.trap, r with
    | none, none => return ⟨draft, { around with tail := a.frame.last }, outer⟩
    | some trap, some r =>
      let (after, draft) ← refuse draft.addFanout
      let draft ← trust (draft.addArrow a.frame.last .empty trap)
      let draft ← trust (draft.setTrapLeave trap after)
      let draft ← trust (draft.setTrapRepetition trap r)
      return ⟨draft, { around with tail := after }, outer⟩
    | _, _ => throw (.defect .strayRepetition)

def addAlternative (a : Assembly) : Except Failure Assembly := do
  let draft ← trust (a.draft.addArrow a.frame.tail .empty a.frame.last)
  return a.withTail draft a.frame.first

def add (a : Assembly) : Piece → Except Failure Assembly
  | .atom atom none => a.addAtom atom
  | .atom atom (some r) => a.addLoop atom r
  | .openGroup tag looped => a.openGroup tag looped
  | .closeGroup r => a.closeGroup r
  | .alternative => a.addAlternative

def finish (a : Assembly) (names : GroupNames) : Except Failure Graph := do
  if !a.outer.isEmpty then throw (.defect .unbalancedGroups)
  let (terminal, draft) ← refuse a.draft.addTerminal
  let draft ← trust (draft.addArrow a.frame.tail .empty a.frame.last)
  let draft ← trust (draft.addArrow a.frame.last .empty terminal)
  trust (draft.finish a.frame.first names)

end Assembly

/-- Pieces are added before the mistake that ends an outline is reported, so a limit on the graph
that is passed to its left comes first. -/
def Outline.assemble (o : Outline) (stateLimit : Option Nat) : Except Failure Graph := do
  let assembly ← Assembly.start stateLimit
  let assembly ← o.pieces.foldlM Assembly.add assembly
  let names ← o.ending
  assembly.finish names

def compile (options : Options) (pattern : String) : Except Failure Graph := do
  let outline ← Assembly.refuse (Outline.ofText options pattern.toList)
  outline.assemble options.stateLimit

end PatternGraph
