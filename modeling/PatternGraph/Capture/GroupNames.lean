import PatternGraph.Index

/-!
The names of capturing groups. A group's tag is its place in the order of the opening parens, and a
group can be referred to once it is closed. Groups are looked up by name in a table of its own, which
is written together with the groups.
-/
namespace PatternGraph

structure NamedGroup where
  name : String
  closed : Bool
  deriving DecidableEq, Repr

structure GroupNames where
  groups : Array NamedGroup
  /-- The newest entry for a name counts. -/
  byName : List (String × TagId)
  deriving DecidableEq, Repr

namespace GroupNames

def empty : GroupNames := ⟨#[], []⟩

def size (names : GroupNames) : Nat := names.groups.size

def isEmpty (names : GroupNames) : Bool := names.groups.isEmpty

/-- Callers see to it that the name is new. -/
def register (names : GroupNames) (name : String) : Except IndexError (TagId × GroupNames) := do
  let tag ← Index.ofNat? .tag names.size
  return (tag, ⟨names.groups.push ⟨name, false⟩, (name, tag) :: names.byName⟩)

def close (names : GroupNames) (tag : TagId) : GroupNames :=
  { names with groups := names.groups.modify tag.val fun g => { g with closed := true } }

def find? (names : GroupNames) (name : String) : Option TagId := names.byName.lookup name

def isClosed (names : GroupNames) (tag : TagId) : Bool :=
  match names.groups[tag.val]? with
  | some g => g.closed
  | none => false

def nameOf? (names : GroupNames) (tag : TagId) : Option String :=
  names.groups[tag.val]?.map (·.name)

def toList (names : GroupNames) : List String := names.groups.toList.map (·.name)

end GroupNames

end PatternGraph
