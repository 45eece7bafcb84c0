import PatternGraph.Graph.Basic

/-!
The listing of a graph: a line for every state, then the classes and the group names.
-/
namespace PatternGraph

def paddedNumeral (n : Nat) : String :=
  let digits := toString n
  "".pushn '0' (6 - digits.length) ++ digits

def Label.render : Label → String
  | .empty => "ε"
  | .char c => Text.quoteChar c
  | .literal cs => Text.quoteString (String.ofList cs)
  | .charClass id => "class(" ++ toString id.val ++ ")"
  | .any => "any"
  | .backref tag => "backref(" ++ toString tag.val ++ ")"

def Arrow.render (a : Arrow) : String := a.label.render ++ " => " ++ toString a.target.val

def renderArrows (arrows : Array Arrow) : String :=
  ", ".intercalate (arrows.toList.map Arrow.render)

def renderTag : Option TagId → String
  | some tag => toString tag.val
  | none => "-"

def State.render : State → String
  | .relay a => "relay(" ++ a.render ++ ")"
  | .fanout as => "fanout(" ++ renderArrows as ++ ")"
  | .trap id repetition body leave =>
    "trap(id=" ++ toString id.val ++ ", " ++ repetition.render ++ ") loop " ++ body.render ++
      ", leave " ++ leave.render
  | .terminal => "TERMINAL"
  | .tagOpen tag as => "tag-open(" ++ renderTag tag ++ ") " ++ renderArrows as
  | .tagClose tag as => "tag-close(" ++ renderTag tag ++ ") " ++ renderArrows as

namespace Graph

def stateLine (g : Graph) (i : Nat) (s : State) : String :=
  (if g.start.val = i then ">" else " ") ++ paddedNumeral i ++ ": " ++ s.render ++ "\n"

def classLine (i : Nat) (set : CharSet) : String :=
  "CLASS(" ++ paddedNumeral i ++ "): " ++ set.render ++ "\n"

def nameLine (i : Nat) (name : String) : String :=
  "TAG(" ++ paddedNumeral i ++ "): " ++ name ++ "\n"

def part (lines : List String) : String :=
  if lines.isEmpty then "" else "\n" ++ String.join lines

def render (g : Graph) : String :=
  "graph::Graph(\n" ++ String.join (g.states.toList.mapIdx g.stateLine) ++
    part (g.classes.toList.mapIdx classLine) ++
    part (g.names.toList.mapIdx nameLine) ++ ")\n"

end Graph

end PatternGraph
