import PatternGraph.Graph.Basic
import PatternGraph.Proofs.Pattern.Layout

/-!
What it means that the states between some arrows and another arrow are those of a syntax tree.
-/
namespace PatternGraph

/-- What the label consumes, as a tree. A literal is one tree for each of its characters. -/
def Label.tree? (g : Graph) : Label → Option Tree
  | .empty => some .empty
  | .char c => some (.char c)
  | .literal _ => none
  | .charClass id => (g.class? id).map fun set => .charClass set.contains
  | .any => some .any
  | .backref tag => some (.backref tag)

def State.choices? : State → Option (Array Arrow)
  | .relay a => some #[a]
  | .fanout arrows => some arrows
  | .tagOpen .. | .tagClose .. | .trap .. | .terminal => none

/-- Trying the arrows in order is matching the tree and then taking the last arrow. The traps on the
way are numbered from `low` on, those inside a loop above its own. -/
inductive Wired (g : Graph) : Nat → List Arrow → Tree → Arrow → Prop
  | empty {low} (a : Arrow) : Wired g low [a] .empty a
  | label {low label target t} : label.tree? g = some t →
      Wired g low [⟨label, target⟩] t (.empty target)
  | literal {low cs target rest out} : Wired g low [.empty target] rest out →
      Wired g low [⟨.literal cs, target⟩] (.chars cs rest) out
  | enter {low id state arrows t out} : g.state? id = some state → state.choices? = some arrows →
      Wired g low arrows.toList t out → Wired g low [.empty id] t out
  | relay {low arrows t id out} : Wired g low arrows t (.empty id) →
      g.state? id = some (.relay out) → Wired g low arrows t out
  | cat {low arrows first between second out} : Wired g low arrows first between →
      Wired g low [between] second out → Wired g low arrows (.cat first second) out
  | alt {low a rest first second out} : Wired g low [a] first out → Wired g low rest second out →
      Wired g low (a :: rest) (.alt first second) out
  | group {low opening closing tag arrows body out} :
      g.state? opening = some (.tagOpen tag arrows) →
      Wired g low arrows.toList body (.empty closing) →
      g.state? closing = some (.tagClose tag #[out]) →
      Wired g low [.empty opening] (.group tag body) out
  | loop {low id trap r b round body out} : g.state? id = some (.trap trap r round out) →
      low ≤ trap.val → trap.val < g.trapCount → r.Counts b →
      Wired g (trap.val + 1) [round] body (.empty id) →
      Wired g low [.empty id] (.loop b body) out

theorem Wired.mono {g : Graph} {low low' : Nat} {arrows : List Arrow} {t : Tree} {out : Arrow}
    (h : Wired g low arrows t out) (le : low' ≤ low) : Wired g low' arrows t out := by
  induction h with
  | empty a => exact .empty a
  | label read => exact .label read
  | literal _ ih => exact .literal (ih le)
  | enter found choices _ ih => exact .enter found choices (ih le)
  | relay _ found ih => exact .relay (ih le) found
  | cat _ _ one other => exact .cat (one le) (other le)
  | alt _ _ one other => exact .alt (one le) (other le)
  | group opens _ closes ih => exact .group opens (ih le) closes
  | loop state above inside counts inner _ =>
    exact .loop state (Nat.le_trans le above) inside counts inner

structure Graph.Realizes (g : Graph) (t : Tree) : Prop where
  wired : Wired g 0 [.empty g.start] t (.empty g.terminal)
  terminal : g.state? g.terminal = some .terminal
  tagsFrom : t.TagsFrom 0
  tagsBelow : t.TagsBelow g.names.size

end PatternGraph
