import PatternGraph.Text.Width.RightContext
import PatternGraph.Text.Width.Unicode15
import PatternGraph.Text.Width.Unicode17

/-!
How many columns of a terminal a text takes: two for wide East Asian characters and emoji, none for
marks that sit on their neighbour, one for all others. Emoji sequences and ligatures take the
columns of what they are drawn as.
-/
namespace PatternGraph.Text
open Width

def columns (ed : Edition) (cs : List Char) : Int × RightContext :=
  cs.foldr (fun c later =>
    let (width, ctx) := later.2.push ed c
    (later.1 + width, ctx)) (0, .start)

def displayWidth (ed : Edition) (s : String) : Nat := (columns ed s.toList).1.toNat

end PatternGraph.Text
