import PatternGraph.Cursor.Basic

/-!
Cursors over arrays of tokens; positions are indices.
-/
namespace PatternGraph

structure TokenCursor (T : Type) where
  tokens : Array T
  index : Nat

namespace TokenCursor

variable {T : Type}

def start (tokens : Array T) : TokenCursor T := ⟨tokens, 0⟩

def peek (c : TokenCursor T) : Option T := c.tokens[c.index]?

def advance (c : TokenCursor T) (n : Int) : TokenCursor T :=
  { c with index := if n < 0 then c.index - n.natAbs else min (c.index + n.natAbs) c.tokens.size }

def moveTo (c : TokenCursor T) (p : Nat) : TokenCursor T := { c with index := min p c.tokens.size }

instance : Cursor (TokenCursor T) T Nat where
  peek := peek
  advance := advance
  pos := TokenCursor.index
  moveTo := moveTo
  remaining c := c.tokens.size - c.index
  remaining_advance c t h := by
    have inside := (Array.getElem?_eq_some_iff.1 h).1
    simp only [advance]
    have : ¬ ((1 : Int) < 0) := by omega
    simp only [this, ↓reduceIte, Int.natAbs_one]
    omega

end TokenCursor

end PatternGraph
