/-!
Tables whose columns follow their contents. The last cell of a row belongs to no column; any other
is as wide as the widest cell above and below it, as far as rows without a break have the column.
How wide a text is, is for the caller to say.
-/
namespace PatternGraph.Text

inductive Alignment
  | left
  | right
  deriving DecidableEq, Repr

namespace Table

def gap : Nat := 2

def hasColumn (j : Nat) (row : List String) : Bool := j + 1 < row.length

def columnWidths (measure : String → Nat) (j : Nat) (rows : List (List String)) : List Nat :=
  (rows.splitBy fun a b => hasColumn j a == hasColumn j b).flatMap fun block =>
    let width := block.foldl (fun w row => max w (measure (row.getD j ""))) 0
    block.map fun row => if hasColumn j row then width else 0

def alignCell (measure : String → Nat) (alignment : Alignment) (width : Nat) (cell : String) :
    String :=
  let blanks := "".pushn ' ' (width - measure cell)
  match alignment with
  | .left => cell ++ blanks ++ "".pushn ' ' gap
  | .right => blanks ++ cell ++ "".pushn ' ' gap

def alignRow (measure : String → Nat) (alignment : Alignment) : List Nat → List String → String
  | _, [] => ""
  | _, [cell] => cell
  | [], cell :: rest =>
    alignCell measure alignment 0 cell ++ alignRow measure alignment [] rest
  | width :: widths, cell :: rest =>
    alignCell measure alignment width cell ++ alignRow measure alignment widths rest

def align (measure : String → Nat) (alignment : Alignment) (rows : List (List String)) :
    List String :=
  let columns := rows.foldl (fun n row => max n (row.length - 1)) 0
  let widths := (List.range columns).map fun j => columnWidths measure j rows
  rows.mapIdx fun i row => alignRow measure alignment (widths.map fun column => column.getD i 0) row

end Table

end PatternGraph.Text
