import PatternGraph.Pattern.Progress

/-!
The outline of a pattern: its pieces from left to right, up to its end or to the first mistake.
-/
namespace PatternGraph

structure Outline where
  pieces : List Piece
  ending : Except Failure GroupNames

namespace Outline

def ofReading (scope : Scope) (r : Reading) : Outline :=
  match front : r.rest with
  | [] => ⟨[], .ok r.names⟩
  | s :: rest =>
    match read : Reading.pieceAt scope s { r with rest := rest } with
    | .error e => ⟨[], .error e⟩
    | .ok (p, r') =>
      have : r'.rest.length < r.rest.length := by
        have := Reading.length_of_pieceAt read
        simp only [front, List.length_cons] at this ⊢
        omega
      let later := ofReading scope r'
      ⟨p :: later.pieces, later.ending⟩
termination_by r.rest.length

/-- The parens are paired over the whole pattern before its first piece is read. -/
def ofText (options : Options) (text : List Char) : Except PatternError Outline :=
  let symbols := Symbol.ofText text
  match Pairing.ofSymbols text.length symbols with
  | .error e => .error e
  | .ok pairing => .ok (ofReading ⟨options, pairing, text.length⟩ (.start symbols))

end Outline

end PatternGraph
