import PatternGraph.Cursor.Text
import PatternGraph.Text.DisplayWidth

/-!
A line of marks below a text, one mark for each column that a span takes up. An empty span is a bar
in the column of the character that comes next. How many columns a text takes is for the caller to
say.
-/
namespace PatternGraph.CommandLine

/-- The marks for the text before an offset. -/
structure MarkLine where
  marks : List Char
  reached : Nat
  deriving DecidableEq, Repr

namespace MarkLine

def empty : MarkLine := ⟨[], 0⟩

/-- The columns between the marks made so far and a span. A span out of order has no gap. -/
def gap (measure : String → Nat) (input : String) (line : MarkLine) (s : Span Nat) : Nat :=
  ((TextCursor.slice? input ⟨line.reached, s.start⟩).map measure).getD 0

/-- The bar of an empty span takes the first column of the character after it. -/
def bar (measure : String → Nat) (input : String) (p : Nat) : List Char × Nat :=
  match TextCursor.peek ⟨input, p⟩ with
  | some c => ('|' :: List.replicate (measure c.toString - 1) ' ', p + c.utf8Size)
  | none => (['|'], p)

def ofSpan? (measure : String → Nat) (input : String) (s : Span Nat) :
    Option (List Char × Nat) :=
  if s.isEmpty then
    if TextCursor.isBoundary input s.start then some (bar measure input s.start) else none
  else
    (TextCursor.slice? input s).map fun covered =>
      (List.replicate (max 1 (measure covered)) '^', s.stop)

/-- Adds a span; there is none if an end of it is within a character. -/
def add? (measure : String → Nat) (input : String) (line : MarkLine) (s : Span Nat) :
    Option MarkLine :=
  (ofSpan? measure input s).map fun (own, reached) =>
    ⟨line.marks ++ List.replicate (line.gap measure input s) ' ' ++ own, reached⟩

def ofSpans? (measure : String → Nat) (input : String) (spans : List (Span Nat)) :
    Option MarkLine :=
  spans.foldlM (add? measure input) empty

def render (line : MarkLine) : String :=
  String.ofList (line.marks.reverse.dropWhile (· == ' ')).reverse

end MarkLine

def markedBy? (measure : String → Nat) (input : String) (spans : List (Span Nat)) :
    Option String :=
  (MarkLine.ofSpans? measure input spans).map fun line =>
    (if input.isEmpty then "<empty>" else input) ++ "\n" ++ line.render ++ "\n"

/-- Mark lines count columns by version 15.1 of the Unicode character database. -/
def marked? (input : String) (spans : List (Span Nat)) : Option String :=
  markedBy? (Text.displayWidth .unicode15) input spans

end PatternGraph.CommandLine
