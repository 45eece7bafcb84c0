import PatternGraph.Capture.Tracker
import PatternGraph.Search.Cache
import PatternGraph.Search.Matcher
import PatternGraph.Text.DisplayWidth
import PatternGraph.Text.Quoted
import PatternGraph.Text.Table

/-!
What a command prints ahead of its inputs: rows of a label and a value, the labels against their
values. And what it prints of a match: the span and the text of each group.
-/
namespace PatternGraph.CommandLine

structure Row where
  label : String
  value : String
  deriving DecidableEq, Repr

namespace Row

def compileTime (time : String) : Row := ⟨"compile time", time⟩

def inputs (count : Nat) : Row := ⟨"inputs", toString count⟩

def cacheMemory (g : Graph) : Row :=
  ⟨"cache memory", toString (Cache.ofGraph (P := Nat) g).freshBytes⟩

def leading (g : Graph) : Row :=
  ⟨"literal prefix",
    match g.leading with
    | none => "None"
    | some cs => "Some(" ++ Text.quoteString (String.ofList cs) ++ ")"⟩

def ofGraph (g : Graph) : List Row :=
  [⟨"states", toString g.states.size⟩, ⟨"tags", toString g.names.size⟩,
    ⟨"traps", toString g.trapCount⟩, leading g]

end Row

def lines (texts : List String) : String := String.join (texts.map (· ++ "\n"))

/-- Tables count columns by version 17 of the Unicode character database. -/
def alignRows (alignment : Text.Alignment) (rows : List (List String)) : String :=
  lines (Text.Table.align (Text.displayWidth .unicode17) alignment rows)

def report (rows : List Row) : String :=
  alignRows .right (rows.map fun row => [row.label ++ ":", row.value])

def groupRow (h : Haystack) (verbose : Bool) (name : String) :
    Option (Span Nat) → Except Fault (List (List String))
  | some s => do
    return [["  " ++ name ++ ":", s.render, Text.quoteString (← Matcher.textOf h s)]]
  | none => .ok (if verbose then [["  " ++ name ++ ":", "NONE"]] else [])

def groupTable (h : Haystack) (verbose : Bool) (captures : Matcher.Captures) :
    Except Fault String := do
  let rows ← captures.mapM fun (name, span) => groupRow h verbose name span
  return alignRows .left rows.flatten

end PatternGraph.CommandLine
