import PatternGraph.Text.Whitespace

/-!
Which tests are run. The patterns are parts of full names; the last one that a name contains decides
about it.
-/
namespace PatternGraph.Suite

structure NamePattern where
  excludes : Bool
  part : List Char
  deriving DecidableEq, Repr

def occursIn (part : List Char) : List Char → Bool
  | [] => part.isEmpty
  | c :: rest => part.isPrefixOf (c :: rest) || occursIn part rest

def NamePattern.covers (p : NamePattern) (name : String) : Bool := occursIn p.part name.toList

/-- The patterns in the order of their precedence, the strongest last. -/
structure Selection where
  patterns : List NamePattern
  deriving DecidableEq, Repr

namespace Selection

def empty : Selection := ⟨[]⟩

def add (s : Selection) (p : NamePattern) : Selection := ⟨s.patterns ++ [p]⟩

def includeNames (s : Selection) (part : String) : Selection := s.add ⟨false, part.toList⟩

def excludeNames (s : Selection) (part : String) : Selection := s.add ⟨true, part.toList⟩

def splitCommas (read : List Char) : List Char → List (List Char)
  | [] => [read.reverse]
  | c :: rest =>
    if c == ',' then read.reverse :: splitCommas [] rest else splitCommas (c :: read) rest

/-- A pattern excludes names if it stands behind a minus sign. White space around it is dropped. -/
def pattern? (written : List Char) : Option NamePattern :=
  match Text.trimChars written with
  | [] => none
  | '-' :: part => some ⟨true, part⟩
  | part => some ⟨false, part⟩

def ofText (text : String) : Selection := ⟨(splitCommas [] text.toList).filterMap pattern?⟩

/-- A name that no pattern covers is left out as soon as one pattern includes names. -/
def skips (s : Selection) (name : String) : Bool :=
  match s.patterns.reverse.find? (·.covers name) with
  | some p => p.excludes
  | none => s.patterns.any (!·.excludes)

end Selection

end PatternGraph.Suite
