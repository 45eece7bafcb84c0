import PatternGraph.Index
import PatternGraph.Text.Quoted

/-!
Why a pattern is refused, and where.
-/
namespace PatternGraph

inductive Cause
  | unmatchedParen
  | unmatchedBracket
  /-- The class matches no character. -/
  | emptyClass
  | invalidClassRange (low high : Char)
  /-- There is nothing before the quantifier. -/
  | danglingQuantifier
  /-- There is another quantifier before the quantifier. -/
  | repeatedQuantifier
  | invalidBounds
  | invalidEscape
  | invalidGroupName
  | duplicateGroup (name : String)
  | unknownGroup (name : String)
  /-- The group referred to is not closed yet. -/
  | openGroup (name : String)
  | nestLimitExceeded (limit : Nat)
  | tooManyStates (limit : Nat)
  | tooManyIndices
  deriving DecidableEq, Repr

structure PatternError where
  cause : Cause
  /-- Counted in characters; a limit on the whole graph has no place in the pattern. -/
  offset : Option Nat
  deriving DecidableEq, Repr

def Cause.message : Cause → String
  | .unmatchedParen => "unmatched parenthesis"
  | .unmatchedBracket => "unmatched bracket"
  | .emptyClass => "character class can never match"
  | .invalidClassRange low high =>
    "invalid class range " ++ Text.quoteChar low ++ "-" ++ Text.quoteChar high ++
      ": start must not be greater than end"
  | .danglingQuantifier => "quantifier has nothing to repeat"
  | .repeatedQuantifier => "quantifier cannot be applied to a quantifier"
  | .invalidBounds => "invalid repetition bounds"
  | .invalidEscape => "invalid escape sequence"
  | .invalidGroupName => "invalid group name"
  | .duplicateGroup name => "duplicate group name '" ++ name ++ "'"
  | .unknownGroup name => "backreference to unknown group '" ++ name ++ "'"
  | .openGroup name => "backreference to group '" ++ name ++ "' before it is closed"
  | .nestLimitExceeded limit => "group nesting exceeds the limit of " ++ toString limit
  | .tooManyStates limit => "attempted to compile more than " ++ toString limit ++ " graph states"
  | .tooManyIndices => "pattern contains too many groups or loops"

namespace PatternError

def here (cause : Cause) (offset : Nat) : PatternError := ⟨cause, some offset⟩

def anywhere (cause : Cause) : PatternError := ⟨cause, none⟩

def message (e : PatternError) : String :=
  match e.offset with
  | some offset => e.cause.message ++ " at offset " ++ toString offset
  | none => e.cause.message

end PatternError

end PatternGraph
