import PatternGraph.Pattern.Error
import PatternGraph.Pattern.Symbol

/-!
The parens of a pattern, paired. A group that a quantifier follows becomes a loop, and its opening
paren is where this has to be known.
-/
namespace PatternGraph
open Symbol

structure GroupPair where
  close : Nat
  /-- A quantifier follows the closing paren. -/
  looped : Bool
  deriving DecidableEq, Repr

/-- The pair of the group that opens at each offset. -/
structure Pairing where
  pairs : Array (Option GroupPair)
  deriving DecidableEq, Repr

namespace Pairing

def unpaired (length : Nat) : Pairing := ⟨Array.replicate length none⟩

def pairAt? (p : Pairing) (offset : Nat) : Option GroupPair := (p.pairs[offset]?).join

def record (p : Pairing) (offset : Nat) (pair : GroupPair) : Pairing :=
  ⟨p.pairs.setIfInBounds offset (some pair)⟩

def classEnd? : List Symbol → Option (Nat × List Symbol)
  | [] => none
  | s :: rest => if s.isPlain ']' then some (s.offset, rest) else classEnd? rest

theorem length_of_classEnd? {symbols rest : List Symbol} {offset : Nat}
    (h : classEnd? symbols = some (offset, rest)) : rest.length < symbols.length := by
  induction symbols with
  | nil => simp [classEnd?] at h
  | cons s tail ih =>
    simp only [classEnd?] at h
    split at h
    · simp_all
    · have := ih h
      simp only [List.length_cons]
      omega

def scan (p : Pairing) (opened : List Nat) : List Symbol → Except PatternError Pairing
  | [] =>
    match opened with
    | [] => .ok p
    | offset :: _ => .error (.here .unmatchedParen offset)
  | s :: rest =>
    match s.glyph with
    | .plain '[' =>
      match h : classEnd? rest with
      | none => .error (.here .unmatchedBracket s.offset)
      | some (_, after) =>
        have := length_of_classEnd? h
        scan p opened after
    | .plain '(' => scan p (s.offset :: opened) rest
    | .plain ')' =>
      match opened with
      | [] => .error (.here .unmatchedParen s.offset)
      | offset :: outer => scan (p.record offset ⟨s.offset, quantifierFollows rest⟩) outer rest
    | _ => scan p opened rest
termination_by symbols => symbols.length

def ofSymbols (length : Nat) (symbols : List Symbol) : Except PatternError Pairing :=
  scan (unpaired length) [] symbols

end Pairing

end PatternGraph
