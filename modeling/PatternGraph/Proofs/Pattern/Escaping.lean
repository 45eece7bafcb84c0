import PatternGraph.Pattern.Outline
import PatternGraph.Proofs.Pattern.Acceptance
import PatternGraph.Proofs.Pattern.Untagging

/-!
Patterns that stand for a text as it is. A backslash before each character with a meaning of its own
leaves no operator, so such a pattern is read as a single run of literals.
-/
namespace PatternGraph
open Symbol

def isSpecial (c : Char) : Bool :=
  c ∈ ['.', '(', ')', '[', ']', '*', '+', '{', '}', '|', '\\']

def escapeChar (c : Char) : List Char := if isSpecial c then ['\\', c] else [c]

def escape (text : String) : String := String.ofList (text.toList.flatMap escapeChar)

/-- The symbols stand for the characters one by one, and none of them is an operator. -/
abbrev Spelt (symbols : List Symbol) (cs : List Char) : Prop :=
  List.Forall₂ (fun s c => s.glyph.literal? = some c) symbols cs

theorem isSpecial_of_mem_operators {c : Char} (operator : c ∈ operators) : isSpecial c = true := by
  have all : operators.all isSpecial = true := rfl
  exact List.all_eq_true.1 all c operator

theorem escapeAt_of_isSpecial {c : Char} (special : isSpecial c = true) (rest : List Char) :
    escapeAt (c :: rest) = (.escape c (some c), 1) ∧ c ≠ 'k' := by
  have letters : c ≠ 'x' ∧ c ≠ 'n' ∧ c ≠ 't' ∧ c ≠ 'k' := by
    refine ⟨?_, ?_, ?_, ?_⟩ <;>
    · rintro rfl
      exact absurd special (by decide)
  obtain ⟨x, n, t, k⟩ := letters
  refine ⟨?_, k⟩
  rw [escapeAt, if_neg x, simpleEscape]
  · exact n
  · exact t

theorem read_escapeChar (c : Char) (rest : List Char) (offset : Nat) :
    ∃ s next, Symbol.read 0 offset (escapeChar c ++ rest) = s :: Symbol.read 0 next rest ∧
      s.glyph.literal? = some c := by
  rw [escapeChar]
  cases special : isSpecial c with
  | true =>
    obtain ⟨taken, name⟩ := escapeAt_of_isSpecial special rest
    refine ⟨⟨offset, .escape c (some c)⟩, offset + 2, ?_, if_neg name⟩
    simp [Symbol.read, taken]
  | false =>
    have plain : c ≠ '\\' := by
      rintro rfl
      cases special
    refine ⟨⟨offset, .plain c⟩, offset + 1, by simp [Symbol.read, plain], ?_⟩
    apply if_neg
    intro operator
    rw [isSpecial_of_mem_operators operator] at special
    cases special

theorem spelt_read (cs : List Char) (offset : Nat) :
    Spelt (Symbol.read 0 offset (cs.flatMap escapeChar)) cs := by
  induction cs generalizing offset with
  | nil => exact .nil
  | cons c cs ih =>
    obtain ⟨s, next, text, stands⟩ := read_escapeChar c (cs.flatMap escapeChar) offset
    rw [List.flatMap_cons, text]
    exact .cons stands (ih next)

theorem spelt_escape (text : String) : Spelt (ofText (escape text).toList) text.toList := by
  rw [escape, String.toList_ofList]
  exact spelt_read text.toList 0

namespace Spelt
variable {symbols : List Symbol} {cs : List Char}

theorem skims (spelt : Spelt symbols cs) : Skims symbols [] := by
  induction spelt with
  | nil => exact .refl []
  | cons stands _ ih =>
    exact ih.cons (Piece.neutral_of_isLiteral (Piece.isLiteral_of_literal? stands).1)

theorem not_quantifierFollows (spelt : Spelt symbols cs) : quantifierFollows symbols = false := by
  cases spelt with
  | nil => rfl
  | cons stands _ =>
    exact (Piece.beginsAtom_of_isLiteral (Piece.isLiteral_of_literal? stands).1).1

theorem readRun (spelt : Spelt symbols cs) (first : Bool) :
    Piece.readRun first symbols = .ok (cs, []) := by
  induction spelt generalizing first with
  | nil => rfl
  | cons stands rest ih =>
    obtain ⟨literal, value⟩ := Piece.isLiteral_of_literal? stands
    have free := not_quantifierFollows rest
    simp only [Piece.readRun, literal, value, free, ih, if_true, Bool.false_eq_true, if_false]

theorem ofReading {c : Char} (spelt : Spelt symbols (c :: cs)) (scope : Scope) :
    Outline.ofReading scope (.start symbols) = ⟨[.atom (.literal c cs) none], .ok .empty⟩ := by
  have run := spelt.readRun true
  cases spelt with
  | @cons s _ rest _ stands _ =>
    have literal := (Piece.isLiteral_of_literal? stands).1
    let r : Reading := { Reading.start (s :: rest) with rest := rest }
    have atom : Reading.readAtom scope s r = .ok (.literal c cs, []) :=
      Reading.readAtom_of_isLiteral scope literal run
    have read : Reading.pieceAt scope s r =
        .ok (.atom (.literal c cs) none, { r with rest := [], quantified := false }) := by
      rw [Reading.pieceAt_of_beginsAtom scope (Piece.beginsAtom_of_isLiteral literal)]
      simp only [Reading.atomPiece, atom]
      rfl
    rw [Outline.ofReading_piece rfl read, Outline.ofReading_done rfl]
    rfl

end Spelt

end PatternGraph
