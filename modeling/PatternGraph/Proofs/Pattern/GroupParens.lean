import PatternGraph.Proofs.Pattern.Balance
import PatternGraph.Proofs.Pattern.Expression

/-!
The parens that open the groups of a pattern, from left to right. They are found without reading the
pattern, by looking for parens outside escapes and classes; the reading comes to just these.
-/
namespace PatternGraph
open Symbol Grammar

namespace GroupMark

def nameAhead : List Glyph → List Char
  | .plain c :: gs => if c = '>' then [] else c :: nameAhead gs
  | _ => []

def ahead : List Glyph → GroupMark
  | .plain '?' :: .plain ':' :: _ => .bare
  | .plain '?' :: .plain '<' :: gs => .named (String.ofList (nameAhead gs))
  | _ => .unnamed

end GroupMark

structure GroupParen where
  offset : Nat
  /-- How many groups are open after the paren. -/
  depth : Nat
  mark : GroupMark
  deriving DecidableEq, Repr

/-- The opening parens among symbols that begin within `depth` groups, and within a class or not. The
parens of a class stand for themselves. -/
def groupParens (inClass : Bool) (depth : Nat) : List Symbol → List GroupParen
  | [] => []
  | s :: rest =>
    if inClass then groupParens (!s.isPlain ']') depth rest
    else
      match s.glyph with
      | .plain '[' => groupParens true depth rest
      | .plain '(' =>
        ⟨s.offset, depth + 1, .ahead (glyphs rest)⟩ :: groupParens false (depth + 1) rest
      | .plain ')' => groupParens false (depth - 1) rest
      | _ => groupParens false depth rest

def parensOf (pattern : String) : List GroupParen := groupParens false 0 (ofText pattern.toList)

def nesting (pattern : String) : Nat := ((parensOf pattern).map (·.depth)).foldr max 0

theorem GroupMark.nameAhead_of_chars {cs : List Char} (inner : ∀ c ∈ cs, c ≠ '>')
    (after : List Glyph) : nameAhead (cs.map .plain ++ .plain '>' :: after) = cs := by
  induction cs with
  | nil => rfl
  | cons c cs ih =>
    rw [List.map_cons, List.cons_append, nameAhead, if_neg (inner c List.mem_cons_self),
      ih fun d mem => inner d (List.mem_cons_of_mem c mem)]

theorem Grammar.Opening.ahead {gs after : List Glyph} {mark : GroupMark}
    (opening : Opening gs mark after) : .ahead gs = mark := by
  cases opening with
  | unnamed other =>
    unfold GroupMark.ahead
    split
    · exact absurd rfl other
    · exact absurd rfl other
    · rfl
  | bare => rfl
  | named name =>
    obtain ⟨cs, _, chars, rfl, rfl⟩ := name
    have inner : ∀ c ∈ cs, c ≠ '>' := by
      intro c mem same
      have name := chars c mem
      rw [same] at name
      exact absurd name (by decide +kernel)
    rw [GroupMark.ahead, GroupMark.nameAhead_of_chars inner]

section Scanning
variable {depth : Nat} {s : Symbol} {rest after symbols : List Symbol}

theorem groupParens_neutral (neutral : s.Neutral) :
    groupParens false depth (s :: rest) = groupParens false depth rest := by
  obtain ⟨opening, closing, bracket⟩ := neutral
  rw [groupParens, if_neg Bool.false_ne_true]
  split <;> first | contradiction | rfl

theorem groupParens_open (paren : s.glyph = .plain '(') :
    groupParens false depth (s :: rest) =
      ⟨s.offset, depth + 1, .ahead (glyphs rest)⟩ :: groupParens false (depth + 1) rest := by
  simp only [groupParens, paren, Bool.false_eq_true, if_false]

theorem groupParens_close (paren : s.glyph = .plain ')') :
    groupParens false depth (s :: rest) = groupParens false (depth - 1) rest := by
  simp only [groupParens, paren, Bool.false_eq_true, if_false]

theorem groupParens_classEnd {k : Nat} (ends : Pairing.classEnd? symbols = some (k, after)) :
    groupParens true depth symbols = groupParens false depth after := by
  induction symbols with
  | nil => cases ends
  | cons s rest ih =>
    rw [Pairing.classEnd?] at ends
    rw [groupParens, if_pos rfl]
    split at ends
    · rename_i bracket
      cases ends
      rw [bracket, Bool.not_true]
    · rename_i inner
      rw [Bool.not_eq_true] at inner
      rw [inner, Bool.not_false, ih ends]

theorem Skims.groupParens (skims : Skims symbols after) (depth : Nat) :
    groupParens false depth symbols = PatternGraph.groupParens false depth after := by
  induction skims with
  | refl => rfl
  | cons _ neutral ih => exact (groupParens_neutral neutral).trans ih
  | charClass bracket ends _ ih =>
    rw [PatternGraph.groupParens, if_neg Bool.false_ne_true, bracket]
    exact (groupParens_classEnd ends).trans ih

end Scanning

def Piece.group? : Piece → Option (Option TagId)
  | .openGroup tag _ => some tag
  | .atom .. | .closeGroup _ | .alternative => none

namespace Reading
variable {scope : Scope} {r r' : Reading} {s : Symbol} {rest : List Symbol} {p : Piece}

/-- Where a group is opened, the reading is at the next opening paren, and otherwise it has not come to
that paren yet. -/
theorem groupParens_of_pieceAt (h : pieceAt scope s { r with rest := rest } = .ok (p, r')) :
    (s.glyph = .plain '(' ∧ openGroup scope s.offset { r with rest := rest } = .ok (p, r') ∧
      groupParens false r.opened.length (s :: rest) =
        ⟨s.offset, r.opened.length + 1, .ahead (glyphs rest)⟩ ::
          groupParens false r'.opened.length r'.rest) ∨
    p.group? = none ∧ (∃ tag, r'.declared = r.declared.close tag) ∧
      groupParens false r.opened.length (s :: rest) =
        groupParens false r'.opened.length r'.rest := by
  rcases pieceAt_cases h with ⟨paren, opens⟩ | ⟨paren, closes⟩ | ⟨bar, rfl, rfl⟩ | atom
  · left
    obtain ⟨group, rfl, opened, _⟩ := header_of_openGroup opens
    have skims : Skims rest r'.rest := skims_of_openGroup opens
    refine ⟨paren, opens, ?_⟩
    rw [groupParens_open paren, skims.groupParens, opened]
    rfl
  · right
    obtain ⟨group, opened, declared, ends⟩ := end_of_closeGroup closes
    obtain ⟨repetition, rfl⟩ := ends.piece
    have skims : Skims rest r'.rest := skims_of_closeGroup closes
    have opened : r.opened = group :: r'.opened := opened
    refine ⟨rfl, ⟨group.tag, declared⟩, ?_⟩
    rw [groupParens_close paren, skims.groupParens, opened]
    rfl
  · right
    refine ⟨rfl, ⟨none, rfl⟩, ?_⟩
    exact groupParens_neutral (neutral_of_plain bar (by decide))
  · right
    obtain ⟨declared, opened, _⟩ := before_of_atomPiece atom true
    obtain ⟨_, _, rfl⟩ := atom_of_atomPiece atom
    have skims : Skims (s :: rest) r'.rest := skims_of_atomPiece atom
    refine ⟨rfl, ⟨none, declared⟩, ?_⟩
    rw [skims.groupParens, opened]

end Reading

end PatternGraph
