import PatternGraph.Cursor.Basic
import PatternGraph.Cursor.Span

/-!
Cursors over the characters of a text; positions are byte offsets of its UTF-8 form. A cursor that
was set up on a character boundary stays on one.
-/
namespace PatternGraph

structure TextCursor where
  text : String
  offset : Nat

namespace TextCursor

def start (text : String) : TextCursor := ⟨text, 0⟩

def isBoundary (text : String) (p : Nat) : Bool := (⟨p⟩ : String.Pos.Raw).isValid text

def slice? (text : String) (s : Span Nat) : Option String :=
  if s.start ≤ s.stop && isBoundary text s.start && isBoundary text s.stop then
    some (String.Pos.Raw.extract text ⟨s.start⟩ ⟨s.stop⟩)
  else none

def startAt? (text : String) (p : Nat) : Option TextCursor :=
  if isBoundary text p then some ⟨text, p⟩ else none

def peek (c : TextCursor) : Option Char :=
  if c.offset < c.text.utf8ByteSize then String.Pos.Raw.get? c.text ⟨c.offset⟩ else none

def forward (c : TextCursor) : Nat → TextCursor
  | 0 => c
  | n + 1 =>
    match c.peek with
    | some ch => forward { c with offset := c.offset + ch.utf8Size } n
    | none => c

def backward (c : TextCursor) : Nat → TextCursor
  | 0 => c
  | n + 1 =>
    if c.offset = 0 then c
    else backward { c with offset := (String.Pos.Raw.prev c.text ⟨c.offset⟩).byteIdx } n

/-- No move is longer than the text has bytes, so larger numbers count as that many. -/
def advance (c : TextCursor) (n : Int) : TextCursor :=
  let steps := min n.natAbs c.text.utf8ByteSize
  if n < 0 then c.backward steps else c.forward steps

theorem offset_lt_of_peek {c : TextCursor} {ch : Char} (h : c.peek = some ch) :
    c.offset < c.text.utf8ByteSize := by
  unfold peek at h
  split at h
  · assumption
  · cases h

theorem advance_one {c : TextCursor} {ch : Char} (h : c.peek = some ch) :
    c.advance 1 = { c with offset := c.offset + ch.utf8Size } := by
  have inside := offset_lt_of_peek h
  have steps : min 1 c.text.utf8ByteSize = 1 := by omega
  simp [advance, steps, forward, h]

instance : Cursor TextCursor Char Nat where
  peek := peek
  advance := advance
  pos := TextCursor.offset
  moveTo c p := { c with offset := p }
  remaining c := c.text.utf8ByteSize - c.offset
  remaining_advance c ch h := by
    have inside := offset_lt_of_peek h
    have size := ch.utf8Size_pos
    rw [advance_one h]
    simp only
    omega

end TextCursor

/-- A text in which the ASCII capitals count as small letters. -/
structure FoldedCursor where
  inner : TextCursor

namespace FoldedCursor

def start (text : String) : FoldedCursor := ⟨.start text⟩

instance : Cursor FoldedCursor Char Nat where
  peek c := c.inner.peek.map Char.toLower
  advance c n := ⟨c.inner.advance n⟩
  pos c := c.inner.offset
  moveTo c p := ⟨Cursor.moveTo c.inner p⟩
  remaining c := Cursor.remaining c.inner
  remaining_advance c ch h := by
    obtain ⟨ch', h', _⟩ := Option.map_eq_some_iff.1 h
    exact Cursor.remaining_advance c.inner ch' h'

end FoldedCursor

end PatternGraph
