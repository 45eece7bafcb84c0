import PatternGraph.Pattern.Reading

/-!
No reader gives back more symbols than it was given, and a piece takes at least the symbol that it
begins with.
-/
namespace PatternGraph
open Symbol

namespace Piece

theorem length_of_readDigits? {n m : Nat} {symbols after : List Symbol}
    (h : readDigits? n symbols = some (m, after)) : after.length ≤ symbols.length := by
  induction symbols generalizing n with
  | nil =>
    simp only [readDigits?, Option.some.injEq, Prod.mk.injEq] at h
    simp [← h.2]
  | cons s rest ih =>
    simp only [readDigits?] at h
    split at h
    · simp only [Option.some.injEq, Prod.mk.injEq] at h
      simp [← h.2]
    · split at h
      · have := ih h
        simp only [List.length_cons]
        omega
      · cases h

theorem length_of_readCount {length : Nat} {symbols after : List Symbol} {n : UInt32}
    (h : readCount length symbols = .ok (n, after)) : after.length < symbols.length := by
  unfold readCount at h
  split at h
  · cases h
  · split at h
    · cases h
    · split at h
      · cases h
      · rename_i digits
        cases h
        have := length_of_readDigits? digits
        simp only [List.length_cons]
        omega

theorem length_of_readBrace {length : Nat} {r r' : Repetition} {symbols after : List Symbol}
    (h : readBrace length r symbols = .ok (r', after)) : after.length < symbols.length := by
  unfold readBrace at h
  split at h
  · cases h
  · split at h
    · cases h
      simp
    · cases h

theorem length_of_readUpper {length : Nat} {low : UInt32} {r : Repetition}
    {symbols after : List Symbol} (h : readUpper length low symbols = .ok (r, after)) :
    after.length < symbols.length := by
  unfold readUpper at h
  split at h
  · rename_i closed
    cases h
    exact length_of_readBrace closed
  · split at h
    · cases h
    · rename_i count
      split at h
      · cases h
      · exact Nat.lt_trans (length_of_readBrace h) (length_of_readCount count)

theorem length_of_readBounds {length : Nat} {r : Repetition} {symbols after : List Symbol}
    (h : readBounds length symbols = .ok (r, after)) : after.length < symbols.length := by
  unfold readBounds at h
  split at h
  · cases h
  · rename_i count
    split at h
    · cases h
    · have shorter := length_of_readCount count
      simp only [List.length_cons] at shorter
      split at h
      · have := length_of_readUpper h
        omega
      · have := length_of_readBrace h
        simp only [List.length_cons] at this
        omega

theorem length_of_readQuantifier {length : Nat} {r : Repetition} {symbols after : List Symbol}
    (h : readQuantifier length symbols = .ok (r, after)) : after.length < symbols.length := by
  unfold readQuantifier at h
  split at h
  · cases h
  · split at h
    · cases h
      simp
    · cases h
      simp
    · have := length_of_readBounds h
      simp only [List.length_cons]
      omega
    · cases h

theorem length_readNameChars (symbols : List Symbol) :
    (readNameChars symbols).2.length ≤ symbols.length := by
  induction symbols with
  | nil => simp [readNameChars]
  | cons s rest ih =>
    simp only [readNameChars]
    split
    · simp
    · simp only [List.length_cons]
      omega

theorem length_of_readName {length : Nat} {name : String} {symbols after : List Symbol}
    (h : readName length symbols = .ok (name, after)) : after.length < symbols.length := by
  unfold readName at h
  split at h
  · cases h
  · rename_i rest
    split at h
    · have shorter := length_readNameChars rest
      split at h
      · cases h
      · rename_i chars
        rw [chars] at shorter
        simp only [List.length_cons] at shorter ⊢
        split at h
        · cases h
          omega
        · cases h
    · cases h

theorem length_of_readItems {start skip : Nat} {set set' : CharSet} {found : Bool}
    {symbols after : List Symbol} (h : readItems start set found skip symbols = .ok (set', after)) :
    after.length < symbols.length := by
  induction symbols generalizing set found skip with
  | nil => simp [readItems] at h
  | cons s rest ih =>
    have later : ∀ {set found skip}, readItems start set found skip rest = .ok (set', after) →
        after.length < (s :: rest).length := by
      intro set found skip h
      have := ih h
      simp only [List.length_cons]
      omega
    unfold readItems at h
    split at h
    · exact later h
    · split at h
      · split at h
        · cases h
          simp
        · cases h
      · split at h
        · cases h
        · split at h
          · exact later h
          · split at h
            · cases h
            · split at h
              · exact later h
              · cases h

theorem length_of_readClass {start : Nat} {set : CharSet} {symbols after : List Symbol}
    (h : readClass start symbols = .ok (set, after)) : after.length < symbols.length := by
  unfold readClass at h
  split at h
  · exact length_of_readItems h
  · split at h
    · have := length_of_readItems h
      simp only [List.length_cons]
      omega
    · exact length_of_readItems h

theorem length_of_readRun {first : Bool} {cs : List Char} {symbols after : List Symbol}
    (h : readRun first symbols = .ok (cs, after)) : cs.length + after.length = symbols.length := by
  induction symbols generalizing first cs with
  | nil =>
    simp only [readRun, Except.ok.injEq, Prod.mk.injEq] at h
    simp [← h.1, ← h.2]
  | cons s rest ih =>
    unfold readRun at h
    split at h
    · split at h
      · cases h
      · split at h
        · split at h <;> cases h <;> simp <;> omega
        · split at h
          · cases h
          · rename_i later
            cases h
            have := ih later
            simp only [List.length_cons]
            omega
    · cases h
      simp

theorem length_of_readRepetition {length : Nat} {r : Option Repetition}
    {symbols after : List Symbol} (h : readRepetition length symbols = .ok (r, after)) :
    after.length ≤ symbols.length := by
  unfold readRepetition at h
  split at h
  · split at h
    · cases h
    · rename_i read
      cases h
      exact Nat.le_of_lt (length_of_readQuantifier read)
  · cases h
    simp

end Piece

namespace Reading

theorem rest_of_register {scope : Scope} {offset : Nat} {name : String} {r r' : Reading}
    {tag : Option TagId} (h : register scope offset name r = .ok (tag, r')) : r'.rest = r.rest := by
  unfold register at h
  split at h
  · cases h
  · split at h
    · split at h <;> cases h
      rfl
    · cases h
      rfl

theorem length_of_readHeader {scope : Scope} {offset : Nat} {r r' : Reading} {tag : Option TagId}
    (h : readHeader scope offset r = .ok (tag, r')) : r'.rest.length ≤ r.rest.length := by
  simp only [readHeader] at h
  split at h
  · simp [rest_of_register h]
  · rename_i s rest front
    split at h
    · split at h
      · cases h
      · split at h
        · cases h
          simp [front]
          omega
        · split at h
          · split at h
            · cases h
            · rename_i name
              have := Piece.length_of_readName name
              simp only [rest_of_register h, front, List.length_cons] at this ⊢
              omega
          · cases h
    · simp [rest_of_register h]

theorem length_of_openGroup {scope : Scope} {offset : Nat} {r r' : Reading} {p : Piece}
    (h : openGroup scope offset r = .ok (p, r')) : r'.rest.length ≤ r.rest.length := by
  simp only [openGroup] at h
  split at h
  · cases h
  · split at h
    · cases h
    · split at h
      · cases h
      · rename_i header
        cases h
        have shorter := length_of_readHeader header
        exact shorter

theorem length_of_closeGroup {scope : Scope} {offset : Nat} {r r' : Reading} {p : Piece}
    (h : closeGroup scope offset r = .ok (p, r')) : r'.rest.length ≤ r.rest.length := by
  simp only [closeGroup] at h
  split at h
  · cases h
  · split at h
    · cases h
    · split at h
      · split at h
        · cases h
        · rename_i read
          cases h
          exact Nat.le_of_lt (Piece.length_of_readQuantifier read)
      · cases h
        simp

theorem length_of_readBackref {scope : Scope} {offset : Nat} {r : Reading} {atom : Atom}
    {rest : List Symbol} (h : readBackref scope offset r = .ok (atom, rest)) :
    rest.length ≤ r.rest.length := by
  unfold readBackref at h
  split at h
  · cases h
  · rename_i name
    have := Piece.length_of_readName name
    split at h
    · cases h
    · split at h <;> cases h
      omega

theorem length_of_readAtom {scope : Scope} {s : Symbol} {r : Reading} {atom : Atom}
    {rest : List Symbol} (h : readAtom scope s r = .ok (atom, rest)) :
    rest.length ≤ r.rest.length := by
  unfold readAtom at h
  split at h
  · split at h
    · cases h
    · rename_i read
      cases h
      exact Nat.le_of_lt (Piece.length_of_readClass read)
  · cases h
    simp
  · split at h
    · cases h
    · rename_i read
      cases h
      exact length_of_readBackref read
  · split at h
    · cases h
    · rename_i run
      cases h
      have := Piece.length_of_readRun run
      simp only [List.length_cons] at this
      omega
    · cases h

theorem length_of_atomPiece {scope : Scope} {s : Symbol} {r r' : Reading} {p : Piece}
    (h : atomPiece scope s r = .ok (p, r')) : r'.rest.length ≤ r.rest.length := by
  unfold atomPiece at h
  split at h
  · cases h
  · rename_i atom
    split at h
    · cases h
    · rename_i read
      cases h
      exact Nat.le_trans (Piece.length_of_readRepetition read) (length_of_readAtom atom)

theorem length_of_pieceAt {scope : Scope} {s : Symbol} {r r' : Reading} {p : Piece}
    (h : pieceAt scope s r = .ok (p, r')) : r'.rest.length ≤ r.rest.length := by
  simp only [pieceAt] at h
  split at h
  · cases h
  · split at h
    · exact length_of_openGroup h
    · exact length_of_closeGroup h
    · cases h
      simp
    · cases h
    · cases h
    · exact length_of_atomPiece h

end Reading

end PatternGraph
