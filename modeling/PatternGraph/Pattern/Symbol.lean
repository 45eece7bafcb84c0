/-!
The symbols of a pattern: its characters, except that an escape is one symbol. What follows a
backslash can never be taken for an operator, so every later reading of a pattern goes over symbols
and need not know how escapes are spelled.
-/
namespace PatternGraph

inductive Glyph
  | plain (c : Char)
  /-- The character after the backslash, and what the escape stands for, if it is well formed. -/
  | escape (c : Char) (value : Option Char)
  /-- A backslash at the end of the pattern. -/
  | dangling
  deriving DecidableEq, Repr

structure Symbol where
  offset : Nat
  glyph : Glyph
  deriving DecidableEq, Repr

namespace Symbol

def decimalDigit? (c : Char) : Option Nat :=
  if '0' ≤ c ∧ c ≤ '9' then some (c.toNat - '0'.toNat) else none

def hexDigit? (c : Char) : Option Nat :=
  if '0' ≤ c ∧ c ≤ '9' then some (c.toNat - '0'.toNat)
  else if 'a' ≤ c ∧ c ≤ 'f' then some (c.toNat - 'a'.toNat + 10)
  else if 'A' ≤ c ∧ c ≤ 'F' then some (c.toNat - 'A'.toNat + 10)
  else none

def scalar? (n : Nat) : Option Char := if n.isValidChar then some (Char.ofNat n) else none

def codePoint? : List Char → Option Char
  | a :: b :: c :: d :: _ => do
    let a ← hexDigit? a
    let b ← hexDigit? b
    let c ← hexDigit? c
    let d ← hexDigit? d
    scalar? (((a * 16 + b) * 16 + c) * 16 + d)
  | _ => none

/-- What a backslash and a character other than `x` stand for. -/
def simpleEscape : Char → Char
  | 'n' => '\n'
  | 't' => '\t'
  | c => c

/-- The escape whose backslash comes before the text, and how many characters of the text are part
of it. An `x` without four digits that name a character takes only itself, so that the characters
after it remain symbols of their own. -/
def escapeAt : List Char → Glyph × Nat
  | [] => (.dangling, 0)
  | c :: rest =>
    if c = 'x' then
      match codePoint? rest with
      | some v => (.escape c (some v), 5)
      | none => (.escape c none, 1)
    else (.escape c (some (simpleEscape c)), 1)

/-- The symbols of a text that begins at `offset`, its first `skip` characters belonging to an
escape that has been read. -/
def read (skip offset : Nat) : List Char → List Symbol
  | [] => []
  | c :: rest =>
    match skip with
    | k + 1 => read k (offset + 1) rest
    | 0 =>
      if c = '\\' then
        ⟨offset, (escapeAt rest).1⟩ :: read (escapeAt rest).2 (offset + 1) rest
      else ⟨offset, .plain c⟩ :: read 0 (offset + 1) rest
termination_by structural cs => cs

def ofText (text : List Char) : List Symbol := read 0 0 text

def isPlain (s : Symbol) (c : Char) : Bool := s.glyph = .plain c

def isQuantifier (s : Symbol) : Bool :=
  match s.glyph with
  | .plain '*' | .plain '+' | .plain '{' => true
  | _ => false

def value? (s : Symbol) : Option Char :=
  match s.glyph with
  | .plain c => some c
  | .escape _ value => value
  | .dangling => none

def quantifierFollows : List Symbol → Bool
  | [] => false
  | s :: _ => s.isQuantifier

end Symbol

end PatternGraph
