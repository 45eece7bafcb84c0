import PatternGraph.Capture.GroupNames
import PatternGraph.CharSet
import PatternGraph.Pattern.Pairing
import PatternGraph.Repetition
import PatternGraph.Text.Alphanumeric

/-!
The pieces of a pattern, and how each kind is read from the symbols in front. A reader returns what
is left after the piece; all but the reader of a literal run pass at least one symbol.
-/
namespace PatternGraph
open Symbol

inductive Atom
  | literal (first : Char) (more : List Char)
  | charClass (set : CharSet)
  | any
  | backref (tag : TagId)

inductive Piece
  | atom (atom : Atom) (repetition : Option Repetition)
  /-- A group without a tag does not capture. -/
  | openGroup (tag : Option TagId) (looped : Bool)
  | closeGroup (repetition : Option Repetition)
  | alternative

namespace Piece

def offsetOf (length : Nat) : List Symbol → Nat
  | [] => length
  | s :: _ => s.offset

def digit? (s : Symbol) : Option Nat :=
  match s.glyph with
  | .plain c => decimalDigit? c
  | _ => none

/-- Goes on with a numeral whose digits so far make `n`, and gives up at the first digit that takes
it past the largest count. -/
def readDigits? (n : Nat) : List Symbol → Option (Nat × List Symbol)
  | [] => some (n, [])
  | s :: rest =>
    match digit? s with
    | none => some (n, s :: rest)
    | some d =>
      if n * 10 + d ≤ Repetition.maxFinite then readDigits? (n * 10 + d) rest else none

def readCount (length : Nat) (symbols : List Symbol) : Except PatternError (UInt32 × List Symbol) :=
  match symbols with
  | [] => .error (.here .invalidBounds length)
  | s :: rest =>
    match digit? s with
    | none => .error (.here .invalidBounds s.offset)
    | some d =>
      match readDigits? d rest with
      | none => .error (.here .invalidBounds s.offset)
      | some (n, after) => .ok (UInt32.ofNat n, after)

def readBrace (length : Nat) (r : Repetition) (symbols : List Symbol) :
    Except PatternError (Repetition × List Symbol) :=
  match symbols with
  | [] => .error (.here .invalidBounds length)
  | s :: rest => if s.isPlain '}' then .ok (r, rest) else .error (.here .invalidBounds s.offset)

def readUpper (length : Nat) (low : UInt32) (symbols : List Symbol) :
    Except PatternError (Repetition × List Symbol) :=
  match readBrace length (.atLeast low) symbols with
  | .ok found => .ok found
  | .error _ =>
    match readCount length symbols with
    | .error e => .error e
    | .ok (high, rest) =>
      if high < low then .error (.here .invalidBounds (offsetOf length symbols))
      else readBrace length (.between low high) rest

def readBounds (length : Nat) (symbols : List Symbol) :
    Except PatternError (Repetition × List Symbol) :=
  match readCount length symbols with
  | .error e => .error e
  | .ok (low, rest) =>
    match rest with
    | [] => .error (.here .invalidBounds length)
    | s :: after =>
      if s.isPlain ',' then readUpper length low after
      else readBrace length (.exactly low) (s :: after)

def readQuantifier (length : Nat) (symbols : List Symbol) :
    Except PatternError (Repetition × List Symbol) :=
  match symbols with
  | [] => .error (.here .danglingQuantifier length)
  | s :: rest =>
    match s.glyph with
    | .plain '*' => .ok (.star, rest)
    | .plain '+' => .ok (.plus, rest)
    | .plain '{' => readBounds length rest
    | _ => .error (.here .danglingQuantifier s.offset)

def isNameChar (c : Char) : Bool := Text.isAlphanumeric c || c == '_'

def nameChar? (s : Symbol) : Option Char :=
  match s.glyph with
  | .plain c => if isNameChar c then some c else none
  | _ => none

def readNameChars : List Symbol → List Char × List Symbol
  | [] => ([], [])
  | s :: rest =>
    match nameChar? s with
    | none => ([], s :: rest)
    | some c =>
      let (cs, after) := readNameChars rest
      (c :: cs, after)

/-- A name between angle brackets. A name that is never closed is reported at its beginning, a bad
character where it stands. -/
def readName (length : Nat) (symbols : List Symbol) : Except PatternError (String × List Symbol) :=
  match symbols with
  | [] => .error (.here .invalidGroupName length)
  | s :: rest =>
    if s.isPlain '<' then
      match readNameChars rest with
      | (_, []) => .error (.here .invalidGroupName s.offset)
      | (name, t :: after) =>
        if t.isPlain '>' && !name.isEmpty then .ok (String.ofList name, after)
        else .error (.here .invalidGroupName t.offset)
    else .error (.here .invalidGroupName s.offset)

def rangeEnd? : List Symbol → Option Symbol
  | dash :: s :: _ => if dash.isPlain '-' && !s.isPlain ']' then some s else none
  | _ => none

/-- The items of a class up to its bracket. `start` is where the class opens, `found` tells whether
there was an item yet, and the first `skip` symbols belong to an item that has been read. -/
def readItems (start : Nat) (set : CharSet) (found : Bool) (skip : Nat) :
    List Symbol → Except PatternError (CharSet × List Symbol)
  | [] => .error (.here .unmatchedBracket start)
  | s :: rest =>
    match skip with
    | k + 1 => readItems start set found k rest
    | 0 =>
      if s.isPlain ']' then
        if found && !set.isEmpty then .ok (set, rest) else .error (.here .emptyClass start)
      else
        match s.value? with
        | none => .error (.here .invalidEscape s.offset)
        | some low =>
          match rangeEnd? rest with
          | none => readItems start (set.add low) true 0 rest
          | some t =>
            match t.value? with
            | none => .error (.here .invalidEscape t.offset)
            | some high =>
              if low ≤ high then readItems start (set.addRange low high) true 2 rest
              else .error (.here (.invalidClassRange low high) s.offset)
termination_by structural symbols => symbols

def readClass (start : Nat) (symbols : List Symbol) : Except PatternError (CharSet × List Symbol) :=
  match symbols with
  | [] => readItems start .empty false 0 []
  | s :: rest =>
    if s.isPlain '^' then readItems start .all false 0 rest
    else readItems start .empty false 0 (s :: rest)

/-- Characters that never stand for themselves outside a class. -/
def isMeta (c : Char) : Bool :=
  match c with
  | '.' | '(' | ')' | '[' | ']' | '*' | '+' | '{' | '}' | '|' => true
  | _ => false

/-- The symbol is part of a literal; an escaped `k` begins a backreference instead. -/
def isLiteral (s : Symbol) : Bool :=
  match s.glyph with
  | .plain c => !isMeta c
  | .escape c _ => c != 'k'
  | .dangling => true

/-- The literals in front, as many as share an arrow: a quantifier takes the one before it out of
the run, unless it is the first. -/
def readRun (first : Bool) : List Symbol → Except PatternError (List Char × List Symbol)
  | [] => .ok ([], [])
  | s :: rest =>
    if isLiteral s then
      match s.value? with
      | none => .error (.here .invalidEscape s.offset)
      | some c =>
        if quantifierFollows rest then
          if first then .ok ([c], rest) else .ok ([], s :: rest)
        else
          match readRun false rest with
          | .error e => .error e
          | .ok (cs, after) => .ok (c :: cs, after)
    else .ok ([], s :: rest)

def readRepetition (length : Nat) (symbols : List Symbol) :
    Except PatternError (Option Repetition × List Symbol) :=
  if quantifierFollows symbols then
    match readQuantifier length symbols with
    | .error e => .error e
    | .ok (r, rest) => .ok (some r, rest)
  else .ok (none, symbols)

end Piece

end PatternGraph
