import PatternGraph.Document.Text

/-!
Numbers and dates of a TOML document. An underscore may stand between two digits. Whole numbers have
64 bits; of other numbers and of dates only the form is read.
-/
namespace PatternGraph.Document

structure Digits where
  value : Nat
  /-- There are some. -/
  started : Bool
  /-- The first is a zero. -/
  zeroFirst : Bool
  /-- An underscore came after the last. -/
  underscored : Bool

namespace Digits

def start : Digits := ⟨0, false, false, false⟩

def push (base : Nat) (zeros : Bool) (d : Nat) (read : Digits) : Option Digits :=
  if !read.started then some ⟨d, true, d == 0, false⟩
  else if read.zeroFirst && !zeros then none
  else some ⟨read.value * base + d, true, read.zeroFirst, false⟩

def finish (read : Digits) (rest : List Char) : Option (Nat × List Char) :=
  if read.started && !read.underscored then some (read.value, rest) else none

def readFrom (base : Nat) (zeros : Bool) (read : Digits) :
    List Char → Option (Nat × List Char)
  | [] => read.finish []
  | c :: rest =>
    match digitValue? base c with
    | some d =>
      match read.push base zeros d with
      | some read => readFrom base zeros read rest
      | none => none
    | none =>
      if c == '_' && !read.started then none
      else if c == '_' && !read.underscored then
        readFrom base zeros ⟨read.value, true, read.zeroFirst, true⟩ rest
      else read.finish (c :: rest)

end Digits

def readDigits (base : Nat) (zeros : Bool) (cs : List Char) : Option (Nat × List Char) :=
  Digits.start.readFrom base zeros cs

def takeSign : List Char → Bool × List Char
  | '+' :: rest => (false, rest)
  | '-' :: rest => (true, rest)
  | cs => (false, cs)

def wholeIn64? (n : Int) : Option Value :=
  if -9223372036854775808 ≤ n ∧ n ≤ 9223372036854775807 then some (.integer n) else none

def basedInteger? (base : Nat) (word : List Char) : Option Value := do
  match ← readDigits base true word with
  | (n, []) => wholeIn64? n
  | _ => none

def decimalInteger? (word : List Char) : Option Value := do
  let (negative, digits) := takeSign word
  match ← readDigits 10 false digits with
  | (n, []) => wholeIn64? (if negative then -(n : Int) else n)
  | _ => none

def readWord (cs : List Char) : Option (List Char × List Char) :=
  let word := cs.takeWhile isBareKeyChar
  if word.isEmpty then none else some (word, cs.dropWhile isBareKeyChar)

def dropChar (wanted : Char) : List Char → List Char
  | [] => []
  | c :: rest => if c == wanted then rest else c :: rest

/-- What comes after the exponent that `marked` begins with, if it is not empty. A plus sign parts
the digits of an exponent from the word that has its mark. -/
def readExponent (marked rest : List Char) : Option (List Char) := do
  match marked with
  | [] => return rest
  | mark :: power =>
    guard (mark == 'e' || mark == 'E')
    let (digits, rest) ←
      if power.isEmpty then readWord (dropChar '+' rest) else some ((takeSign power).2, rest)
    match ← readDigits 10 true digits with
    | (_, []) => return rest
    | _ => none

def readFraction (word rest : List Char) : Option (Value × List Char) := do
  let (_, marked) ← readDigits 10 false (takeSign word).2
  match marked, rest with
  | [], '.' :: rest =>
    let (decimals, rest) ← readWord rest
    let (_, marked) ← readDigits 10 true decimals
    return (.other, ← readExponent marked rest)
  | marked, rest => return (.other, ← readExponent marked rest)

def namesNoNumber (word : List Char) : Bool :=
  word == "inf".toList || word == "nan".toList

def readNumber (word rest : List Char) : Option (Value × List Char) :=
  match word with
  | '0' :: 'x' :: digits => (basedInteger? 16 digits).map (·, rest)
  | '0' :: 'o' :: digits => (basedInteger? 8 digits).map (·, rest)
  | '0' :: 'b' :: digits => (basedInteger? 2 digits).map (·, rest)
  | word =>
    if word.contains 'e' || word.contains 'E' || rest.head? == some '.' then
      readFraction word rest
    else if namesNoNumber (dropChar '-' word) then some (.other, rest)
    else (decimalInteger? word).map (·, rest)

def hasPair (a b : Char) : List Char → Bool
  | c :: d :: rest => (c == a && d == b) || hasPair a b (d :: rest)
  | _ => false

/-- A word with a dash that is neither its sign nor that of an exponent, or with the letter between
a day and its time. -/
def beginsDate (word : List Char) : Bool :=
  word.contains 'T' || word.contains 't' ||
    ((word.drop 1).contains '-' && !hasPair 'e' '-' word && !hasPair 'E' '-' word)

def dropPart (mark : Char) (cs : List Char) : Option (List Char) :=
  match cs with
  | [] => some []
  | c :: rest => if c == mark then (readWord rest).map (·.2) else some (c :: rest)

def readMinutes (cs : List Char) : Option (List Char) := do
  let (_, rest) ← readWord cs
  guard (rest.head? == some ':')
  dropPart ':' (← dropPart '+' (← dropPart '.' (← dropPart ':' rest)))

def readDate (inTime : Bool) (cs : List Char) : Option (List Char) :=
  let rest := (dropPart ' ' cs).getD cs
  if inTime then readMinutes rest
  else
    match rest with
    | ':' :: minutes => readMinutes minutes
    | rest => some rest

def readPlain (cs : List Char) : Option (Value × List Char) :=
  match cs with
  | '+' :: rest => do
    let (word, rest) ← readWord rest
    readNumber word rest
  | cs => do
    let (word, rest) ← readWord cs
    if word == "true".toList then return (.boolean true, rest)
    else if word == "false".toList then return (.boolean false, rest)
    else
      guard (namesNoNumber word || word.head?.any fun c => c == '-' || c.isDigit)
      if beginsDate word then return (.other, ← readDate false rest)
      else
        match rest with
        | ':' :: minutes => return (.other, ← readDate true minutes)
        | rest => readNumber word rest

end PatternGraph.Document
