/-!
Numbers given as arguments: decimal digits, behind a plus sign if one likes, up to a bound.
-/
namespace PatternGraph.CommandLine

inductive NumeralError
  | empty
  | invalidDigit
  | tooLarge
  deriving DecidableEq, Repr

def NumeralError.message : NumeralError → String
  | .empty => "cannot parse integer from empty string"
  | .invalidDigit => "invalid digit found in string"
  | .tooLarge => "number too large to fit in target type"

/-- Goes on with a numeral whose digits so far make `n`. The first character that is at fault
decides what is reported. -/
def readNumeral (greatest n : Nat) : List Char → Except NumeralError Nat
  | [] => .ok n
  | c :: rest =>
    if '0' ≤ c ∧ c ≤ '9' then
      let m := n * 10 + (c.toNat - '0'.toNat)
      if m ≤ greatest then readNumeral greatest m rest else .error .tooLarge
    else .error .invalidDigit

def parseNumeral (greatest : Nat) (text : String) : Except NumeralError Nat :=
  match text.toList with
  | [] => .error .empty
  | ['+'] => .error .invalidDigit
  | '+' :: digits => readNumeral greatest 0 digits
  | digits => readNumeral greatest 0 digits

end PatternGraph.CommandLine
