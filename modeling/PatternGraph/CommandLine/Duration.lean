/-!
Durations as text: the largest unit of which there is at least one, and as many decimals as are
needed to give the nanoseconds exactly.
-/
namespace PatternGraph.CommandLine

def decimals (whole part : Nat) : String :=
  let digits := (Nat.toDigits 10 (whole + part)).drop 1
  let kept := (digits.reverse.dropWhile (· == '0')).reverse
  if kept.isEmpty then "" else "." ++ String.ofList kept

def inUnits (size nanoseconds : Nat) (unit : String) : String :=
  toString (nanoseconds / size) ++ decimals size (nanoseconds % size) ++ unit

def renderDuration (nanoseconds : Nat) : String :=
  if 1000000000 ≤ nanoseconds then inUnits 1000000000 nanoseconds "s"
  else if 1000000 ≤ nanoseconds then inUnits 1000000 nanoseconds "ms"
  else if 1000 ≤ nanoseconds then inUnits 1000 nanoseconds "µs"
  else inUnits 1 nanoseconds "ns"

end PatternGraph.CommandLine
