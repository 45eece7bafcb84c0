import PatternGraph.CommandLine.Command
import PatternGraph.CommandLine.Duration

/-!
The program: its arguments in, its output and its complaints out.
-/
namespace PatternGraph.CommandLine

def systemClock : Clock IO where
  timed compute := do
    let before ← IO.monoNanosNow
    let value ← IO.lazyPure compute
    let after ← IO.monoNanosNow
    return (value, renderDuration (after - before))

def searchSteps : Nat := 1000000000000000000

def runProgram (args : List String) : IO UInt32 := do
  let outcome ← run systemClock searchSteps args
  (← IO.getStdout).putStr outcome.stdout
  (← IO.getStderr).putStr outcome.stderr
  return outcome.code.toUInt32

end PatternGraph.CommandLine

def main (args : List String) : IO UInt32 := PatternGraph.CommandLine.runProgram args
