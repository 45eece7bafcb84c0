import PatternGraph.CommandLine.Marks
import PatternGraph.CommandLine.Parsing
import PatternGraph.CommandLine.Report
import PatternGraph.CommandLine.Usage
import PatternGraph.Graph.Printer

/-!
The commands: showing a compiled graph, finding the matches of a pattern in texts, and telling which
texts it matches as a whole. What they print depends on nothing but their arguments and the times
that a clock reports.
-/
namespace PatternGraph.CommandLine

structure Clock (m : Type → Type) where
  timed : {A : Type} → (Unit → A) → m (A × String)

abbrev Action (m : Type → Type) := ExceptT CommandError m

def orRefuse {A : Type} (r : Except Failure A) : Except CommandError A :=
  r.mapError fun
    | .refused e => .badPattern e
    | .defect d => .defect d

def orFault {A : Type} (r : Except Fault A) : Except CommandError A := r.mapError .fault

def markedInput (h : Haystack) (spans : List (Span Nat)) : Except Fault String :=
  match marked? h.text spans with
  | some text => .ok text
  | none => .error (.invalidSpan (spans.headD ⟨0, 0⟩))

def foundLine (h : Haystack) (s : Span Nat) : Except Fault String := do
  return s.render ++ ": " ++ Text.quoteString (← Matcher.textOf h s)

def foundText (h : Haystack) (spans : List (Span Nat)) (time : String) : Except Fault String := do
  let header := "matches: " ++ toString spans.length ++ " (" ++ time ++ ")"
  return "\n" ++ (← markedInput h spans) ++ lines (header :: (← spans.mapM (foundLine h)))

def verifiedText (verbose : Bool) (h : Haystack) (time : String) :
    Option Matcher.Captures → Except Fault String
  | none => do
    return "\n" ++ (← markedInput h []) ++ lines ["matched: false (" ++ time ++ ")"]
  | some captures => do
    return "\n" ++ (← markedInput h [⟨0, h.text.utf8ByteSize⟩]) ++
      lines ["matched: true (" ++ time ++ ")"] ++ (← groupTable h verbose captures)

section Commands

variable {m : Type → Type} [Monad m] (clock : Clock m) (steps : Nat)

def timed {A : Type} (compute : Unit → A) : Action m (A × String) := clock.timed compute

def compileGiven (s : Settings) : Action m (Graph × String) := do
  let pattern ← MonadExcept.ofExcept s.patternGiven
  let (result, time) ← timed clock fun _ => compile s.options pattern
  return (← MonadExcept.ofExcept (orRefuse result), time)

def debugGraph (a : Arguments) : Action m String := do
  let s ← MonadExcept.ofExcept (Settings.ofArguments graphUsage false a)
  let (g, time) ← compileGiven clock s
  let rows := Row.compileTime time :: Row.ofGraph g ++ [Row.cacheMemory g]
  return report rows ++ if s.quiet then "" else "\n" ++ g.render ++ "\n"

def find (a : Arguments) : Action m String := do
  let s ← MonadExcept.ofExcept (Settings.ofArguments findUsage true a)
  let (g, time) ← compileGiven clock s
  let heading := report [Row.compileTime time, Row.inputs s.inputs.length]
  let matcher := Matcher.ofGraph g
  let texts ← s.inputs.mapM fun input => do
    let h := Haystack.ofString input
    let (result, time) ← timed clock fun _ => matcher.findAll steps h
    MonadExcept.ofExcept (orFault (do foundText h (← result) time))
  return (if s.quiet then "" else heading) ++ String.join texts

def verify (a : Arguments) : Action m String := do
  let s ← MonadExcept.ofExcept (Settings.ofArguments verifyUsage true a)
  let (g, time) ← compileGiven clock s
  let heading := report (Row.compileTime time :: Row.ofGraph g ++ [Row.inputs s.inputs.length])
  let matcher := Matcher.ofGraph g
  let texts ← s.inputs.mapM fun input => do
    let h := Haystack.ofString input
    let (result, time) ← timed clock fun _ => matcher.captures? steps h
    MonadExcept.ofExcept (orFault (do verifiedText s.verbose h time (← result)))
  return (if s.quiet then "" else heading) ++ String.join texts

/-- The word that names a command. Without one, or when help is asked for, there is the usage. -/
def commandName (usage : String) (a : Arguments) : Except CommandError (String × Arguments) :=
  match a.next with
  | .error e => .error (.badArgument e)
  | .ok none => .error (.help usage)
  | .ok (some (.value name, rest)) => .ok (name, rest)
  | .ok (some (.flag f, _)) =>
    if (Settings.helpRequest? (.flag f)).isSome then .error (.help usage)
    else .error (.badArgument (.unexpectedFlag f))

def debug (a : Arguments) : Action m String := do
  match ← MonadExcept.ofExcept (commandName debugUsage a) with
  | ("graph", rest) => debugGraph clock rest
  | (other, _) => throw (.unknownCommand other)

def program (a : Arguments) : Action m String := do
  match ← MonadExcept.ofExcept (commandName programUsage a) with
  | ("debug", rest) => debug clock rest
  | ("find", rest) => find clock steps rest
  | ("verify", rest) => verify clock steps rest
  | (other, _) => throw (.unknownCommand other)

end Commands

structure Outcome where
  code : UInt8
  stdout : String
  stderr : String
  deriving DecidableEq, Repr

def Outcome.ofResult : Except CommandError String → Outcome
  | .ok output => ⟨0, output, ""⟩
  | .error e => ⟨1, "", e.message ++ "\n"⟩

def run {m : Type → Type} [Monad m] (clock : Clock m) (steps : Nat) (args : List String) :
    m Outcome := do
  return .ofResult (← (program clock steps (.ofList args)).run)

end PatternGraph.CommandLine
