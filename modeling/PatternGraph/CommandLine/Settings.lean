import PatternGraph.CommandLine.Arguments
import PatternGraph.CommandLine.Numeral
import PatternGraph.Pattern.Failure
import PatternGraph.Pattern.Options
import PatternGraph.Search.Machine

/-!
What the arguments of a command ask for. The first value is the pattern, unless an option has given
one before; all other values are inputs.
-/
namespace PatternGraph.CommandLine

inductive CommandError
  /-- Help was asked for. -/
  | help (usage : String)
  | unknownCommand (name : String)
  | badArgument (e : ArgumentError)
  /-- The value of an option is missing. -/
  | noValue (context : String) (e : ArgumentError)
  | badNumber (flag : String) (e : NumeralError)
  | tooManyPatterns
  | noPattern
  | badPattern (e : PatternError)
  | defect (d : Defect)
  | fault (f : Fault)

def CommandError.message : CommandError → String
  | .help usage => usage
  | .unknownCommand name => "unrecognized command '" ++ name ++ "'"
  | .badArgument e => e.message
  | .noValue context e => context ++ ": " ++ e.message
  | .badNumber flag e => flag ++ ": " ++ e.message
  | .tooManyPatterns => "only one pattern is allowed"
  | .noPattern => "a pattern is required"
  | .badPattern e => e.message
  | .defect _ => "the compiler contradicts itself"
  | .fault _ => "the search was cut off"

structure Settings where
  quiet : Bool
  verbose : Bool
  pattern : Option String
  /-- In order. -/
  inputs : List String
  options : Options
  deriving DecidableEq, Repr

namespace Settings
variable {A : Type} [Tokenizer A]

def unset : Settings := ⟨false, false, none, [], .unset⟩

def valueOf (context : String) (a : A) : Except CommandError (String × A) :=
  match Tokenizer.value a with
  | .ok taken => .ok taken
  | .error e => .error (.noValue context e)

def setNestLimit (s : Settings) (v : String) : Except CommandError Settings := do
  let limit ← (parseNumeral 4294967295 v).mapError (.badNumber "--nest-limit")
  return { s with options := s.options.withNestLimit limit }

/-- The word `none` takes the limit away. -/
def setStateLimit (s : Settings) (v : String) : Except CommandError Settings := do
  if v = "none" then return { s with options := s.options.withStateLimit none }
  let limit ← (parseNumeral 18446744073709551615 v).mapError (.badNumber "--state-limit")
  return { s with options := s.options.withStateLimit (some limit) }

def addValue (withInputs : Bool) (s : Settings) (v : String) : Except CommandError Settings :=
  if s.pattern.isNone then .ok { s with pattern := some v }
  else if withInputs then .ok { s with inputs := s.inputs ++ [v] }
  else .error .tooManyPatterns

def withValue (context : String) (a : A) (set : String → Except CommandError Settings) :
    Except CommandError (Settings × A) := do
  let (v, a) ← valueOf context a
  return (← set v, a)

def accept (withInputs : Bool) (s : Settings) (arg : Argument) (a : A) :
    Except CommandError (Settings × A) :=
  match arg with
  | .flag (.short 'q') | .flag (.long "quiet") => .ok ({ s with quiet := true }, a)
  | .flag (.long "verbose") => .ok ({ s with verbose := true }, a)
  | .flag (.short 'p') | .flag (.long "pattern") =>
    if s.pattern.isSome then .error .tooManyPatterns
    else withValue "-p/--pattern needs a value" a fun v => .ok { s with pattern := some v }
  | .value v => (s.addValue withInputs v).map fun s => (s, a)
  | .flag (.long "no-captures") => .ok ({ s with options := s.options.withCaptures false }, a)
  | .flag (.long "nest-limit") => withValue "--nest-limit" a s.setNestLimit
  | .flag (.long "state-limit") => withValue "--state-limit" a s.setStateLimit
  | .flag f => .error (.badArgument (.unexpectedFlag f))

def helpRequest? : Argument → Option Bool
  | .flag (.short 'h') => some false
  | .flag (.long "help") => some true
  | _ => none

end Settings

end PatternGraph.CommandLine
