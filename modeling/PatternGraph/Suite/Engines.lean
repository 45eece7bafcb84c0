import PatternGraph.Cursor.Tokens
import PatternGraph.Search.Matcher
import PatternGraph.Suite.Run

/-!
The engines that suites are run with: one that answers every test from the text of the input, and one
that searches the input's bytes and only tells whether it matches as a whole.
-/
namespace PatternGraph.Suite

def Test.options (t : Test) : Options := Options.unset.withCaptures t.captures

def faultMessage (_ : Fault) : String := "the search was cut off"

def compileWith (t : Test) (answer : Graph → Test → Except Fault NamedAnswer) : Compilation :=
  match compile t.options t.pattern with
  | .error (.refused e) => .refused e.message e.offset
  | .error (.defect _) => .crashed "the compiler contradicts itself"
  | .ok g => .ready fun t => ((answer g t).mapError faultMessage).map fun a => [a]

def answerText (steps : Nat) (g : Graph) (t : Test) : Except Fault NamedAnswer := do
  let m := Matcher.ofGraph g
  let h := Haystack.ofString t.input
  match t.aim with
  | .answer (.spans _) => return ⟨"find_iter", .spans (← m.findAll steps h)⟩
  | .answer (.groups _) =>
    let found ← m.captures? steps h
    return ⟨"captures", .groups (found.map GroupSpans.ofList)⟩
  | .answer (.whole _) | .refusal _ => return ⟨"is_match", .whole (← m.isMatch steps h)⟩

def textEngine (steps : Nat) : Engine := fun t => compileWith t (answerText steps)

def isAscii (s : String) : Bool := s.toList.all fun c => c.toNat < 128

def answerBytes (steps : Nat) (g : Graph) (t : Test) : Except Fault NamedAnswer :=
  match t.aim with
  | .answer (.spans _) | .answer (.groups _) => .ok ⟨"", .skip⟩
  | .answer (.whole _) | .refusal _ => do
    let bytes := t.input.toUTF8.data
    let (found, _) ← Backtracker.search ⟨g, true⟩ steps (.ofGraph g) (TokenCursor.start bytes)
    return ⟨"verify-bytes", .whole found.isSome⟩

/-- A byte stands for a character only in ASCII texts, so tests with others are skipped. -/
def bytesEngine (steps : Nat) : Engine := fun t =>
  if isAscii t.input && isAscii t.pattern then compileWith t (answerBytes steps) else .skipped

end PatternGraph.Suite
