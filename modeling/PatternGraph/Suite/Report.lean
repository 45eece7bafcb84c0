import PatternGraph.Suite.Run

/-!
The reports on a run: every record in short, and the failures at length.
-/
namespace PatternGraph.Suite

def rule : String := "".pushn '~' 79

namespace Record

def title (r : Record) : String :=
  if r.answerName.isEmpty then r.test.fullName
  else r.test.fullName ++ " (" ++ r.answerName ++ ")"

def describe (r : Record) (d : Discrepancy) : String :=
  r.test.fullName ++ ": " ++ d.describe r.test ++
    "\npattern:     " ++ Text.quoteString r.test.pattern ++
    "\ninput:       " ++ Text.quoteString r.test.input ++
    if r.answerName.isEmpty then ""
    else "\ntest result: " ++ Text.quoteString r.answerName

end Record

def recordsWith (v : Verdict) (records : List Record) : List Record :=
  records.filter (·.verdict = v)

def failures (records : List Record) : List (Record × Discrepancy) :=
  records.filterMap fun r => r.failure?.map fun d => (r, d)

def overview (records : List Record) : String :=
  let passed := recordsWith .passed records
  let skipped := recordsWith .skipped records
  let failed := failures records
  let counts := "\npassed: " ++ toString passed.length ++ ", skipped: " ++
    toString skipped.length ++ ", failed: " ++ toString failed.length
  let lines := rule :: skipped.map ("skip: " ++ ·.title) ++ passed.map ("pass: " ++ ·.title) ++
    failed.map ("FAIL: " ++ ·.1.test.fullName) ++ [counts, rule]
  String.join (lines.map (· ++ "\n"))

def complaint? (records : List Record) : Option String :=
  match failures records with
  | [] => none
  | failed =>
    let described := "\n\n".intercalate (failed.map fun (r, d) => r.describe d)
    some ("found " ++ toString failed.length ++ " failures:\n" ++ rule ++ "\n" ++
      Text.trim described ++ "\n" ++ rule ++
      "\n\nSet the REGEX_TEST environment variable to filter tests, \n" ++
      "e.g., REGEX_TEST=foo,-foo2 runs every test whose name contains \n" ++
      "foo but not foo2\n\n")

end PatternGraph.Suite
