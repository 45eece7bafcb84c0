import PatternGraph.Cursor.Text
import PatternGraph.Pattern.Assembly
import PatternGraph.Search.Backtracker
import PatternGraph.Search.Needle

/-!
Matching against texts: the whole of a text, the leftmost match in it, or all matches that do not
overlap. Where every match begins with the same literal, only the places where it occurs are tried.
-/
namespace PatternGraph

structure Haystack where
  text : String
  bytes : ByteArray

def Haystack.ofString (s : String) : Haystack := ⟨s, s.toUTF8⟩

structure Matcher where
  graph : Graph
  needle : Option Needle

namespace Matcher

def ofGraph (g : Graph) : Matcher := ⟨g, g.leading.bind Needle.ofChars?⟩

def whole (m : Matcher) : Backtracker := ⟨m.graph, true⟩

/-- Accepts the first match that begins where the search does. -/
def anchored (m : Matcher) : Backtracker := ⟨m.graph, false⟩

def isMatch (m : Matcher) (steps : Nat) (h : Haystack) : Except Fault Bool :=
  match m.whole.search steps (.ofGraph m.graph) (TextCursor.start h.text) with
  | .error f => .error f
  | .ok (found, _) => .ok found.isSome

abbrev Captures := List (String × Option (Span Nat))

def captures? (m : Matcher) (steps : Nat) (h : Haystack) : Except Fault (Option Captures) :=
  match m.whole.search steps (.ofGraph m.graph) (TextCursor.start h.text) with
  | .error f => .error f
  | .ok (none, _) => .ok none
  | .ok (some _, cache) =>
    .ok (some (m.graph.names.toList.zip (cache.trackers.toList.map Tracker.span?)))

def textOf (h : Haystack) (s : Span Nat) : Except Fault String :=
  match TextCursor.slice? h.text s with
  | some found => .ok found
  | none => .error (.invalidSpan s)

/-- The first position at `p` or later where a match may begin. -/
def candidate? (m : Matcher) (h : Haystack) (p : Nat) : Option Nat :=
  match m.needle with
  | none => if p ≤ h.bytes.size then some p else none
  | some n => n.find? h.bytes p

theorem bounds_of_candidate? {m : Matcher} {h : Haystack} {p start : Nat}
    (found : m.candidate? h p = some start) : p ≤ start ∧ start ≤ h.bytes.size := by
  unfold candidate? at found
  split at found
  · split at found
    · cases found
      omega
    · cases found
  · exact Needle.bounds_of_find? found

def matchAt (m : Matcher) (steps : Nat) (h : Haystack) (cache : Cache Nat) (p : Nat) :
    Except Fault (Option Nat × Cache Nat) :=
  match TextCursor.startAt? h.text p with
  | none => .error (.notABoundary p)
  | some c =>
    match m.anchored.search steps cache c with
    | .error f => .error f
    | .ok (found, cache) => .ok (found.map (·.offset), cache)

def charSize? (h : Haystack) (p : Nat) : Option Nat :=
  (TextCursor.peek ⟨h.text, p⟩).map Char.utf8Size

theorem charSize?_pos {h : Haystack} {p n : Nat} (found : charSize? h p = some n) : 0 < n := by
  obtain ⟨c, _, rfl⟩ := Option.map_eq_some_iff.1 found
  exact c.utf8Size_pos

/-- The way past `p`: one character, or one byte where the text ends. -/
def stepFrom (h : Haystack) (p : Nat) : Nat := (charSize? h p).getD 1

theorem stepFrom_pos (h : Haystack) (p : Nat) : 0 < stepFrom h p := by
  unfold stepFrom
  cases size : charSize? h p with
  | none => simp
  | some n => exact charSize?_pos size

/-- What looking for matches has come to: the starts tried and the spans found, in order. -/
structure Scan where
  tried : Array Nat
  spans : Array (Span Nat)

namespace Scan

def empty : Scan := ⟨#[], #[]⟩

def tryAt (s : Scan) (p : Nat) : Scan := { s with tried := s.tried.push p }

def found (s : Scan) (span : Span Nat) : Scan := { s with spans := s.spans.push span }

end Scan

def findFrom (m : Matcher) (steps : Nat) (h : Haystack) (past : Scan) (cache : Cache Nat)
    (p : Nat) : Except Fault Scan :=
  match candidate : m.candidate? h p with
  | none => .ok past
  | some start =>
    let past := past.tryAt start
    match m.matchAt steps h cache start with
    | .error f => .error f
    | .ok (some stop, _) => .ok (past.found ⟨start, stop⟩)
    | .ok (none, cache) =>
      match size : charSize? h start with
      | none => .ok past
      | some n =>
        have := bounds_of_candidate? candidate
        have := charSize?_pos size
        findFrom m steps h past cache (start + n)
termination_by h.bytes.size + 1 - p

/-- Looks for all matches from `p` on, the last one having ended at `last`. An empty match there
would only repeat that end, so it is passed over. -/
def findAllFrom (m : Matcher) (steps : Nat) (h : Haystack) (past : Scan) (cache : Cache Nat)
    (last : Option Nat) (p : Nat) : Except Fault Scan :=
  match candidate : m.candidate? h p with
  | none => .ok past
  | some start =>
    have := bounds_of_candidate? candidate
    have := stepFrom_pos h start
    let past := past.tryAt start
    match m.matchAt steps h cache start with
    | .error f => .error f
    | .ok (none, cache) =>
      if h.bytes.size ≤ start then .ok past
      else findAllFrom m steps h past cache last (start + stepFrom h start)
    | .ok (some stop, cache) =>
      if stop = start ∧ last = some start then
        if h.bytes.size ≤ start then .ok past
        else findAllFrom m steps h past cache last (start + stepFrom h start)
      else if stop ≤ start then
        findAllFrom m steps h (past.found ⟨start, stop⟩) cache (some stop) (start + stepFrom h start)
      else findAllFrom m steps h (past.found ⟨start, stop⟩) cache (some stop) stop
termination_by h.bytes.size + 1 - p

def findScan (m : Matcher) (steps : Nat) (h : Haystack) : Except Fault Scan :=
  m.findFrom steps h .empty (.ofGraph m.graph) 0

def findAllScan (m : Matcher) (steps : Nat) (h : Haystack) : Except Fault Scan :=
  m.findAllFrom steps h .empty (.ofGraph m.graph) none 0

def find? (m : Matcher) (steps : Nat) (h : Haystack) : Except Fault (Option (Span Nat)) :=
  (m.findScan steps h).map (·.spans[0]?)

def findAll (m : Matcher) (steps : Nat) (h : Haystack) : Except Fault (List (Span Nat)) :=
  (m.findAllScan steps h).map (·.spans.toList)

def buildEvents (m : Matcher) : List (Event Nat) :=
  let g := m.graph
  .builtGraph g.states.size g.names.size g.trapCount ::
    match g.leading with
    | none => []
    | some _ => [Needle.event m.needle]

def eventsAt (m : Matcher) (steps : Nat) (h : Haystack) (starts : List Nat) : List (Event Nat) :=
  starts.flatMap fun p => m.anchored.events steps (.ofGraph m.graph) (⟨h.text, p⟩ : TextCursor)

end Matcher

end PatternGraph
