import PatternGraph.Proofs.Search.Matches
import PatternGraph.Proofs.Search.Occurrence

/-!
The leftmost match of a compiled pattern. A place where the leading literal does not occur is passed
over without a search, and no match begins there, so the matches are those of a scan that tries all
places.
-/
namespace PatternGraph
open Cursor TextCursor

namespace Matcher

def LooksForLeading (m : Matcher) : Prop :=
  ∀ n, m.needle = some n → ∃ cs, leadingLiteral m.graph.states m.graph.start = some cs ∧
    Needle.ofChars? cs = some n

variable {m : Matcher} {text : String} {steps p start : Nat}

theorem charSize?_eq_none (boundary : isBoundary text p = true) :
    charSize? (.ofString text) p = none ↔ p = text.utf8ByteSize := by
  rw [charSize?, Option.map_eq_none_iff]
  exact peek_eq_none_iff boundary

theorem boundary_stepFrom (boundary : isBoundary text p = true)
    (inside : p + stepFrom (.ofString text) p ≤ text.utf8ByteSize) :
    isBoundary text (p + stepFrom (.ofString text) p) = true := by
  rw [stepFrom] at inside ⊢
  cases size : charSize? (.ofString text) p with
  | none =>
    rw [size, (charSize?_eq_none boundary).1 size] at inside
    simp at inside
  | some n =>
    obtain ⟨ch, here, rfl⟩ := Option.map_eq_some_iff.1 size
    exact boundary_next boundary here

theorem stepFrom_le {q : Nat} (boundary : isBoundary text p = true)
    (later : isBoundary text q = true) (lt : p < q) :
    p + stepFrom (.ofString text) p ≤ q := by
  rw [stepFrom]
  cases size : charSize? (.ofString text) p with
  | none =>
    have := (charSize?_eq_none boundary).1 size
    have := le_size_of_isBoundary later
    omega
  | some n =>
    obtain ⟨ch, here, rfl⟩ := Option.map_eq_some_iff.1 size
    exact next_le_boundary boundary later lt here

theorem boundary_of_candidate (leads : m.LooksForLeading)
    (boundary : p ≤ text.utf8ByteSize → isBoundary text p = true)
    (offered : m.candidate? (.ofString text) p = some start) : isBoundary text start = true := by
  unfold candidate? at offered
  split at offered
  · split at offered
    · rename_i inside
      cases offered
      exact boundary inside
    · cases offered
  · rename_i n needle
    obtain ⟨cs, _, some⟩ := leads n needle
    obtain ⟨bytes, nonempty⟩ := Needle.bytes_of_ofChars? some
    have occurs := (Needle.find?_eq_some offered).1
    rw [bytes] at occurs
    exact isBoundary_of_occursAt nonempty occurs

theorem occursAt_of_matchesAt {n : Needle} {stop : Nat} (leads : m.LooksForLeading)
    (needle : m.needle = some n) (found : m.graph.MatchesAt text p stop) :
    Needle.occursAt text.toUTF8 p n.bytes = true := by
  obtain ⟨cs, leading, some⟩ := leads n needle
  obtain ⟨c, passed⟩ := found.begins leading
  rw [(Needle.bytes_of_ofChars? some).1]
  exact occursAt_of_nextChars found.1 passed

/-- No match begins at a place that is passed over. -/
theorem candidate_le {q stop : Nat} (leads : m.LooksForLeading)
    (offered : m.candidate? (.ofString text) p = some start) (le : p ≤ q)
    (found : m.graph.MatchesAt text q stop) : start ≤ q := by
  unfold candidate? at offered
  split at offered
  · split at offered
    · cases offered
      exact le
    · cases offered
  · rename_i n needle
    by_contra lt
    have absent := (Needle.find?_eq_some offered).2 q le (by omega)
    have occurs := occursAt_of_matchesAt leads needle found
    exact absurd (absent.symm.trans occurs) (by decide)

theorem not_matchesAt_of_no_candidate {q stop : Nat} (leads : m.LooksForLeading)
    (none : m.candidate? (.ofString text) p = none) (le : p ≤ q) :
    ¬ m.graph.MatchesAt text q stop := by
  intro found
  have inside : q ≤ text.toUTF8.size := found.start_le_size
  unfold candidate? at none
  split at none
  · split at none
    · cases none
    · rename_i outside
      exact outside (Nat.le_trans le inside)
  · rename_i n needle
    have absent := Needle.find?_eq_none none le inside
    have occurs := occursAt_of_matchesAt leads needle found
    exact absurd (absent.symm.trans occurs) (by decide)

/-- The first of the matches that begin at `p` or later. -/
def Leftmost (g : Graph) (text : String) (p : Nat) : Option (Span Nat) → Prop
  | none => ∀ q stop, p ≤ q → ¬ g.MatchesAt text q stop
  | some s => g.MatchesAt text s.start s.stop ∧ p ≤ s.start ∧
    ∀ q stop, p ≤ q → g.MatchesAt text q stop → s.start ≤ q

theorem Leftmost.unique {g : Graph} {found found' : Option (Span Nat)}
    (first : Leftmost g text p found) (second : Leftmost g text p found') : found = found' := by
  cases found with
  | none =>
    cases found' with
    | none => rfl
    | some s => exact absurd second.1 (first _ _ second.2.1)
  | some s =>
    cases found' with
    | none => exact absurd first.1 (second _ _ first.2.1)
    | some s' =>
      obtain ⟨start, stop⟩ := s
      obtain ⟨start', stop'⟩ := s'
      obtain ⟨found, from_, least⟩ := first
      obtain ⟨found', from_', least'⟩ := second
      obtain rfl : start = start' :=
        Nat.le_antisymm (least _ _ from_' found') (least' _ _ from_ found)
      obtain rfl := found.unique found'
      rfl

theorem Leftmost.skip {g : Graph} {q : Nat} {found : Option (Span Nat)}
    (later : Leftmost g text q found) (le : p ≤ q)
    (passed : ∀ r stop, p ≤ r → g.MatchesAt text r stop → q ≤ r) : Leftmost g text p found := by
  cases found with
  | none =>
    intro r stop above found
    exact later r stop (passed r stop above found) found
  | some s =>
    obtain ⟨found, above, least⟩ := later
    refine ⟨found, Nat.le_trans le above, ?_⟩
    intro r stop above found
    exact least r stop (passed r stop above found) found

theorem findFrom_leftmost (leads : m.LooksForLeading) (decides : m.graph.Decides text steps)
    (past : Scan) (cache : Cache Nat)
    (boundary : p ≤ text.utf8ByteSize → isBoundary text p = true) :
    ∃ scan found, m.findFrom steps (.ofString text) past cache p = .ok scan ∧
      scan.spans = past.spans ++ found.toArray ∧ Leftmost m.graph text p found := by
  fun_induction findFrom m steps (.ofString text) past cache p with
  | case1 past cache p none =>
    refine ⟨past, .none, rfl, by simp, ?_⟩
    intro q stop le
    exact not_matchesAt_of_no_candidate leads none le
  | case2 past cache p start offered f faults =>
    obtain ⟨_, _, decided, _⟩ :=
      decides.matchAt (boundary_of_candidate leads boundary offered) cache
    rw [decided] at faults
    cases faults
  | case3 past cache p start offered tried stop cache' found =>
    have here := boundary_of_candidate leads boundary offered
    have ends := decides.ends here found
    refine ⟨_, some ⟨start, stop⟩, rfl, by simp [Scan.found, tried, Scan.tryAt], (ends stop).1 rfl,
      (bounds_of_candidate? offered).1, ?_⟩
    intro q stop' le found
    exact candidate_le leads offered le found
  | case4 past cache p start offered tried cache' failed size =>
    have here := boundary_of_candidate leads boundary offered
    have ends := decides.ends here failed
    refine ⟨_, .none, rfl, by simp [tried, Scan.tryAt], ?_⟩
    intro q stop le found
    have above := candidate_le leads offered le found
    have inside := found.start_le_size
    have last := (charSize?_eq_none here).1 size
    obtain rfl : q = start := by omega
    exact absurd ((ends stop).2 found) (by simp)
  | case5 past cache p start offered _ cache' failed n size _ _ ih =>
    have here := boundary_of_candidate leads boundary offered
    have ends := decides.ends here failed
    have step : n = stepFrom (.ofString text) start := by rw [stepFrom, size, Option.getD_some]
    obtain ⟨scan, found, run, spans, leftmost⟩ := ih (by
      rw [step]
      exact boundary_stepFrom here)
    refine ⟨scan, found, run, spans, leftmost.skip ?_ ?_⟩
    · have := (bounds_of_candidate? offered).1
      omega
    · intro r stop le found
      have above := candidate_le leads offered le found
      rw [step]
      apply stepFrom_le here found.1
      by_contra least
      obtain rfl : r = start := by omega
      exact absurd ((ends stop).2 found) (by simp)

/-- A scan finds the leftmost match, with the needle as without it. -/
theorem find?_leftmost (leads : m.LooksForLeading) (decides : m.graph.Decides text steps) :
    ∃ found, m.find? steps (.ofString text) = .ok found ∧ Leftmost m.graph text 0 found := by
  obtain ⟨scan, found, run, spans, leftmost⟩ := findFrom_leftmost leads decides .empty
    (.ofGraph m.graph) fun _ => isBoundary_zero text
  refine ⟨found, ?_, leftmost⟩
  rw [find?, findScan, run]
  cases found <;> simp [Except.map, spans, Scan.empty]

end Matcher

theorem leading_of_compile {options : Options} {pattern : String} {g : Graph}
    (compiled : compile options pattern = .ok g) :
    g.leading = leadingLiteral g.states g.start := by
  simp only [compile, Outline.assemble, Except.bind_eq_ok, Assembly.refuse_eq_ok] at compiled
  obtain ⟨_, _, _, _, _, _, _, _, finished⟩ := compiled
  obtain ⟨_, _, _, _, _, _, _, _, finishes⟩ := Assembly.finish_eq_ok finished
  exact finishes.leading

theorem Matcher.looksForLeading_of_compile {options : Options} {pattern : String} {g : Graph}
    (compiled : compile options pattern = .ok g) : (Matcher.ofGraph g).LooksForLeading := by
  intro n needle
  obtain ⟨cs, leading, some⟩ := Option.bind_eq_some_iff.1 needle
  rw [leading_of_compile compiled] at leading
  exact ⟨cs, leading, some⟩

/-- What is found is the match that begins first, and it ends where the search from there does. -/
theorem Matcher.find_eq_leftmost {options : Options} {pattern : String} {g : Graph}
    (compiled : compile options pattern = .ok g) (text : String) :
    ∃ n, ∀ steps, n ≤ steps → ∃ found,
      (Matcher.ofGraph g).find? steps (.ofString text) = .ok found ∧
      (∀ start stop, found = some ⟨start, stop⟩ ↔
        g.MatchesAt text start stop ∧ ∀ p < start, ∀ stop', ¬ g.MatchesAt text p stop') ∧
      (found = none ↔ ∀ p stop, ¬ g.MatchesAt text p stop) ∧
      (Matcher.mk g none).find? steps (.ofString text) = .ok found := by
  obtain ⟨n, decided⟩ := decides_of_compile compiled text
  refine ⟨n, fun steps enough => ?_⟩
  have decides := decided steps enough
  obtain ⟨found, finds, leftmost⟩ :=
    find?_leftmost (m := ofGraph g) (looksForLeading_of_compile compiled) decides
  obtain ⟨plain, scans, leftmost'⟩ := find?_leftmost (m := ⟨g, none⟩) (by simp [LooksForLeading]) decides
  obtain rfl : plain = found := leftmost'.unique leftmost
  refine ⟨plain, finds, ?_, ?_, scans⟩
  · intro start stop
    constructor
    · rintro rfl
      obtain ⟨matched, _, least⟩ := leftmost
      refine ⟨matched, fun p before stop' earlier => ?_⟩
      have := least p stop' (Nat.zero_le p) earlier
      simp only at this
      omega
    · rintro ⟨matched, least⟩
      apply leftmost.unique
      refine ⟨matched, Nat.zero_le _, fun q stop' _ later => ?_⟩
      by_contra before
      exact least q (by simpa using before) stop' later
  · constructor
    · rintro rfl p stop
      exact leftmost p stop (Nat.zero_le p)
    · intro never
      apply leftmost.unique
      exact fun q stop _ => never q stop

theorem Matcher.find_eq_leftmost_literal : ∃ g, compile .unset "(éa)b*" = .ok g ∧
    ∃ n, ∀ steps, n ≤ steps → ∃ found,
      (Matcher.ofGraph g).find? steps (.ofString "aéabb") = .ok found ∧
      (∀ start stop, found = some ⟨start, stop⟩ ↔
        g.MatchesAt "aéabb" start stop ∧ ∀ p < start, ∀ stop', ¬ g.MatchesAt "aéabb" p stop') ∧
      (found = none ↔ ∀ p stop, ¬ g.MatchesAt "aéabb" p stop) ∧
      (Matcher.mk g none).find? steps (.ofString "aéabb") = .ok found := by
  have compiles : (compile .unset "(éa)b*").toOption.isSome = true := by decide +kernel
  obtain ⟨g, compiled⟩ := Except.exists_eq_ok compiles
  exact ⟨g, compiled, find_eq_leftmost compiled "aéabb"⟩

end PatternGraph
