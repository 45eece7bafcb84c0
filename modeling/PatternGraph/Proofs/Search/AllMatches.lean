import PatternGraph.Proofs.Search.Leftmost

/-!
The matches found one after another. Each is the first that the one before it precedes, and from
that it follows that they are in order, do not overlap, and leave no match out that could be added.
-/
namespace PatternGraph
open TextCursor

/-- The second begins after the first, and at its end or later; an empty span does not begin where
the first one ends. -/
def Span.Precedes (s t : Span Nat) : Prop :=
  s.start < t.start ∧ s.stop ≤ t.start ∧ (t.start = t.stop → s.stop ≠ t.start)

namespace Matcher
variable {m : Matcher} {g : Graph} {text : String} {steps p : Nat} {prior : Option (Span Nat)}
  {spans : List (Span Nat)}

/-- The spans are taken greedily: each is the first match that the last one before it precedes. -/
inductive Sweeps (g : Graph) (text : String) : Option (Span Nat) → List (Span Nat) → Prop where
  | done {prior : Option (Span Nat)}
      (none : ∀ t, g.MatchesAt text t.start t.stop → ¬ ∀ s ∈ prior, s.Precedes t) :
      Sweeps g text prior []
  | next {prior : Option (Span Nat)} {s : Span Nat} {rest : List (Span Nat)}
      (found : g.MatchesAt text s.start s.stop) (after : ∀ r ∈ prior, r.Precedes s)
      (first : ∀ t, g.MatchesAt text t.start t.stop → (∀ r ∈ prior, r.Precedes t) →
        s.start ≤ t.start)
      (later : Sweeps g text (some s) rest) : Sweeps g text prior (s :: rest)

namespace Sweeps

theorem matches_of_mem (sweeps : Sweeps g text prior spans) :
    ∀ s ∈ spans, g.MatchesAt text s.start s.stop := by
  induction sweeps with
  | done => simp
  | next found _ _ _ ih => exact List.forall_mem_cons.2 ⟨found, ih⟩

theorem precedes_of_mem (sweeps : Sweeps g text prior spans)
    (forward : ∀ start stop, g.MatchesAt text start stop → start ≤ stop) :
    ∀ r ∈ prior, ∀ s ∈ spans, r.Precedes s := by
  induction sweeps with
  | done => simp
  | @next prior s rest found after _ _ ih =>
    intro r mem t mem'
    obtain ⟨starts, stops, apart⟩ := after r mem
    rcases List.mem_cons.1 mem' with rfl | mem'
    · exact ⟨starts, stops, apart⟩
    · have := forward _ _ found
      obtain ⟨starts', stops', _⟩ := ih s rfl t mem'
      refine ⟨by omega, by omega, fun _ => by omega⟩

theorem pairwise (sweeps : Sweeps g text prior spans)
    (forward : ∀ start stop, g.MatchesAt text start stop → start ≤ stop) :
    spans.Pairwise Span.Precedes := by
  induction sweeps with
  | done => exact .nil
  | next _ _ _ later ih => exact .cons (later.precedes_of_mem forward _ rfl) ih

/-- A match that is not in reach of any of the spans is empty and stands where one ends. -/
theorem covers (sweeps : Sweeps g text prior spans) {t : Span Nat}
    (found : g.MatchesAt text t.start t.stop) (after : ∀ r ∈ prior, r.Precedes t) :
    (∃ s ∈ spans, t.start = s.start ∨ s.start ≤ t.start ∧ t.start < s.stop) ∨
      t.stop = t.start ∧ ∃ s ∈ spans, s.stop = t.start := by
  induction sweeps with
  | done none => exact absurd after (none t found)
  | @next prior s rest _ _ first _ ih =>
    have least := first t found after
    by_cases inside : t.start = s.start ∨ t.start < s.stop
    · left
      exact ⟨s, List.mem_cons_self, inside.imp_right fun before => ⟨least, before⟩⟩
    · by_cases empty : t.stop = t.start ∧ s.stop = t.start
      · right
        exact ⟨empty.1, s, List.mem_cons_self, empty.2⟩
      · have precedes : s.Precedes t := ⟨by omega, by omega, fun same => by omega⟩
        rcases ih (by simpa using precedes) with ⟨u, mem, reached⟩ | ⟨empty, u, mem, ends⟩
        · exact .inl ⟨u, List.mem_cons_of_mem _ mem, reached⟩
        · exact .inr ⟨empty, u, List.mem_cons_of_mem _ mem, ends⟩

theorem leftmost_head (sweeps : Sweeps g text none spans) :
    Leftmost g text 0 spans.head? := by
  cases sweeps with
  | done none =>
    intro q stop _ found
    exact none ⟨q, stop⟩ found (by simp)
  | next found _ first _ =>
    refine ⟨found, Nat.zero_le _, ?_⟩
    intro q stop _ found
    exact first ⟨q, stop⟩ found (by simp)

theorem unique {spans' : List (Span Nat)} (first : Sweeps g text prior spans)
    (second : Sweeps g text prior spans') : spans = spans' := by
  induction first generalizing spans' with
  | done none =>
    cases second with
    | done => rfl
    | next found after => exact absurd after (none _ found)
  | @next prior s rest found after least _ ih =>
    cases second with
    | done none => exact absurd after (none _ found)
    | @next _ s' rest' found' after' least' later =>
      obtain ⟨start, stop⟩ := s
      obtain ⟨start', stop'⟩ := s'
      obtain rfl : start = start' :=
        Nat.le_antisymm (least _ found' after') (least' _ found after)
      obtain rfl := found.unique found'
      rw [ih later]

end Sweeps

/-- Where the scan goes on after the last span: everything there comes after that span, and nothing
that the span precedes has been left behind. -/
structure GoesOn (g : Graph) (text : String) (prior : Option (Span Nat)) (p : Nat) : Prop where
  boundary : p ≤ text.utf8ByteSize → isBoundary text p = true
  after : ∀ s ∈ prior, s.start < p ∧ s.stop ≤ p
  reaches : ∀ t, g.MatchesAt text t.start t.stop → (∀ s ∈ prior, s.Precedes t) → p ≤ t.start

theorem GoesOn.start (g : Graph) (text : String) : GoesOn g text none 0 where
  boundary _ := isBoundary_zero text
  after := by simp
  reaches _ _ _ := Nat.zero_le _

theorem GoesOn.step {start : Nat} (goes : GoesOn g text prior p) (le : p ≤ start)
    (boundary : isBoundary text start = true)
    (none : ∀ t, g.MatchesAt text t.start t.stop → (∀ s ∈ prior, s.Precedes t) →
      start < t.start) :
    GoesOn g text prior (start + stepFrom (.ofString text) start) where
  boundary := boundary_stepFrom boundary
  after s mem := by
    have := goes.after s mem
    omega
  reaches t found after := stepFrom_le boundary found.1 (none t found after)

theorem GoesOn.found {s : Span Nat} (boundary : isBoundary text s.start = true)
    (ends : isBoundary text s.stop = true) (forward : s.start ≤ s.stop) :
    GoesOn g text (some s)
      (if s.stop ≤ s.start then s.start + stepFrom (.ofString text) s.start else s.stop) := by
  split
  · constructor
    · exact boundary_stepFrom boundary
    · rintro _ ⟨⟩
      have := stepFrom_pos (.ofString text) s.start
      omega
    · intro t found after
      exact stepFrom_le boundary found.1 (after s rfl).1
  · constructor
    · intro _
      exact ends
    · rintro _ ⟨⟩
      omega
    · intro t found after
      exact (after s rfl).2.1

theorem Sweeps.over {start : Nat} (past : text.utf8ByteSize ≤ start)
    (none : ∀ t, g.MatchesAt text t.start t.stop → (∀ s ∈ prior, s.Precedes t) →
      start < t.start) : Sweeps g text prior [] := by
  apply Sweeps.done
  intro t found after
  have := none t found after
  have := found.start_le_size
  omega

theorem GoesOn.passed {start : Nat} (goes : GoesOn m.graph text prior p) (leads : m.LooksForLeading)
    (offered : m.candidate? (.ofString text) p = some start)
    (nothing : ∀ stop, m.graph.MatchesAt text start stop → ∃ s ∈ prior, ¬ s.Precedes ⟨start, stop⟩)
    (t : Span Nat) (found : m.graph.MatchesAt text t.start t.stop)
    (after : ∀ s ∈ prior, s.Precedes t) : start < t.start := by
  have reached := candidate_le leads offered (goes.reaches t found after) found
  by_contra least
  obtain rfl : t.start = start := by omega
  obtain ⟨s, mem, apart⟩ := nothing t.stop found
  exact apart (after s mem)

theorem GoesOn.counts {start stop : Nat} (goes : GoesOn g text prior p) (le : p ≤ start)
    (apart : ¬ (stop = start ∧ prior.map (·.stop) = some start)) :
    ∀ s ∈ prior, s.Precedes ⟨start, stop⟩ := by
  rintro s rfl
  have := goes.after s rfl
  refine ⟨by simp only; omega, by simp only; omega, fun same ends => apart ⟨same.symm, ?_⟩⟩
  exact congrArg some ends

/-- A match that counts at the place offered is the first to count, and the scan goes on past it. -/
theorem GoesOn.take {start stop : Nat} {cache cache' : Cache Nat}
    (goes : GoesOn m.graph text prior p) (leads : m.LooksForLeading)
    (decides : m.graph.Decides text steps) (offered : m.candidate? (.ofString text) p = some start)
    (matched : m.matchAt steps (.ofString text) cache start = .ok (some stop, cache'))
    (counts : ¬ (stop = start ∧ prior.map (·.stop) = some start)) :
    GoesOn m.graph text (some ⟨start, stop⟩)
        (if stop ≤ start then start + stepFrom (.ofString text) start else stop) ∧
      ∀ {rest}, Sweeps m.graph text (some ⟨start, stop⟩) rest →
        Sweeps m.graph text prior (⟨start, stop⟩ :: rest) := by
  have here := boundary_of_candidate leads goes.boundary offered
  have found := (decides.ends here matched stop).1 rfl
  obtain ⟨ends, forward⟩ := decides.forward start stop found
  constructor
  · exact GoesOn.found (s := ⟨start, stop⟩) here ends forward
  · intro rest later
    refine .next found ?_ ?_ later
    · exact goes.counts (bounds_of_candidate? offered).1 counts
    · intro t found after
      exact candidate_le leads offered (goes.reaches t found after) found

theorem findAllFrom_sweeps (leads : m.LooksForLeading) (decides : m.graph.Decides text steps)
    {last : Option Nat} (past : Scan) (cache : Cache Nat) (ended : last = prior.map (·.stop))
    (goes : GoesOn m.graph text prior p) :
    ∃ scan spans, m.findAllFrom steps (.ofString text) past cache last p = .ok scan ∧
      scan.spans = past.spans ++ spans.toArray ∧ Sweeps m.graph text prior spans := by
  have failure {start : Nat} {cache cache' : Cache Nat}
      (boundary : isBoundary text start = true)
      (failed : m.matchAt steps (.ofString text) cache start = .ok (none, cache')) (stop : Nat) :
      ¬ m.graph.MatchesAt text start stop := by
    intro found
    exact absurd ((decides.ends boundary failed stop).2 found) (by simp)
  have repetition {start stop : Nat} {cache cache' : Cache Nat} {prior : Option (Span Nat)}
      (boundary : isBoundary text start = true)
      (found : m.matchAt steps (.ofString text) cache start = .ok (some stop, cache'))
      (repeats : stop = start ∧ prior.map (·.stop) = some start) (stop' : Nat)
      (found' : m.graph.MatchesAt text start stop') : ∃ s ∈ prior, ¬ s.Precedes ⟨start, stop'⟩ := by
    obtain ⟨rfl, ended⟩ := repeats
    obtain ⟨s, rfl, stop⟩ := Option.map_eq_some_iff.1 ended
    obtain rfl := Option.some.inj ((decides.ends boundary found stop').2 found')
    exact ⟨s, rfl, fun after => after.2.2 rfl stop⟩
  -- The scan stops without a candidate, goes on one character after a failure or a repetition, and goes
  -- on past what it has found. In each case `goes` holds again where it goes on.
  fun_induction findAllFrom m steps (.ofString text) past cache last p generalizing prior with
  | case1 past cache last p none =>
    refine ⟨past, [], rfl, by simp, .done ?_⟩
    intro t found after
    exact not_matchesAt_of_no_candidate leads none (goes.reaches t found after) found
  | case2 past cache last p start offered _ _ f faults =>
    obtain ⟨_, _, decided, _⟩ :=
      decides.matchAt (boundary_of_candidate leads goes.boundary offered) cache
    rw [decided] at faults
    cases faults
  | case3 past cache last p start offered bounds _ tried cache' failed =>
    rename_i ending
    have here := boundary_of_candidate leads goes.boundary offered
    refine ⟨_, [], rfl, by simp [tried, Scan.tryAt], .over ending (goes.passed leads offered ?_)⟩
    intro stop found
    exact absurd found (failure here failed stop)
  | case4 past cache last p start offered bounds _ tried cache' failed inside =>
    rename_i ih
    have here := boundary_of_candidate leads goes.boundary offered
    refine ih ended (goes.step bounds.1 here (goes.passed leads offered ?_))
    intro stop found
    exact absurd found (failure here failed stop)
  | case5 past cache last p start offered bounds _ tried stop cache' found repeats =>
    rename_i ending
    have here := boundary_of_candidate leads goes.boundary offered
    rw [ended] at repeats
    exact ⟨_, [], rfl, by simp [tried, Scan.tryAt],
      .over ending (goes.passed leads offered (repetition here found repeats))⟩
  | case6 past cache last p start offered bounds _ tried stop cache' found repeats inside =>
    rename_i ih
    have here := boundary_of_candidate leads goes.boundary offered
    rw [ended] at repeats
    exact ih ended
      (goes.step bounds.1 here (goes.passed leads offered (repetition here found repeats)))
  | case7 past cache last p start offered bounds _ tried stop cache' found counts empty =>
    rename_i ih
    rw [ended] at counts
    obtain ⟨onward, taken⟩ := goes.take leads decides offered found counts
    rw [if_pos empty] at onward
    obtain ⟨scan, spans, run, added, later⟩ := ih rfl onward
    exact ⟨scan, _, run, by simp [added, tried, Scan.found, Scan.tryAt], taken later⟩
  | case8 past cache last p start offered bounds _ tried stop cache' found counts longer =>
    rename_i ih
    rw [ended] at counts
    obtain ⟨onward, taken⟩ := goes.take leads decides offered found counts
    rw [if_neg longer] at onward
    obtain ⟨scan, spans, run, added, later⟩ := ih rfl onward
    exact ⟨scan, _, run, by simp [added, tried, Scan.found, Scan.tryAt], taken later⟩

theorem findAll_sweeps (leads : m.LooksForLeading) (decides : m.graph.Decides text steps) :
    ∃ spans, m.findAll steps (.ofString text) = .ok spans ∧ Sweeps m.graph text none spans := by
  obtain ⟨scan, spans, run, added, sweeps⟩ := findAllFrom_sweeps leads decides .empty
    (.ofGraph m.graph) (rfl : none = Option.map _ none) (.start m.graph text)
  refine ⟨spans, ?_, sweeps⟩
  rw [findAll, findAllScan, run]
  simp [Except.map, added, Scan.empty]

end Matcher

/-- All matches come one after another from left to right; none can be added to them, except for an
empty one where another ends. -/
theorem Matcher.findAll_eq_greedy {options : Options} {pattern : String} {g : Graph}
    (compiled : compile options pattern = .ok g) (text : String) :
    ∃ n, ∀ steps, n ≤ steps → ∃ spans,
      (Matcher.ofGraph g).findAll steps (.ofString text) = .ok spans ∧
      (∀ s ∈ spans, g.MatchesAt text s.start s.stop) ∧
      spans.Pairwise (fun s t => s.start < t.start ∧ s.stop ≤ t.start ∧
        (t.start = t.stop → s.stop ≠ t.start)) ∧
      (Matcher.ofGraph g).find? steps (.ofString text) = .ok spans.head? ∧
      ∀ p stop, g.MatchesAt text p stop →
        (∃ s ∈ spans, p = s.start ∨ s.start ≤ p ∧ p < s.stop) ∨
          stop = p ∧ ∃ s ∈ spans, s.stop = p := by
  obtain ⟨n, decided⟩ := decides_of_compile compiled text
  refine ⟨n, fun steps enough => ?_⟩
  have decides := decided steps enough
  have leads := looksForLeading_of_compile compiled
  obtain ⟨spans, all, sweeps⟩ := findAll_sweeps leads decides
  obtain ⟨found, finds, leftmost⟩ := find?_leftmost leads decides
  obtain rfl : found = spans.head? := leftmost.unique sweeps.leftmost_head
  refine ⟨spans, all, sweeps.matches_of_mem, ?_, finds, ?_⟩
  · exact sweeps.pairwise fun start stop found => (decides.forward start stop found).2
  · intro p stop found
    exact sweeps.covers (t := ⟨p, stop⟩) found (by simp)

theorem Matcher.findAll_eq_greedy_optionalLiteral : ∃ g, compile .unset "a*" = .ok g ∧
    ∃ n, ∀ steps, n ≤ steps → ∃ spans,
      (Matcher.ofGraph g).findAll steps (.ofString "aéa") = .ok spans ∧
      (∀ s ∈ spans, g.MatchesAt "aéa" s.start s.stop) ∧
      spans.Pairwise (fun s t => s.start < t.start ∧ s.stop ≤ t.start ∧
        (t.start = t.stop → s.stop ≠ t.start)) ∧
      (Matcher.ofGraph g).find? steps (.ofString "aéa") = .ok spans.head? ∧
      ∀ p stop, g.MatchesAt "aéa" p stop →
        (∃ s ∈ spans, p = s.start ∨ s.start ≤ p ∧ p < s.stop) ∨
          stop = p ∧ ∃ s ∈ spans, s.stop = p := by
  have compiles : (compile .unset "a*").toOption.isSome = true := by decide +kernel
  obtain ⟨g, compiled⟩ := Except.exists_eq_ok compiles
  exact ⟨g, compiled, findAll_eq_greedy compiled "aéa"⟩

end PatternGraph
