import Mathlib.Data.Finset.Lattice.Fold
import Mathlib.Data.Finset.Range
import PatternGraph.Proofs.Cursor.Boundary
import PatternGraph.Proofs.Search.Compiled
import PatternGraph.Proofs.Search.Leading
import PatternGraph.Proofs.Search.Reuse
import PatternGraph.Search.Matcher

/-!
The places of a text at which a search succeeds, and where it ends. For a compiled pattern this is
decided in so many steps for all places together.
-/
namespace PatternGraph
open Cursor TextCursor

/-- A search that begins at `start`, a character boundary, succeeds and ends at `stop`. -/
def Graph.MatchesAt (g : Graph) (text : String) (start stop : Nat) : Prop :=
  isBoundary text start = true ∧ ∃ steps c cache,
    (Backtracker.mk g false).search steps (.ofGraph g) (⟨text, start⟩ : TextCursor) =
      .ok (some c, cache) ∧ c.offset = stop

section Searches
variable {S T P : Type} [Cursor S T P] [Token T] [DecidableEq T] [DecidableEq P]

namespace Backtracker

theorem search_unique {b : Backtracker} {steps steps' : Nat} {cache cache₁ cache' cache₁' : Cache P}
    {c : S} {found found' : Option S} (searched : b.search steps cache c = .ok (found, cache₁))
    (searched' : b.search steps' cache' c = .ok (found', cache₁')) : found = found' := by
  rw [search_prepared b steps' cache' cache c] at searched'
  obtain ⟨m, ran, stands⟩ := run_of_search searched
  obtain ⟨m', ran', stands'⟩ := run_of_search searched'
  obtain ⟨accepts, rfl⟩ := Prod.mk.inj (Machine.run_unique ran ran')
  cases found with
  | none =>
    cases found' with
    | none => rfl
    | some c' => cases accepts
  | some c₁ =>
    cases found' with
    | none => cases accepts
    | some c₂ => rw [← stands c₁ rfl, stands' c₂ rfl]

end Backtracker

end Searches

theorem Matcher.isMatch_unique {m : Matcher} {steps steps' : Nat} {h : Haystack} {found found' : Bool}
    (answer : m.isMatch steps h = .ok found) (answer' : m.isMatch steps' h = .ok found') :
    found = found' := by
  unfold isMatch at answer answer'
  split at answer
  · cases answer
  · rename_i searched
    cases answer
    split at answer'
    · cases answer'
    · rename_i searched'
      cases answer'
      rw [Backtracker.search_unique searched searched']

namespace Graph
variable {g : Graph} {text : String} {start stop : Nat}

theorem MatchesAt.unique {stop' : Nat} (first : g.MatchesAt text start stop)
    (second : g.MatchesAt text start stop') : stop = stop' := by
  obtain ⟨_, steps, c, cache, searched, rfl⟩ := first
  obtain ⟨_, steps', c', cache', searched', rfl⟩ := second
  obtain rfl := Option.some.inj (Backtracker.search_unique searched searched')
  rfl

theorem MatchesAt.start_le_size (found : g.MatchesAt text start stop) :
    start ≤ text.utf8ByteSize :=
  le_size_of_isBoundary found.1

theorem MatchesAt.begins {cs : List Char} (found : g.MatchesAt text start stop)
    (leading : leadingLiteral g.states g.start = some cs) :
    ∃ c, nextChars (⟨text, start⟩ : TextCursor) cs = some c := by
  obtain ⟨_, steps, c, cache, searched, _⟩ := found
  obtain ⟨m, ran, _⟩ := Backtracker.run_of_search searched
  exact Machine.passes_of_leadingLiteral leading ran

end Graph

/-- So many steps are enough for the search from any place, whatever was searched before, and no
match goes backwards. -/
structure Graph.Decides (g : Graph) (text : String) (steps : Nat) : Prop where
  search : ∀ p, isBoundary text p = true → ∀ cache, ∃ found cache',
    (Backtracker.mk g false).search steps cache (⟨text, p⟩ : TextCursor) = .ok (found, cache')
  forward : ∀ start stop, g.MatchesAt text start stop → isBoundary text stop = true ∧ start ≤ stop

theorem Graph.Decides.matchAt {m : Matcher} {text : String} {steps start : Nat}
    (decides : m.graph.Decides text steps) (boundary : isBoundary text start = true) (cache : Cache Nat) :
    ∃ found cache', m.matchAt steps (.ofString text) cache start = .ok (found, cache') ∧
      ∀ stop, found = some stop ↔ m.graph.MatchesAt text start stop := by
  obtain ⟨found, cache', searched⟩ := decides.search start boundary cache
  refine ⟨found.map (·.offset), cache', ?_, ?_⟩
  · have placed : TextCursor.startAt? text start = some ⟨text, start⟩ := by
      rw [TextCursor.startAt?, if_pos boundary]
    simp only [Matcher.matchAt, Haystack.ofString, placed, Matcher.anchored, searched]
  · intro stop
    constructor
    · intro ends
      obtain ⟨c, rfl, offset⟩ := Option.map_eq_some_iff.1 ends
      rw [Backtracker.search_prepared _ _ _ (.ofGraph m.graph)] at searched
      exact ⟨boundary, steps, c, cache', searched, offset⟩
    · rintro ⟨_, steps', c, cache₁, searched', offset⟩
      rw [Backtracker.search_unique searched searched', Option.map_some, offset]

theorem Graph.Decides.ends {m : Matcher} {text : String} {steps start : Nat}
    (decides : m.graph.Decides text steps) (boundary : isBoundary text start = true)
    {cache cache' : Cache Nat} {found : Option Nat}
    (matched : m.matchAt steps (.ofString text) cache start = .ok (found, cache')) (stop : Nat) :
    found = some stop ↔ m.graph.MatchesAt text start stop := by
  obtain ⟨found', _, matched', ends⟩ := decides.matchAt boundary cache
  obtain ⟨rfl, _⟩ := Prod.mk.inj (Except.ok.inj (matched.symm.trans matched'))
  exact ends stop

/-- A text has finitely many boundaries, so some number of steps is enough for all of them. -/
theorem exists_steps_of_each (text : String) {enough : Nat → Nat → Prop}
    (each : ∀ p, ∃ n, ∀ steps, n ≤ steps → enough p steps) :
    ∃ n, ∀ steps, n ≤ steps → ∀ p, isBoundary text p = true → enough p steps := by
  choose bound holds using each
  refine ⟨(Finset.range (text.utf8ByteSize + 1)).sup bound, ?_⟩
  intro steps le p boundary
  apply holds
  have inside : p ∈ Finset.range (text.utf8ByteSize + 1) := by
    have := le_size_of_isBoundary boundary
    simp
    omega
  exact Nat.le_trans (Finset.le_sup (f := bound) inside) le

theorem decides_of_compile {options : Options} {pattern : String} {g : Graph}
    (compiled : compile options pattern = .ok g) (text : String) :
    ∃ n, ∀ steps, n ≤ steps → g.Decides text steps := by
  obtain ⟨t, _, realizes⟩ := realizes_of_compile compiled
  have each (p : Nat) := Backtracker.search_of_realizes realizes
    (TextCursor.restores (⟨text, p⟩ : TextCursor)) false (.ofGraph g)
  obtain ⟨n, all⟩ := exists_steps_of_each text each
  refine ⟨n, fun steps le => ⟨?_, ?_⟩⟩
  · intro p boundary cache
    obtain ⟨cache', searched, _⟩ := all steps le p boundary
    rw [Backtracker.search_prepared _ _ _ cache] at searched
    exact ⟨_, cache', searched⟩
  · rintro start stop ⟨boundary, steps', c, cache, searched, rfl⟩
    obtain ⟨cache', searched', _⟩ := all steps le start boundary
    obtain ⟨σ, matched, rfl⟩ :=
      Option.map_eq_some_iff.1 (Backtracker.search_unique searched' searched)
    exact boundary_of_ahead boundary (Tree.ahead_of_exits (List.mem_of_find?_eq_some matched))

end PatternGraph
