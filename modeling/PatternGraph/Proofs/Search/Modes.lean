import PatternGraph.Proofs.Search.Leftmost

/-!
The two ways to search. A search for a match of all the tokens ahead and one for the first match go
the same way until the latter accepts; so whatever the one accepts, the other has accepted something
by then, and where the first match happens to end with the tokens there is no difference.
-/
namespace PatternGraph
open Cursor

section Searches
variable {S T P : Type} [Cursor S T P] [Token T] [DecidableEq T] [DecidableEq P]

namespace Machine

/-- Only in a terminal state does it matter whether a match has to consume all tokens. -/
theorem step_modes (g : Graph) (m : Machine S P) :
    step g true m = step g false m ∨
      step g false m = .accept m ∧ (isDone m.cursor = true → step g true m = .accept m) := by
  obtain ⟨control, cursor, cache⟩ := m
  cases control with
  | resume => exact .inl rfl
  | visit id =>
    simp only [step, visit]
    cases g.state? id with
    | none => exact .inl rfl
    | some state =>
      cases state with
      | relay | fanout | tagOpen | tagClose | trap => exact .inl rfl
      | terminal =>
        refine .inr ⟨rfl, fun done => ?_⟩
        simp [done]

/-- A run that has to consume all tokens goes the same way as one that has not, unless the latter ends
with tokens ahead. -/
theorem run_modes (g : Graph) (n : Nat) (m : Machine S P) :
    run g true n m = run g false n m ∨
      ∃ m', run g false n m = .ok (true, m') ∧ isDone m'.cursor = false := by
  induction n generalizing m with
  | zero => exact .inl rfl
  | succ n ih =>
    simp only [run]
    rcases step_modes g m with same | ⟨accepts, whole⟩
    · rw [same]
      cases step g false m with
      | move event m₁ => exact ih m₁
      | accept | exhaust | fault => exact .inl rfl
    · rw [accepts]
      cases done : isDone m.cursor with
      | true =>
        rw [whole done]
        exact .inl rfl
      | false => exact .inr ⟨m, rfl, done⟩

end Machine

theorem Backtracker.search_modes (g : Graph) (steps : Nat) (cache : Cache P) (c : S) :
    (mk g true).search steps cache c = (mk g false).search steps cache c ∨
      ∃ c' cache', (mk g false).search steps cache c = .ok (some c', cache') ∧
        isDone c' = false := by
  rcases Machine.run_modes g steps (.start g cache c) with same | ⟨m, ran, more⟩
  · refine .inl ?_
    simp only [search, same]
  · refine .inr ⟨m.cursor, m.cache.settle true, ?_, more⟩
    simp only [search, ran, if_true]

end Searches

namespace Matcher

theorem find?_of_search {m : Matcher} {text : String} {steps : Nat} {c : TextCursor}
    {cache : Cache Nat} (leads : m.LooksForLeading)
    (searched : m.anchored.search steps (.ofGraph m.graph) (TextCursor.start text) =
      .ok (some c, cache)) :
    m.find? steps (.ofString text) = .ok (some ⟨0, c.offset⟩) := by
  have boundary : TextCursor.isBoundary text 0 = true := TextCursor.isBoundary_zero text
  have matched : m.graph.MatchesAt text 0 c.offset := ⟨boundary, steps, c, cache, searched, rfl⟩
  have offered : m.candidate? (.ofString text) 0 = some 0 := by
    cases offered : m.candidate? (.ofString text) 0 with
    | none => exact absurd matched (not_matchesAt_of_no_candidate leads offered (Nat.le_refl 0))
    | some start =>
      have := candidate_le leads offered (Nat.le_refl 0) matched
      rw [Nat.le_zero.1 this]
  have ends : m.matchAt steps (.ofString text) (.ofGraph m.graph) 0 = .ok (some c.offset, cache) := by
    have placed : TextCursor.startAt? text 0 = some (TextCursor.start text) := by
      rw [TextCursor.startAt?, if_pos boundary]
      rfl
    simp only [matchAt, Haystack.ofString, placed, searched, Option.map_some]
  have scan : m.findScan steps (.ofString text) = .ok ((Scan.empty.tryAt 0).found ⟨0, c.offset⟩) := by
    rw [findScan, findFrom]
    split
    · rename_i none
      rw [offered] at none
      cases none
    · rename_i start found
      rw [offered] at found
      cases found
      rw [ends]
  rw [find?, scan]
  rfl

end Matcher

/-- Whatever matches all the tokens ahead has a first match; a first match of all the tokens is what
the search for such a match comes to, with the same positions of the groups; and without a first
match there is none at all. So a text that matches as a whole is found to match from its beginning. -/
theorem search_whole_anchored {options : Options} {pattern : String} {g : Graph}
    (compiled : compile options pattern = .ok g) :
    (∀ {S T P : Type} [Cursor S T P] [Token T] [DecidableEq T] [DecidableEq P] (steps : Nat)
        (cache : Cache P) (c : S),
      (∀ c₁ cache₁, (Backtracker.mk g true).search steps cache c = .ok (some c₁, cache₁) →
        ∃ c₂ cache₂, (Backtracker.mk g false).search steps cache c = .ok (some c₂, cache₂)) ∧
      (∀ c₁ cache₁, (Backtracker.mk g false).search steps cache c = .ok (some c₁, cache₁) →
        isDone c₁ = true → (Backtracker.mk g true).search steps cache c = .ok (some c₁, cache₁)) ∧
      ∀ cache₁, (Backtracker.mk g false).search steps cache c = .ok (none, cache₁) →
        (Backtracker.mk g true).search steps cache c = .ok (none, cache₁)) ∧
    ∀ (steps : Nat) (text : String),
      (Matcher.ofGraph g).isMatch steps (.ofString text) = .ok true →
        ∃ stop, (Matcher.ofGraph g).find? steps (.ofString text) = .ok (some ⟨0, stop⟩) := by
  constructor
  · intro S T P _ _ _ _ steps cache c
    rcases Backtracker.search_modes g steps cache c with same | ⟨c', cache', first, more⟩
    · rw [same]
      exact ⟨fun c₁ cache₁ found => ⟨c₁, cache₁, found⟩, fun _ _ found _ => found, fun _ none => none⟩
    · rw [first]
      refine ⟨fun _ _ _ => ⟨c', cache', rfl⟩, ?_, ?_⟩
      · rintro _ _ ⟨⟩ done
        rw [more] at done
        cases done
      · rintro _ ⟨⟩
  · intro steps text whole
    have leads := Matcher.looksForLeading_of_compile compiled
    unfold Matcher.isMatch at whole
    split at whole
    · cases whole
    · rename_i found cache searched
      obtain ⟨c₁, rfl⟩ := Option.isSome_iff_exists.1 (Except.ok.inj whole)
      rcases Backtracker.search_modes g steps (.ofGraph g) (TextCursor.start text) with
        same | ⟨c', cache', first, _⟩
      · exact ⟨_, Matcher.find?_of_search leads (same.symm.trans searched)⟩
      · exact ⟨_, Matcher.find?_of_search leads first⟩

theorem search_whole_anchored_shorterFirst : ∃ g, compile .unset "a|ab" = .ok g ∧
    (Matcher.ofGraph g).isMatch 20 (.ofString "ab") = .ok true ∧
    ∃ stop, (Matcher.ofGraph g).find? 20 (.ofString "ab") = .ok (some ⟨0, stop⟩) := by
  have compiles : (compile .unset "a|ab").toOption.isSome = true := by decide +kernel
  have answer : (compile .unset "a|ab").toOption.map
      (fun g => ((Matcher.ofGraph g).isMatch 20 (.ofString "ab")).toOption) = some (some true) := by
    decide +kernel
  obtain ⟨g, compiled⟩ := Except.exists_eq_ok compiles
  rw [compiled] at answer
  have whole : (Matcher.ofGraph g).isMatch 20 (.ofString "ab") = .ok true := by
    cases searched : (Matcher.ofGraph g).isMatch 20 (.ofString "ab") with
    | error f => simp [Except.toOption, searched] at answer
    | ok found => simpa [Except.toOption, searched] using answer
  exact ⟨g, compiled, whole, (search_whole_anchored compiled).2 20 "ab" whole⟩

end PatternGraph
