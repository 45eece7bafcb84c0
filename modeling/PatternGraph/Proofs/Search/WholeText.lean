import PatternGraph.Proofs.Cursor.Boundary
import PatternGraph.Proofs.Pattern.Language
import PatternGraph.Proofs.Search.Compiled
import PatternGraph.Search.Matcher

/-!
Whole texts that a compiled pattern matches: the words of the tree that the pattern denotes.
-/
namespace PatternGraph
open Cursor

namespace TextCursor

theorem reads_whole {text : String} {words : Language Char} :
    (∃ c, Reads (start text) words c ∧ isDone c = true) ↔ text.toList ∈ words := by
  have spelled (cs : List Char) : cs.map Token.toChar = cs := List.map_id cs
  obtain ⟨c, passes, done⟩ := passes_of_split (List.nil_append text.toList).symm
  constructor
  · rintro ⟨c', ⟨ts, passes', word⟩, done'⟩
    rw [spelled] at word
    rwa [passes.unique_of_done passes' done done']
  · intro word
    exact ⟨c, ⟨text.toList, passes, by rwa [spelled]⟩, done⟩

end TextCursor

theorem Tree.matchFrom_whole {t : Tree} (plain : ¬ t.HasBackref) (text : String) :
    (t.matchFrom true (TextCursor.start text)).isSome = true ↔ text.toList ∈ t.language := by
  rw [matchFrom, List.find?_isSome, ← TextCursor.reads_whole]
  let σ₀ : Env TextCursor Nat := .start (TextCursor.start text)
  have restores : Restores σ₀.cursor := TextCursor.restores _
  constructor
  · rintro ⟨σ, mem, done⟩
    exact ⟨σ.cursor, (exits_iff_reads plain restores).1 ⟨σ, mem, rfl⟩, done⟩
  · rintro ⟨c, reads, done⟩
    obtain ⟨σ, mem, rfl⟩ := (exits_iff_reads plain restores).2 reads
    exact ⟨σ, mem, done⟩

/-- A text matches as a whole if and only if it is in the language of the pattern. -/
theorem Matcher.isMatch_iff_mem_language {options : Options} {pattern : String} {g : Graph}
    (compiled : compile options pattern = .ok g) :
    (∃ t, Denotes options pattern t g.names) ∧
      ∀ t names, Denotes options pattern t names → ¬ t.HasBackref → ∀ h : Haystack,
        ∃ n, ∀ steps, n ≤ steps → ∃ found, (Matcher.ofGraph g).isMatch steps h = .ok found ∧
          (found = true ↔ h.text.toList ∈ t.language) := by
  obtain ⟨t, denotes, _⟩ := realizes_of_compile compiled
  refine ⟨⟨t, denotes⟩, fun t names denotes plain h => ?_⟩
  have restores : Restores (TextCursor.start h.text) := TextCursor.restores _
  obtain ⟨n, searches⟩ :=
    Backtracker.search_of_realizes (denotes.realizes compiled) restores true (.ofGraph g)
  refine ⟨n, fun steps enough => ?_⟩
  obtain ⟨cache, search, _⟩ := searches steps enough
  refine ⟨(t.matchFrom true (TextCursor.start h.text)).isSome, ?_, t.matchFrom_whole plain h.text⟩
  simp only [isMatch, whole, ofGraph, search, Option.isSome_map]

def loopedGroup : Tree := .cat (.loop ⟨2, none⟩ optionalGroup) .empty

open Grammar in
theorem denotes_loopedGroup : Denotes .unset "(a|){2,}" loopedGroup .single := by
  have braces : Lexed ['{', '2', ',', '}'] [.plain '{', .plain '2', .plain ',', .plain '}'] :=
    .plain (by decide) (.plain (by decide) (.plain (by decide) (.plain (by decide) .done)))
  have digit : ∀ c ∈ ['2'], '0' ≤ c ∧ c ≤ '9' := by
    intro c mem
    rw [List.mem_singleton.1 mem]
    exact ⟨by decide, by decide⟩
  have count : Quantifier [.plain '{', .plain '2', .plain ',', .plain '}'] ⟨2, none⟩ [] :=
    .atLeast ⟨['2'], List.cons_ne_nil _ _, digit, rfl, rfl, by decide⟩
  exact ⟨_, 1, lexed_optionalGroup braces,
    .only (.repeated (spells_optionalGroup _) count .done)⟩

theorem isMatch_iff_mem_language_loopedGroup : ¬ loopedGroup.HasBackref ∧
    ∃ g, compile .unset "(a|){2,}" = .ok g ∧
      Denotes .unset "(a|){2,}" loopedGroup .single ∧
      ∃ n, ∀ steps, n ≤ steps → ∃ found,
        (Matcher.ofGraph g).isMatch steps (.ofString "a") = .ok found ∧
          (found = true ↔ "a".toList ∈ loopedGroup.language) := by
  have plain : ¬ loopedGroup.HasBackref := by
    simp [loopedGroup, optionalGroup, Tree.HasBackref]
  have compiles : (compile .unset "(a|){2,}").toOption.isSome = true := by decide +kernel
  obtain ⟨g, compiled⟩ := Except.exists_eq_ok compiles
  obtain ⟨_, matching⟩ := Matcher.isMatch_iff_mem_language compiled
  exact ⟨plain, g, compiled, denotes_loopedGroup,
    matching _ _ denotes_loopedGroup plain (.ofString "a")⟩

end PatternGraph
