import PatternGraph.Proofs.Graph.Realization
import PatternGraph.Proofs.Pattern.Uniqueness
import PatternGraph.Proofs.Search.Outcome

/-!
Searches of the graph of a compiled pattern: each comes to an end, and to the same as the reference
matcher does with the tree that the pattern denotes.
-/
namespace PatternGraph
open Cursor

variable {S T P : Type} [Cursor S T P] [Token T] [DecidableEq T] [DecidableEq P]

theorem Denotes.realizes {options : Options} {pattern : String} {g : Graph} {t : Tree}
    {names : GroupNames} (denotes : Denotes options pattern t names)
    (compiled : compile options pattern = .ok g) : g.Realizes t := by
  obtain ⟨t', denotes', realizes⟩ := realizes_of_compile compiled
  obtain ⟨rfl, _⟩ := denotes.unique denotes'
  exact realizes

theorem search_eq_reference {options : Options} {pattern : String} {g : Graph}
    (compiled : compile options pattern = .ok g) {c : S} (restores : Restores c)
    (matchToEnd : Bool) (cache : Cache P) :
    (∃ t, Denotes options pattern t g.names) ∧
      ∀ t names, Denotes options pattern t names →
        ∃ n, ∀ steps, n ≤ steps → ∃ cache',
          (Backtracker.mk g matchToEnd).search steps cache c =
            .ok ((t.matchFrom matchToEnd c).map (·.cursor), cache') ∧
          ∀ tag : TagId, tag.val < g.names.size → (cache'.tracker? tag).bind Tracker.span? =
            (t.matchFrom matchToEnd c).bind fun σ => (σ.captures tag).span? := by
  obtain ⟨t, denotes, _⟩ := realizes_of_compile compiled
  refine ⟨⟨t, denotes⟩, fun t names denotes => ?_⟩
  exact Backtracker.search_of_realizes (denotes.realizes compiled) restores matchToEnd cache

def optionalGroup : Tree := .group (some ⟨0⟩) (.alt (.cat (.char 'a') .empty) .empty)

open Grammar in
theorem spells_optionalGroup (rest : List Glyph) :
    Spells true .item .none (.plain '(' :: .plain 'a' :: .plain '|' :: .plain ')' :: rest)
      optionalGroup ⟨.single, 1⟩ rest := by
  have header : Header true .none (.plain 'a' :: .plain '|' :: .plain ')' :: rest) (some ⟨0⟩)
      ⟨.push .empty "1" false, 1⟩ _ := .unnamed (by simp) (by decide +kernel)
  exact .group header (.either (.once (.literal rfl) .done) (.only .done))

theorem lexed_optionalGroup {cs : List Char} {gs : List Glyph} (rest : Lexed cs gs) :
    Lexed ('(' :: 'a' :: '|' :: ')' :: cs)
      (.plain '(' :: .plain 'a' :: .plain '|' :: .plain ')' :: gs) :=
  .plain (by decide) (.plain (by decide) (.plain (by decide) (.plain (by decide) rest)))

def copiedGroup : Tree := .cat optionalGroup (.cat (.backref ⟨0⟩) .empty)

open Grammar in
theorem denotes_copiedGroup :
    Denotes .unset "(a|)\\k<1>" copiedGroup .single := by
  have name : Lexed ['<', '1', '>'] [.plain '<', .plain '1', .plain '>'] :=
    .plain (by decide) (.plain (by decide) (.plain (by decide) .done))
  have digit : ∀ c ∈ ['1'], Grammar.NameChar c := by
    intro c mem
    rw [List.mem_singleton.1 mem]
    decide +kernel
  have copy : Spells true .item ⟨.single, 1⟩
      [.escape 'k' (some 'k'), .plain '<', .plain '1', .plain '>'] (.backref ⟨0⟩) _ [] :=
    .backref ⟨['1'], List.cons_ne_nil _ _, digit, rfl, rfl⟩ (by decide +kernel) (by decide)
  have copied : Escapes 'k' 'k' := .itself (by decide) (by decide) (by decide)
  exact ⟨_, 1, lexed_optionalGroup (.escape copied name),
    .only (.once (spells_optionalGroup _) (.once copy .done))⟩

theorem search_eq_reference_copiedGroup :
    Restores (TokenCursor.start #['a', 'a']) ∧ ∃ g, compile .unset "(a|)\\k<1>" = .ok g ∧
      Denotes .unset "(a|)\\k<1>" copiedGroup .single ∧
      ∃ n, ∀ steps, n ≤ steps → ∃ cache : Cache Nat,
        (Backtracker.mk g true).search steps (.ofGraph g) (TokenCursor.start #['a', 'a']) =
          .ok ((copiedGroup.matchFrom true (TokenCursor.start #['a', 'a'])).map (·.cursor), cache) ∧
        ∀ tag : TagId, tag.val < g.names.size → (cache.tracker? tag).bind Tracker.span? =
          (copiedGroup.matchFrom true (TokenCursor.start #['a', 'a'])).bind fun σ =>
            (σ.captures tag).span? := by
  have restores : Restores (TokenCursor.start #['a', 'a']) := TokenCursor.restores (Nat.zero_le _)
  have compiles : (compile .unset "(a|)\\k<1>").toOption.isSome = true := by decide +kernel
  obtain ⟨g, compiled⟩ := Except.exists_eq_ok compiles
  obtain ⟨_, agrees⟩ := search_eq_reference compiled restores true (.ofGraph g)
  exact ⟨restores, g, compiled, denotes_copiedGroup, agrees _ _ denotes_copiedGroup⟩

/-- Every search ends, in a terminal state or with nothing left to try, and takes no more steps than
some number that depends on what is searched. -/
theorem run_ends {options : Options} {pattern : String} {g : Graph}
    (compiled : compile options pattern = .ok g) {c : S} (restores : Restores c)
    (matchToEnd : Bool) (cache : Cache P) :
    ∃ n found m, (∀ steps, n ≤ steps →
        Machine.run g matchToEnd steps (.start g cache c) = .ok (found, m)) ∧
      (found = true → ∃ id, m.control = .visit id ∧ g.state? id = some .terminal) ∧
      (found = false → m.control = .resume ∧ m.cache.trail = []) := by
  obtain ⟨t, _, realizes⟩ := realizes_of_compile compiled
  obtain ⟨n, m, runs, _⟩ := (Machine.ends_of_realizes realizes restores matchToEnd cache).run
  have ended := Machine.over_of_run (runs n (Nat.le_refl n))
  exact ⟨n, _, m, runs, ended.accepted, ended.exhausted⟩

theorem run_ends_nestedLoops :
    Restores (TextCursor.start "aab") ∧ ∃ g, compile .unset "(a*)*\\k<1>" = .ok g ∧
      ∃ n found m, (∀ steps, n ≤ steps →
          Machine.run g true steps (.start g (.ofGraph g) (TextCursor.start "aab")) =
            .ok (found, m)) ∧
        (found = true → ∃ id, m.control = .visit id ∧ g.state? id = some .terminal) ∧
        (found = false → m.control = .resume ∧ m.cache.trail = []) := by
  have restores : Restores (TextCursor.start "aab") := TextCursor.restores _
  have compiles : (compile .unset "(a*)*\\k<1>").toOption.isSome = true := by decide +kernel
  obtain ⟨g, compiled⟩ := Except.exists_eq_ok compiles
  exact ⟨restores, g, compiled, run_ends compiled restores true (.ofGraph g)⟩

end PatternGraph
