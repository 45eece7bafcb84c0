import PatternGraph.Proofs.Graph.Untagging
import PatternGraph.Proofs.Search.AllMatches
import PatternGraph.Proofs.Search.WholeText

/-!
Searches of a graph and of the same graph without its tags. Where nothing is copied, the positions of
groups have no effect on the way of a search, so the two find the same.
-/
namespace PatternGraph
open Cursor

theorem Tree.untagged_chars (cs : List Char) (rest : Tree) :
    (Tree.chars cs rest).untagged = Tree.chars cs rest.untagged := by
  induction cs with
  | nil => rfl
  | cons c cs ih => exact congrArg (Tree.cat (.char c)) ih

theorem Tree.tagsFrom_untagged (t : Tree) (low : Nat) : t.untagged.TagsFrom low := by
  induction t with
  | empty | char | any | charClass | backref => trivial
  | cat _ _ first second | alt _ _ first second => exact ⟨first, second⟩
  | group _ _ ih | loop _ _ ih => exact ih

theorem Tree.tagsBelow_untagged {t : Tree} (plain : ¬ t.HasBackref) (count : Nat) :
    t.untagged.TagsBelow count := by
  induction t with
  | empty | char | any | charClass => trivial
  | backref => exact absurd trivial plain
  | cat _ _ first second | alt _ _ first second =>
    obtain ⟨plain, plain'⟩ := not_or.1 plain
    exact ⟨first plain, second plain'⟩
  | group _ _ ih | loop _ _ ih => exact ih plain

theorem Graph.untagged_of_state? {g : Graph} {id : StateId} {s : State}
    (found : g.state? id = some s) : g.untagged.state? id = some s.untagged := by
  have mapped : g.untagged.state? id = (g.state? id).map State.untagged := Array.getElem?_map
  rw [mapped, found]
  rfl

theorem Wired.untagged {g : Graph} {low : Nat} {arrows : List Arrow} {t : Tree} {out : Arrow}
    (h : Wired g low arrows t out) (plain : ¬ t.HasBackref) :
    Wired g.untagged low arrows t.untagged out := by
  induction h with
  | empty a => exact .empty a
  | @label low label target t read =>
    have same : t.untagged = t := by
      cases label <;> simp only [Label.tree?, Option.map_eq_some_iff] at read <;>
        grind [Tree.untagged, Tree.HasBackref]
    rw [same]
    exact .label read
  | literal _ ih =>
    rw [Tree.hasBackref_chars] at plain
    rw [Tree.untagged_chars]
    exact .literal (ih plain)
  | @enter low id state arrows t out found choices _ ih =>
    have choices : state.untagged.choices? = some arrows := by
      cases state <;> exact choices
    exact .enter (Graph.untagged_of_state? found) choices (ih plain)
  | relay _ found ih => exact .relay (ih plain) (Graph.untagged_of_state? found)
  | cat _ _ first second =>
    obtain ⟨plain, plain'⟩ := not_or.1 plain
    exact .cat (first plain) (second plain')
  | alt _ _ first second =>
    obtain ⟨plain, plain'⟩ := not_or.1 plain
    exact .alt (first plain) (second plain')
  | group opens _ closes ih =>
    exact .group (Graph.untagged_of_state? opens) (ih plain) (Graph.untagged_of_state? closes)
  | loop found above inside counts _ ih =>
    exact .loop (Graph.untagged_of_state? found) above inside counts (ih plain)

theorem Graph.Realizes.untagged {g : Graph} {t : Tree} (realizes : g.Realizes t)
    (plain : ¬ t.HasBackref) : g.untagged.Realizes t.untagged where
  wired := realizes.wired.untagged plain
  terminal := untagged_of_state? realizes.terminal
  tagsFrom := t.tagsFrom_untagged 0
  tagsBelow := Tree.tagsBelow_untagged plain _

section Ways
variable {S T P : Type} [Cursor S T P]

def Env.forget (σ : Env S P) : Env S P := .start σ.cursor

@[simp] theorem Env.cursor_forget (σ : Env S P) : σ.forget.cursor = σ.cursor := rfl

@[simp] theorem Env.forget_enter (σ : Env S P) (tag : Option TagId) :
    (σ.enter tag).forget = σ.forget := congrArg Env.start (σ.cursor_enter tag)

@[simp] theorem Env.forget_leave (σ : Env S P) (tag : Option TagId) :
    (σ.leave tag).forget = σ.forget := congrArg Env.start (σ.cursor_leave tag)

variable [Token T] [DecidableEq T] [DecidableEq P]

namespace Tree

theorem rounds_untagged {b : Bounds} {body : Tree}
    (once : ∀ σ : Env S P, body.untagged.exits σ.forget = (body.exits σ).map Env.forget)
    (n : Nat) (σ : Env S P) :
    rounds b body.untagged n σ.forget = (rounds b body n σ).map Env.forget := by
  refine rounds_induction b body (fun n σ ih => ?_) n σ
  rw [rounds_eq, rounds_eq, once, List.map_append]
  congr 1
  · by_cases more : b.mayRepeat n = true
    · rw [if_pos more, if_pos more, List.flatMap_map, List.map_flatMap]
      refine List.flatMap_congr fun σ' mem => ?_
      rw [Env.cursor_forget, Env.cursor_forget]
      split
      · rfl
      · rename_i busy
        exact ih σ' mem more busy
    · rw [if_neg more, if_neg more]
      rfl
  · split <;> rfl

/-- Without backreferences the ways are the same, whatever the groups have matched before. -/
theorem exits_untagged {t : Tree} (plain : ¬ t.HasBackref) (σ : Env S P) :
    t.untagged.exits σ.forget = (t.exits σ).map Env.forget := by
  induction t generalizing σ with
  | empty => rfl
  | char ch =>
    rw [untagged, exits_char, exits_char, List.map_map]
    rfl
  | any =>
    rw [untagged, exits_any, exits_any, List.map_map]
    rfl
  | charClass fits =>
    rw [untagged, exits_charClass, exits_charClass, List.map_map]
    rfl
  | backref => exact absurd trivial plain
  | cat first second one other =>
    obtain ⟨plain, plain'⟩ := not_or.1 plain
    rw [untagged, exits_cat, exits_cat, one plain, List.flatMap_map, List.map_flatMap]
    exact List.flatMap_congr fun σ' _ => other plain' σ'
  | alt first second one other =>
    obtain ⟨plain, plain'⟩ := not_or.1 plain
    rw [untagged, exits_alt, exits_alt, one plain, other plain', List.map_append]
  | group tag body ih =>
    have inner := ih plain (σ.enter tag)
    rw [Env.forget_enter] at inner
    rw [untagged, exits_group, exits_group, List.map_map]
    have leave : Env.forget ∘ (fun σ' : Env S P => σ'.leave tag) = Env.forget :=
      funext fun σ' => σ'.forget_leave tag
    rw [leave, ← inner]
    exact List.map_id _
  | loop b body ih =>
    rw [untagged, exits_loop, exits_loop]
    exact rounds_untagged (ih plain) 0 σ

theorem matchFrom_untagged {t : Tree} (plain : ¬ t.HasBackref) (matchToEnd : Bool) (c : S) :
    (t.untagged.matchFrom matchToEnd c : Option (Env S P)) =
      (t.matchFrom matchToEnd c).map Env.forget := by
  have exits := exits_untagged plain (.start c : Env S P)
  have start : (Env.start c : Env S P).forget = .start c := rfl
  rw [start] at exits
  rw [matchFrom, matchFrom, exits, List.find?_map]
  rfl

end Tree

end Ways

section Answers
variable {g : Graph} {t : Tree} {text : String} {start stop : Nat} {spans : List (Span Nat)}

theorem Graph.Realizes.matchesAt_iff (realizes : g.Realizes t) :
    g.MatchesAt text start stop ↔ TextCursor.isBoundary text start = true ∧
      (t.matchFrom false (⟨text, start⟩ : TextCursor)).map (·.cursor.offset) = some stop := by
  obtain ⟨n, searches⟩ := Backtracker.search_of_realizes realizes
    (TextCursor.restores (⟨text, start⟩ : TextCursor)) false (.ofGraph g)
  obtain ⟨cache, searched, _⟩ := searches n (Nat.le_refl n)
  refine and_congr_right fun _ => ?_
  constructor
  · rintro ⟨steps, c, cache', searched', rfl⟩
    have same := Backtracker.search_unique searched searched'
    obtain ⟨σ, found, rfl⟩ := Option.map_eq_some_iff.1 same
    rw [found]
    rfl
  · intro ends
    obtain ⟨σ, found, rfl⟩ := Option.map_eq_some_iff.1 ends
    rw [found] at searched
    exact ⟨n, σ.cursor, cache, searched, rfl⟩

theorem Graph.Realizes.matchesAt_untagged (realizes : g.Realizes t) (plain : ¬ t.HasBackref)
    (start stop : Nat) : g.untagged.MatchesAt text start stop ↔ g.MatchesAt text start stop := by
  rw [(realizes.untagged plain).matchesAt_iff, realizes.matchesAt_iff, Tree.matchFrom_untagged plain,
    Option.map_map]
  rfl

namespace Matcher

theorem Leftmost.congr {g g' : Graph} {p : Nat} {found : Option (Span Nat)}
    (same : ∀ start stop, g.MatchesAt text start stop ↔ g'.MatchesAt text start stop)
    (leftmost : Leftmost g text p found) : Leftmost g' text p found := by
  have same : g.MatchesAt text = g'.MatchesAt text :=
    funext fun start => funext fun stop => propext (same start stop)
  cases found <;> simpa only [Leftmost, same] using leftmost

theorem Sweeps.congr {g g' : Graph} {prior : Option (Span Nat)}
    (same : ∀ start stop, g.MatchesAt text start stop ↔ g'.MatchesAt text start stop)
    (sweeps : Sweeps g text prior spans) : Sweeps g' text prior spans := by
  induction sweeps with
  | done none => exact .done fun t found => none t ((same _ _).2 found)
  | next found after first _ ih =>
    exact .next ((same _ _).1 found) after (fun t found => first t ((same _ _).2 found)) ih

/-- A pattern without backreferences is also compiled where groups do not capture, to the same graph
but for the tags, and every search finds the same with either graph. -/
theorem agrees_untagged {options : Options} {pattern : String}
    (compiled : compile (options.withCaptures true) pattern = .ok g) :
    (∃ t, Denotes (options.withCaptures true) pattern t g.names) ∧
      ∀ t names, Denotes (options.withCaptures true) pattern t names → ¬ t.HasBackref →
        compile (options.withCaptures false) pattern = .ok g.untagged ∧
        ∀ text, ∃ n, ∀ steps, n ≤ steps → ∃ found first all,
          (ofGraph g).isMatch steps (.ofString text) = .ok found ∧
          (ofGraph g.untagged).isMatch steps (.ofString text) = .ok found ∧
          (ofGraph g).find? steps (.ofString text) = .ok first ∧
          (ofGraph g.untagged).find? steps (.ofString text) = .ok first ∧
          (ofGraph g).findAll steps (.ofString text) = .ok all ∧
          (ofGraph g.untagged).findAll steps (.ofString text) = .ok all := by
  obtain ⟨t, denotes, _⟩ := realizes_of_compile compiled
  refine ⟨⟨t, denotes⟩, fun t names denotes plain => ?_⟩
  have realizes := denotes.realizes compiled
  have compiled' : compile (options.withCaptures false) pattern = .ok g.untagged := by
    obtain same | ⟨name, k, refused⟩ := compile_uncaptured (readsPlain_of_denotes compiled denotes plain)
    · rw [compiled] at same
      exact same
    · rw [compiled] at refused
      cases refused
  refine ⟨compiled', fun text => ?_⟩
  have restores : Restores (TextCursor.start text) := TextCursor.restores _
  obtain ⟨n₁, whole⟩ := Backtracker.search_of_realizes realizes restores true (.ofGraph g)
  obtain ⟨n₂, whole'⟩ := Backtracker.search_of_realizes (realizes.untagged plain) restores true
    (.ofGraph g.untagged)
  obtain ⟨n₃, decides⟩ := decides_of_compile compiled text
  obtain ⟨n₄, decides'⟩ := decides_of_compile compiled' text
  refine ⟨n₁ + n₂ + n₃ + n₄, fun steps enough => ?_⟩
  obtain ⟨_, searched, _⟩ := whole steps (by omega)
  obtain ⟨_, searched', _⟩ := whole' steps (by omega)
  have leads := looksForLeading_of_compile compiled
  have leads' := looksForLeading_of_compile compiled'
  have same (start stop : Nat) :
      g.untagged.MatchesAt text start stop ↔ g.MatchesAt text start stop :=
    realizes.matchesAt_untagged plain start stop
  obtain ⟨first, finds, leftmost⟩ := find?_leftmost leads (decides steps (by omega))
  obtain ⟨first', finds', leftmost'⟩ := find?_leftmost leads' (decides' steps (by omega))
  obtain rfl : first' = first := (leftmost'.congr same).unique leftmost
  obtain ⟨all, lists, sweeps⟩ := findAll_sweeps leads (decides steps (by omega))
  obtain ⟨all', lists', sweeps'⟩ := findAll_sweeps leads' (decides' steps (by omega))
  obtain rfl : all' = all := (sweeps'.congr same).unique sweeps
  refine ⟨(t.matchFrom true (TextCursor.start text)).isSome, first', all', ?_, ?_, finds, finds',
    lists, lists'⟩
  · simp only [isMatch, Matcher.whole, ofGraph, Haystack.ofString, searched, Option.isSome_map]
  · simp only [isMatch, Matcher.whole, ofGraph, Haystack.ofString, searched', Option.isSome_map,
      Tree.matchFrom_untagged plain]

theorem agrees_untagged_loopedGroup : ¬ loopedGroup.HasBackref ∧
    ∃ g, compile (Options.unset.withCaptures true) "(a|){2,}" = .ok g ∧
      Denotes (Options.unset.withCaptures true) "(a|){2,}" loopedGroup .single ∧
      compile (Options.unset.withCaptures false) "(a|){2,}" = .ok g.untagged ∧
      ∃ n, ∀ steps, n ≤ steps → ∃ found first all,
        (ofGraph g).isMatch steps (.ofString "baa") = .ok found ∧
        (ofGraph g.untagged).isMatch steps (.ofString "baa") = .ok found ∧
        (ofGraph g).find? steps (.ofString "baa") = .ok first ∧
        (ofGraph g.untagged).find? steps (.ofString "baa") = .ok first ∧
        (ofGraph g).findAll steps (.ofString "baa") = .ok all ∧
        (ofGraph g.untagged).findAll steps (.ofString "baa") = .ok all := by
  have plain : ¬ loopedGroup.HasBackref := by
    simp [loopedGroup, optionalGroup, Tree.HasBackref]
  have compiles : (compile (Options.unset.withCaptures true) "(a|){2,}").toOption.isSome = true := by
    decide +kernel
  obtain ⟨g, compiled⟩ := Except.exists_eq_ok compiles
  have denotes : Denotes (Options.unset.withCaptures true) "(a|){2,}" loopedGroup
    .single := denotes_loopedGroup
  obtain ⟨untagged, answers⟩ := (agrees_untagged compiled).2 _ _ denotes plain
  exact ⟨plain, g, compiled, denotes, untagged, answers "baa"⟩

end Matcher

end Answers

end PatternGraph
