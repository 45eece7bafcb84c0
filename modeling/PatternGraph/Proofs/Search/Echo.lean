import PatternGraph.Proofs.Pattern.Echo
import PatternGraph.Proofs.Search.Matches
import PatternGraph.Proofs.Search.WholeText

/-!
Texts that match a group and copies of what it matched: a word of the group, repeated. The group may
match a word in several ways and has several words, and each of them is tried.
-/
namespace PatternGraph
open Cursor

section Copies
variable {S T P : Type} [Cursor S T P]

namespace Cursor

theorem tokensTo_of_passes [DecidableEq P] {a b : S} {ts : List T} (restores : Restores a)
    (passes : Passes a ts b) : tokensTo a (pos b) = some ts := by
  induction passes with
  | stay => rw [tokensTo, if_pos rfl]
  | @step a b t ts front rest ih =>
    have apart : pos a ≠ pos b := by
      intro same
      have here := restores.pos_injective (.refl a) ⟨_, .step front rest⟩ same
      have := remaining_advance _ _ front
      have := rest.remaining_le
      rw [← here] at this
      omega
    rw [tokensTo_of_peek apart front, ih (restores.ahead (.next front))]
    rfl

theorem times_passes {ts : List T} {k : Nat} {c c' : S} :
    Times (fun a b => Passes a ts b) k c c' ↔ Passes c (List.replicate k ts).flatten c' := by
  induction k generalizing c with
  | zero =>
    constructor
    · intro times
      cases times
      exact .stay _
    · intro passes
      cases passes
      exact .none _
  | succ k ih =>
    rw [List.replicate_succ, List.flatten_cons]
    constructor
    · intro times
      cases times with
      | more first rest => exact first.append (ih.1 rest)
    · intro passes
      obtain ⟨_, first, rest⟩ := passes.split
      exact .more first (ih.2 rest)

end Cursor

/-- The group matched what lies between the cursors, and the search goes on from the second of them or
later. -/
structure Env.Copies (σ : Env S P) (tag : TagId) (a b : S) : Prop where
  span : (σ.captures tag).span? = some ⟨pos a, pos b⟩
  ahead : Ahead b σ.cursor

namespace Tree
variable [Token T] [DecidableEq T] [DecidableEq P]

theorem strides_backref {tag : TagId} {a b : S} {ts : List T} (restores : Restores a)
    (passes : Passes a ts b) :
    Strides (.backref tag) (fun σ : Env S P => σ.Copies tag a b) (fun c c' => Passes c ts c') := by
  have between : Ahead a b := ⟨ts, passes⟩
  have exits {σ : Env S P} (copies : σ.Copies tag a b) :
      (Tree.backref tag).exits σ = (nextTokens σ.cursor ts).toList.map σ.goTo := by
    rw [exits_backref, copies.span]
    simp only [nextCopy_eq]
    rw [restores σ.cursor a (between.trans copies.ahead) (.refl a), tokensTo_of_passes restores passes]
    rfl
  refine ⟨fun copies => ?_, fun copies mem => ?_, fun copies =>
    restores.ahead (between.trans copies.ahead)⟩
  · rw [exits copies, ← nextTokens_eq_some_iff]
    simp [Env.goTo]
  · rw [exits copies] at mem
    obtain ⟨c, _, rfl⟩ := List.mem_map.1 mem
    have ahead := ahead_of_exits (t := .backref tag) (by rw [exits copies]; exact mem)
    exact ⟨copies.span, copies.ahead.trans ahead⟩

theorem copies_of_group {tag : TagId} {body : Tree} {σ σ' : Env S P} (tags : body.TagsFrom (tag.val + 1))
    (mem : σ' ∈ body.exits (σ.enter (some tag))) :
    (σ'.leave (some tag)).Copies tag σ.cursor σ'.cursor where
  span := by
    have kept := (keeps_of_exits tags mem).1 tag (Nat.lt_succ_self _)
    rw [Env.leave, Env.captures_set_self, kept, Env.enter, Env.captures_set_self]
    rfl
  ahead := by
    rw [Env.cursor_leave]
    exact .refl _

theorem exits_echo (body : Tree) (b : Bounds) (σ : Env S P) :
    (body.echo b).exits σ = (body.exits (σ.enter (some ⟨0⟩))).flatMap fun σ' =>
      (Tree.loop b (.backref ⟨0⟩)).exits (σ'.leave (some ⟨0⟩)) := by
  rw [echo, exits_cat, exits_group, List.flatMap_map]
  refine List.flatMap_congr fun σ' _ => ?_
  rw [exits_cat]
  exact List.flatMap_singleton' _

/-- What is matched is a word of the group, once and then as often as is accepted. -/
theorem exits_echo_iff {body : Tree} {b : Bounds} (plain : ¬ body.HasBackref) (tags : body.TagsFrom 1)
    {c c' : S} (restores : Restores c) :
    (∃ σ ∈ (body.echo b).exits (.start c : Env S P), σ.cursor = c') ↔
      ∃ ts : List T, ts.map Token.toChar ∈ body.language ∧ ∃ k, b.accepts k = true ∧
        Passes c (List.replicate (k + 1) ts).flatten c' := by
  let first : Env S P := .start c
  have cursor : (first.enter (some ⟨0⟩)).cursor = c := first.cursor_enter _
  have word {c₁ : S} : (∃ σ ∈ body.exits (first.enter (some ⟨0⟩)), σ.cursor = c₁) ↔ Reads _ _ c₁ :=
    exits_iff_reads plain (by rwa [cursor])
  rw [cursor] at word
  have copied {σ : Env S P} {ts : List T} (mem : σ ∈ body.exits (first.enter (some ⟨0⟩)))
      (passes : Passes c ts σ.cursor) :
      (∃ σ' ∈ (Tree.loop b (.backref ⟨0⟩)).exits (σ.leave (some ⟨0⟩)), σ'.cursor = c') ↔
        ∃ k, b.accepts k = true ∧ Passes σ.cursor (List.replicate k ts).flatten c' := by
    have copies : (σ.leave (some ⟨0⟩)).Copies ⟨0⟩ c σ.cursor := copies_of_group tags mem
    rw [(strides_backref restores passes).exits_loop_iff copies, Env.cursor_leave]
    simp only [times_passes]
  have split : (∃ σ ∈ (body.echo b).exits first, σ.cursor = c') ↔
      ∃ σ ∈ body.exits (first.enter (some ⟨0⟩)),
        ∃ σ' ∈ (Tree.loop b (.backref ⟨0⟩)).exits (σ.leave (some ⟨0⟩)), σ'.cursor = c' := by
    simp only [exits_echo, List.mem_flatMap]
    constructor
    · rintro ⟨σ', ⟨σ, mem, ends⟩, same⟩
      exact ⟨σ, mem, σ', ends, same⟩
    · rintro ⟨σ, mem, σ', ends, same⟩
      exact ⟨σ', ⟨σ, mem, ends⟩, same⟩
  rw [split]
  constructor
  · rintro ⟨σ, mem, ends⟩
    obtain ⟨ts, passes, spelled⟩ := word.1 ⟨σ, mem, rfl⟩
    obtain ⟨k, accepts, copies⟩ := (copied mem passes).1 ends
    exact ⟨ts, spelled, k, accepts, passes.append copies⟩
  · rintro ⟨ts, spelled, k, accepts, passes⟩
    rw [List.replicate_succ, List.flatten_cons] at passes
    obtain ⟨c₁, passes, copies⟩ := passes.split
    obtain ⟨σ, mem, rfl⟩ := word.2 ⟨ts, passes, spelled⟩
    exact ⟨σ, mem, (copied mem passes).2 ⟨k, accepts, copies⟩⟩

end Tree

end Copies

theorem Tree.matchFrom_echo {body : Tree} {b : Bounds} (plain : ¬ body.HasBackref)
    (tags : body.TagsFrom 1) (text : String) :
    ((body.echo b).matchFrom true (TextCursor.start text)).isSome = true ↔
      ∃ w ∈ body.language, ∃ k, b.accepts k = true ∧
        text.toList = (List.replicate (k + 1) w).flatten := by
  let words : Language Char := {h | ∃ w ∈ body.language, ∃ k, b.accepts k = true ∧
    h = (List.replicate (k + 1) w).flatten}
  have restores : Restores (TextCursor.start text) := TextCursor.restores _
  have spelled (cs : List Char) : cs.map Token.toChar = cs := List.map_id cs
  have reads {c : TextCursor} :
      (∃ σ ∈ (body.echo b).exits (.start (TextCursor.start text)), σ.cursor = c) ↔
        Reads (TextCursor.start text) words c := by
    rw [exits_echo_iff plain tags restores]
    constructor
    · rintro ⟨ts, word, k, accepts, passes⟩
      rw [spelled] at word
      exact ⟨_, passes, ts, word, k, accepts, spelled _⟩
    · rintro ⟨ts, passes, w, word, k, accepts, whole⟩
      rw [spelled] at whole
      exact ⟨w, by rwa [spelled], k, accepts, whole ▸ passes⟩
  change _ ↔ text.toList ∈ words
  rw [matchFrom, List.find?_isSome, ← TextCursor.reads_whole]
  constructor
  · rintro ⟨σ, mem, done⟩
    exact ⟨σ.cursor, reads.1 ⟨σ, mem, rfl⟩, done⟩
  · rintro ⟨c, passes, done⟩
    obtain ⟨σ, mem, rfl⟩ := reads.2 passes
    exact ⟨σ, mem, done⟩

theorem Bounds.accepts_ofNumerals {least most : List Char} {k : Nat} :
    (ofNumerals least most).accepts k = true ↔
      Grammar.valueOf least ≤ k ∧ (most ≠ [] → k ≤ Grammar.valueOf most) := by
  rw [accepts_iff, ofNumerals]
  by_cases open' : most = []
  · simp [open', within]
  · simp [open', within]

/-- A pattern in a group, and copies of what the group matched, match the words of the pattern that are
repeated as often as is accepted, and once more. -/
theorem Matcher.isMatch_iff_repeated {options : Options} {p least most : String} {g : Graph}
    (other : p.toList.head? ≠ some '?') (digits : Digits least.toList) (digits' : Digits most.toList)
    (compiled : compile options (echoText p least most) = .ok g)
    {options' : Options} {u : Tree} {names : GroupNames} (denotes : Denotes options' p u names)
    (plain : ¬ u.HasBackref) (h : Haystack) :
    ∃ n, ∀ steps, n ≤ steps → ∃ found, (Matcher.ofGraph g).isMatch steps h = .ok found ∧
      (found = true ↔ ∃ w ∈ u.language, ∃ k, Grammar.valueOf least.toList ≤ k ∧
        (most ≠ "" → k ≤ Grammar.valueOf most.toList) ∧
        h.text.toList = (List.replicate (k + 1) w).flatten) := by
  obtain ⟨t, whole, realizes⟩ := realizes_of_compile compiled
  obtain ⟨body, rfl, tags, same⟩ := whole.echo other digits digits' denotes
  rw [← Tree.hasBackref_untagged, ← same, Tree.hasBackref_untagged] at plain
  have language : body.language = u.language := by
    rw [← Tree.language_untagged, same, Tree.language_untagged]
  have restores : Restores (TextCursor.start h.text) := TextCursor.restores _
  obtain ⟨n, searches⟩ := Backtracker.search_of_realizes realizes restores true (.ofGraph g)
  refine ⟨n, fun steps enough => ?_⟩
  obtain ⟨cache, search, _⟩ := searches steps enough
  let echo := body.echo (.ofNumerals least.toList most.toList)
  refine ⟨(echo.matchFrom true (TextCursor.start h.text)).isSome, ?_, ?_⟩
  · simp only [isMatch, Matcher.whole, ofGraph, search, Option.isSome_map, echo]
  rw [Tree.matchFrom_echo plain tags, language]
  simp only [Bounds.accepts_ofNumerals, and_assoc, ne_eq, String.toList_eq_nil_iff]

theorem Matcher.isMatch_iff_repeated_loopedGroup :
    "(a|){2,}".toList.head? ≠ some '?' ∧ Digits "1".toList ∧ Digits "2".toList ∧
      ¬ loopedGroup.HasBackref ∧ Denotes .unset "(a|){2,}" loopedGroup .single ∧
      ∃ g, compile .unset (echoText "(a|){2,}" "1" "2") = .ok g ∧
        ∃ n, ∀ steps, n ≤ steps → ∃ found,
          (Matcher.ofGraph g).isMatch steps (.ofString "aaaa") = .ok found ∧
            (found = true ↔ ∃ w ∈ loopedGroup.language, ∃ k, Grammar.valueOf "1".toList ≤ k ∧
              ("2" ≠ "" → k ≤ Grammar.valueOf "2".toList) ∧
              "aaaa".toList = (List.replicate (k + 1) w).flatten) := by
  have other : "(a|){2,}".toList.head? ≠ some '?' := by decide
  have one : Digits "1".toList := by decide
  have two : Digits "2".toList := by decide
  have plain : ¬ loopedGroup.HasBackref := by
    simp [loopedGroup, optionalGroup, Tree.HasBackref]
  have compiles : (compile .unset (echoText "(a|){2,}" "1" "2")).toOption.isSome = true := by
    decide +kernel
  obtain ⟨g, compiled⟩ := Except.exists_eq_ok compiles
  exact ⟨other, one, two, plain, denotes_loopedGroup, g, compiled,
    isMatch_iff_repeated other one two compiled denotes_loopedGroup plain (.ofString "aaaa")⟩

def headerText : Tree :=
  .chars ['?', ':'] (.cat (.group (some ⟨0⟩) (.cat (.char 'a') .empty)) .empty)

open Grammar in
theorem denotes_headerText : Denotes .unset "?:(a)" headerText .single := by
  have lexed : Lexed ['?', ':', '(', 'a', ')']
      [.plain '?', .plain ':', .plain '(', .plain 'a', .plain ')'] :=
    .plain (by decide) (.plain (by decide) (.plain (by decide) (.plain (by decide)
      (.plain (by decide) .done))))
  have header : Header true .none [.plain 'a', .plain ')'] (some ⟨0⟩)
      ⟨.push .empty "1" false, 1⟩ _ := .unnamed (by simp) (by decide +kernel)
  have group : Spells true .item .none [.plain '(', .plain 'a', .plain ')']
      (.group (some ⟨0⟩) (.cat (.char 'a') .empty)) ⟨.single, 1⟩ [] :=
    .group header (.only (.once (.literal rfl) .done))
  exact ⟨_, 1, lexed, .only (.once (.literal rfl) (.once (.literal rfl) (.once group .done)))⟩

/-- Where the text in the group goes on with the header, the group does not capture, and the copies are
those of a group inside. -/
theorem Matcher.not_isMatch_iff_repeated_headerText :
    Denotes .unset "?:(a)" headerText .single ∧ ¬ headerText.HasBackref ∧
      ∃ g, compile .unset (echoText "?:(a)" "1" "1") = .ok g ∧
        ¬ ∃ n, ∀ steps, n ≤ steps → ∃ found,
          (Matcher.ofGraph g).isMatch steps (.ofString "aa") = .ok found ∧
            (found = true ↔ ∃ w ∈ headerText.language, ∃ k, Grammar.valueOf "1".toList ≤ k ∧
              ("1" ≠ "" → k ≤ Grammar.valueOf "1".toList) ∧
              "aa".toList = (List.replicate (k + 1) w).flatten) := by
  have plain : ¬ headerText.HasBackref := by
    simp [headerText, Tree.chars, Tree.HasBackref]
  have answers : (compile .unset (echoText "?:(a)" "1" "1")).toOption.bind
      (fun g => ((Matcher.ofGraph g).isMatch 40 (.ofString "aa")).toOption) = some true := by
    decide +kernel
  obtain ⟨g, compiles, whole⟩ := Option.bind_eq_some_iff.1 answers
  have compiled := Except.eq_ok_of_toOption compiles
  have whole := Except.eq_ok_of_toOption whole
  refine ⟨denotes_headerText, plain, g, compiled, ?_⟩
  rintro ⟨n, agrees⟩
  obtain ⟨found, answer, words⟩ := agrees n (Nat.le_refl n)
  obtain ⟨w, word, k, _, _, text⟩ := words.1 (isMatch_unique answer whole)
  obtain ⟨front, rfl, rest, _, rfl⟩ := Language.mem_mul.1 word
  rw [List.replicate_succ, List.flatten_cons] at text
  have same : ('a' : Char) = '?' := (List.cons.inj text).1
  exact absurd same (by decide)

end PatternGraph
