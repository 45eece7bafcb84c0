import PatternGraph.Proofs.Graph.Limits
import PatternGraph.Proofs.Pattern.Escaping
import PatternGraph.Proofs.Search.AllMatches
import PatternGraph.Proofs.Search.WholeText

/-!
Searches for a literal. The graph of an escaped text has no choice to make, so a search takes a fixed
number of steps, and what it finds in a text are the occurrences of the characters.
-/
namespace PatternGraph
open Cursor TextCursor

def literalLabel (c : Char) : List Char → Label
  | [] => .char c
  | cs => .literal (c :: cs)

def literalGraph (c : Char) (cs : List Char) : Graph where
  states := #[.relay ⟨literalLabel c cs, ⟨2⟩⟩, .relay (.empty ⟨3⟩), .relay (.empty ⟨1⟩), .terminal]
  start := ⟨0⟩
  terminal := ⟨3⟩
  classes := #[]
  names := .empty
  trapCount := 0
  leading := some (c :: cs)

section Compiling
variable {options : Options} {pattern : String} {c : Char} {cs : List Char}

theorem assemble_literal (c : Char) (cs : List Char) :
    (Outline.mk [.atom (.literal c cs) none] (.ok .empty)).assemble none =
      .ok (literalGraph c cs) := by
  cases cs <;> rfl

theorem compile_of_spelt (spelt : Spelt (Symbol.ofText pattern.toList) (c :: cs))
    (room : ∀ limit ∈ options.stateLimit, 4 ≤ limit) :
    compile options pattern = .ok (literalGraph c cs) := by
  have paired : Pairing.ofSymbols pattern.toList.length (Symbol.ofText pattern.toList) =
      .ok (.unpaired pattern.toList.length) := by
    rw [Pairing.ofSymbols, spelt.skims.scan, Pairing.scan]
  rw [compile_of_paired paired, spelt.ofReading]
  cases limited : options.stateLimit with
  | none => exact assemble_literal c cs
  | some limit =>
    have enough : (literalGraph c cs).states.size ≤ limit := room limit limited
    have capped := (Outline.assemble_capped limit _ none _ (assemble_literal c cs)).2
    rw [capped (Nat.zero_le limit), if_pos enough]
    rfl

end Compiling

section Searching
variable {S T P : Type} [Cursor S T P] [Token T] [DecidableEq T] [DecidableEq P]

theorem along_literalLabel (g : Graph) (trackers : Array (Tracker P)) (begins : S) (c : Char)
    (cs : List Char) :
    Machine.along g trackers begins (literalLabel c cs) = .ok (nextChars begins (c :: cs)) := by
  cases cs with
  | nil =>
    rw [literalLabel, Machine.along, nextChars]
    split <;> simp_all [nextChars]
  | cons => rfl

/-- A search passes the characters or fails; where all of the input has to match, it also fails if
there is more. -/
theorem search_literalGraph (c : Char) (cs : List Char) (matchToEnd : Bool) {steps : Nat}
    (enough : 5 ≤ steps) (cache : Cache P) (begins : S) :
    ∃ cache', (Backtracker.mk (literalGraph c cs) matchToEnd).search steps cache begins =
      .ok ((nextChars begins (c :: cs)).filter fun ends => !(matchToEnd && !isDone ends), cache') := by
  obtain ⟨n, rfl⟩ := Nat.exists_eq_add_of_le' enough
  let g := literalGraph c cs
  let m : Machine S P := .start g cache begins
  have first : Machine.step g matchToEnd m = Machine.take g none m ⟨literalLabel c cs, ⟨2⟩⟩ := rfl
  have goes : Machine.along g m.cache.trackers m.cursor (literalLabel c cs) =
      .ok (nextChars begins (c :: cs)) := along_literalLabel g _ begins c cs
  cases passed : nextChars begins (c :: cs) with
  | none =>
    rw [passed] at goes
    obtain ⟨back, _, taken⟩ := Machine.take_of_none none (a := ⟨literalLabel c cs, ⟨2⟩⟩) goes
    have ran : Machine.run g matchToEnd (n + 5) m =
        .ok (false, { m with control := .resume, cursor := back }) := by
      rw [Machine.run, first, taken]
      rfl
    exact ⟨_, by rw [Backtracker.search, ran]; rfl⟩
  | some ends =>
    rw [passed] at goes
    let last : Machine S P := { m with control := .visit ⟨3⟩, cursor := ends }
    have moved : Machine.run g matchToEnd (n + 5) m = Machine.run g matchToEnd (n + 2) last := by
      rw [Machine.run, first, Machine.take_of_some (a := ⟨literalLabel c cs, ⟨2⟩⟩) goes]
      rfl
    have stops : Machine.step g matchToEnd last =
        if matchToEnd && !isDone ends then .move none last.resuming else .accept last := rfl
    rw [Option.filter_some]
    cases more : matchToEnd && !isDone ends with
    | true =>
      rw [more, if_pos rfl] at stops
      have ran : Machine.run g matchToEnd (n + 2) last = .ok (false, last.resuming) := by
        rw [Machine.run, stops]
        rfl
      exact ⟨_, by rw [Backtracker.search, moved, ran]; rfl⟩
    | false =>
      rw [more, if_neg Bool.false_ne_true] at stops
      have ran : Machine.run g matchToEnd (n + 2) last = .ok (true, last) := by
        rw [Machine.run, stops]
      exact ⟨_, by rw [Backtracker.search, moved, ran]; rfl⟩

end Searching

/-- The spans in bytes of the occurrences of a literal, from left to right, each the first that does not
overlap the one before it. The characters begin at `offset`, and the first `skip` of them belong to an
occurrence that has been found. -/
def occurrencesFrom (literal : List Char) (skip offset : Nat) : List Char → List (Span Nat)
  | [] => []
  | c :: rest =>
    match skip with
    | k + 1 => occurrencesFrom literal k (offset + c.utf8Size) rest
    | 0 =>
      if literal.isPrefixOf (c :: rest) then
        ⟨offset, offset + String.utf8Len literal⟩ ::
          occurrencesFrom literal (literal.length - 1) (offset + c.utf8Size) rest
      else occurrencesFrom literal 0 (offset + c.utf8Size) rest
termination_by structural text => text

def occurrences (literal text : String) : List (Span Nat) :=
  occurrencesFrom literal.toList 0 0 text.toList

section Texts
variable {text : String} {front back : List Char} {c : Char} {cs : List Char} {stop : Nat}

theorem matchesAt_literalGraph_iff (split : text.toList = front ++ back) :
    (literalGraph c cs).MatchesAt text (String.utf8Len front) stop ↔
      c :: cs <+: back ∧ stop = String.utf8Len front + String.utf8Len (c :: cs) := by
  obtain ⟨cache, searched⟩ := search_literalGraph c cs false (Nat.le_refl 5)
    (.ofGraph (literalGraph c cs)) (⟨text, String.utf8Len front⟩ : TextCursor)
  rw [← String.utf8Len_append]
  constructor
  · rintro ⟨_, steps, ends, cache', searched', rfl⟩
    have passed := Backtracker.search_unique searched searched'
    obtain ⟨ahead, rfl⟩ := (nextChars_of_split split).1 (Option.filter_eq_some_iff.1 passed).1
    exact ⟨ahead, rfl⟩
  · rintro ⟨ahead, rfl⟩
    rw [(nextChars_of_split split).2 ⟨ahead, rfl⟩] at searched
    exact ⟨isBoundary_iff.2 ⟨front, back, split, rfl⟩, 5, _, cache, searched, rfl⟩

theorem decides_literalGraph (c : Char) (cs : List Char) (text : String) {steps : Nat}
    (enough : 5 ≤ steps) : (literalGraph c cs).Decides text steps where
  search p boundary cache := by
    obtain ⟨cache', searched⟩ := search_literalGraph c cs false enough cache
      (⟨text, p⟩ : TextCursor)
    exact ⟨_, cache', searched⟩
  forward := by
    intro start stop found
    obtain ⟨front, back, split, rfl⟩ := isBoundary_iff.1 found.1
    obtain ⟨⟨after, rfl⟩, rfl⟩ := (matchesAt_literalGraph_iff split).1 found
    refine ⟨isBoundary_iff.2 ⟨front ++ c :: cs, after, ?_, ?_⟩, Nat.le_add_right _ _⟩
    · rw [split, List.append_assoc]
    · rw [String.utf8Len_append]

theorem bounds_of_matchesAt {start : Nat} (found : (literalGraph c cs).MatchesAt text start stop) :
    start < stop ∧ stop ≤ text.utf8ByteSize := by
  obtain ⟨ends, _⟩ := (decides_literalGraph c cs text (Nat.le_refl 5)).forward _ _ found
  refine ⟨?_, le_size_of_isBoundary ends⟩
  obtain ⟨front, back, split, rfl⟩ := isBoundary_iff.1 found.1
  obtain ⟨_, rfl⟩ := (matchesAt_literalGraph_iff split).1 found
  have := c.utf8Size_pos
  rw [String.utf8Len_cons]
  omega

section Scanning
variable {d : Char} {rest : List Char} {prior : Option (Span Nat)}

theorem goesOn_of_ahead (split : text.toList = front ++ d :: rest) (ahead : c :: cs <+: d :: rest) :
    Matcher.GoesOn (literalGraph c cs) text
      (some ⟨String.utf8Len front, String.utf8Len front + String.utf8Len (c :: cs)⟩)
      (String.utf8Len ((front ++ [d]) ++ rest.take cs.length)) := by
  have found := (matchesAt_literalGraph_iff split).2 ⟨ahead, rfl⟩
  obtain ⟨ends, forward⟩ := (decides_literalGraph c cs text (Nat.le_refl 5)).forward _ _ found
  have onward := Matcher.GoesOn.found (g := literalGraph c cs) (s := ⟨_, _⟩) found.1 ends forward
  rw [if_neg (Nat.not_le.2 (bounds_of_matchesAt found).1)] at onward
  obtain ⟨rfl, later⟩ := List.cons_prefix_cons.1 ahead
  rwa [← List.prefix_iff_eq_take.1 later, List.append_assoc, String.utf8Len_append]

theorem goesOn_of_not_ahead (split : text.toList = front ++ d :: rest)
    (other : ¬ c :: cs <+: d :: rest)
    (goes : Matcher.GoesOn (literalGraph c cs) text prior (String.utf8Len front)) :
    Matcher.GoesOn (literalGraph c cs) text prior (String.utf8Len (front ++ [d])) := by
  have step : Matcher.stepFrom (.ofString text) (String.utf8Len front) = d.utf8Size := by
    rw [Matcher.stepFrom, Matcher.charSize?, Haystack.ofString, peek_of_split split]
    rfl
  rw [utf8Len_append_single, ← step]
  apply goes.step (Nat.le_refl _) (isBoundary_iff.2 ⟨front, d :: rest, split, rfl⟩)
  intro t found after
  refine Nat.lt_of_le_of_ne (goes.reaches t found after) fun same => other ?_
  rw [← same] at found
  exact ((matchesAt_literalGraph_iff split).1 found).1

end Scanning

/-- Where nothing that counts begins before the characters not skipped, the occurrences from there on
are what is found. -/
theorem sweeps_occurrencesFrom {prior : Option (Span Nat)} {skip : Nat}
    (split : text.toList = front ++ back)
    (goes : Matcher.GoesOn (literalGraph c cs) text prior (String.utf8Len (front ++ back.take skip))) :
    Matcher.Sweeps (literalGraph c cs) text prior
      (occurrencesFrom (c :: cs) skip (String.utf8Len front) back) := by
  -- By induction on the characters left. `goes` speaks of the place after those that are skipped, so it
  -- does not change as they are passed.
  induction back generalizing front skip prior with
  | nil =>
    rw [occurrencesFrom]
    refine .done fun t found after => ?_
    have reached := goes.reaches t found after
    have bounds := bounds_of_matchesAt found
    rw [← String.utf8Len_toList, split] at bounds
    rw [List.take_nil] at reached
    omega
  | cons d rest ih =>
    have place := utf8Len_append_single front d
    have split' : text.toList = (front ++ [d]) ++ rest := by simpa using split
    cases skip with
    | succ k =>
      rw [occurrencesFrom, ← place]
      apply ih split'
      simpa using goes
    | zero =>
      rw [List.take_zero, List.append_nil] at goes
      by_cases ahead : c :: cs <+: d :: rest
      · rw [occurrencesFrom, if_pos (List.isPrefixOf_iff_prefix.2 ahead), ← place]
        have found := (matchesAt_literalGraph_iff split).2 ⟨ahead, rfl⟩
        have apart := Nat.ne_of_gt (bounds_of_matchesAt found).1
        refine .next found (goes.counts (Nat.le_refl _) fun empty => apart empty.1) goes.reaches ?_
        exact ih split' (goesOn_of_ahead split ahead)
      · rw [occurrencesFrom, if_neg (by rwa [List.isPrefixOf_iff_prefix]), ← place]
        apply ih split'
        rw [List.take_zero, List.append_nil]
        exact goesOn_of_not_ahead split ahead goes

theorem sweeps_occurrences {literal : String} (spelled : literal.toList = c :: cs) (text : String) :
    Matcher.Sweeps (literalGraph c cs) text none (occurrences literal text) := by
  have split : text.toList = [] ++ text.toList := rfl
  rw [occurrences, spelled]
  exact sweeps_occurrencesFrom split (.start _ text)

theorem isMatch_literalGraph (c : Char) (cs : List Char) (text : String) {steps : Nat}
    (enough : 5 ≤ steps) :
    (Matcher.ofGraph (literalGraph c cs)).isMatch steps (.ofString text) =
      .ok (decide (text.toList = c :: cs)) := by
  obtain ⟨cache, searched⟩ := search_literalGraph c cs true enough
    (.ofGraph (literalGraph c cs)) (start text)
  have whole : _ ↔ text.toList ∈ ({c :: cs} : Language Char) := reads_whole
  simp only [Matcher.isMatch, Matcher.whole, Matcher.ofGraph, Haystack.ofString, searched]
  rw [Except.ok.injEq, Option.isSome_filter, Bool.eq_iff_iff, decide_eq_true_iff, Option.any_eq_true]
  refine Iff.trans ?_ whole
  simp only [nextChars_eq_some_iff, Bool.true_and, Bool.not_not]
  rfl

theorem findAll_literalGraph {literal : String} (spelled : literal.toList = c :: cs) (text : String)
    {steps : Nat} (enough : 5 ≤ steps) :
    (Matcher.ofGraph (literalGraph c cs)).findAll steps (.ofString text) =
      .ok (occurrences literal text) := by
  have leads : (Matcher.ofGraph (literalGraph c cs)).LooksForLeading := by
    intro n needle
    refine ⟨c :: cs, ?_, needle⟩
    cases cs <;> rfl
  obtain ⟨spans, found, sweeps⟩ :=
    Matcher.findAll_sweeps leads (decides_literalGraph c cs text enough)
  rw [found, sweeps.unique (sweeps_occurrences spelled text)]

end Texts

/-- A text with its special characters escaped compiles as a pattern for just this text: the pattern
begins with it, no other text matches as a whole, and what is found are its occurrences. -/
theorem compile_escape {options : Options} {literal : String} (nonempty : literal ≠ "")
    (room : ∀ limit ∈ options.stateLimit, 4 ≤ limit) :
    ∃ g, compile options (escape literal) = .ok g ∧ g.leading = some literal.toList ∧
      ∀ text steps, 5 ≤ steps →
        (Matcher.ofGraph g).isMatch steps (.ofString text) = .ok (decide (text = literal)) ∧
        (Matcher.ofGraph g).findAll steps (.ofString text) = .ok (occurrences literal text) := by
  have spelt := spelt_escape literal
  cases spelled : literal.toList with
  | nil => exact absurd (String.toList_eq_nil_iff.1 spelled) nonempty
  | cons c cs =>
    rw [spelled] at spelt
    refine ⟨literalGraph c cs, compile_of_spelt spelt room, rfl, fun text steps enough => ⟨?_, ?_⟩⟩
    · rw [isMatch_literalGraph c cs text enough, ← spelled]
      simp only [String.toList_inj]
    · exact findAll_literalGraph spelled text enough

theorem compile_escape_overlapping : "n.n" ≠ "" ∧ ∃ g, compile .unset "n\\.n" = .ok g ∧
    g.leading = some ['n', '.', 'n'] ∧ ∀ steps, 5 ≤ steps →
      (Matcher.ofGraph g).isMatch steps (.ofString "én.n.nn.n") = .ok false ∧
      (Matcher.ofGraph g).findAll steps (.ofString "én.n.nn.n") = .ok [⟨2, 5⟩, ⟨7, 10⟩] := by
  have nonempty : "n.n" ≠ "" := by decide
  have room : ∀ limit ∈ Options.unset.stateLimit, 4 ≤ limit := nofun
  have escaped : escape "n.n" = "n\\.n" := by decide +kernel
  have spans : occurrences "n.n" "én.n.nn.n" = [⟨2, 5⟩, ⟨7, 10⟩] := by decide +kernel
  obtain ⟨g, compiled, leading, matching⟩ := compile_escape nonempty room
  rw [escaped] at compiled
  refine ⟨nonempty, g, compiled, leading, fun steps enough => ?_⟩
  rw [← spans]
  exact matching "én.n.nn.n" steps enough

end PatternGraph
