import PatternGraph.Proofs.Search.Activation
import PatternGraph.Proofs.Search.AllMatches

/-!
The spans that searches report, and what they never run into. A group's end is read off the cursor after
its start, with nothing in between that binds the group, so every span delimits a part of the text. On
the way there nothing that an index refers to is missing; only the steps may run out.
-/
namespace PatternGraph
open Cursor TextCursor

structure Span.Delimits (s : Span Nat) (text : String) : Prop where
  forward : s.start ≤ s.stop
  inside : s.stop ≤ text.utf8ByteSize
  start : isBoundary text s.start = true
  stop : isBoundary text s.stop = true

theorem Span.Delimits.textOf {s : Span Nat} {text : String} (delimits : s.Delimits text) :
    ∃ part, Matcher.textOf (.ofString text) s = .ok part := by
  have sliced : slice? text s = some (String.Pos.Raw.extract text ⟨s.start⟩ ⟨s.stop⟩) := by
    simp [slice?, delimits.forward, delimits.start, delimits.stop]
  refine ⟨String.Pos.Raw.extract text ⟨s.start⟩ ⟨s.stop⟩, ?_⟩
  simp only [Matcher.textOf, Haystack.ofString, sliced]

section Captures
variable {S T P : Type} [Cursor S T P]

/-- The start of every span was read off the stream before its end. -/
def Env.Spanned (c₀ : S) (σ : Env S P) : Prop :=
  ∀ tag span, (σ.captures tag).span? = some span →
    ∃ a b : S, Ahead c₀ a ∧ Ahead a b ∧ span = ⟨pos a, pos b⟩

namespace Env
variable {c₀ : S} {σ σ' : Env S P} {tag : TagId}

theorem spanned_start (c₀ c : S) : (start c : Env S P).Spanned c₀ := by
  intro tag span set
  cases set

theorem Spanned.set {c : Capture P} (spanned : σ.Spanned c₀)
    (new : ∀ span, c.span? = some span → ∃ a b : S, Ahead c₀ a ∧ Ahead a b ∧ span = ⟨pos a, pos b⟩) :
    (σ.set tag c).Spanned c₀ := by
  intro t span set
  by_cases same : t = tag
  · subst same
    rw [captures_set_self] at set
    exact new span set
  · rw [captures_set_of_ne c same] at set
    exact spanned t span set

theorem Spanned.enter (spanned : σ.Spanned c₀) (tag : Option TagId) : (σ.enter tag).Spanned c₀ := by
  cases tag with
  | none => exact spanned
  | some tag => exact spanned.set fun span set => (by cases set)

theorem Spanned.leave (spanned : σ'.Spanned c₀) (ahead : Ahead c₀ σ.cursor)
    (later : Ahead σ.cursor σ'.cursor) (opened : σ'.captures tag = .opened (pos σ.cursor)) :
    (σ'.leave (some tag)).Spanned c₀ := by
  refine spanned.set fun span set => ⟨σ.cursor, σ'.cursor, ahead, later, ?_⟩
  rw [opened] at set
  exact (Option.some.inj set).symm

end Env

theorem Tree.spanned_of_exits [Token T] [DecidableEq T] [DecidableEq P] {t : Tree} {low : Nat}
    (tags : t.TagsFrom low) {c₀ : S} {σ σ' : Env S P} (ahead : Ahead c₀ σ.cursor)
    (spanned : σ.Spanned c₀) (mem : σ' ∈ t.exits σ) : σ'.Spanned c₀ := by
  induction t generalizing low σ σ' with
  | empty =>
    rw [exits_empty, List.mem_singleton] at mem
    rw [mem]
    exact spanned
  | char | any | charClass =>
    simp only [exits_char, exits_any, exits_charClass, List.mem_map] at mem
    obtain ⟨c, _, rfl⟩ := mem
    exact spanned
  | backref tag =>
    rw [exits_backref] at mem
    split at mem
    · cases mem
    · obtain ⟨c, _, rfl⟩ := List.mem_map.1 mem
      exact spanned
  | cat _ _ ihf ihs =>
    rw [exits_cat] at mem
    obtain ⟨σ₁, first, second⟩ := List.mem_flatMap.1 mem
    exact ihs tags.2 (ahead.trans (ahead_of_exits first)) (ihf tags.1 ahead spanned first) second
  | alt _ _ ihf ihs =>
    rw [exits_alt, List.mem_append] at mem
    rcases mem with first | second
    · exact ihf tags.1 ahead spanned first
    · exact ihs tags.2 ahead spanned second
  | group tag body ih =>
    rw [exits_group] at mem
    obtain ⟨σ₁, inner, rfl⟩ := List.mem_map.1 mem
    have later := ahead_of_exits inner
    rw [Env.cursor_enter] at later
    have entered : Ahead c₀ (σ.enter tag).cursor := by
      rw [Env.cursor_enter]
      exact ahead
    cases tag with
    | none => exact ih tags entered spanned inner
    | some tag =>
      -- The body binds only larger tags.
      have kept := (keeps_of_exits tags.2 inner).1 tag (Nat.lt_succ_self _)
      refine (ih tags.2 entered (spanned.enter (some tag)) inner).leave ahead later ?_
      rw [kept, Env.enter, Env.captures_set_self]
  | loop b body ih =>
    exact (rounds_keep (R := fun σ σ' => Ahead σ.cursor σ'.cursor ∧
        (Ahead c₀ σ.cursor → σ.Spanned c₀ → σ'.Spanned c₀))
      (fun σ => ⟨.refl _, fun _ spanned => spanned⟩)
      (fun _ _ _ first second => ⟨first.1.trans second.1, fun ahead spanned =>
        second.2 (ahead.trans first.1) (first.2 ahead spanned)⟩)
      (fun _ _ mem => ⟨ahead_of_exits mem, fun ahead spanned => ih tags ahead spanned mem⟩)
      0 σ σ' mem).2 ahead spanned

end Captures

theorem Span.delimits_of_ahead {text : String} {p : Nat} {a b : TextCursor}
    (boundary : isBoundary text p = true) (ahead : Ahead (⟨text, p⟩ : TextCursor) a)
    (later : Ahead a b) : Span.Delimits ⟨pos a, pos b⟩ text := by
  obtain ⟨front, _, split, rfl⟩ := isBoundary_iff.1 boundary
  obtain ⟨ts, passes⟩ := ahead
  obtain ⟨_, _, rfl⟩ := split_of_passes split passes
  have first := (boundary_of_ahead boundary ⟨ts, passes⟩).1
  obtain ⟨second, le⟩ := boundary_of_ahead first later
  exact ⟨le, le_size_of_isBoundary second, first, second⟩

section Searches
variable {S T P : Type} [Cursor S T P] [Token T] [DecidableEq T] [DecidableEq P]

namespace Machine
variable {g : Graph} {matchToEnd : Bool} {m m' : Machine S P} {answer : Option (Env S P)}

theorem Ends.no_fault (ends : Ends g matchToEnd m answer) (f : Fault) :
    step g matchToEnd m ≠ .fault f := by
  intro faults
  cases ends with
  | accept accepts => cases faults.symm.trans accepts
  | exhaust exhausts => cases faults.symm.trans exhausts
  | move moves => cases faults.symm.trans moves

theorem Ends.of_records {h : History P} (ends : Ends g matchToEnd m answer)
    (records : Records g matchToEnd m m' h) : Ends g matchToEnd m' answer := by
  induction records with
  | begin => exact ends
  | step _ moved ih =>
    cases ih with
    | accept accepts => cases moved.symm.trans accepts
    | exhaust exhausts => cases moved.symm.trans exhausts
    | move moves later =>
      cases moved.symm.trans moves
      exact later

theorem Ends.out_of_steps (ends : Ends g matchToEnd m answer) {steps : Nat} {f : Fault}
    (fails : Machine.run g matchToEnd steps m = .error f) : f = .outOfSteps := by
  induction steps generalizing m with
  | zero =>
    cases fails
    rfl
  | succ steps ih =>
    rw [Machine.run] at fails
    cases ends with
    | accept accepts =>
      rw [accepts] at fails
      cases fails
    | exhaust exhausts =>
      rw [exhausts] at fails
      cases fails
    | move moves later =>
      rw [moves] at fails
      exact ih later fails

end Machine

namespace Backtracker
variable {g : Graph} {t : Tree} {c : S} {matchToEnd : Bool} {steps : Nat} {cache cache' : Cache P}

theorem out_of_steps (realizes : g.Realizes t) (restores : Restores c) {f : Fault}
    (fails : (Backtracker.mk g matchToEnd).search steps cache c = .error f) : f = .outOfSteps := by
  have ends := Machine.ends_of_realizes realizes restores matchToEnd cache
  unfold search at fails
  split at fails
  · rename_i ran
    cases fails
    exact ends.out_of_steps ran
  · cases fails

/-- After a successful search the trackers are those of the first way to match. -/
theorem trackers_of_search (realizes : g.Realizes t) (restores : Restores c) {c' : S}
    (searched : (Backtracker.mk g matchToEnd).search steps cache c = .ok (some c', cache')) :
    ∃ σ ∈ t.exits (.start c), σ.cursor = c' ∧ cache'.trackers = σ.table g.names.size := by
  obtain ⟨n, m, runs, holds⟩ := (Machine.ends_of_realizes realizes restores matchToEnd cache).run
  unfold search at searched
  split at searched
  · cases searched
  · rename_i found m' ran
    obtain ⟨rfl, rfl⟩ := Prod.mk.inj (Machine.run_unique ran (runs n (Nat.le_refl n)))
    cases answer : t.matchFrom matchToEnd c with
    | none =>
      rw [answer] at searched
      cases searched
    | some σ =>
      obtain ⟨cursor, trackers⟩ := holds σ answer
      rw [answer] at searched
      cases searched
      exact ⟨σ, List.mem_of_find?_eq_some answer, cursor.symm, trackers⟩

end Backtracker

end Searches

namespace Matcher
variable {m : Matcher} {t : Tree} {text : String} {steps p : Nat} {cache cache' : Cache Nat}

theorem out_of_steps_of_matchAt (realizes : m.graph.Realizes t) (boundary : isBoundary text p = true)
    {f : Fault} (fails : m.matchAt steps (.ofString text) cache p = .error f) : f = .outOfSteps := by
  have placed : startAt? text p = some ⟨text, p⟩ := by rw [startAt?, if_pos boundary]
  simp only [matchAt, Haystack.ofString, placed] at fails
  split at fails
  · rename_i searched
    cases fails
    exact Backtracker.out_of_steps realizes (TextCursor.restores _) searched
  · cases fails

theorem delimits_of_matchAt (realizes : m.graph.Realizes t) (boundary : isBoundary text p = true)
    {stop : Nat} (found : m.matchAt steps (.ofString text) cache p = .ok (some stop, cache')) :
    Span.Delimits ⟨p, stop⟩ text := by
  have placed : startAt? text p = some ⟨text, p⟩ := by rw [startAt?, if_pos boundary]
  simp only [matchAt, Haystack.ofString, placed] at found
  split at found
  · cases found
  · rename_i ended _ searched
    obtain ⟨offset, rfl⟩ := Prod.mk.inj (Except.ok.inj found)
    obtain ⟨c, rfl, rfl⟩ := Option.map_eq_some_iff.1 offset
    obtain ⟨σ, mem, rfl, _⟩ :=
      Backtracker.trackers_of_search realizes (TextCursor.restores _) searched
    exact Span.delimits_of_ahead boundary (.refl _) (Tree.ahead_of_exits mem)

/-- A scan finds spans that delimit parts of the text, or it runs out of steps. -/
def Delimiting (text : String) : Except Fault Scan → Prop
  | .error f => f = .outOfSteps
  | .ok scan => ∀ s ∈ scan.spans, s.Delimits text

theorem Delimiting.out_of_steps {A : Type} {scanned : Except Fault Scan} {f : Fault} {view : Scan → A}
    (delimiting : Delimiting text scanned) (fails : scanned.map view = .error f) : f = .outOfSteps := by
  cases scanned with
  | error f' =>
    cases fails
    exact delimiting
  | ok scan => cases fails

theorem Delimiting.spans {A : Type} {scanned : Except Fault Scan} {view : Scan → A} {a : A}
    (delimiting : Delimiting text scanned) (ends : scanned.map view = .ok a) :
    ∃ scan, view scan = a ∧ ∀ s ∈ scan.spans, s.Delimits text := by
  cases scanned with
  | error f => cases ends
  | ok scan =>
    cases ends
    exact ⟨scan, rfl, delimiting⟩

theorem delimits_found {past : Scan} (spans : ∀ s ∈ past.spans, s.Delimits text) {start stop : Nat}
    (found : Span.Delimits ⟨start, stop⟩ text) :
    ∀ s ∈ ((past.tryAt start).found ⟨start, stop⟩).spans, s.Delimits text := by
  intro s mem
  rcases Array.mem_push.1 mem with old | rfl
  · exact spans s old
  · exact found

theorem delimiting_findFrom (realizes : m.graph.Realizes t) (leads : m.LooksForLeading) (past : Scan)
    (cache : Cache Nat) (boundary : p ≤ text.utf8ByteSize → isBoundary text p = true)
    (spans : ∀ s ∈ past.spans, s.Delimits text) :
    Delimiting text (m.findFrom steps (.ofString text) past cache p) := by
  fun_induction findFrom m steps (.ofString text) past cache p with
  | case1 => exact spans
  | case2 past cache p start offered f fails =>
    exact out_of_steps_of_matchAt realizes (boundary_of_candidate leads boundary offered) fails
  | case3 past cache p start offered _ stop cache' found =>
    have here := boundary_of_candidate leads boundary offered
    exact delimits_found spans (delimits_of_matchAt realizes here found)
  | case4 => exact spans
  | case5 past cache p start offered _ cache' failed n size _ _ ih =>
    have here := boundary_of_candidate leads boundary offered
    have step : n = stepFrom (.ofString text) start := by rw [stepFrom, size, Option.getD_some]
    refine ih ?_ spans
    rw [step]
    exact boundary_stepFrom here

theorem delimiting_findAllFrom (realizes : m.graph.Realizes t) (leads : m.LooksForLeading)
    (past : Scan) (cache : Cache Nat) (last : Option Nat)
    (boundary : p ≤ text.utf8ByteSize → isBoundary text p = true)
    (spans : ∀ s ∈ past.spans, s.Delimits text) :
    Delimiting text (m.findAllFrom steps (.ofString text) past cache last p) := by
  fun_induction findAllFrom m steps (.ofString text) past cache last p with
  | case1 => exact spans
  | case2 past cache last p start offered _ _ f fails =>
    exact out_of_steps_of_matchAt realizes (boundary_of_candidate leads boundary offered) fails
  | case3 => exact spans
  | case4 past cache last p start offered =>
    rename_i ih
    exact ih (boundary_stepFrom (boundary_of_candidate leads boundary offered)) spans
  | case5 => exact spans
  | case6 past cache last p start offered =>
    rename_i ih
    exact ih (boundary_stepFrom (boundary_of_candidate leads boundary offered)) spans
  | case7 past cache last p start offered bounds _ tried stop cache' found =>
    rename_i ih
    have here := boundary_of_candidate leads boundary offered
    exact ih (boundary_stepFrom here) (delimits_found spans (delimits_of_matchAt realizes here found))
  | case8 past cache last p start offered bounds _ tried stop cache' found =>
    rename_i ih
    have here := boundary_of_candidate leads boundary offered
    have found := delimits_of_matchAt realizes here found
    exact ih (fun _ => found.stop) (delimits_found spans found)

theorem delimits_of_table {σ : Env TextCursor Nat} {count : Nat} {tracker : Tracker Nat}
    {span : Span Nat} (spanned : σ.Spanned (start text)) (mem : tracker ∈ σ.table count)
    (set : tracker.span? = some span) : span.Delimits text := by
  obtain ⟨i, found⟩ := Array.mem_iff_getElem?.1 mem
  have inside := (Array.getElem?_eq_some_iff.1 found).1
  rw [Env.table, Array.size_ofFn] at inside
  obtain rfl : (σ.captures ⟨i⟩).tracker = tracker :=
    Option.some.inj ((σ.getElem?_table inside).symm.trans found)
  rw [Capture.span?_tracker] at set
  obtain ⟨a, b, ahead, later, rfl⟩ := spanned ⟨i⟩ span set
  exact Span.delimits_of_ahead (isBoundary_zero text) ahead later

theorem delimits_of_search (realizes : m.graph.Realizes t) {c : TextCursor}
    (searched : m.whole.search steps cache (start text) = .ok (some c, cache')) :
    cache'.trackers.size = m.graph.names.size ∧
      ∀ tracker ∈ cache'.trackers, ∀ span, tracker.span? = some span → span.Delimits text := by
  obtain ⟨σ, mem, _, trackers⟩ :=
    Backtracker.trackers_of_search realizes (TextCursor.restores _) searched
  have spanned :=
    Tree.spanned_of_exits realizes.tagsFrom (.refl _) (Env.spanned_start (start text) _) mem
  rw [trackers]
  exact ⟨by simp [Env.table], fun tracker mem span => delimits_of_table spanned mem⟩

end Matcher

def TrailEntry.InRange {P : Type} (g : Graph) : TrailEntry P → Prop
  | .arrow id index _ => ∃ state, g.state? id = some state ∧ index < state.arrows.size
  | .leave id _ => ∃ k r body leave, g.state? id = some (.trap k r body leave) ∧ k.val < g.trapCount
  | .tag t _ => t.val < g.names.size
  | .trap k _ => k.val < g.trapCount

theorem Backed.inRange {P : Type} {g : Graph} {places : List Place} {trail : List (TrailEntry P)}
    {kept : List (List (Leg P))} {trackers : Array (Tracker P)} {slots : Array (Slot P)}
    (backed : Backed g places trail kept trackers slots) : ∀ e ∈ trail, e.InRange g := by
  induction backed with
  | bottom => simp
  | arrow found more _ _ _ _ _ ih => exact List.forall_mem_cons.2 ⟨⟨_, found, more⟩, ih⟩
  | leave found _ _ _ tells backed ih =>
    obtain ⟨slot, inside, _⟩ := tells _ _ _ _ _ found
    have inside := (Array.getElem?_eq_some_iff.1 inside).1
    rw [backed.size_slots] at inside
    exact List.forall_mem_cons.2 ⟨⟨_, _, _, _, found, inside⟩, ih⟩
  | tag inside _ backed ih =>
    have size := backed.size_trackers
    rw [Array.size_modify] at size
    rw [size] at inside
    exact List.forall_mem_cons.2 ⟨inside, ih⟩
  | trap inside backed ih =>
    have size := backed.size_slots
    rw [Array.size_setIfInBounds] at size
    rw [size] at inside
    exact List.forall_mem_cons.2 ⟨inside, ih⟩

theorem captures_of_search {m : Matcher} {text : String} {steps : Nat} {caps : Matcher.Captures}
    (captured : m.captures? steps (.ofString text) = .ok (some caps)) :
    ∃ c cache, m.whole.search steps (.ofGraph m.graph) (start text) = .ok (some c, cache) ∧
      caps = m.graph.names.toList.zip (cache.trackers.toList.map Tracker.span?) := by
  unfold Matcher.captures? at captured
  split at captured
  · cases captured
  · cases captured
  · rename_i c cache searched
    cases captured
    exact ⟨c, cache, searched, rfl⟩

/-- The spans that searches of a text report delimit parts of it. From no place and in neither mode a
search comes to where an index refers to nothing or a loop is to be left where there is none. No search
begins inside a character, so none fails but for running out of steps, and some number is enough. -/
theorem spans_delimit {options : Options} {pattern : String} {g : Graph}
    (compiled : compile options pattern = .ok g) (text : String) :
    (∀ (matchToEnd : Bool) (p : Nat) (cache : Cache Nat) (m : Machine TextCursor Nat) (h : History Nat),
      Records g matchToEnd (.start g cache ⟨text, p⟩) m h →
        (∀ f, Machine.step g matchToEnd m ≠ .fault f) ∧ (∀ e ∈ m.cache.trail, e.InRange g) ∧
          m.cache.trackers.size = g.names.size ∧ m.cache.slots.size = g.trapCount) ∧
    (∃ n, ∀ steps, n ≤ steps →
      (∃ caps, (Matcher.ofGraph g).captures? steps (.ofString text) = .ok caps) ∧
      (∃ found, (Matcher.ofGraph g).find? steps (.ofString text) = .ok found) ∧
      ∃ spans, (Matcher.ofGraph g).findAll steps (.ofString text) = .ok spans) ∧
    (∀ steps f, (Matcher.ofGraph g).captures? steps (.ofString text) = .error f ∨
      (Matcher.ofGraph g).find? steps (.ofString text) = .error f ∨
      (Matcher.ofGraph g).findAll steps (.ofString text) = .error f → f = .outOfSteps) ∧
    (∀ steps caps, (Matcher.ofGraph g).captures? steps (.ofString text) = .ok (some caps) →
      caps.map Prod.fst = g.names.toList ∧
        ∀ name span, (name, some span) ∈ caps → span.Delimits text) ∧
    (∀ steps cache c cache', (Matcher.ofGraph g).whole.search steps cache (start text) =
        .ok (some c, cache') → ∀ name span,
      (Matcher.ofGraph g).whole.groupSpan? cache' name = some span → span.Delimits text) ∧
    (∀ steps span, (Matcher.ofGraph g).find? steps (.ofString text) = .ok (some span) →
      span.Delimits text) ∧
    (∀ steps spans, (Matcher.ofGraph g).findAll steps (.ofString text) = .ok spans →
      ∀ span ∈ spans, span.Delimits text) ∧
    ∀ span : Span Nat, span.Delimits text →
      ∃ part, Matcher.textOf (.ofString text) span = .ok part := by
  obtain ⟨t, _, realizes⟩ := realizes_of_compile compiled
  obtain ⟨places, placed⟩ := placed_of_compile compiled
  have leads := Matcher.looksForLeading_of_compile compiled
  have first : ∀ steps, Matcher.Delimiting text ((Matcher.ofGraph g).findScan steps (.ofString text)) :=
    fun steps => Matcher.delimiting_findFrom (m := .ofGraph g) realizes leads .empty _
      (fun _ => isBoundary_zero text) (by simp [Matcher.Scan.empty])
  have all : ∀ steps, Matcher.Delimiting text
      ((Matcher.ofGraph g).findAllScan steps (.ofString text)) :=
    fun steps => Matcher.delimiting_findAllFrom (m := .ofGraph g) realizes leads .empty _ none
      (fun _ => isBoundary_zero text) (by simp [Matcher.Scan.empty])
  refine ⟨?_, ?_, ?_, ?_, ?_, ?_, ?_, fun span delimits => delimits.textOf⟩
  · intro matchToEnd p cache m h records
    have ends := Machine.ends_of_realizes realizes (TextCursor.restores ⟨text, p⟩) matchToEnd cache
    have backed := (tallies_of_records placed records).backed
    exact ⟨(ends.of_records records).no_fault, backed.inRange, backed.size_trackers, backed.size_slots⟩
  · obtain ⟨n₁, searches⟩ :=
      Backtracker.search_of_realizes realizes (TextCursor.restores (start text)) true (.ofGraph g)
    obtain ⟨n₂, decided⟩ := decides_of_compile compiled text
    refine ⟨max n₁ n₂, fun steps enough => ?_⟩
    have decides := decided steps (by omega)
    obtain ⟨cache, searched, _⟩ := searches steps (by omega)
    obtain ⟨found, finds, _⟩ := Matcher.find?_leftmost (m := .ofGraph g) leads decides
    obtain ⟨spans, findsAll, _⟩ := Matcher.findAll_sweeps (m := .ofGraph g) leads decides
    refine ⟨?_, ⟨found, finds⟩, ⟨spans, findsAll⟩⟩
    simp only [Matcher.captures?, Matcher.whole, Matcher.ofGraph, Haystack.ofString, searched]
    split
    · contradiction
    · exact ⟨_, rfl⟩
    · exact ⟨_, rfl⟩
  · rintro steps f (fails | fails | fails)
    · unfold Matcher.captures? at fails
      split at fails
      · rename_i searched
        cases fails
        exact Backtracker.out_of_steps (t := t) realizes (TextCursor.restores _) searched
      · cases fails
      · cases fails
    · exact (first steps).out_of_steps fails
    · exact (all steps).out_of_steps fails
  · intro steps caps captured
    obtain ⟨c, cache, searched, rfl⟩ := captures_of_search captured
    obtain ⟨size, delimits⟩ := Matcher.delimits_of_search (m := .ofGraph g) realizes searched
    constructor
    · apply List.map_fst_zip
      simpa [GroupNames.toList, GroupNames.size] using Nat.le_of_eq size.symm
    · intro name span mem
      obtain ⟨tracker, mem, set⟩ := List.mem_map.1 (List.of_mem_zip mem).2
      exact delimits tracker (Array.mem_toList_iff.1 mem) span set
  · intro steps cache c cache' searched name span reported
    obtain ⟨_, delimits⟩ := Matcher.delimits_of_search (m := .ofGraph g) realizes searched
    unfold Backtracker.groupSpan? at reported
    split at reported
    · cases reported
    · obtain ⟨tracker, found, set⟩ := Option.bind_eq_some_iff.1 reported
      exact delimits tracker (Array.mem_of_getElem? found) span set
  · intro steps span finds
    obtain ⟨scan, same, delimits⟩ := (first steps).spans finds
    exact delimits span (Array.mem_of_getElem? same)
  · intro steps spans finds span mem
    obtain ⟨scan, rfl, delimits⟩ := (all steps).spans finds
    exact delimits span (Array.mem_toList_iff.1 mem)

theorem spans_delimit_repeatedGroup : ∃ g, compile .unset "(é|a)*" = .ok g ∧
    (Matcher.ofGraph g).captures? 60 (.ofString "éa") = .ok (some [("1", some ⟨2, 3⟩)]) ∧
    Span.Delimits ⟨2, 3⟩ "éa" ∧
    (∃ n, ∀ steps, n ≤ steps →
      (∃ caps, (Matcher.ofGraph g).captures? steps (.ofString "éa") = .ok caps) ∧
      (∃ found, (Matcher.ofGraph g).find? steps (.ofString "éa") = .ok found) ∧
      ∃ spans, (Matcher.ofGraph g).findAll steps (.ofString "éa") = .ok spans) ∧
    ∀ steps spans, (Matcher.ofGraph g).findAll steps (.ofString "éa") = .ok spans →
      ∀ span ∈ spans, span.Delimits "éa" := by
  have answer : (compile .unset "(é|a)*").toOption.bind
      (fun g => ((Matcher.ofGraph g).captures? 60 (.ofString "éa")).toOption) =
        some (some [("1", some ⟨2, 3⟩)]) := by decide +kernel
  have compiles : (compile .unset "(é|a)*").toOption.isSome = true := by decide +kernel
  obtain ⟨g, compiled⟩ := Except.exists_eq_ok compiles
  rw [compiled] at answer
  have captured : (Matcher.ofGraph g).captures? 60 (.ofString "éa") =
      .ok (some [("1", some ⟨2, 3⟩)]) := by
    cases captured : (Matcher.ofGraph g).captures? 60 (.ofString "éa") with
    | error f => simp [Except.toOption, captured] at answer
    | ok caps => simpa [Except.toOption, captured] using answer
  obtain ⟨_, ends, _, captures, _, _, all, _⟩ := spans_delimit compiled "éa"
  have delimits := (captures 60 _ captured).2 "1" ⟨2, 3⟩ List.mem_cons_self
  exact ⟨g, compiled, captured, delimits, ends, all⟩

end PatternGraph
