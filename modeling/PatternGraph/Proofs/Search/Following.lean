import PatternGraph.Proofs.Cursor.Stream
import PatternGraph.Proofs.Graph.Growth
import PatternGraph.Proofs.Search.Reference
import PatternGraph.Proofs.Search.Rewinding

/-!
Going along an arrow. What an arrow accepts is told as runs of tokens, without a cursor; a machine goes
along the arrow if the tokens ahead begin with such a run, and then it passes this run and no more. If
they do not, it goes back over what it has passed.
-/
namespace PatternGraph
open Cursor

variable {S T P : Type} [Cursor S T P]

namespace Cursor.Stream
variable {s : Stream S} {c c' : S} {n : Nat} {run : List T}

/-- The span goes from one place of the stream to a later one, or to the same, and these are the tokens
between them. -/
def Covers (s : Stream S) (span : Span P) (run : List T) : Prop :=
  ∃ i j, i ≤ j ∧ j ≤ s.tokens.length ∧ span = ⟨s.place i, s.place j⟩ ∧
    run = (s.tokens.take j).drop i

theorem exists_passes (stands : s.Stands c n) (ahead : run <+: s.tokens.drop n) :
    ∃ c', Passes c run c' := by
  induction run generalizing c n with
  | nil => exact ⟨c, .stay c⟩
  | cons t run ih =>
    have more : n < s.tokens.length := by
      have := ahead.length_le
      rw [List.length_cons, List.length_drop] at this
      omega
    rw [List.drop_eq_getElem_cons more, List.cons_prefix_cons] at ahead
    obtain ⟨rfl, ahead⟩ := ahead
    obtain ⟨c', passes⟩ := ih (s.next stands more) ahead
    have front : peek c = some s.tokens[n] := by
      rw [s.peek_eq stands, List.getElem?_eq_getElem more]
    exact ⟨c', .step front passes⟩

/-- No position comes again, so the tokens up to a later cursor are those that are passed. -/
theorem tokensTo_of_passes [DecidableEq P] (stands : s.Stands c n) (passes : Passes c run c') :
    tokensTo c (pos c') = some run := by
  induction passes generalizing n with
  | stay => rw [tokensTo, if_pos rfl]
  | @step c c' t ts front rest ih =>
    have stands' := (ahead_of_passes stands (.step front rest)).2
    have apart : pos c ≠ pos c' := by
      intro same
      rw [s.pos_eq stands, s.pos_eq stands'] at same
      have := s.distinct (s.within stands) (s.within stands') same
      rw [List.length_cons] at this
      omega
    have more : n < s.tokens.length := by
      rw [s.peek_eq stands] at front
      exact (List.getElem?_eq_some_iff.1 front).1
    rw [tokensTo_of_peek apart front, ih (s.next stands more)]
    rfl

theorem tokensTo_of_covers [DecidableEq P] {span : Span P} (stands : s.Stands c n)
    (covers : s.Covers span run) : tokensTo (moveTo c span.start) span.stop = some run := by
  obtain ⟨i, j, le, inside, rfl, rfl⟩ := covers
  have source : s.Stands (moveTo c (s.place i)) i := s.back stands (by omega)
  have ahead : (s.tokens.take j).drop i <+: s.tokens.drop i := by
    rw [List.drop_take]
    exact List.take_prefix _ _
  obtain ⟨stop, passes⟩ := exists_passes source ahead
  have there := (ahead_of_passes source passes).2
  have length : i + ((s.tokens.take j).drop i).length = j := by
    rw [List.length_drop, List.length_take]
    omega
  rw [length] at there
  have tokens := tokensTo_of_passes source passes
  rwa [s.pos_eq there] at tokens

end Cursor.Stream

section Accepting
variable [Token T] {g : Graph} {trackers : Array (Tracker P)} {s : Stream S} {label : Label}

/-- The runs of tokens that an arrow with the label accepts. -/
def Label.Accepts (g : Graph) (trackers : Array (Tracker P)) (s : Stream S) :
    Label → List T → Prop
  | .empty, run => run = []
  | .char c, run => ∃ t, run = [t] ∧ Token.toChar t = c
  | .literal cs, run => run.map Token.toChar = cs
  | .charClass id, run =>
    ∃ set t, g.class? id = some set ∧ run = [t] ∧ set.contains (Token.toChar t) = true
  | .any, run => ∃ t, run = [t]
  | .backref tag, run =>
    ∃ t span, trackers[tag.val]? = some t ∧ t.span? = some span ∧ s.Covers span run

/-- Every group that has both ends got them on the stream, the start no later than the end. -/
def Recorded (trackers : Array (Tracker P)) (s : Stream S) : Prop :=
  ∀ (i : Nat) t span, trackers[i]? = some t → t.span? = some span → ∃ run, s.Covers span run

omit [Token T] in
theorem nextIf_eq_some_iff_passes {p : T → Bool} {c c' : S} :
    nextIf p c = some c' ↔ ∃ t, p t = true ∧ Passes c [t] c' := by
  rw [nextIf_eq_some_iff]
  constructor
  · rintro ⟨t, front, fits, next⟩
    exact ⟨t, fits, .step front (next ▸ .stay _)⟩
  · rintro ⟨t, fits, passes⟩
    cases passes with
    | step front rest =>
      cases rest
      exact ⟨t, front, fits, rfl⟩

namespace Machine
variable [DecidableEq T] [DecidableEq P] {c c' : S} {n : Nat}

theorem exists_along (within : label.Within g.classes.size trackers.size) :
    ∃ found, along g trackers c label = .ok found := by
  cases label with
  | empty | char | literal | any => exact ⟨_, rfl⟩
  | charClass id =>
    have found : g.class? id = some g.classes[id.val] := Array.getElem?_eq_getElem within
    rw [along, found]
    exact ⟨_, rfl⟩
  | backref tag =>
    have found : trackers[tag.val]? = some trackers[tag.val] := Array.getElem?_eq_getElem within
    simp only [along, found]
    split <;> exact ⟨_, rfl⟩

theorem along_eq_some_iff (stands : s.Stands c n) (recorded : Recorded trackers s)
    (within : label.Within g.classes.size trackers.size) :
    along g trackers c label = .ok (some c') ↔
      ∃ run, label.Accepts g trackers s run ∧ Passes c run c' := by
  have single (p : T → Bool) : (Except.ok (nextIf p c) : Except Fault (Option S)) = .ok (some c') ↔
      ∃ t, p t = true ∧ Passes c [t] c' := by
    rw [Except.ok.injEq, nextIf_eq_some_iff_passes]
  cases label with
  | empty =>
    constructor
    · intro followed
      cases followed
      exact ⟨[], rfl, .stay c⟩
    · rintro ⟨run, bare, passes⟩
      obtain rfl : run = [] := bare
      cases passes
      rfl
  | char ch =>
    rw [along, single]
    constructor
    · rintro ⟨t, fits, passes⟩
      exact ⟨[t], ⟨t, rfl, eq_of_beq fits⟩, passes⟩
    · rintro ⟨_, ⟨t, rfl, same⟩, passes⟩
      exact ⟨t, beq_iff_eq.2 same, passes⟩
  | literal cs =>
    rw [along, Except.ok.injEq, nextChars_eq_some_iff]
    constructor
    · rintro ⟨ts, passes, spelled⟩
      exact ⟨ts, spelled, passes⟩
    · rintro ⟨ts, spelled, passes⟩
      exact ⟨ts, passes, spelled⟩
  | charClass id =>
    have found : g.class? id = some g.classes[id.val] := Array.getElem?_eq_getElem within
    simp only [along, found]
    rw [single]
    constructor
    · rintro ⟨t, fits, passes⟩
      exact ⟨[t], ⟨_, t, found, rfl, fits⟩, passes⟩
    · rintro ⟨_, ⟨set, t, found', rfl, fits⟩, passes⟩
      cases found.symm.trans found'
      exact ⟨t, fits, passes⟩
  | any =>
    rw [along, single]
    constructor
    · rintro ⟨t, _, passes⟩
      exact ⟨[t], ⟨t, rfl⟩, passes⟩
    · rintro ⟨_, ⟨t, rfl⟩, passes⟩
      exact ⟨t, rfl, passes⟩
  | backref tag =>
    have found : trackers[tag.val]? = some trackers[tag.val] := Array.getElem?_eq_getElem within
    simp only [along, found]
    cases ends : trackers[tag.val].span? with
    | none =>
      constructor
      · intro followed
        cases followed
      · rintro ⟨_, ⟨t, span, found', ends', _⟩, _⟩
        cases found.symm.trans found'
        cases ends.symm.trans ends'
    | some span =>
      obtain ⟨run, covers⟩ := recorded _ _ _ found ends
      have tokens := s.tokensTo_of_covers stands covers
      rw [Except.ok.injEq, nextCopy_eq, tokens]
      simp only [Option.bind_some, nextTokens_eq_some_iff]
      constructor
      · intro passes
        exact ⟨run, ⟨_, span, found, ends, covers⟩, passes⟩
      · rintro ⟨run', ⟨t, span', found', ends', covers'⟩, passes⟩
        cases found.symm.trans found'
        cases ends.symm.trans ends'
        cases tokens.symm.trans (s.tokensTo_of_covers stands covers')
        exact passes

end Machine

end Accepting

/-- If a run that the arrow accepts is ahead, the machine passes it and goes on at the target. If none
is, it goes back, and its cursor is where it was. -/
theorem Machine.take_accepted [Token T] [DecidableEq T] [DecidableEq P] (g : Graph)
    (event : Option (Event P)) (m : Machine S P) (a : Arrow) (s : Stream S) (n : Nat)
    (stands : s.Stands m.cursor n) (recorded : Recorded m.cache.trackers s)
    (within : a.label.Within g.classes.size m.cache.trackers.size) :
    (∀ run, a.label.Accepts g m.cache.trackers s run → run <+: s.tokens.drop n →
      ∃ c, Passes m.cursor run c ∧ s.Stands c (n + run.length) ∧
        follow g m.cache.trackers m.cursor a.label = .ok (true, c) ∧
        take g event m a = .move event { m with control := .visit a.target, cursor := c }) ∧
    ((∀ run, a.label.Accepts g m.cache.trackers s run → ¬ run <+: s.tokens.drop n) →
      ∃ c, s.Stands c n ∧ pos c = pos m.cursor ∧ (Restores m.cursor → c = m.cursor) ∧
        follow g m.cache.trackers m.cursor a.label = .ok (false, c) ∧
        take g event m a = .move event { m with control := .resume, cursor := c }) := by
  constructor
  · intro run accepts ahead
    obtain ⟨c, passes⟩ := s.exists_passes stands ahead
    have goes := (along_eq_some_iff stands recorded within).2 ⟨run, accepts, passes⟩
    exact ⟨c, passes, (s.ahead_of_passes stands passes).2, follow_of_along goes, take_of_some goes⟩
  · intro refuses
    obtain ⟨found, goes⟩ := exists_along (c := m.cursor) within
    cases found with
    | some c =>
      obtain ⟨run, accepts, passes⟩ := (along_eq_some_iff stands recorded within).1 goes
      exact absurd (s.ahead_of_passes stands passes).1 (refuses run accepts)
    | none =>
      obtain ⟨c, back, followed⟩ := follow_of_stuck goes
      have there := s.stands_of_handsBack stands back
      refine ⟨c, there, (s.pos_eq there).trans (s.pos_eq stands).symm, ?_, followed, ?_⟩
      · intro restores
        exact congrArg Prod.snd (back.restored restores (.refl _))
      · rw [take, followed]

/-- The group has matched the first two tokens, and the last two are the same. A literal that begins
like them and is longer is given up at the end of the tokens. -/
theorem Machine.take_accepted_backref :
    let g : Graph := ⟨#[.terminal], ⟨0⟩, ⟨0⟩, #[], .single, 0, none⟩
    let m : Machine (TokenCursor Char) Nat :=
      ⟨.resume, ⟨#['a', 'b', 'a', 'b'], 2⟩, ⟨[], #[⟨[0], some 2⟩], #[]⟩⟩
    let s := TokenCursor.stream #['a', 'b', 'a', 'b']
    s.Stands m.cursor 2 ∧ Recorded m.cache.trackers s ∧
      (Label.backref ⟨0⟩).Within g.classes.size m.cache.trackers.size ∧
      (∃ c, s.Stands c 4 ∧ take g none m ⟨.backref ⟨0⟩, ⟨0⟩⟩ =
        .move none { m with control := .visit ⟨0⟩, cursor := c }) ∧
      ∃ c, pos c = 2 ∧ take g none m ⟨.literal ['a', 'b', 'c'], ⟨0⟩⟩ =
        .move none { m with control := .resume, cursor := c } := by
  intro g m s
  have stands : s.Stands m.cursor 2 := ⟨by decide, rfl⟩
  have covers : s.Covers ⟨0, 2⟩ ['a', 'b'] := ⟨0, 2, by decide, by decide, rfl, rfl⟩
  have recorded : Recorded m.cache.trackers s := by
    intro i t span found ends
    cases i with
    | zero =>
      cases found
      cases ends
      exact ⟨_, covers⟩
    | succ i => cases found
  have within : (Label.backref ⟨0⟩).Within g.classes.size m.cache.trackers.size := Nat.one_pos
  obtain ⟨accepted, _⟩ := take_accepted g none m ⟨.backref ⟨0⟩, ⟨0⟩⟩ s 2 stands recorded within
  obtain ⟨c, _, stands', _, taken⟩ :=
    accepted ['a', 'b'] ⟨_, _, rfl, rfl, covers⟩ (List.prefix_refl _)
  have refuses (run : List Char) (accepts : run.map Token.toChar = ['a', 'b', 'c']) :
      ¬ run <+: s.tokens.drop 2 := by
    intro ahead
    have size := congrArg List.length accepts
    have short : run.length ≤ 2 := ahead.length_le
    simp only [List.length_map, List.length_cons, List.length_nil] at size
    omega
  obtain ⟨_, refused⟩ :=
    take_accepted g none m ⟨.literal ['a', 'b', 'c'], ⟨0⟩⟩ s 2 stands recorded trivial
  obtain ⟨c', _, back, _, _, resumes⟩ := refused refuses
  exact ⟨stands, recorded, within, ⟨c, stands', taken⟩, c', back, resumes⟩

end PatternGraph
