import PatternGraph.Proofs.Graph.Compilation
import PatternGraph.Proofs.Pattern.Derivation

/-!
A pattern that compiles denotes a syntax tree, and its graph is wired like that tree: what was known
of the draft once all pieces were added holds of the finished graph.
-/
namespace PatternGraph

namespace Draft

theorem finishStates_eq_ok {count i : Nat} {ss : List DraftState} {states : List State}
    (h : finishStates count i ss = .ok states) :
    states.length = ss.length ∧ ∀ (j : Nat) s, ss[j]? = some s →
      ∃ state, s.finish? = some state ∧ states[j]? = some state := by
  induction ss generalizing i states with
  | nil =>
    cases h
    exact ⟨rfl, fun j s found => (by cases found)⟩
  | cons s rest ih =>
    unfold finishStates at h
    split at h
    · cases h
    · rename_i state finished
      split at h
      · cases h
      · cases more : finishStates count (i + 1) rest with
        | error e =>
          rw [more] at h
          cases h
        | ok states' =>
          rw [more] at h
          cases h
          obtain ⟨length, all⟩ := ih more
          refine ⟨congrArg (· + 1) length, fun j s' found => ?_⟩
          cases j with
          | zero =>
            cases found
            exact ⟨state, finished, rfl⟩
          | succ j => exact all j s' found

structure Finishes (d : Draft) (start : StateId) (names : GroupNames) (g : Graph) : Prop where
  holds : g.Holds d 0
  size : g.states.size = d.size
  classes : g.classes = d.classes
  start : g.start = start
  names : g.names = names
  traps : g.trapCount = d.trapCount
  terminal : lastTerminal? g.states = some g.terminal
  leading : g.leading = leadingLiteral g.states g.start

theorem finishes_of_finish {d : Draft} {start : StateId} {names : GroupNames} {g : Graph}
    (h : d.finish start names = .ok g) : d.Finishes start names g := by
  simp only [finish, Except.bind_eq_ok] at h
  obtain ⟨states, finished, h⟩ := h
  obtain ⟨length, all⟩ := finishStates_eq_ok finished
  split at h
  · cases h
  split at h
  · cases h
  · rename_i terminal last
    cases h
    refine ⟨⟨fun i s _ found => ?_, fun _ _ found => found, Nat.le_refl _⟩, ?_, rfl, rfl, rfl, rfl, last,
      rfl⟩
    · rw [← Array.getElem?_toList] at found
      simpa using all i s found
    · simpa [Draft.size] using length

theorem lastTerminal?_eq_some {states : Array State} {n : Nat} (size : states.size = n + 1)
    (last : states[n]? = some .terminal) : lastTerminal? states = some ⟨n⟩ := by
  have back : states.back? = some .terminal := by
    rw [Array.back?, size]
    exact last
  obtain ⟨front, rfl⟩ := Array.back?_eq_some_iff.1 back
  simp only [Array.size_push, Nat.add_right_cancel_iff] at size
  simp [lastTerminal?, List.zipIdx_append, State.isTerminal, size]

theorem Finishes.ends {d : Draft} {start terminal : StateId} {names : GroupNames} {g : Graph}
    (h : d.Finishes start names g) (last : d.size = terminal.val + 1)
    (state : d.states[terminal.val]? = some .terminal) :
    g.terminal = terminal ∧ g.state? terminal = some .terminal := by
  have found : g.state? terminal = some .terminal := h.holds.state (Nat.zero_le _) state rfl
  have ends := lastTerminal?_eq_some (h.size.trans last) found
  rw [h.terminal, Option.some.injEq] at ends
  exact ⟨ends, found⟩

theorem size_of_addArrow {d d' : Draft} {source target : StateId} {label : Label}
    (h : d.addArrow source label target = .ok d') : d'.size = d.size := by
  obtain ⟨_, _, _, _, puts⟩ := puts_of_addArrow h
  exact puts.size

end Draft

namespace Assembly

structure Begins (a : Assembly) : Prop where
  outer : a.outer = []
  tail : a.frame.tail = a.frame.first
  first : a.frame.first.val = 0
  last : a.frame.last.val = 1
  size : a.draft.size = 2
  opening : a.draft.states[a.frame.first.val]? = some (.fanout #[])
  closing : a.draft.states[a.frame.last.val]? = some (.fanout #[])

theorem begins_of_start {stateLimit : Option Nat} {a : Assembly} (h : start stateLimit = .ok a) :
    a.Begins := by
  simp only [start, Except.bind_eq_ok, refuse_eq_ok, Prod.exists] at h
  obtain ⟨first, d₁, pushed, last, d₂, pushed', ⟨⟩⟩ := h
  obtain ⟨adds, _⟩ := Draft.adds_of_push pushed
  obtain ⟨adds', _⟩ := Draft.adds_of_push pushed'
  have index : first.val = 0 := adds.index
  have size : d₁.size = 1 := adds.size
  refine ⟨rfl, rfl, index, adds'.index.trans size, adds'.size.trans (by rw [size]), ?_, adds'.state⟩
  rw [adds'.kept.states _ (by simp only; omega) not_false, adds.state]

theorem finish_eq_ok {a : Assembly} {names : GroupNames} {g : Graph} (h : a.finish names = .ok g) :
    a.outer = [] ∧ ∃ terminal d₁ d₂ d₃, a.draft.push .terminal = .ok (terminal, d₁) ∧
      d₁.addArrow a.frame.tail .empty a.frame.last = .ok d₂ ∧
      d₂.addArrow a.frame.last .empty terminal = .ok d₃ ∧ d₃.Finishes a.frame.first names g := by
  unfold finish at h
  split at h
  · cases h
  · rename_i balanced
    simp only [Except.bind_eq_ok, refuse_eq_ok, trust_eq_ok, Prod.exists] at h
    obtain ⟨terminal, d₁, pushed, d₂, arrow, d₃, arrow', finished⟩ := h
    exact ⟨by simpa using balanced, terminal, d₁, d₂, d₃, pushed, arrow, arrow',
      Draft.finishes_of_finish finished⟩

/-- The whole pattern is joined between the first two states. -/
theorem wired_of_alternates {ps : List Piece} {t : Tree} {a a' : Assembly} {names : GroupNames}
    {g : Graph} (alternates : Alternates ps t) (begins : a.Begins) (added : ps.foldlM add a = .ok a')
    (finished : a'.finish names = .ok g) :
    g.names = names ∧ g.state? g.terminal = some .terminal ∧
      Wired g 0 [.empty g.start] t (.empty g.terminal) := by
  obtain ⟨_, terminal, d₁, d₂, d₃, pushed, arrow, arrow', finishes⟩ := finish_eq_ok finished
  obtain ⟨adds, _⟩ := Draft.adds_of_push pushed
  have first := begins.first
  have last := begins.last
  have size := begins.size
  obtain ⟨follows, alternated⟩ := alternates added begins.tail (by omega)
  rw [follows.first] at finishes
  rw [follows.last] at arrow arrow'
  have connects := (Draft.connects_of_addArrow arrow).after adds.kept follows.inside
  have connects' := Draft.connects_of_addArrow arrow'
  -- The arrow out of the last piece could have been added before the terminal.
  obtain ⟨d, arrow'', later⟩ := connects.split
  obtain ⟨arrows, joined, wires⟩ := alternated arrow''
  have grows := joined.kept.size
  have grows' := later.size
  have kept : d.Extends d₃ (· = a.frame.last.val) :=
    (later.mono fun _ never => never.elim).trans connects'.kept fun _ _ same => same
  obtain ⟨index, ends⟩ : g.terminal = terminal ∧ g.state? terminal = some .terminal := by
    have number := adds.index
    have inside := follows.inside
    have size' := follows.size
    have size₁ := adds.size
    have size₂ := Draft.size_of_addArrow arrow
    have size₃ := Draft.size_of_addArrow arrow'
    refine finishes.ends (by omega) ?_
    rw [connects'.kept.states _ (by omega) (by omega),
      (Draft.connects_of_addArrow arrow).kept.states _ (by omega) (by omega), adds.state]
  rw [finishes.start, index]
  refine ⟨finishes.names, ends, ?_⟩
  refine .relay ?_ (relay_of_connects ?_ connects' finishes.holds (Nat.zero_le _))
  · have found := joined.found begins.opening (DraftState.addArrows?_fanout #[] arrows)
    rw [← kept.states _ (by omega) (by omega)] at found
    obtain ⟨state, finished', choices⟩ := DraftState.finish?_fanout ((#[] : Array Arrow) ++ arrows)
    refine .enter (finishes.holds.state (Nat.zero_le _) found finished') choices ?_
    have wired := wires g ((finishes.holds.mono (Nat.zero_le _)).before kept fun i above same => by
      omega)
    simpa using wired.mono (Nat.zero_le _)
  · rw [later.states _ (by omega) not_false, joined.kept.states _ (by omega) (by omega),
      begins.closing]

theorem balanced_of_finish {ps : List Piece} {a a' : Assembly} {names : GroupNames} {g : Graph}
    (begins : a.Begins) (added : ps.foldlM add a = .ok a') (finished : a'.finish names = .ok g) :
    ps.foldl Piece.depthAfter 0 = 0 := by
  have depth := length_outer_of_foldlM added
  rw [begins.outer, (finish_eq_ok finished).1] at depth
  exact depth.symm

end Assembly

theorem realizes_of_compile {options : Options} {pattern : String} {g : Graph}
    (h : compile options pattern = .ok g) : ∃ t, Denotes options pattern t g.names ∧ g.Realizes t := by
  simp only [compile, Outline.assemble, Except.bind_eq_ok, Assembly.refuse_eq_ok] at h
  obtain ⟨o, outlined, a, begun, a', added, names, ended, finished⟩ := h
  have begins := Assembly.begins_of_start begun
  have balanced := Assembly.balanced_of_finish begins added finished
  obtain ⟨t, laid, denotes⟩ := denotes_of_outline outlined ended balanced
  obtain ⟨_, _, _, spells⟩ := id denotes
  obtain ⟨_, tagsFrom, tagsBelow⟩ := spells.tags GroupNames.coherent_empty
  obtain ⟨rfl, terminal, wired⟩ :=
    Assembly.wired_of_alternates (Assembly.assembles_of_laid laid) begins added finished
  exact ⟨t, denotes, wired, terminal, tagsFrom, tagsBelow⟩

end PatternGraph
