import PatternGraph.Pattern.Assembly
import PatternGraph.Proofs.Graph.Drafting

/-!
The pieces that lay out a tree are put together to a graph that is wired like the tree. Each piece
joins what it adds to the tail before it by one arrow and leaves a new tail, so the invariant is about
what a part looks like once the arrow that leads out of it has been added.
-/
namespace PatternGraph
open Grammar (Kind)

namespace Assembly

theorem refuse_eq_ok {A : Type} {x : Except PatternError A} {a : A} :
    refuse x = .ok a ↔ x = .ok a := Except.mapError_eq_ok

theorem trust_eq_ok {A : Type} {x : Except Misuse A} {a : A} : trust x = .ok a ↔ x = .ok a :=
  Except.mapError_eq_ok

theorem foldlM_single (a a' : Assembly) (p : Piece) :
    [p].foldlM add a = .ok a' ↔ a.add p = .ok a' := by
  rw [List.foldlM_cons, Except.bind_eq_ok]
  constructor
  · rintro ⟨_, added, ⟨⟩⟩
    exact added
  · intro added
    exact ⟨a', added, rfl⟩

/-- A label changes a draft only by the class that it needs. -/
structure Labels (d : Draft) (atom : Atom) (l : Label) (d' : Draft) : Prop where
  states : d'.states = d.states
  traps : d'.trapCount = d.trapCount
  classes : ∀ (i : Nat) set, d.classes[i]? = some set → d'.classes[i]? = some set
  tree : ∀ t, atom.tree? = some t → ∀ g : Graph,
    (∀ (i : Nat) set, d'.classes[i]? = some set → g.classes[i]? = some set) → l.tree? g = some t
  run : ∀ c c' cs, atom = .literal c (c' :: cs) → l = .literal (c :: c' :: cs)

theorem Labels.size {d d' : Draft} {atom : Atom} {l : Label} (h : Labels d atom l d') :
    d'.size = d.size := by
  rw [Draft.size, h.states, Draft.size]

theorem Labels.precedes {d d' : Draft} {atom : Atom} {l : Label} (h : Labels d atom l d') :
    d.Precedes d' where
  size := Nat.le_of_eq h.size.symm
  states i _ _ := by rw [h.states]
  classes := h.classes
  traps := Nat.le_of_eq h.traps.symm

theorem labels_of_label {d d' : Draft} {atom : Atom} {l : Label}
    (h : label d atom = .ok (l, d')) : Labels d atom l d' := by
  cases atom with
  | literal c cs =>
    cases cs with
    | nil =>
      cases h
      exact ⟨rfl, rfl, fun _ _ found => found, fun _ h _ _ => h, by simp⟩
    | cons c' cs =>
      cases h
      refine ⟨rfl, rfl, fun _ _ found => found, fun _ h => (by cases h), ?_⟩
      rintro _ _ _ ⟨⟩
      rfl
  | charClass set =>
    simp only [label, Except.bind_eq_ok, refuse_eq_ok, Prod.exists] at h
    obtain ⟨id, d₁, added, ⟨⟩⟩ := h
    unfold Draft.addClass at added
    split at added
    · cases added
    · rename_i index
      obtain ⟨_, rfl⟩ := Index.ofNat?_eq_ok_iff.1 index
      cases added
      refine ⟨rfl, rfl, fun i set found => ?_, ?_, by simp⟩
      · obtain ⟨inside, same⟩ := Array.getElem?_eq_some_iff.1 found
        rw [Array.getElem?_push_lt inside, same]
      · rintro _ ⟨⟩ g classes
        have found := classes d.classes.size set Array.getElem?_push_size
        rw [Label.tree?, Graph.class?, found]
        rfl
  | any =>
    cases h
    exact ⟨rfl, rfl, fun _ _ found => found, fun _ h _ _ => h, by simp⟩
  | backref tag =>
    cases h
    exact ⟨rfl, rfl, fun _ _ found => found, fun _ h _ _ => h, by simp⟩

structure Follows (a a' : Assembly) : Prop where
  frame : a'.frame = { a.frame with tail := a'.frame.tail }
  outer : a'.outer = a.outer
  inside : a'.frame.tail.val < a'.draft.size
  size : a.draft.size ≤ a'.draft.size
  traps : a.draft.trapCount ≤ a'.draft.trapCount

theorem Follows.first {a a' : Assembly} (h : Follows a a') : a'.frame.first = a.frame.first :=
  (congrArg Frame.first h.frame).trans rfl

theorem Follows.last {a a' : Assembly} (h : Follows a a') : a'.frame.last = a.frame.last :=
  (congrArg Frame.last h.frame).trans rfl

theorem Follows.trap {a a' : Assembly} (h : Follows a a') : a'.frame.trap = a.frame.trap :=
  (congrArg Frame.trap h.frame).trans rfl

theorem Follows.trans {a a₁ a₂ : Assembly} (h : Follows a a₁) (h' : Follows a₁ a₂) :
    Follows a a₂ where
  frame := by rw [h'.frame, h.frame]
  outer := h'.outer.trans h.outer
  inside := h'.inside
  size := Nat.le_trans h.size h'.size
  traps := Nat.le_trans h.traps h'.traps

/-- The pieces join a part to the tail. Once an arrow has been added to the new tail, the old tail has
one arrow more, and from there on the graph is wired like the tree. -/
def Joins (ps : List Piece) (t : Tree) : Prop :=
  ∀ {a a' : Assembly}, ps.foldlM add a = .ok a' → a.frame.tail.val < a.draft.size →
    Follows a a' ∧ ∀ {label target d}, a'.draft.addArrow a'.frame.tail label target = .ok d →
      ∃ arrow, a.draft.Connects a.frame.tail [arrow] d ∧ ∀ g : Graph, g.Holds d a.draft.size →
        Wired g a.draft.trapCount [arrow] t ⟨label, target⟩

theorem joins_nil : Joins [] .empty := by
  intro a a' added inside
  cases added
  exact ⟨⟨rfl, rfl, inside, Nat.le_refl _, Nat.le_refl _⟩, fun arrow =>
    ⟨_, Draft.connects_of_addArrow arrow, fun g _ => .empty _⟩⟩

theorem Joins.append {ps ps' : List Piece} {t t' : Tree} (first : Joins ps t)
    (second : Joins ps' t') : Joins (ps ++ ps') (.cat t t') := by
  intro a a' added inside
  rw [List.foldlM_append, Except.bind_eq_ok] at added
  obtain ⟨a₁, added, added'⟩ := added
  obtain ⟨follows, joined⟩ := first added inside
  obtain ⟨follows', joined'⟩ := second added' follows.inside
  refine ⟨follows.trans follows', fun arrow => ?_⟩
  -- The arrow that the second part begins with is the one that leads out of the first.
  obtain ⟨between, connects', wires'⟩ := joined' arrow
  obtain ⟨d₁, arrow₁, later⟩ := connects'.split
  obtain ⟨b, connects, wires⟩ := joined arrow₁
  refine ⟨b, connects.extends later fun _ _ h => h, fun g holds => ?_⟩
  exact .cat (wires g (holds.before later fun _ _ h => h))
    ((wires' g (holds.mono follows.size)).mono follows.traps)

theorem relay_of_connects {d d' : Draft} {tail : StateId} {out : Arrow} {g : Graph} {low : Nat}
    (state : d.states[tail.val]? = some (.fanout #[])) (connects : d.Connects tail [out] d')
    (holds : g.Holds d' low) (above : low ≤ tail.val) : g.state? tail = some (.relay out) :=
  holds.state above (connects.found state (DraftState.addArrows?_fanout #[] [out])) rfl

theorem joined_of_addAtom {a a' : Assembly} {atom : Atom} (h : a.addAtom atom = .ok a')
    (inside : a.frame.tail.val < a.draft.size) :
    Follows a a' ∧ ∃ l : Label, (∀ c c' cs, atom = .literal c (c' :: cs) →
        l = .literal (c :: c' :: cs)) ∧
      ∀ {label target d}, a'.draft.addArrow a'.frame.tail label target = .ok d →
        a.draft.Connects a.frame.tail [⟨l, a'.frame.tail⟩] d ∧
        ∀ g : Graph, g.Holds d a.draft.size →
          g.state? a'.frame.tail = some (.relay ⟨label, target⟩) ∧
          ∀ t, atom.tree? = some t → l.tree? g = some t := by
  simp only [addAtom, Except.bind_eq_ok, refuse_eq_ok, trust_eq_ok, Prod.exists] at h
  obtain ⟨l, d₁, labelled, next, d₂, pushed, d₃, arrow, ⟨⟩⟩ := h
  have labels := labels_of_label labelled
  obtain ⟨adds, _⟩ := Draft.adds_of_push pushed
  have connects := Draft.connects_of_addArrow arrow
  have before : a.draft.Precedes d₂ := labels.precedes.trans adds.kept
  have index : next.val = a.draft.size := adds.index.trans labels.size
  have size := adds.size
  rw [labels.size] at size
  have grows := connects.kept.size
  have state : d₃.states[next.val]? = some (.fanout #[]) := by
    rw [connects.kept.states _ (by omega) (by omega), adds.state]
  refine ⟨⟨rfl, rfl, ?_, ?_, ?_⟩, l, labels.run, fun arrow' => ?_⟩
  · simp only [withTail]
    omega
  · exact Nat.le_trans before.size grows
  · exact Nat.le_trans before.traps connects.kept.traps
  · have connects' := Draft.connects_of_addArrow arrow'
    refine ⟨(connects.after before inside).extends connects'.kept
        fun i below (same : i = next.val) => by omega,
      fun g holds => ⟨relay_of_connects state connects' holds (Nat.le_of_eq index.symm),
        fun t tree => labels.tree t tree g fun i set found => ?_⟩⟩
    exact holds.classes i set (connects'.kept.classes i set
      (connects.kept.classes i set (adds.kept.classes i set found)))

theorem joins_atom {atom : Atom} {t : Tree} (tree : atom.tree? = some t) :
    Joins [.atom atom none] t := by
  intro a a' added inside
  rw [foldlM_single] at added
  obtain ⟨follows, l, _, joined⟩ := joined_of_addAtom added inside
  refine ⟨follows, fun arrow => ?_⟩
  obtain ⟨connects, known⟩ := joined arrow
  refine ⟨_, connects, fun g holds => ?_⟩
  obtain ⟨relay, labelled⟩ := known g holds
  exact .relay (.label (labelled t tree)) relay

theorem Joins.literal {c : Char} {cs : List Char} {ps : List Piece} {t : Tree} (rest : Joins ps t) :
    Joins (.atom (.literal c cs) none :: ps) (.chars (c :: cs) t) := by
  cases cs with
  | nil => exact Joins.append (joins_atom rfl) rest
  | cons c' cs =>
    intro a a' added inside
    rw [List.foldlM_cons, Except.bind_eq_ok] at added
    obtain ⟨a₁, added, added'⟩ := added
    obtain ⟨follows, l, run, joined⟩ := joined_of_addAtom added inside
    obtain ⟨follows', joined'⟩ := rest added' follows.inside
    obtain rfl := run c c' cs rfl
    refine ⟨follows.trans follows', fun arrow => ?_⟩
    obtain ⟨between, connects', wires'⟩ := joined' arrow
    obtain ⟨d₁, arrow₁, later⟩ := connects'.split
    obtain ⟨connects, known⟩ := joined arrow₁
    refine ⟨_, connects.extends later fun _ _ h => h, fun g holds => ?_⟩
    have relay := (known g (holds.before later fun _ _ h => h)).1
    exact .literal (.enter relay rfl ((wires' g (holds.mono follows.size)).mono follows.traps))

structure Trapped (g : Graph) (trap : StateId) (k : Nat) (r : Repetition) (body : Arrow)
    (out : Arrow) : Prop where
  inside : k < g.trapCount
  leave : ∃ after : StateId, g.state? trap = some (.trap ⟨k⟩ r body (.empty after)) ∧
    g.state? after = some (.relay out)

theorem trapped_of_puts {d d' d'' : Draft} {trap after : StateId} {k low : Nat} {r : Repetition}
    {body out : Arrow} {g : Graph}
    (puts : d.Puts trap.val (.trap ⟨k⟩ (some r) (some body) (some (.empty after))) d')
    (free : d.states[after.val]? = some (.fanout #[])) (apart : trap.val ≠ after.val)
    (inside : trap.val < d.size) (traps : k < d.trapCount) (connects : d'.Connects after [out] d'')
    (holds : g.Holds d'' low) (above : low ≤ trap.val) (above' : low ≤ after.val) :
    Trapped g trap k r body out := by
  refine ⟨?_, after, ?_, ?_⟩
  · rw [← puts.traps] at traps
    exact Nat.lt_of_lt_of_le (Nat.lt_of_lt_of_le traps connects.kept.traps) holds.traps
  · have whole := connects.kept.states trap.val (by rwa [puts.size]) apart
    rw [puts.states, if_pos rfl] at whole
    exact holds.state above whole rfl
  · refine relay_of_connects ?_ connects holds above'
    rw [puts.states, if_neg (Ne.symm apart), free]

theorem wired_loop {g : Graph} {trap : StateId} {k : Nat} {r : Repetition} {b : Bounds}
    {round out : Arrow} {body : Tree} (trapped : Trapped g trap k r round out) (counts : r.Counts b)
    (inner : Wired g (k + 1) [round] body (.empty trap)) :
    Wired g k [.empty trap] (.loop b body) out := by
  obtain ⟨after, state, relay⟩ := trapped.leave
  exact .relay (.loop state (Nat.le_refl k) trapped.inside counts inner) relay

theorem joins_loop {atom : Atom} {t : Tree} {r : Repetition} {b : Bounds}
    (tree : atom.tree? = some t) (counts : r.Counts b) :
    Joins [.atom atom (some r)] (.loop b t) := by
  intro a a' added inside
  rw [foldlM_single] at added
  simp only [add, addLoop, Except.bind_eq_ok, refuse_eq_ok, trust_eq_ok, Prod.exists] at added
  obtain ⟨l, d₁, labelled, trap, d₂, trapped, after, d₃, pushed, d₄, arrow, d₅, body, d₆, leave, d₇,
    repeats, ⟨⟩⟩ := added
  have labels := labels_of_label labelled
  obtain ⟨adds, traps⟩ := Draft.adds_of_addTrap trapped
  obtain ⟨adds', _⟩ := Draft.adds_of_push pushed
  have connects := Draft.connects_of_addArrow arrow
  have index := adds.index
  have index' := adds'.index
  have size := adds.size
  have size' := adds'.size
  have grows := connects.kept.size
  rw [labels.size] at index size
  have before : a.draft.Precedes d₃ := (labels.precedes.trans adds.kept).trans adds'.kept
  have trap₄ : d₄.states[trap.val]? = some (.trap ⟨a.draft.trapCount⟩ none none none) := by
    rw [connects.kept.states _ (by omega) (by omega), adds'.kept.states _ (by omega) not_false,
      adds.state, labels.traps]
  have bodied := Draft.puts_of_setTrapBody body trap₄
  have puts := Draft.puts_of_complete leave repeats (by rw [bodied.states, if_pos rfl])
  have after₅ : d₅.states[after.val]? = some (.fanout #[]) := by
    rw [bodied.states, if_neg (by omega), connects.kept.states _ (by omega) (by omega), adds'.state]
  have size₅ := bodied.size
  have size₇ := puts.size
  refine ⟨⟨rfl, rfl, ?_, ?_, ?_⟩, fun arrow' => ?_⟩
  · simp only [withTail]
    omega
  · simp only [withTail, size₇, size₅]
    exact Nat.le_trans before.size grows
  · simp only [withTail, puts.traps, bodied.traps]
    exact Nat.le_trans before.traps connects.kept.traps
  · have connects' : d₇.Connects after [_] _ := Draft.connects_of_addArrow arrow'
    have joined := ((connects.after before inside).extends (bodied.again puts).extends
      fun i below (same : i = trap.val) => by omega).extends connects'.kept
      fun i below (same : i = after.val) => by omega
    refine ⟨_, joined, fun g holds => ?_⟩
    have round : Wired g (a.draft.trapCount + 1) [⟨l, trap⟩] t (.empty trap) := by
      refine .label (labels.tree t tree g fun i set found => ?_)
      refine holds.classes i set (connects'.kept.classes i set ?_)
      rw [puts.classes, bodied.classes]
      exact connects.kept.classes i set (adds'.kept.classes i set (adds.kept.classes i set found))
    have more : a.draft.trapCount < d₅.trapCount := by
      have := labels.traps
      have := adds'.kept.traps
      have := connects.kept.traps
      have := bodied.traps
      omega
    exact wired_loop (trapped_of_puts puts after₅ (by omega) (by omega) more connects' holds
      (by omega) (by omega)) counts round

/-- The pieces join alternatives to the state where they begin. Once the last of them has been led to
the state where they end, all of them begin with the arrows that were added. -/
def Alternates (ps : List Piece) (t : Tree) : Prop :=
  ∀ {a a' : Assembly}, ps.foldlM add a = .ok a' → a.frame.tail = a.frame.first →
    a.frame.first.val < a.draft.size →
    Follows a a' ∧ ∀ {d}, a'.draft.addArrow a'.frame.tail .empty a.frame.last = .ok d →
      ∃ arrows, a.draft.Connects a.frame.first arrows d ∧ ∀ g : Graph, g.Holds d a.draft.size →
        Wired g a.draft.trapCount arrows t (.empty a.frame.last)

theorem Joins.alternates {ps : List Piece} {t : Tree} (h : Joins ps t) : Alternates ps t := by
  intro a a' added begins inside
  rw [← begins] at inside ⊢
  obtain ⟨follows, joined⟩ := h added inside
  refine ⟨follows, fun arrow => ?_⟩
  obtain ⟨b, connects, wires⟩ := joined arrow
  exact ⟨[b], connects, wires⟩

theorem Joins.either {ps ps' : List Piece} {t t' : Tree} (first : Joins ps t)
    (second : Alternates ps' t') : Alternates (ps ++ .alternative :: ps') (.alt t t') := by
  intro a a' added begins inside
  rw [List.foldlM_append, Except.bind_eq_ok] at added
  obtain ⟨a₁, added, added'⟩ := added
  rw [List.foldlM_cons, Except.bind_eq_ok] at added'
  obtain ⟨a₂, ends, added'⟩ := added'
  simp only [add, addAlternative, Except.bind_eq_ok, trust_eq_ok] at ends
  obtain ⟨d₁, arrow, ⟨⟩⟩ := ends
  -- The first alternative is led to the end before the others are begun.
  rw [← begins] at inside
  obtain ⟨follows, joined⟩ := first added inside
  obtain ⟨b, connects, wires⟩ := joined arrow
  rw [begins] at inside connects
  have size := connects.kept.size
  obtain ⟨follows', alternated⟩ := second added' rfl (by
    simp only [withTail, follows.first]
    omega)
  simp only [withTail, follows.first, follows.last] at alternated
  rw [follows.last] at wires
  refine ⟨⟨?_, follows'.outer.trans follows.outer, follows'.inside,
    Nat.le_trans size follows'.size, Nat.le_trans connects.kept.traps follows'.traps⟩,
    fun arrow' => ?_⟩
  · rw [follows'.frame]
    simp only [withTail]
    rw [follows.frame]
  · obtain ⟨arrows, connects', wires'⟩ := alternated arrow'
    refine ⟨b :: arrows, connects.trans connects', fun g holds => ?_⟩
    refine .alt (wires g (holds.before connects'.kept fun i above (same : i = _) => by omega)) ?_
    exact (wires' g (holds.mono size)).mono connects.kept.traps

/-- A group has been opened: the tail leads to `entry`, and the alternatives of the group begin and
end at two new states. -/
structure Opened (a : Assembly) (tag : Option TagId) (entry : StateId) (a' : Assembly) : Prop where
  outer : a'.outer = a.frame :: a.outer
  begins : a'.frame.tail = a'.frame.first
  first : a'.frame.first.val = a.draft.size
  last : a'.frame.last.val = a.draft.size + 1
  size : a.draft.size + 2 ≤ a'.draft.size
  opening : a'.draft.states[a'.frame.first.val]? = some (.tagOpen tag #[])
  closing : a'.draft.states[a'.frame.last.val]? = some (.tagClose tag #[])
  connects : a.draft.Connects a.frame.tail [.empty entry] a'.draft

theorem opened_of_openGroup {a a' : Assembly} {tag : Option TagId}
    (h : a.openGroup tag false = .ok a') (inside : a.frame.tail.val < a.draft.size) :
    Opened a tag a'.frame.first a' ∧ a'.frame.trap = none ∧ a.draft.trapCount ≤ a'.draft.trapCount := by
  simp only [openGroup, Except.bind_eq_ok, refuse_eq_ok, trust_eq_ok, Prod.exists, Bool.false_eq_true,
    if_false] at h
  obtain ⟨first, d₁, pushed, last, d₂, pushed', d₃, arrow, ⟨⟩⟩ := h
  obtain ⟨adds, _⟩ := Draft.adds_of_push pushed
  obtain ⟨adds', _⟩ := Draft.adds_of_push pushed'
  have connects := Draft.connects_of_addArrow arrow
  have index := adds.index
  have index' := adds'.index
  have size := adds.size
  have size' := adds'.size
  have grows := connects.kept.size
  have before := adds.kept.trans adds'.kept
  refine ⟨⟨rfl, rfl, index, index'.trans size, ?_, ?_, ?_, connects.after before inside⟩, rfl,
    Nat.le_trans before.traps connects.kept.traps⟩
  · simp only
    omega
  · simp only [connects.kept.states first.val (by omega) (by omega),
      adds'.kept.states first.val (by omega) not_false, adds.state]
  · simp only [connects.kept.states last.val (by omega) (by omega), adds'.state]

structure OpenedLoop (a : Assembly) (tag : Option TagId) (trap : StateId) (a' : Assembly) : Prop
    extends Opened a tag trap a' where
  trapped : a'.frame.trap = some trap
  index : trap.val = a.draft.size + 2
  room : a.draft.size + 3 ≤ a'.draft.size
  traps : a'.draft.trapCount = a.draft.trapCount + 1
  body : a'.draft.states[trap.val]? =
    some (.trap ⟨a.draft.trapCount⟩ none (some (.empty a'.frame.first)) none)

theorem opened_of_openLoop {a a' : Assembly} {tag : Option TagId}
    (h : a.openGroup tag true = .ok a') (inside : a.frame.tail.val < a.draft.size) :
    ∃ trap : StateId, OpenedLoop a tag trap a' := by
  simp only [openGroup, Except.bind_eq_ok, refuse_eq_ok, trust_eq_ok, Prod.exists, if_true] at h
  obtain ⟨first, d₁, pushed, last, d₂, pushed', trap, d₃, trapped, d₄, arrow, d₅, body, ⟨⟩⟩ := h
  obtain ⟨adds, traps₁⟩ := Draft.adds_of_push pushed
  obtain ⟨adds', traps₂⟩ := Draft.adds_of_push pushed'
  obtain ⟨adds'', traps₃⟩ := Draft.adds_of_addTrap trapped
  obtain ⟨_, _, _, _, arrowPuts⟩ := Draft.puts_of_addArrow arrow
  have connects := Draft.connects_of_addArrow arrow
  have index := adds.index
  have index' := adds'.index
  have index'' := adds''.index
  have size := adds.size
  have size' := adds'.size
  have size'' := adds''.size
  have grows := connects.kept.size
  have before := (adds.kept.trans adds'.kept).trans adds''.kept
  have trap₄ : d₄.states[trap.val]? = some (.trap ⟨a.draft.trapCount⟩ none none none) := by
    rw [connects.kept.states _ (by omega) (by omega), adds''.state, traps₂, traps₁]
  have puts := Draft.puts_of_setTrapBody body trap₄
  have size₅ := puts.size
  refine ⟨trap, ⟨rfl, rfl, index, index'.trans size, ?_, ?_, ?_, ?_⟩, rfl, ?_, ?_, ?_, ?_⟩
  · simp only
    omega
  · simp only [puts.states, if_neg (show first.val ≠ trap.val by omega),
      connects.kept.states first.val (by omega) (by omega),
      adds''.kept.states first.val (by omega) not_false,
      adds'.kept.states first.val (by omega) not_false, adds.state]
  · simp only [puts.states, if_neg (show last.val ≠ trap.val by omega),
      connects.kept.states last.val (by omega) (by omega),
      adds''.kept.states last.val (by omega) not_false, adds'.state]
  · exact (connects.after before inside).extends puts.extends
      fun i below (same : i = trap.val) => by omega
  · omega
  · simp only
    omega
  · simp only [puts.traps, arrowPuts.traps, traps₃, traps₂, traps₁]
  · simp only [puts.states, if_true]
    rfl

structure Enclosed (a₁ : Assembly) (tag : Option TagId) (t : Tree) (d : Draft) : Prop where
  kept : a₁.draft.Extends d (· = a₁.frame.first.val)
  wired : ∃ arrows : List Arrow,
    d.states[a₁.frame.first.val]? = some (.tagOpen tag arrows.toArray) ∧
    ∀ g : Graph, g.Holds d a₁.draft.size →
      Wired g a₁.draft.trapCount arrows t (.empty a₁.frame.last)

theorem Enclosed.closing {a a₁ : Assembly} {tag : Option TagId} {entry : StateId} {t : Tree}
    {d : Draft} (enclosed : Enclosed a₁ tag t d) (opened : Opened a tag entry a₁) :
    d.states[a₁.frame.last.val]? = some (.tagClose tag #[]) := by
  have first := opened.first
  have last := opened.last
  have size := opened.size
  rw [enclosed.kept.states _ (by omega) (by omega), opened.closing]

/-- Wherever a closed group leads on, it is wired like a group. -/
theorem Enclosed.group {a a₁ : Assembly} {tag : Option TagId} {entry : StateId} {t : Tree}
    {d d' : Draft} {but : Nat → Prop} {g : Graph} {out : Arrow} (enclosed : Enclosed a₁ tag t d)
    (opened : Opened a tag entry a₁) (later : d.Extends d' but)
    (free : ∀ i, but i → i ≠ a₁.frame.first.val ∧ i < a₁.draft.size)
    (holds : g.Holds d' a.draft.size)
    (closing : d'.states[a₁.frame.last.val]? = some (.tagClose tag #[out])) :
    Wired g a₁.draft.trapCount [.empty a₁.frame.first] (.group tag t) out := by
  obtain ⟨arrows, opening, wires⟩ := enclosed.wired
  have size := opened.size
  have inside := (Array.getElem?_eq_some_iff.1 opening).1
  rw [← later.states _ inside fun changed => (free _ changed).1 rfl] at opening
  refine .group (holds.state (Nat.le_of_eq opened.first.symm) opening rfl) (wires g ?_)
    (holds.state (by rw [opened.last]; omega) closing rfl)
  refine (holds.mono (by omega)).before later fun i above changed => ?_
  have := (free i changed).2
  omega

theorem enclosed_of_alternates {a a₁ a₂ : Assembly} {tag : Option TagId} {entry : StateId}
    {ps : List Piece} {t : Tree} (inner : Alternates ps t) (opened : Opened a tag entry a₁)
    (added : ps.foldlM add a₁ = .ok a₂) :
    Follows a₁ a₂ ∧ ∀ {d}, a₂.draft.addArrow a₂.frame.tail .empty a₁.frame.last = .ok d →
      Enclosed a₁ tag t d := by
  have size := opened.size
  have first := opened.first
  obtain ⟨follows, alternated⟩ := inner added opened.begins (by omega)
  refine ⟨follows, fun arrow => ?_⟩
  obtain ⟨arrows, connects, wires⟩ := alternated arrow
  refine ⟨connects.kept, arrows, ?_, wires⟩
  rw [connects.found opened.opening (DraftState.addArrows?_tagOpen tag #[] arrows)]
  simp

theorem joins_group {tag : Option TagId} {ps : List Piece} {t : Tree} (inner : Alternates ps t) :
    Joins (.openGroup tag false :: (ps ++ [.closeGroup none])) (.group tag t) := by
  intro a a' added inside
  rw [List.foldlM_cons, Except.bind_eq_ok] at added
  obtain ⟨a₁, opens, added⟩ := added
  rw [List.foldlM_append, Except.bind_eq_ok] at added
  obtain ⟨a₂, added, closes⟩ := added
  rw [foldlM_single] at closes
  obtain ⟨opened, untrapped, traps⟩ := opened_of_openGroup opens inside
  obtain ⟨follows, encloses⟩ := enclosed_of_alternates inner opened added
  simp only [add, closeGroup, follows.outer, opened.outer, Except.bind_eq_ok, trust_eq_ok, follows.trap,
    untrapped, follows.last] at closes
  obtain ⟨d, arrow, ⟨⟩⟩ := closes
  have enclosed := encloses arrow
  have size := opened.size
  have first := opened.first
  have last := opened.last
  have grows := enclosed.kept.size
  refine ⟨⟨rfl, rfl, ?_, ?_, Nat.le_trans traps enclosed.kept.traps⟩,
    fun {label target d'} arrow' => ?_⟩
  · simp only
    omega
  · simp only
    omega
  · have connects' : d.Connects a₁.frame.last [⟨label, target⟩] d' :=
      Draft.connects_of_addArrow arrow'
    refine ⟨_, (opened.connects.extends enclosed.kept fun i below (same : i = _) => by omega).extends
      connects'.kept fun i below (same : i = _) => by omega, fun g holds => ?_⟩
    refine (enclosed.group opened connects'.kept (fun i (same : i = _) => by omega) holds ?_).mono
      traps
    exact connects'.found (enclosed.closing opened) rfl

theorem joins_loopedGroup {tag : Option TagId} {ps : List Piece} {t : Tree} {r : Repetition}
    {b : Bounds} (inner : Alternates ps t) (counts : r.Counts b) :
    Joins (.openGroup tag true :: (ps ++ [.closeGroup (some r)])) (.loop b (.group tag t)) := by
  intro a a' added inside
  rw [List.foldlM_cons, Except.bind_eq_ok] at added
  obtain ⟨a₁, opens, added⟩ := added
  rw [List.foldlM_append, Except.bind_eq_ok] at added
  obtain ⟨a₂, added, closes⟩ := added
  rw [foldlM_single] at closes
  obtain ⟨trap, opened⟩ := opened_of_openLoop opens inside
  obtain ⟨follows, encloses⟩ := enclosed_of_alternates inner opened.toOpened added
  simp only [add, closeGroup, follows.outer, opened.outer, Except.bind_eq_ok, trust_eq_ok,
    refuse_eq_ok, follows.trap, opened.trapped, follows.last, Prod.exists] at closes
  obtain ⟨d, arrow, after, d₁, pushed, d₂, back, d₃, leave, d₄, repeats, ⟨⟩⟩ := closes
  have enclosed := encloses arrow
  obtain ⟨adds, _⟩ := Draft.adds_of_push pushed
  have connects := Draft.connects_of_addArrow back
  have room := opened.room
  have index := opened.index
  have traps := opened.traps
  have first := opened.first
  have last := opened.last
  have grows := enclosed.kept.size
  have index' := adds.index
  have size' := adds.size
  have grows' := connects.kept.size
  have trap₂ : d₂.states[trap.val]? =
      some (.trap ⟨a.draft.trapCount⟩ none (some (.empty a₁.frame.first)) none) := by
    rw [connects.kept.states _ (by omega) (by omega), adds.kept.states _ (by omega) not_false,
      enclosed.kept.states _ (by omega) (by omega), opened.body]
  have puts := Draft.puts_of_complete leave repeats trap₂
  have size₄ := puts.size
  have after₂ : d₂.states[after.val]? = some (.fanout #[]) := by
    rw [connects.kept.states _ (by omega) (by omega), adds.state]
  have more : a.draft.trapCount < d₂.trapCount := by
    have := enclosed.kept.traps
    have := adds.kept.traps
    have := connects.kept.traps
    omega
  refine ⟨⟨rfl, rfl, ?_, ?_, ?_⟩, fun {label target d'} arrow' => ?_⟩
  · simp only
    omega
  · simp only
    omega
  · simp only [puts.traps]
    exact Nat.le_of_lt more
  · have connects' : d₄.Connects after [⟨label, target⟩] d' := Draft.connects_of_addArrow arrow'
    -- After the group is closed, only its end and the trap change.
    have later : d.Extends d' fun i => i = a₁.frame.last.val ∨ i = trap.val := by
      have ends : d.Extends d₂ (· = a₁.frame.last.val) :=
        (adds.kept.mono fun _ never => never.elim).trans connects.kept fun _ _ same => same
      have completes : d₂.Extends d' fun i => i = trap.val ∨ i = after.val :=
        (puts.extends.mono fun _ => .inl).trans connects'.kept fun _ _ => .inr
      exact (ends.mono fun _ => .inl).trans completes fun i below changed => by omega
    refine ⟨_, (opened.connects.extends enclosed.kept fun i below (same : i = _) => by omega).extends
      later fun i below changed => by omega, fun g holds => ?_⟩
    have closing : d₂.states[a₁.frame.last.val]? = some (.tagClose tag #[.empty trap]) := by
      refine connects.found (s := .tagClose tag #[]) ?_ rfl
      rw [adds.kept.states _ (by omega) not_false, enclosed.closing opened.toOpened]
    have closing' : d'.states[a₁.frame.last.val]? = some (.tagClose tag #[.empty trap]) := by
      rw [connects'.kept.states _ (by omega) (by omega), puts.states, if_neg (by omega), closing]
    have inner := enclosed.group opened.toOpened later (fun i changed => by omega) holds closing'
    rw [traps] at inner
    exact wired_loop (trapped_of_puts puts after₂ (by omega) (by omega) more connects' holds (by omega)
      (by omega)) counts inner

def Assembles : Kind → List Piece → Tree → Prop
  | .item, ps, t | .sequence, ps, t => Joins ps t
  | .alternatives, ps, t => Alternates ps t

theorem assembles_of_laid {kind : Kind} {ps : List Piece} {t : Tree} (h : Laid kind ps t) :
    Assembles kind ps t := by
  induction h with
  | atom tree => exact joins_atom tree
  | loop tree counts => exact joins_loop tree counts
  | group _ inner => exact joins_group inner
  | loopedGroup _ counts inner => exact joins_loopedGroup inner counts
  | done => exact joins_nil
  | item _ _ first second => exact Joins.append first second
  | literal _ rest => exact Joins.literal rest
  | only _ ih => exact Joins.alternates ih
  | either _ _ first second => exact Joins.either first second

theorem length_outer_of_add {a a' : Assembly} {p : Piece} (h : a.add p = .ok a') :
    a'.outer.length = Piece.depthAfter a.outer.length p := by
  cases p with
  | atom atom r =>
    cases r with
    | none =>
      simp only [add, addAtom, Except.bind_eq_ok] at h
      obtain ⟨_, _, _, _, _, _, ⟨⟩⟩ := h
      rfl
    | some r =>
      simp only [add, addLoop, Except.bind_eq_ok] at h
      obtain ⟨_, _, _, _, _, _, _, _, _, _, _, _, _, _, ⟨⟩⟩ := h
      rfl
  | openGroup tag looped =>
    cases looped with
    | false =>
      simp only [add, openGroup, Except.bind_eq_ok, Bool.false_eq_true, if_false] at h
      obtain ⟨_, _, _, _, _, _, ⟨⟩⟩ := h
      rfl
    | true =>
      simp only [add, openGroup, Except.bind_eq_ok, if_true] at h
      obtain ⟨_, _, _, _, _, _, _, _, _, _, ⟨⟩⟩ := h
      rfl
  | closeGroup r =>
    change a.closeGroup r = .ok a' at h
    unfold closeGroup at h
    split at h
    · cases h
    · rename_i around outer surrounded
      rw [surrounded]
      simp only [Except.bind_eq_ok] at h
      obtain ⟨_, _, h⟩ := h
      split at h
      · cases h
        rfl
      · simp only [Except.bind_eq_ok] at h
        obtain ⟨_, _, _, _, _, _, _, _, ⟨⟩⟩ := h
        rfl
      · cases h
  | alternative =>
    simp only [add, addAlternative, Except.bind_eq_ok] at h
    obtain ⟨_, _, ⟨⟩⟩ := h
    rfl

theorem length_outer_of_foldlM {ps : List Piece} {a a' : Assembly}
    (h : ps.foldlM add a = .ok a') :
    a'.outer.length = ps.foldl Piece.depthAfter a.outer.length := by
  induction ps generalizing a with
  | nil =>
    cases h
    rfl
  | cons p ps ih =>
    rw [List.foldlM_cons, Except.bind_eq_ok] at h
    obtain ⟨a₁, added, rest⟩ := h
    rw [ih rest, length_outer_of_add added]
    rfl

end Assembly

end PatternGraph
