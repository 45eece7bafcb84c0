import PatternGraph.Proofs.Graph.Lacing
import PatternGraph.Proofs.Graph.Totality

/-!
The shape of compiled graphs. What holds of a partial graph is kept by every piece, so it holds when the
last piece has been added, and then the whole graph is between its start and its only terminal.
-/
namespace PatternGraph

/-- Each index below `count` is borne by one state, and no other index is borne by any. -/
def Numbers {kind : IndexKind} (bears : Index kind → StateId → Prop) (count : Nat) : Prop :=
  (∀ k, k.val < count → ∃! i, bears k i) ∧ ∀ k i, bears k i → k.val < count

def State.labels : State → List Label
  | .trap _ _ body leave => [body.label, leave.label]
  | s => s.arrows.toList.map (·.label)

namespace Graph

def Leads (g : Graph) (i j : StateId) : Prop := ∃ s, g.state? i = some s ∧ j ∈ s.targets

def TrapAt (g : Graph) (k : TrapId) (i : StateId) : Prop :=
  ∃ r body leave, g.state? i = some (.trap k r body leave)

def OpensAt (g : Graph) (tag : TagId) (i : StateId) : Prop :=
  ∃ arrows, g.state? i = some (.tagOpen (some tag) arrows)

def ClosesAt (g : Graph) (tag : TagId) (i : StateId) : Prop :=
  ∃ arrows, g.state? i = some (.tagClose (some tag) arrows)

structure WellFormed (g : Graph) : Prop where
  terminal : ∀ i, g.state? i = some .terminal ↔ i = g.terminal
  last : g.terminal.val + 1 = g.states.size
  /-- Every state lies on a way from the start to the terminal. -/
  between : ∀ i : StateId, i.val < g.states.size →
    Relation.ReflTransGen g.Leads g.start i ∧ Relation.ReflTransGen g.Leads i g.terminal
  traps : Numbers g.TrapAt g.trapCount
  opens : Numbers g.OpensAt g.names.size
  closes : Numbers g.ClosesAt g.names.size
  backrefs : ∀ i s tag, g.state? i = some s → .backref tag ∈ s.labels → tag.val < g.names.size
  classes : ∀ i s id, g.state? i = some s → .charClass id ∈ s.labels → id.val < g.classes.size
  /-- Only at the start and where a group begins there may be a choice. -/
  choices : ∀ i s, g.state? i = some s → 1 < s.arrows.size →
    i = g.start ∨ ∃ tag arrows, s = .tagOpen tag arrows

end Graph

theorem State.targets_draft (s : State) : s.targets = s.draft.arrows.map (·.target) := by
  cases s <;> rfl

theorem State.labels_draft (s : State) : s.labels = s.draft.arrows.map (·.label) := by
  cases s <;> rfl

theorem numbers_of_filterMap {kind : IndexKind} {α : Type} {l : List α} {f : α → Option (Index kind)}
    {count : Nat} (given : l.filterMap f = (List.range count).map Index.mk) :
    Numbers (fun k i => l[i.val]?.bind f = some k) count := by
  have mem (k : Index kind) : k ∈ l.filterMap f ↔ k.val < count := by
    rw [given, List.mem_map]
    constructor
    · rintro ⟨n, small, rfl⟩
      exact List.mem_range.1 small
    · exact fun small => ⟨k.val, List.mem_range.2 small, rfl⟩
  have apart : l.Pairwise fun x y => ∀ k, f x = some k → ∀ k', f y = some k' → k ≠ k' := by
    rw [← List.pairwise_filterMap, given, List.pairwise_map]
    refine List.pairwise_lt_range.imp fun less same => ?_
    exact Nat.ne_of_lt less (congrArg Index.val same)
  have unique {i j : Nat} {k : Index kind} (here : l[i]?.bind f = some k)
      (there : l[j]?.bind f = some k) : ¬ i < j := by
    intro less
    obtain ⟨x, atI, fx⟩ := Option.bind_eq_some_iff.1 here
    obtain ⟨y, atJ, fy⟩ := Option.bind_eq_some_iff.1 there
    obtain ⟨insideI, rfl⟩ := List.getElem?_eq_some_iff.1 atI
    obtain ⟨insideJ, rfl⟩ := List.getElem?_eq_some_iff.1 atJ
    exact List.pairwise_iff_getElem.1 apart i j insideI insideJ less k fx k fy rfl
  constructor
  · intro k small
    obtain ⟨x, member, fx⟩ := List.mem_filterMap.1 ((mem k).2 small)
    obtain ⟨i, inside, rfl⟩ := List.mem_iff_getElem.1 member
    refine ⟨⟨i⟩, by simp [List.getElem?_eq_getElem inside, fx], fun j there => Index.eq_of_val ?_⟩
    have here : l[i]?.bind f = some k := by simp [List.getElem?_eq_getElem inside, fx]
    exact Nat.le_antisymm (Nat.not_lt.1 (unique here there)) (Nat.not_lt.1 (unique there here))
  · intro k i bears
    obtain ⟨x, atI, fx⟩ := Option.bind_eq_some_iff.1 bears
    exact (mem k).1 (List.mem_filterMap.2 ⟨x, List.mem_of_getElem? atI, fx⟩)

namespace Role

def opens? : Role → Option TagId
  | .tagOpen tag => tag
  | .fanout | .tagClose _ | .trap | .terminal => none

def closes? : Role → Option TagId
  | .tagClose tag => tag
  | .fanout | .tagOpen _ | .trap | .terminal => none

end Role

/-- Where there are `tags` tags the piece may come next, and then there are `tags'`. -/
def Piece.Follows (tags tags' : Nat) : Piece → Prop
  | .atom a _ => a.Within tags ∧ tags' = tags
  | .openGroup none _ | .closeGroup _ | .alternative => tags' = tags
  | .openGroup (some tag) _ => tag.val = tags ∧ tags' = tags + 1

namespace Draft
variable {d d' : Draft} {tags tags' : Nat} {new : List Role} {arcs : List (StateId × Arrow)}

/-- Tags are given out in order, and no label refers to what is not there. -/
structure Tagged (d : Draft) (tags : Nat) : Prop where
  opens : d.roles.filterMap Role.opens? = (List.range tags).map Index.mk
  closes : d.roles.filterMap Role.closes? = (List.range tags).map Index.mk
  labels : ∀ i, ∀ a ∈ d.arrowsAt i, a.label.Within d.classes.size tags
  unfinished : .terminal ∉ d.roles

theorem Tagged.labels_grow (h : d.Tagged tags) (grows : d.Grows new arcs d') (le : tags ≤ tags')
    (labels : ∀ arc ∈ arcs, arc.2.label.Within d'.classes.size tags') (i : StateId) (a : Arrow)
    (mem : a ∈ d'.arrowsAt i) : a.label.Within d'.classes.size tags' := by
  obtain old | added := (grows.mem_arrowsAt a).1 mem
  · exact (h.labels i a old).mono grows.classes le
  · exact labels _ added

theorem Tagged.grow (h : d.Tagged tags) (grows : d.Grows new arcs d')
    (bare : ∀ r ∈ new, r = .fanout ∨ r = .trap ∨ r = .tagOpen none ∨ r = .tagClose none)
    (labels : ∀ arc ∈ arcs, arc.2.label.Within d'.classes.size tags) : d'.Tagged tags where
  opens := by
    have none : new.filterMap Role.opens? = [] := by
      refine List.filterMap_eq_nil_iff.2 fun r mem => ?_
      obtain rfl | rfl | rfl | rfl := bare r mem <;> rfl
    rw [grows.roles, List.filterMap_append, h.opens, none, List.append_nil]
  closes := by
    have none : new.filterMap Role.closes? = [] := by
      refine List.filterMap_eq_nil_iff.2 fun r mem => ?_
      obtain rfl | rfl | rfl | rfl := bare r mem <;> rfl
    rw [grows.roles, List.filterMap_append, h.closes, none, List.append_nil]
  labels := h.labels_grow grows (Nat.le_refl _) labels
  unfinished mem := by
    rw [grows.roles, List.mem_append] at mem
    obtain old | added := mem
    · exact h.unfinished old
    · simpa using bare _ added

theorem Tagged.group {tag : TagId} {more : List Role} (h : d.Tagged tags) (next : tag.val = tags)
    (grows : d.Grows (.tagOpen (some tag) :: .tagClose (some tag) :: more) arcs d')
    (bare : ∀ r ∈ more, r = .trap)
    (labels : ∀ arc ∈ arcs, arc.2.label = .empty) : d'.Tagged (tags + 1) where
  opens := by
    have none : more.filterMap Role.opens? = [] :=
      List.filterMap_eq_nil_iff.2 fun r mem => by rw [bare r mem]; rfl
    have added : (.tagOpen (some tag) :: .tagClose (some tag) :: more).filterMap Role.opens? = [tag] := by
      rw [List.filterMap_cons_some (f := Role.opens?) rfl, List.filterMap_cons_none rfl, none]
    rw [grows.roles, List.filterMap_append, h.opens, added, List.range_succ, List.map_append,
      List.map_singleton, ← next]
  closes := by
    have none : more.filterMap Role.closes? = [] :=
      List.filterMap_eq_nil_iff.2 fun r mem => by rw [bare r mem]; rfl
    have added : (.tagOpen (some tag) :: .tagClose (some tag) :: more).filterMap Role.closes? = [tag] := by
      rw [List.filterMap_cons_none rfl, List.filterMap_cons_some (f := Role.closes?) rfl, none]
    rw [grows.roles, List.filterMap_append, h.closes, added, List.range_succ, List.map_append,
      List.map_singleton, ← next]
  labels := h.labels_grow grows (Nat.le_succ _) fun arc mem => by rw [labels arc mem]; trivial
  unfinished mem := by
    rw [grows.roles, List.mem_append] at mem
    obtain old | added := mem
    · exact h.unfinished old
    · have terminal : Role.terminal ∈ more := by simpa using added
      cases bare _ terminal

end Draft

namespace Assembly
variable {a a' : Assembly} {p : Piece} {root : StateId} {tags tags' : Nat}

theorem Step.tagged (step : a.Step p a') (follows : p.Follows tags tags')
    (h : a.draft.Tagged tags) : a'.draft.Tagged tags' := by
  cases step with
  | atom _ within grows | loop _ _ within grows =>
    obtain ⟨refers, rfl⟩ := follows
    refine h.grow grows (by simp) ?_
    simpa [Arrow.empty, withTail] using within _ refers
  | @group tag _ _ _ _ _ grows | @loopedGroup tag _ _ _ _ _ _ _ grows =>
    cases tag with
    | none =>
      obtain rfl : tags' = tags := follows
      exact h.grow grows (by simp) (by simp [Arrow.empty])
    | some tag =>
      obtain ⟨next, rfl⟩ := follows
      exact h.group next grows (by simp) (by simp [Arrow.empty])
  | close _ grows | closeLoop _ _ _ grows | alternative grows =>
    obtain rfl : tags' = tags := follows
    exact h.grow grows (by simp) (by simp [Arrow.empty])

theorem Step.size (step : a.Step p a') : a'.draft.size ≤ a.draft.size + cost p := by
  cases step with
  | atom _ _ grows | loop _ _ _ grows | loopedGroup _ _ _ grows | closeLoop _ _ _ grows
  | alternative grows => exact Nat.le_of_eq grows.size
  | group _ _ grows => exact Nat.le_trans (Nat.le_of_eq grows.size) (Nat.le_succ _)
  | close _ grows => exact Nat.le_trans (Nat.le_of_eq grows.size) (Nat.le_succ _)

structure Shaped (a : Assembly) (root : StateId) (tags : Nat) : Prop where
  hangs : a.Hangs
  spread : a.Spread
  laced : a.Laced root
  forked : a.Forked root
  tagged : a.draft.Tagged tags
  whole : a.firsts.getLast? = some root
  room : a.draft.size ≤ Index.limit

theorem Step.room (step : a.Step p a') (h : a.draft.size ≤ Index.limit) :
    a'.draft.size ≤ Index.limit := by
  cases step with
  | atom _ _ grows | loop _ _ _ grows | group _ _ grows | loopedGroup _ _ _ grows | close _ grows
  | closeLoop _ _ _ grows | alternative grows => exact grows.room h

theorem Step.whole (step : a.Step p a') (h : a.firsts.getLast? = some root) :
    a'.firsts.getLast? = some root := by
  cases step with
  | atom | loop | alternative => exact h
  | @group _ first | @loopedGroup _ first =>
    exact (List.getLast?_cons_cons (a := first)).trans h
  | close stack | closeLoop stack =>
    rw [firsts_eq stack] at h
    exact (List.getLast?_cons_cons (a := a.frame.first)).symm.trans h

theorem Shaped.add (h : a.Shaped root tags) (added : a.add p = .ok a')
    (follows : p.Follows tags tags') :
    a'.Shaped root tags' ∧ a'.draft.size ≤ a.draft.size + cost p := by
  obtain ⟨step, hangs⟩ := step_of_add h.hangs added
  exact ⟨⟨hangs, step.spread h.spread, step.laced h.spread h.laced,
    step.forked h.spread h.forked, step.tagged follows h.tagged, step.whole h.whole, step.room h.room⟩,
    step.size⟩

end Assembly

namespace Reading
variable {scope : Scope} {r r' : Reading} {s : Symbol} {p : Piece}

theorem within_of_readAtom {atom : Atom} {rest : List Symbol}
    (h : readAtom scope s r = .ok (atom, rest)) (coherent : r.names.Coherent) :
    atom.Within r.names.size := by
  obtain ⟨t, tree, item⟩ | ⟨c, c', cs, rfl, _⟩ := item_of_readAtom h true
  · have below := (item.tags coherent).2.2
    cases atom with
    | backref tag =>
      cases tree
      exact below
    | literal | charClass | any => trivial
  · trivial

theorem follows_of_pieceAt (h : pieceAt scope s r = .ok (p, r')) (coherent : r.names.Coherent) :
    p.Follows r.names.size r'.names.size := by
  obtain ⟨_, opens⟩ | ⟨_, closes⟩ | ⟨_, rfl, rfl⟩ | atom := pieceAt_cases h
  · obtain ⟨group, rfl, _, header⟩ := header_of_openGroup opens
    obtain ⟨none, same⟩ | ⟨i, tag, index, next⟩ := header.tag
    · rw [none]
      exact same
    · rw [tag]
      exact ⟨index, next.trans (congrArg (· + 1) index)⟩
  · obtain ⟨group, _, declared, closes⟩ := end_of_closeGroup closes
    obtain ⟨repetition, rfl⟩ := closes.piece
    have same := congrArg (·.names.size) declared
    simp only [Declared.size_close] at same
    exact same
  · rfl
  · unfold atomPiece at atom
    split at atom
    · cases atom
    · rename_i read
      split at atom <;> cases atom
      exact ⟨within_of_readAtom read coherent, rfl⟩

end Reading

namespace Assembly
variable {a a' : Assembly} {root : StateId} {tags : Nat}

/-- The pieces that are read spend no more states than their symbols bring. -/
theorem Shaped.run {scope : Scope} {r last : Reading} {ps : List Piece}
    (run : Reading.Run scope r ps last) (inStep : Reading.InStep scope r)
    (coherent : r.names.Coherent) (h : a.Shaped root r.names.size) (added : ps.foldlM Assembly.add a = .ok a') :
    a'.Shaped root last.names.size ∧
      a'.draft.size + last.budget ≤ a.draft.size + r.budget := by
  induction run generalizing a with
  | stay =>
    cases added
    exact ⟨h, Nat.le_refl _⟩
  | @step r s rest p r₁ ps _ front read _ ih =>
    rw [List.foldlM_cons, Except.bind_eq_ok] at added
    obtain ⟨a₁, piece, added⟩ := added
    have inStep₁ := inStep.run (.step front read (.stay r₁))
    have cost := Reading.budget_of_pieceAt front read inStep inStep₁
    have follows : p.Follows r.names.size r₁.names.size :=
      Reading.follows_of_pieceAt (r := { r with rest := rest }) read coherent
    have coherent₁ : r₁.names.Coherent :=
      Reading.coherent_of_pieceAt (r := { r with rest := rest }) read coherent
    obtain ⟨h₁, size⟩ := h.add piece follows
    obtain ⟨h', size'⟩ := ih inStep₁ coherent₁ h₁ added
    exact ⟨h', by omega⟩

theorem shaped_of_start {stateLimit : Option Nat} (begun : start stateLimit = .ok a) :
    a.Shaped a.frame.first 0 ∧ a.draft.size = 2 := by
  have begins := begins_of_start begun
  simp only [start, Except.bind_eq_ok, refuse_eq_ok, Prod.exists] at begun
  obtain ⟨first, d₁, pushed, last, d₂, pushed', ⟨⟩⟩ := begun
  obtain ⟨grows, index⟩ := Draft.grows_of_push pushed rfl
  obtain ⟨grows', index'⟩ := Draft.grows_of_push pushed' rfl
  have grows := grows.trans grows'
  have bare (i : StateId) : d₂.arrowsAt i = [] := by
    rw [grows.arrowsAt_eq (by simp)]
    rfl
  have roles : d₂.roles = [.fanout, .fanout] := grows.roles
  have size : d₂.size = 2 := begins.size
  have index : first.val = 0 := begins.first
  have index' : last.val = 1 := begins.last
  have apart : first ≠ last := fun same => by rw [same] at index; omega
  have two {i : StateId} (inside : i.val < d₂.size) : i = first ∨ i = last := by
    have which : i.val = first.val ∨ i.val = last.val := by omega
    exact which.imp Index.eq_of_val Index.eq_of_val
  have room : d₂.size ≤ Index.limit := grows.room (Nat.zero_le _)
  refine ⟨⟨hangs_of_begins begins rfl, ?_, ?_, ?_, ?_, rfl, room⟩, size⟩
  · refine ⟨?_, ?_, ?_, ?_⟩ <;> simp [firsts, lasts, frames, apart] <;> omega
  · refine ⟨fun i inside free => ?_, fun i inside => ⟨i, ?_, .refl⟩⟩
    · obtain rfl | rfl := two inside
      · exact .refl
      · simp [lasts, frames] at free
    · simpa [lasts, frames] using two inside
  · exact ⟨fun i => .inr (by simp [bare]), fun i _ => bare i, .inr (bare _),
      by simp [firsts, frames, Draft.Splits]⟩
  · exact ⟨by simp [roles, Role.opens?], by simp [roles, Role.closes?], by simp [bare],
      by simp [roles]⟩

end Assembly

structure Draft.Whole (d : Draft) (root terminal : StateId) (tags : Nat) : Prop where
  last : d.size = terminal.val + 1
  only : ∀ i : StateId, d.roles[i.val]? = some .terminal ↔ i = terminal
  between : ∀ i : StateId, i.val < d.size → d.Reaches root i ∧ d.Reaches i terminal
  single : ∀ i, d.Splits root i ∨ (d.arrowsAt i).length ≤ 1
  opens : d.roles.filterMap Role.opens? = (List.range tags).map Index.mk
  closes : d.roles.filterMap Role.closes? = (List.range tags).map Index.mk
  labels : ∀ i, ∀ a ∈ d.arrowsAt i, a.label.Within d.classes.size tags

/-- Two states bear each tag. -/
theorem Draft.Tagged.two_mul_le {d : Draft} {tags : Nat} (h : d.Tagged tags) :
    2 * tags ≤ d.size := by
  have apart (roles : List Role) : (roles.filterMap Role.opens?).length +
      (roles.filterMap Role.closes?).length ≤ roles.length := by
    induction roles with
    | nil => simp
    | cons r roles ih =>
      rw [List.filterMap_cons, List.filterMap_cons]
      cases r with
      | tagOpen tag =>
        cases tag <;> simp only [Role.opens?, Role.closes?, List.length_cons] <;> omega
      | tagClose tag =>
        cases tag <;> simp only [Role.opens?, Role.closes?, List.length_cons] <;> omega
      | fanout | trap | terminal =>
        simp only [Role.opens?, Role.closes?, List.length_cons]
        omega
  have whole := apart d.roles
  rw [h.opens, h.closes, d.length_roles] at whole
  simp only [List.length_map, List.length_range] at whole
  omega

theorem Assembly.Shaped.whole_of_arcs {a : Assembly} {root terminal : StateId} {tags : Nat}
    {d : Draft} (h : a.Shaped root tags) (outer : a.outer = [])
    (index : terminal.val = a.draft.size)
    (grows : a.draft.Grows [.terminal]
      [(a.frame.tail, .empty a.frame.last), (a.frame.last, .empty terminal)] d) :
    d.Whole root terminal tags where
  last := by rw [grows.size, index]; rfl
  only i := by
    constructor
    · intro found
      rw [grows.roles, List.getElem?_append] at found
      split at found
      · exact absurd (List.mem_of_getElem? found) h.tagged.unfinished
      · rename_i outside
        rw [Draft.length_roles] at found outside
        have inside := (List.getElem?_eq_some_iff.1 found).1
        rw [List.length_singleton] at inside
        exact Index.eq_of_val (by omega)
    · rintro rfl
      rw [index]
      exact grows.role_new 0
  between i inside := by
    have on := grows.arc (i := a.frame.tail) (a := .empty a.frame.last) (by simp)
    have on' := grows.arc (i := a.frame.last) (a := .empty terminal) (by simp)
    have begins := h.laced.begins _ h.spread.tail.1 h.spread.tail.2
    have lasts : a.lasts = [a.frame.last] := by rw [Assembly.lasts, Assembly.frames, outer]; rfl
    by_cases old : i.val < a.draft.size
    · obtain ⟨x, mem, reaches⟩ := h.laced.ends i old
      have goesOn : d.Reaches x terminal := by
        rw [lasts] at mem
        obtain rfl | mem := List.mem_cons.1 mem
        · exact on.trans on'
        · obtain rfl := List.mem_singleton.1 mem
          exact on'
      refine ⟨?_, (grows.reaches reaches).trans goesOn⟩
      by_cases last : i = a.frame.last
      · rw [last]
        exact (grows.reaches begins).trans on
      · exact grows.reaches (h.laced.begins i old (by simpa [lasts] using last))
    · obtain rfl : i = terminal := Index.eq_of_val (by
        rw [grows.size, List.length_singleton] at inside
        omega)
      exact ⟨((grows.reaches begins).trans on).trans on', .refl⟩
  single i := by
    by_cases tail : a.frame.tail = i
    · subst tail
      exact grows.single h.forked.tail (by simp [h.spread.tail_ne_last.symm])
    by_cases last : a.frame.last = i
    · subst last
      exact grows.single (.inr (h.forked.lasts _ List.mem_cons_self)) (by simp [tail])
    · exact h.forked.kept grows (by simpa using ⟨tail, last⟩)
  opens := by
    rw [grows.roles, List.filterMap_append, h.tagged.opens]
    exact List.append_nil _
  closes := by
    rw [grows.roles, List.filterMap_append, h.tagged.closes]
    exact List.append_nil _
  labels := h.tagged.labels_grow grows (Nat.le_refl _) (by simp [Arrow.empty])

namespace Draft.Finishes
variable {d : Draft} {root : StateId} {names : GroupNames} {g : Graph} {i j : StateId} {s : State}

theorem state (h : d.Finishes root names g) (found : g.state? i = some s) :
    d.states[i.val]? = some s.draft := by
  rw [← h.drafted]
  exact congrArg (Option.map State.draft) found

theorem role (h : d.Finishes root names g) (i : StateId) :
    d.roles[i.val]? = (g.state? i).map fun s => s.draft.role := by
  rw [roles_getElem?, ← h.drafted, Option.map_map]
  rfl

theorem leads (h : d.Finishes root names g) (leads : d.Leads i j) : g.Leads i j := by
  obtain ⟨a, mem, rfl⟩ := leads
  cases found : g.state? i with
  | none =>
    have found : g.states[i.val]? = none := found
    rw [arrowsAt, ← h.drafted, found] at mem
    cases mem
  | some s =>
    rw [arrowsAt_eq (h.state found)] at mem
    refine ⟨s, found, ?_⟩
    rw [State.targets_draft]
    exact List.mem_map_of_mem mem

theorem numbers {f : Role → Option TagId} {bears : TagId → StateId → Prop} {tags : Nat}
    (h : d.Finishes root names g)
    (given : d.roles.filterMap f = (List.range tags).map Index.mk)
    (same : ∀ tag i, bears tag i ↔ ∃ s, g.state? i = some s ∧ f s.draft.role = some tag) :
    Numbers bears tags := by
  have equal : bears = fun tag i => d.roles[i.val]?.bind f = some tag := by
    funext tag i
    rw [h.role, Option.bind_map, Option.bind_eq_some_iff]
    exact propext (same tag i)
  rw [equal]
  exact numbers_of_filterMap given

theorem label_within {tags : Nat} {l : Label} (h : d.Finishes root names g)
    (labels : ∀ i, ∀ a ∈ d.arrowsAt i, a.label.Within d.classes.size tags)
    (found : g.state? i = some s) (mem : l ∈ s.labels) : l.Within d.classes.size tags := by
  rw [State.labels_draft] at mem
  obtain ⟨a, mem, rfl⟩ := List.mem_map.1 mem
  exact labels i a (by rwa [arrowsAt_eq (h.state found)])

end Draft.Finishes

theorem State.opens?_role {s : State} {tag : TagId} :
    s.draft.role.opens? = some tag ↔ ∃ arrows, s = .tagOpen (some tag) arrows := by
  cases s <;> simp [State.draft, DraftState.role, Role.opens?]

theorem State.closes?_role {s : State} {tag : TagId} :
    s.draft.role.closes? = some tag ↔ ∃ arrows, s = .tagClose (some tag) arrows := by
  cases s <;> simp [State.draft, DraftState.role, Role.closes?]

theorem numbers_of_numbered {g : Graph}
    (numbered : Numbered (fun i => g.states[i]?.bind (·.draft.number?)) g.trapCount) :
    Numbers g.TrapAt g.trapCount := by
  have same (k : TrapId) (i : StateId) :
      g.TrapAt k i ↔ g.states[i.val]?.bind (·.draft.number?) = some k := by
    rw [Option.bind_eq_some_iff]
    constructor
    · rintro ⟨r, body, leave, found⟩
      exact ⟨_, found, rfl⟩
    · rintro ⟨s, found, number⟩
      cases s with
      | trap =>
        cases number
        exact ⟨_, _, _, found⟩
      | relay | fanout | terminal | tagOpen | tagClose => cases number
  constructor
  · intro k small
    obtain ⟨i, found⟩ := numbered.onto k.val small
    refine ⟨⟨i⟩, (same k ⟨i⟩).2 found, fun j bears => Index.eq_of_val ?_⟩
    exact numbered.unique _ _ k ((same k j).1 bears) found
  · exact fun k i bears => numbered.below _ k ((same k i).1 bears)

theorem Draft.Whole.wellFormed {d : Draft} {root terminal : StateId} {names : GroupNames}
    {g : Graph} (h : d.Whole root terminal names.size) (finishes : d.Finishes root names g)
    (traps : Numbers g.TrapAt g.trapCount) : g.WellFormed := by
  have ends : g.terminal = terminal := by
    have role := (h.only terminal).2 rfl
    rw [roles_getElem?] at role
    obtain ⟨s, found, role⟩ := Option.map_eq_some_iff.1 role
    cases s <;> cases role
    exact (finishes.ends h.last found).1
  have start := finishes.start
  have names := finishes.names
  have leads : ∀ i j, d.Leads i j → g.Leads i j := fun _ _ => finishes.leads
  refine ⟨fun i => ?_, ?_, fun i inside => ?_, traps, ?_, ?_, fun i s tag found mem => ?_,
    fun i s id found mem => ?_, fun i s found more => ?_⟩
  · rw [ends, ← h.only, finishes.role]
    cases g.state? i with
    | none => simp
    | some s => cases s <;> simp [State.draft, DraftState.role]
  · rw [ends, ← h.last, finishes.size]
  · rw [finishes.size] at inside
    obtain ⟨from_root, to_terminal⟩ := h.between i inside
    rw [start, ends]
    exact ⟨Relation.ReflTransGen.mono leads _ _ from_root,
      Relation.ReflTransGen.mono leads _ _ to_terminal⟩
  · rw [names]
    refine finishes.numbers h.opens fun tag i => ?_
    simp only [State.opens?_role, Graph.OpensAt]
    grind
  · rw [names]
    refine finishes.numbers h.closes fun tag i => ?_
    simp only [State.closes?_role, Graph.ClosesAt]
    grind
  · rw [names]
    exact finishes.label_within h.labels found mem
  · have known : id.val < d.classes.size := finishes.label_within h.labels found mem
    obtain ⟨set, here⟩ : ∃ set, d.classes[id.val]? = some set :=
      ⟨_, Array.getElem?_eq_getElem known⟩
    exact (Array.getElem?_eq_some_iff.1 (finishes.holds.classes id.val set here)).1
  · have several : 1 < (d.arrowsAt i).length := by
      rw [arrowsAt_eq (finishes.state found)]
      cases s with
      | trap | terminal => exact absurd more (by simp [State.arrows])
      | relay | fanout | tagOpen | tagClose => exact more
    obtain same | ⟨tag, role⟩ | role := (h.single i).resolve_right (Nat.not_le.2 several)
    · exact .inl (same.trans start.symm)
    · rw [finishes.role, found] at role
      cases s with
      | tagOpen tag arrows => exact .inr ⟨tag, arrows, rfl⟩
      | relay | fanout | trap | terminal | tagClose => cases role
    · rw [finishes.role, found] at role
      cases s with
      | trap => exact absurd more (by simp [State.arrows])
      | relay | fanout | terminal | tagOpen | tagClose => cases role

theorem Assembly.Shaped.finish {a : Assembly} {root : StateId} {names : GroupNames} {g : Graph}
    (h : a.Shaped root names.size) (finished : a.finish names = .ok g)
    (traps : Numbers g.TrapAt g.trapCount) :
    g.WellFormed ∧ g.states.size = a.draft.size + 1 := by
  obtain ⟨outer, terminal, d₁, d₂, d₃, pushed, arrow, arrow', finishes⟩ := finish_eq_ok finished
  obtain ⟨grows, index⟩ := Draft.grows_of_push pushed rfl
  have grows := (grows.trans (Draft.grows_of_addArrow arrow)).trans (Draft.grows_of_addArrow arrow')
  have same : a.frame.first = root := by
    have whole := h.whole
    rw [firsts, frames, outer] at whole
    exact Option.some.inj whole
  rw [same] at finishes
  refine ⟨(h.whole_of_arcs outer index grows).wellFormed finishes traps, ?_⟩
  rw [finishes.size, grows.size]
  rfl

/-- Whatever the repetition bounds, a compiled graph is well formed, and each character of the pattern
brings two states at most. -/
theorem wellFormed_of_compile {options : Options} {pattern : String} {g : Graph}
    (compiled : compile options pattern = .ok g) :
    g.WellFormed ∧ g.states.size ≤ 2 * pattern.length + 3 := by
  obtain ⟨places, placed⟩ := placed_of_compile compiled
  have traps := numbers_of_numbered placed.numbered
  simp only [compile, Outline.assemble, Except.bind_eq_ok, Assembly.refuse_eq_ok] at compiled
  obtain ⟨o, outlined, a, begun, a', added, names, ended, finished⟩ := compiled
  obtain ⟨pairing, rfl, inStep⟩ := inStep_of_ofText outlined
  obtain ⟨last, run, done, rfl⟩ := Reading.run_of_ending ended
  obtain ⟨shaped, size⟩ := Assembly.shaped_of_start begun
  obtain ⟨shaped', size'⟩ := 
    Assembly.Shaped.run run inStep GroupNames.coherent_empty shaped added
  obtain ⟨wellFormed, whole⟩ := shaped'.finish finished traps
  refine ⟨wellFormed, ?_⟩
  have balanced := (inStep.run run).length_opened_le
  have length := Symbol.length_read_le 0 0 pattern.toList
  rw [String.length_toList] at length
  simp only [Reading.budget, Reading.start, Symbol.ofText, done, List.length_nil] at balanced size'
  omega

theorem wellFormed_of_compile_nestedGroups :
    ∃ g, compile .unset "((a|[bc])*\\k<2>){2,}" = .ok g ∧ g.WellFormed ∧
      g.states.size ≤ 2 * "((a|[bc])*\\k<2>){2,}".length + 3 := by
  have compiles : (compile .unset "((a|[bc])*\\k<2>){2,}").toOption.isSome = true := by
    decide +kernel
  obtain ⟨g, compiled⟩ := Except.exists_eq_ok compiles
  exact ⟨g, compiled, wellFormed_of_compile compiled⟩

end PatternGraph
