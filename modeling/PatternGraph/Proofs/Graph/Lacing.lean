import Mathlib.Logic.Relation
import PatternGraph.Proofs.Graph.Growth
import PatternGraph.Proofs.Graph.Places

/-!
What holds of a partial graph between two pieces. Every state but the ends of the groups in progress is
reached from the root, and from every state the current tail or one of those ends is reached; no state
where ways are not to part has got a second arrow.
-/
namespace PatternGraph

namespace Draft
variable {d d' : Draft} {new : List Role} {arcs : List (StateId × Arrow)} {root i j : StateId}

def Leads (d : Draft) (i j : StateId) : Prop := ∃ a ∈ d.arrowsAt i, a.target = j

abbrev Reaches (d : Draft) : StateId → StateId → Prop := Relation.ReflTransGen d.Leads

def Splits (d : Draft) (root i : StateId) : Prop :=
  i = root ∨ (∃ tag, d.roles[i.val]? = some (.tagOpen tag)) ∨ d.roles[i.val]? = some .trap

namespace Grows

theorem mem_arrowsAt (h : d.Grows new arcs d') (a : Arrow) :
    a ∈ d'.arrowsAt i ↔ a ∈ d.arrowsAt i ∨ (i, a) ∈ arcs := by
  rw [h.arrows, List.mem_append]
  simp

theorem reaches (h : d.Grows new arcs d') (reaches : d.Reaches i j) : d'.Reaches i j :=
  Relation.ReflTransGen.mono
    (fun _ _ ⟨a, mem, leads⟩ => ⟨a, (h.mem_arrowsAt a).2 (.inl mem), leads⟩) _ _ reaches

theorem arc {a : Arrow} (h : d.Grows new arcs d') (mem : (i, a) ∈ arcs) : d'.Reaches i a.target :=
  .single ⟨a, (h.mem_arrowsAt a).2 (.inr mem), rfl⟩

theorem role (h : d.Grows new arcs d') {r : Role} (found : d.roles[i.val]? = some r) :
    d'.roles[i.val]? = some r := by
  rw [h.roles]
  exact List.getElem?_of_prefix (List.prefix_append _ _) found

theorem role_new (h : d.Grows new arcs d') (k : Nat) : d'.roles[d.size + k]? = new[k]? := by
  rw [h.roles, ← d.length_roles, List.getElem?_append_right (Nat.le_add_right _ _),
    Nat.add_sub_cancel_left]

theorem splits (h : d.Grows new arcs d') (splits : d.Splits root i) : d'.Splits root i := by
  obtain same | ⟨tag, found⟩ | found := splits
  · exact .inl same
  · exact .inr (.inl ⟨tag, h.role found⟩)
  · exact .inr (.inr (h.role found))

theorem arrowsAt_eq (h : d.Grows new arcs d') (apart : ∀ arc ∈ arcs, arc.1 ≠ i) :
    d'.arrowsAt i = d.arrowsAt i := by
  have none : arcs.filter (·.1 = i) = [] := by simpa using fun j a mem => apart (j, a) mem
  rw [h.arrows, none, List.map_nil, List.append_nil]

theorem single (h : d.Grows new arcs d') (bare : d.Splits root i ∨ d.arrowsAt i = [])
    (once : (arcs.filter (·.1 = i)).length ≤ 1) :
    d'.Splits root i ∨ (d'.arrowsAt i).length ≤ 1 := by
  refine bare.imp h.splits fun bare => ?_
  rwa [h.arrows, bare, List.nil_append, List.length_map]

end Grows

end Draft

namespace Assembly
variable {a a' : Assembly} {p : Piece} {root : StateId} {tags tags' : Nat}

def firsts (a : Assembly) : List StateId := a.frames.map (·.first)

def lasts (a : Assembly) : List StateId := a.frames.map (·.last)

theorem lasts_eq {around : Frame} {outer : List Frame} (stack : a.outer = around :: outer) :
    a.lasts = a.frame.last :: (around :: outer).map (·.last) := by
  rw [← stack]
  rfl

theorem firsts_eq {around : Frame} {outer : List Frame} (stack : a.outer = around :: outer) :
    a.firsts = a.frame.first :: (around :: outer).map (·.first) := by
  rw [← stack]
  rfl

/-- The states on which the groups in progress stand are there and are not confused. -/
structure Spread (a : Assembly) : Prop where
  firsts : ∀ i ∈ a.firsts, i.val < a.draft.size ∧ i ∉ a.lasts
  lasts : ∀ i ∈ a.lasts, i.val < a.draft.size
  tail : a.frame.tail.val < a.draft.size ∧ a.frame.tail ∉ a.lasts
  nodup : a.lasts.Nodup

theorem Spread.last (h : a.Spread) : a.frame.last.val < a.draft.size :=
  h.lasts _ List.mem_cons_self

theorem Spread.tail_ne_last (h : a.Spread) : a.frame.tail ≠ a.frame.last := fun same =>
  h.tail.2 (same ▸ List.mem_cons_self)

theorem Spread.new_notMem (h : a.Spread) {i : StateId} (new : a.draft.size ≤ i.val) :
    i ∉ a.lasts := fun mem => absurd (h.lasts i mem) (Nat.not_lt.2 new)

theorem ne_of_new {n : Nat} {i j : StateId} (old : i.val < n) (new : n ≤ j.val) : i ≠ j := by
  rintro rfl
  omega

theorem Spread.tail_ne_new (h : a.Spread) {i : StateId} (new : a.draft.size ≤ i.val) :
    a.frame.tail ≠ i := ne_of_new h.tail.1 new

theorem Spread.withTail {d : Draft} {tail : StateId} (h : a.Spread) (grows : a.draft.size ≤ d.size)
    (inside : tail.val < d.size) (apart : tail ∉ a.lasts) : (a.withTail d tail).Spread where
  firsts i mem := ⟨Nat.lt_of_lt_of_le (h.firsts i mem).1 grows, (h.firsts i mem).2⟩
  lasts i mem := Nat.lt_of_lt_of_le (h.lasts i mem) grows
  tail := ⟨inside, apart⟩
  nodup := h.nodup

theorem Spread.opened {d : Draft} {first last : StateId} {trap : Option StateId} (h : a.Spread)
    (begins : first.val = a.draft.size) (ends : last.val = a.draft.size + 1)
    (grows : a.draft.size + 2 ≤ d.size) :
    Spread ⟨d, ⟨first, last, first, trap⟩, a.frame :: a.outer⟩ := by
  have apart : first ≠ last := ne_of_new (n := a.draft.size + 1) (by omega) (Nat.le_of_eq ends.symm)
  have fresh : first ∉ last :: a.lasts := by
    simpa [apart] using h.new_notMem (Nat.le_of_eq begins.symm)
  refine ⟨?_, ?_, ⟨show first.val < d.size by omega, fresh⟩, ?_⟩
  · refine List.forall_mem_cons.2 ⟨⟨show first.val < d.size by omega, fresh⟩, fun i mem => ?_⟩
    have old := h.firsts i mem
    refine ⟨show i.val < d.size by omega, List.not_mem_cons_of_ne_of_not_mem ?_ old.2⟩
    rintro rfl
    omega
  · refine List.forall_mem_cons.2 ⟨show last.val < d.size by omega, fun i mem => ?_⟩
    have old := h.lasts i mem
    exact show i.val < d.size by omega
  · exact List.nodup_cons.2 ⟨h.new_notMem (i := last) (by omega), h.nodup⟩

theorem Spread.closed {d : Draft} {around : Frame} {outer : List Frame} {tail : StateId}
    (h : a.Spread) (stack : a.outer = around :: outer) (grows : a.draft.size ≤ d.size)
    (inside : tail.val < d.size)
    (apart : tail = a.frame.last ∨ a.draft.size ≤ tail.val) :
    Spread ⟨d, { around with tail := tail }, outer⟩ := by
  have firsts := firsts_eq stack
  have lasts := lasts_eq stack
  obtain ⟨fresh, nodup⟩ := List.nodup_cons.1 (lasts ▸ h.nodup)
  refine ⟨fun i mem => ?_, fun i mem => ?_, ⟨inside, ?_⟩, nodup⟩
  · obtain ⟨old, other⟩ := h.firsts i (firsts ▸ List.mem_cons_of_mem _ mem)
    rw [lasts] at other
    exact ⟨Nat.lt_of_lt_of_le old grows, fun mem => other (List.mem_cons_of_mem _ mem)⟩
  · exact Nat.lt_of_lt_of_le (h.lasts i (lasts ▸ List.mem_cons_of_mem _ mem)) grows
  · obtain rfl | new := apart
    · exact fresh
    · exact fun mem => h.new_notMem new (lasts ▸ List.mem_cons_of_mem _ mem)

theorem Step.spread (step : a.Step p a') (h : a.Spread) : a'.Spread := by
  cases step with
  | atom next _ grows | loop _ next _ grows =>
    have size := grows.size
    simp only [List.length_cons, List.length_nil] at size
    exact h.withTail (by omega) (by omega) (h.new_notMem (by omega))
  | group first last grows =>
    exact h.opened first last (Nat.le_of_eq grows.size.symm)
  | loopedGroup first last _ grows =>
    refine h.opened first last ?_
    rw [grows.size]
    exact Nat.le_succ _
  | close stack grows =>
    have size := grows.size
    exact h.closed stack (Nat.le_of_eq size.symm) (size ▸ h.last) (.inl rfl)
  | closeLoop stack _ after grows =>
    have size := grows.size
    simp only [List.length_cons, List.length_nil] at size
    exact h.closed stack (by omega) (by omega) (.inr (by omega))
  | alternative grows =>
    have first := h.firsts _ List.mem_cons_self
    have size := grows.size
    exact h.withTail (Nat.le_of_eq size.symm) (size ▸ first.1) first.2

/-- Every state is on a way from the root to where the pattern goes on. -/
structure Laced (a : Assembly) (root : StateId) : Prop where
  begins : ∀ i : StateId, i.val < a.draft.size → i ∉ a.lasts → a.draft.Reaches root i
  ends : ∀ i : StateId, i.val < a.draft.size →
    ∃ x ∈ a.frame.tail :: a.lasts, a.draft.Reaches i x

/-- New states and the ends of groups that are closed are reached from the tail, and the states where
the pattern went on before lead to those where it goes on now. -/
theorem Laced.step {new : List Role} {arcs : List (StateId × Arrow)} (h : a.Laced root)
    (spread : a.Spread) (grows : a.draft.Grows new arcs a'.draft)
    (begins : ∀ i : StateId, i.val < a'.draft.size → i ∉ a'.lasts →
      i.val < a.draft.size ∧ i ∉ a.lasts ∨ a'.draft.Reaches a.frame.tail i)
    (ends : ∀ i : StateId, i ∈ a.frame.tail :: a.lasts ∨
        a.draft.size ≤ i.val ∧ i.val < a'.draft.size →
      ∃ x ∈ a'.frame.tail :: a'.lasts, a'.draft.Reaches i x) :
    a'.Laced root where
  begins i inside free := by
    obtain ⟨old, free'⟩ | new := begins i inside free
    · exact grows.reaches (h.begins i old free')
    · exact (grows.reaches (h.begins _ spread.tail.1 spread.tail.2)).trans new
  ends i inside := by
    by_cases old : i.val < a.draft.size
    · obtain ⟨x, mem, reaches⟩ := h.ends i old
      obtain ⟨y, mem', reaches'⟩ := ends x (.inl mem)
      exact ⟨y, mem', (grows.reaches reaches).trans reaches'⟩
    · exact ends i (.inr ⟨by omega, inside⟩)

theorem Laced.withTail {d : Draft} {tail : StateId} {new : List Role}
    {arcs : List (StateId × Arrow)} (h : a.Laced root) (spread : a.Spread)
    (grows : a.draft.Grows new arcs d)
    (passes : ∀ i : StateId, i = a.frame.tail ∨ a.draft.size ≤ i.val ∧ i.val < d.size →
      d.Reaches a.frame.tail i ∧ d.Reaches i tail) : (a.withTail d tail).Laced root := by
  refine h.step spread grows (fun i inside free => ?_) fun i place => ?_
  · by_cases old : i.val < a.draft.size
    · exact .inl ⟨old, free⟩
    · exact .inr (passes i (.inr ⟨by omega, inside⟩)).1
  · obtain mem | new := place
    · obtain rfl | mem := List.mem_cons.1 mem
      · exact ⟨tail, List.mem_cons_self, (passes _ (.inl rfl)).2⟩
      · exact ⟨i, List.mem_cons_of_mem _ mem, .refl⟩
    · exact ⟨tail, List.mem_cons_self, (passes i (.inr new)).2⟩

theorem Laced.opened {d : Draft} {first last : StateId} {trap : Option StateId} {new : List Role}
    {arcs : List (StateId × Arrow)} (h : a.Laced root) (spread : a.Spread)
    (grows : a.draft.Grows new arcs d)
    (passes : ∀ i : StateId, i = a.frame.tail ∨ a.draft.size ≤ i.val ∧ i.val < d.size → i = last ∨
      d.Reaches a.frame.tail i ∧ d.Reaches i first) :
    Laced ⟨d, ⟨first, last, first, trap⟩, a.frame :: a.outer⟩ root := by
  refine h.step spread grows (fun i inside free => ?_) fun i place => ?_
  · obtain ⟨other, free⟩ := List.ne_and_not_mem_of_not_mem_cons free
    by_cases old : i.val < a.draft.size
    · exact .inl ⟨old, free⟩
    · exact .inr ((passes i (.inr ⟨by omega, inside⟩)).resolve_left other).1
  · have goesOn (way : i = last ∨ d.Reaches a.frame.tail i ∧ d.Reaches i first) :
        ∃ x ∈ first :: last :: a.lasts, d.Reaches i x := by
      obtain rfl | ⟨_, reaches⟩ := way
      · exact ⟨i, by simp, .refl⟩
      · exact ⟨first, List.mem_cons_self, reaches⟩
    obtain mem | new := place
    · obtain rfl | mem := List.mem_cons.1 mem
      · exact goesOn (passes _ (.inl rfl))
      · exact ⟨i, List.mem_cons_of_mem _ (List.mem_cons_of_mem _ mem), .refl⟩
    · exact goesOn (passes i (.inr new))

theorem Laced.closed {d : Draft} {around : Frame} {outer : List Frame} {tail : StateId}
    {new : List Role} {arcs : List (StateId × Arrow)} (h : a.Laced root) (spread : a.Spread)
    (stack : a.outer = around :: outer) (grows : a.draft.Grows new arcs d)
    (passes : ∀ i : StateId, i = a.frame.tail ∨ i = a.frame.last ∨
      a.draft.size ≤ i.val ∧ i.val < d.size → d.Reaches a.frame.tail i ∧ d.Reaches i tail) :
    Laced ⟨d, { around with tail := tail }, outer⟩ root := by
  have lasts := lasts_eq stack
  refine h.step spread grows (fun i inside free => ?_) fun i place => ?_
  · by_cases old : i.val < a.draft.size
    · by_cases last : i = a.frame.last
      · exact .inr (passes i (.inr (.inl last))).1
      · exact .inl ⟨old, lasts ▸ List.not_mem_cons_of_ne_of_not_mem last free⟩
    · exact .inr (passes i (.inr (.inr ⟨by omega, inside⟩))).1
  · have goesOn (way : d.Reaches a.frame.tail i ∧ d.Reaches i tail) :
        ∃ x ∈ tail :: (around :: outer).map (·.last), d.Reaches i x :=
      ⟨tail, List.mem_cons_self, way.2⟩
    rw [lasts] at place
    obtain mem | new := place
    · obtain rfl | mem := List.mem_cons.1 mem
      · exact goesOn (passes _ (.inl rfl))
      obtain rfl | mem := List.mem_cons.1 mem
      · exact goesOn (passes _ (.inr (.inl rfl)))
      · exact ⟨i, List.mem_cons_of_mem _ mem, .refl⟩
    · exact goesOn (passes i (.inr (.inr new)))

theorem Step.laced (step : a.Step p a') (spread : a.Spread) (h : a.Laced root) :
    a'.Laced root := by
  cases step with
  | @atom _ label next _ index _ grows =>
    have on := grows.arc (i := a.frame.tail) (a := ⟨label, next⟩) (by simp)
    have size := grows.size
    refine h.withTail spread grows fun i place => ?_
    obtain rfl | ⟨low, high⟩ := place
    · exact ⟨.refl, on⟩
    · obtain rfl : i = next := Index.eq_of_val (by simp at size; omega)
      exact ⟨on, .refl⟩
  | @loop _ _ label trap after _ index index' _ grows =>
    have on := grows.arc (i := a.frame.tail) (a := .empty trap) (by simp)
    have on' := grows.arc (i := trap) (a := .empty after) (by simp)
    have size := grows.size
    refine h.withTail spread grows fun i place => ?_
    obtain rfl | ⟨low, high⟩ := place
    · exact ⟨.refl, on.trans on'⟩
    · obtain rfl | rfl : i = trap ∨ i = after := by
        have which : i.val = trap.val ∨ i.val = after.val := by simp at size; omega
        exact which.imp Index.eq_of_val Index.eq_of_val
      · exact ⟨on, on'⟩
      · exact ⟨on.trans on', .refl⟩
  | @group _ first last _ index index' grows =>
    have on := grows.arc (i := a.frame.tail) (a := .empty first) (by simp)
    have size := grows.size
    refine h.opened spread grows fun i place => ?_
    obtain rfl | ⟨low, high⟩ := place
    · exact .inr ⟨.refl, on⟩
    · obtain rfl | rfl : i = first ∨ i = last := by
        have which : i.val = first.val ∨ i.val = last.val := by simp at size; omega
        exact which.imp Index.eq_of_val Index.eq_of_val
      · exact .inr ⟨on, .refl⟩
      · exact .inl rfl
  | @loopedGroup _ first last trap _ index index' index'' grows =>
    have on := grows.arc (i := a.frame.tail) (a := .empty trap) (by simp)
    have on' := grows.arc (i := trap) (a := .empty first) (by simp)
    have size := grows.size
    refine h.opened spread grows fun i place => ?_
    obtain rfl | ⟨low, high⟩ := place
    · exact .inr ⟨.refl, on.trans on'⟩
    · obtain rfl | rfl | rfl : i = first ∨ i = last ∨ i = trap := by
        have which : i.val = first.val ∨ i.val = last.val ∨ i.val = trap.val := by
          simp at size
          omega
        exact which.imp Index.eq_of_val (.imp Index.eq_of_val Index.eq_of_val)
      · exact .inr ⟨on.trans on', .refl⟩
      · exact .inl rfl
      · exact .inr ⟨on, on'⟩
  | close stack grows =>
    have on := grows.arc (i := a.frame.tail) (a := .empty a.frame.last) (by simp)
    have size := grows.size
    refine h.closed spread stack grows fun i place => ?_
    obtain rfl | rfl | ⟨low, high⟩ := place
    · exact ⟨.refl, on⟩
    · exact ⟨on, .refl⟩
    · simp at size
      omega
  | @closeLoop _ _ trap after _ _ stack _ index grows =>
    have on := grows.arc (i := a.frame.tail) (a := .empty a.frame.last) (by simp)
    have on' := grows.arc (i := a.frame.last) (a := .empty trap) (by simp)
    have on'' := grows.arc (i := trap) (a := .empty after) (by simp)
    have size := grows.size
    refine h.closed spread stack grows fun i place => ?_
    obtain rfl | rfl | ⟨low, high⟩ := place
    · exact ⟨.refl, (on.trans on').trans on''⟩
    · exact ⟨on, on'.trans on''⟩
    · obtain rfl : i = after := Index.eq_of_val (by simp at size; omega)
      exact ⟨(on.trans on').trans on'', .refl⟩
  | alternative grows =>
    have on := grows.arc (i := a.frame.tail) (a := .empty a.frame.last) (by simp)
    refine h.step spread grows (fun i inside free => ?_) fun i place => ?_
    · exact .inl ⟨by rw [withTail, grows.size] at inside; exact inside, free⟩
    · obtain mem | ⟨low, high⟩ := place
      · obtain rfl | mem := List.mem_cons.1 mem
        · exact ⟨a.frame.last, List.mem_cons_of_mem _ List.mem_cons_self, on⟩
        · exact ⟨i, List.mem_cons_of_mem _ mem, .refl⟩
      · rw [withTail, grows.size] at high
        exact absurd high (Nat.not_lt.2 low)

/-- Only where a group or the whole pattern begins, and at traps, there is more than one arrow, and
none where arrows are still to come. -/
structure Forked (a : Assembly) (root : StateId) : Prop where
  single : ∀ i, a.draft.Splits root i ∨ (a.draft.arrowsAt i).length ≤ 1
  lasts : ∀ i ∈ a.lasts, a.draft.arrowsAt i = []
  tail : a.draft.Splits root a.frame.tail ∨ a.draft.arrowsAt a.frame.tail = []
  firsts : ∀ i ∈ a.firsts, a.draft.Splits root i

theorem Forked.kept {new : List Role} {arcs : List (StateId × Arrow)} {d : Draft}
    (h : a.Forked root) (grows : a.draft.Grows new arcs d) {i : StateId}
    (apart : ∀ arc ∈ arcs, arc.1 ≠ i) : d.Splits root i ∨ (d.arrowsAt i).length ≤ 1 := by
  rw [grows.arrowsAt_eq apart]
  exact (h.single i).imp_left grows.splits

/-- Arrows are added where ways may part, or else one at a time where there was none. -/
theorem Forked.single_grows {new : List Role} {arcs : List (StateId × Arrow)} {d : Draft}
    (h : a.Forked root) (grows : a.draft.Grows new arcs d)
    (sources : ∀ arc ∈ arcs, d.Splits root arc.1 ∨
      (a.draft.Splits root arc.1 ∨ a.draft.arrowsAt arc.1 = []) ∧
        (arcs.filter (·.1 = arc.1)).length ≤ 1) (i : StateId) :
    d.Splits root i ∨ (d.arrowsAt i).length ≤ 1 := by
  by_cases source : ∃ arc ∈ arcs, arc.1 = i
  · obtain ⟨arc, mem, rfl⟩ := source
    obtain splits | ⟨bare, once⟩ := sources arc mem
    · exact .inl splits
    · exact grows.single bare once
  · exact h.kept grows fun arc mem same => source ⟨arc, mem, same⟩

theorem bare_of_new {new : List Role} {arcs : List (StateId × Arrow)} {d : Draft} {i : StateId}
    (grows : a.draft.Grows new arcs d) (outside : a.draft.size ≤ i.val)
    (apart : ∀ arc ∈ arcs, arc.1 ≠ i) : d.arrowsAt i = [] := by
  rw [grows.arrowsAt_eq apart, Draft.arrowsAt_outside outside]

theorem Forked.withTail {new : List Role} {arcs : List (StateId × Arrow)} {d : Draft}
    {tail : StateId} (h : a.Forked root) (grows : a.draft.Grows new arcs d)
    (single : ∀ i, d.Splits root i ∨ (d.arrowsAt i).length ≤ 1)
    (apart : ∀ arc ∈ arcs, arc.1 ∉ a.lasts)
    (bare : d.Splits root tail ∨ d.arrowsAt tail = []) : (a.withTail d tail).Forked root where
  single := single
  lasts i mem := by
    rw [← h.lasts i mem]
    exact grows.arrowsAt_eq fun arc inside same => apart arc inside (same ▸ mem)
  tail := bare
  firsts i mem := grows.splits (h.firsts i mem)

theorem Forked.opened {new : List Role} {arcs : List (StateId × Arrow)} {d : Draft}
    {first last : StateId} {trap : Option StateId} {tag : Option TagId} (h : a.Forked root)
    (grows : a.draft.Grows (.tagOpen tag :: new) arcs d)
    (single : ∀ i, d.Splits root i ∨ (d.arrowsAt i).length ≤ 1)
    (begins : first.val = a.draft.size) (ends : d.arrowsAt last = [])
    (apart : ∀ arc ∈ arcs, arc.1 ∉ a.lasts) :
    Forked ⟨d, ⟨first, last, first, trap⟩, a.frame :: a.outer⟩ root := by
  have opens : d.Splits root first := by
    have role : d.roles[a.draft.size]? = some (.tagOpen tag) := grows.role_new 0
    exact .inr (.inl ⟨tag, begins ▸ role⟩)
  refine ⟨single, List.forall_mem_cons.2 ⟨ends, fun i mem => ?_⟩, .inl opens,
    List.forall_mem_cons.2 ⟨opens, fun i mem => grows.splits (h.firsts i mem)⟩⟩
  rw [← h.lasts i mem]
  exact grows.arrowsAt_eq fun arc inside same => apart arc inside (same ▸ mem)

theorem Forked.closed {new : List Role} {arcs : List (StateId × Arrow)} {d : Draft}
    {around : Frame} {outer : List Frame} {tail : StateId} (h : a.Forked root)
    (stack : a.outer = around :: outer) (grows : a.draft.Grows new arcs d)
    (single : ∀ i, d.Splits root i ∨ (d.arrowsAt i).length ≤ 1)
    (apart : ∀ arc ∈ arcs, arc.1 ∉ (around :: outer).map (·.last))
    (bare : d.arrowsAt tail = []) : Forked ⟨d, { around with tail := tail }, outer⟩ root where
  single := single
  lasts i mem := by
    rw [← h.lasts i (lasts_eq stack ▸ List.mem_cons_of_mem _ mem)]
    exact grows.arrowsAt_eq fun arc inside same => apart arc inside (same ▸ mem)
  tail := .inr bare
  firsts i mem := grows.splits (h.firsts i (firsts_eq stack ▸ List.mem_cons_of_mem _ mem))

theorem Step.forked (step : a.Step p a') (spread : a.Spread) (h : a.Forked root) :
    a'.Forked root := by
  have waits := spread.tail.2
  cases step with
  | @atom _ label next d index _ grows =>
    have other : a.frame.tail ≠ next := spread.tail_ne_new (Nat.le_of_eq index.symm)
    refine h.withTail grows (h.single_grows grows ?_) (by simpa using waits)
      (.inr (bare_of_new grows (Nat.le_of_eq index.symm) (by simpa using other)))
    exact List.forall_mem_singleton.2 (.inr ⟨h.tail, by simp⟩)
  | @loop _ _ label trap after d index index' _ grows =>
    have other : a.frame.tail ≠ trap := spread.tail_ne_new (Nat.le_of_eq index.symm)
    have other' : a.frame.tail ≠ after := spread.tail_ne_new (by omega)
    have other'' : trap ≠ after := ne_of_new (n := a.draft.size + 1) (by omega) (by omega)
    have role : d.roles[a.draft.size]? = some .trap := grows.role_new 0
    have loops : d.Splits root trap := .inr (.inr (by rw [index, role]))
    refine h.withTail grows (h.single_grows grows ?_) ?_
      (.inr (bare_of_new grows (by omega) (by simpa using ⟨other', other''⟩)))
    · simp only [List.forall_mem_cons]
      exact ⟨.inr ⟨h.tail, by simp [other.symm]⟩, .inl loops, .inl loops, by simp⟩
    · simpa using ⟨waits, spread.new_notMem (Nat.le_of_eq index.symm)⟩
  | @group _ first last d index index' grows =>
    have other : a.frame.tail ≠ last := spread.tail_ne_new (by omega)
    refine h.opened grows (h.single_grows grows ?_) index
      (bare_of_new grows (by omega) (by simpa using other)) (by simpa using waits)
    exact List.forall_mem_singleton.2 (.inr ⟨h.tail, by simp⟩)
  | @loopedGroup _ first last trap d index index' index'' grows =>
    have other : a.frame.tail ≠ trap := spread.tail_ne_new (by omega)
    have other' : a.frame.tail ≠ last := spread.tail_ne_new (by omega)
    have other'' : trap ≠ last := (ne_of_new (n := a.draft.size + 2) (by omega) (by omega)).symm
    have role : d.roles[a.draft.size + 2]? = some .trap := grows.role_new 2
    have loops : d.Splits root trap := .inr (.inr (by rw [index'', role]))
    refine h.opened grows (h.single_grows grows ?_) index
      (bare_of_new grows (by omega) (by simpa using ⟨other', other''⟩)) ?_
    · simp only [List.forall_mem_cons]
      exact ⟨.inr ⟨h.tail, by simp [other.symm]⟩, .inl loops, by simp⟩
    · simpa using ⟨waits, spread.new_notMem (by omega)⟩
  | @close around outer d stack grows =>
    have other := spread.tail_ne_last
    rw [lasts_eq stack] at waits
    refine h.closed stack grows (h.single_grows grows ?_)
      (by simpa using List.not_mem_of_not_mem_cons waits) ?_
    · exact List.forall_mem_singleton.2 (.inr ⟨h.tail, by simp⟩)
    · rw [grows.arrowsAt_eq (by simpa using other)]
      exact h.lasts _ List.mem_cons_self
  | @closeLoop around outer trap after _ d stack hangs index grows =>
    have lasts := lasts_eq stack
    have ends := h.lasts a.frame.last List.mem_cons_self
    have unlike := spread.tail_ne_last
    have other : a.frame.tail ≠ after := spread.tail_ne_new (Nat.le_of_eq index.symm)
    have other' : a.frame.last ≠ after := ne_of_new spread.last (Nat.le_of_eq index.symm)
    have other'' : trap ≠ after := ne_of_new hangs.lt_size (Nat.le_of_eq index.symm)
    have apart : trap ∉ a.lasts := fun mem => hangs.arrowsAt_ne_nil (h.lasts trap mem)
    have nodup := (List.nodup_cons.1 (lasts ▸ spread.nodup)).1
    have loops : d.Splits root trap := .inr (.inr (grows.role hangs.role))
    refine h.closed stack grows (h.single_grows grows ?_) ?_
      (bare_of_new grows (by omega) (by simpa using ⟨other, other', other''⟩))
    · have last : trap ≠ a.frame.last := fun same => apart (same ▸ List.mem_cons_self)
      simp only [List.forall_mem_cons]
      refine ⟨?_, .inr ⟨.inr ends, by simp [unlike, last]⟩, .inl loops, by simp⟩
      by_cases loop : trap = a.frame.tail
      · exact .inl (loop ▸ loops)
      · exact .inr ⟨h.tail, by simp [unlike.symm, loop]⟩
    · rw [lasts] at waits apart
      have apart := List.not_mem_of_not_mem_cons apart
      have waits := List.not_mem_of_not_mem_cons waits
      simpa using ⟨by simpa using waits, by simpa using nodup, by simpa using apart⟩
  | @alternative d grows =>
    refine h.withTail grows (h.single_grows grows ?_) (by simpa using waits)
      (.inl (grows.splits (h.firsts _ List.mem_cons_self)))
    exact List.forall_mem_singleton.2 (.inr ⟨h.tail, by simp⟩)

end Assembly

end PatternGraph
