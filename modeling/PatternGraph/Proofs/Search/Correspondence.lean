import Mathlib.Data.List.Forall2
import PatternGraph.Proofs.Cursor.Stream
import PatternGraph.Proofs.Search.UndoLog
import PatternGraph.Search.Backtracker

/-!
Searches of two streams that are alike. Whatever a search holds of the one stream has its counterpart
in what the other search holds, position for position; a step keeps it so, since positions are only
stored, restored and compared with each other.
-/
namespace PatternGraph
open Cursor

section Tables
variable {P₁ P₂ : Type}

structure Tracker.Related (R : P₁ → P₂ → Prop) (t : Tracker P₁) (u : Tracker P₂) : Prop where
  starts : List.Forall₂ R t.starts u.starts
  stop : Option.Rel R t.stop u.stop

inductive Tracker.Undo.Related (R : P₁ → P₂ → Prop) : Undo P₁ → Undo P₂ → Prop
  | start {p q e f} (popped : Option.Rel R p q) (stop : Option.Rel R e f) :
      Related R (.start p e) (.start q f)
  | stop {ps qs e f} (popped : List.Forall₂ R ps qs) (stop : Option.Rel R e f) :
      Related R (.stop ps e) (.stop qs f)

structure Slot.Related (R : P₁ → P₂ → Prop) (s : Slot P₁) (t : Slot P₂) : Prop where
  active : s.active = t.active
  count : s.count = t.count
  enteredAt : Option.Rel R s.enteredAt t.enteredAt

inductive TrailEntry.Related (R : P₁ → P₂ → Prop) : TrailEntry P₁ → TrailEntry P₂ → Prop
  | arrow {p q} (id : StateId) (index : Nat) (pos : R p q) :
      Related R (.arrow id index p) (.arrow id index q)
  | leave {p q} (id : StateId) (pos : R p q) : Related R (.leave id p) (.leave id q)
  | tag {u v} (tag : TagId) (undo : Tracker.Undo.Related R u v) : Related R (.tag tag u) (.tag tag v)
  | trap {s t} (trap : TrapId) (slot : Slot.Related R s t) : Related R (.trap trap s) (.trap trap t)

structure Span.Related (R : P₁ → P₂ → Prop) (s : Span P₁) (t : Span P₂) : Prop where
  start : R s.start t.start
  stop : R s.stop t.stop

/-- Both tables have an entry at an index, and these are related, or neither has one. -/
def Pointwise {α β : Type} (r : α → β → Prop) (xs : Array α) (ys : Array β) : Prop :=
  ∀ i : Nat, Option.Rel r xs[i]? ys[i]?

namespace Pointwise
variable {α β : Type} {r : α → β → Prop} {xs : Array α} {ys : Array β}

theorem replicate {a : α} {b : β} (n : Nat) (related : r a b) :
    Pointwise r (.replicate n a) (.replicate n b) := by
  intro i
  rw [Array.getElem?_replicate, Array.getElem?_replicate]
  split
  · exact .some related
  · exact .none

theorem optionRel_map {γ δ : Type} {r' : γ → δ → Prop} {x : Option α} {y : Option β}
    (h : Option.Rel r x y) {f : α → γ} {g : β → δ} (related : ∀ a b, r a b → r' (f a) (g b)) :
    Option.Rel r' (x.map f) (y.map g) := by
  cases h with
  | some ab => exact .some (related _ _ ab)
  | none => exact .none

theorem map {γ δ : Type} {r' : γ → δ → Prop} (h : Pointwise r xs ys) {f : α → γ} {g : β → δ}
    (related : ∀ a b, r a b → r' (f a) (g b)) : Pointwise r' (xs.map f) (ys.map g) := by
  intro i
  rw [Array.getElem?_map, Array.getElem?_map]
  exact optionRel_map (h i) related

theorem modify (h : Pointwise r xs ys) (k : Nat) {f : α → α} {g : β → β}
    (related : ∀ a b, r a b → r (f a) (g b)) : Pointwise r (xs.modify k f) (ys.modify k g) := by
  intro i
  rw [Array.getElem?_modify, Array.getElem?_modify]
  split
  · exact optionRel_map (h i) related
  · exact h i

theorem setIfInBounds (h : Pointwise r xs ys) (k : Nat) {a : α} {b : β} (related : r a b) :
    Pointwise r (xs.setIfInBounds k a) (ys.setIfInBounds k b) := by
  have const {γ : Type} (zs : Array γ) (c : γ) : zs.setIfInBounds k c = zs.modify k fun _ => c := by
    apply Array.ext_getElem?
    intro i
    rw [Array.getElem?_setIfInBounds, Array.getElem?_modify]
    grind
  rw [const, const]
  exact h.modify k fun _ _ _ => related

end Pointwise

namespace Tracker
variable {R : P₁ → P₂ → Prop} {t : Tracker P₁} {u : Tracker P₂}

theorem related_empty : Related R (empty : Tracker P₁) (empty : Tracker P₂) := ⟨.nil, .none⟩

theorem Related.bindStart (h : Related R t u) {p : P₁} {q : P₂} (here : R p q) :
    Undo.Related R (t.bindStart p).1 (u.bindStart q).1 ∧
      Related R (t.bindStart p).2 (u.bindStart q).2 := by
  obtain ⟨starts, stop⟩ := t
  obtain ⟨starts', stop'⟩ := u
  obtain ⟨all, last⟩ := h
  dsimp only at all last
  cases last with
  | none => exact ⟨.start .none .none, .cons here all, .none⟩
  | some end_ =>
    cases all with
    | nil => exact ⟨.start .none (.some end_), .cons here .nil, .none⟩
    | cons first older => exact ⟨.start (.some first) (.some end_), .cons here older, .none⟩

theorem forall₂_dropLast {ps : List P₁} {qs : List P₂} (h : List.Forall₂ R ps qs) :
    List.Forall₂ R ps.dropLast qs.dropLast := by
  rw [List.dropLast_eq_take, List.dropLast_eq_take, h.length_eq]
  exact List.forall₂_take _ h

theorem forall₂_getLast? {ps : List P₁} {qs : List P₂} (h : List.Forall₂ R ps qs) :
    List.Forall₂ R ps.getLast?.toList qs.getLast?.toList := by
  induction h with
  | nil => exact .nil
  | cons first rest ih =>
    cases rest with
    | nil => exact .cons first .nil
    | cons => exact ih

theorem Related.bindStop (h : Related R t u) {p : P₁} {q : P₂} (here : R p q) :
    Undo.Related R (t.bindStop p).1 (u.bindStop q).1 ∧
      Related R (t.bindStop p).2 (u.bindStop q).2 :=
  ⟨.stop (forall₂_dropLast h.starts) h.stop, forall₂_getLast? h.starts, .some here⟩

theorem Related.undo (h : Related R t u) {v : Undo P₁} {w : Undo P₂} (undo : Undo.Related R v w) :
    Related R (t.undo v) (u.undo w) := by
  cases undo with
  | start popped stop =>
    refine ⟨List.rel_append ?_ (List.forall₂_drop 1 h.starts), stop⟩
    cases popped with
    | none => exact .nil
    | some p => exact .cons p .nil
  | stop popped stop => exact ⟨List.rel_append popped h.starts, stop⟩

theorem Related.span? (h : Related R t u) : Option.Rel (Span.Related R) t.span? u.span? := by
  obtain ⟨starts, stop⟩ := t
  obtain ⟨starts', stop'⟩ := u
  obtain ⟨all, last⟩ := h
  dsimp only at all last
  cases last with
  | none => exact .none
  | some end_ =>
    cases all with
    | nil => exact .none
    | cons first => exact .some ⟨first, end_⟩

end Tracker

structure Sighting.Related (R : P₁ → P₂ → Prop) (s : Sighting P₁) (t : Sighting P₂) : Prop where
  spot : s.spot = t.spot
  pos : R s.pos t.pos
  trackers : Pointwise (Tracker.Related R) s.trackers t.trackers
  slots : Pointwise (Slot.Related R) s.slots t.slots

inductive Mark.Related (R : P₁ → P₂ → Prop) : Mark P₁ → Mark P₂ → Prop
  | seen {s t} (related : Sighting.Related R s t) : Related R (.seen s) (.seen t)
  | accepted : Related R .accepted .accepted
  | exhausted : Related R .exhausted .exhausted
  | fault (f : Fault) : Related R (.fault f) (.fault f)

/-- Both computations end in the same fault, or both have answers, and these are related. -/
inductive Outcomes {α β : Type} (r : α → β → Prop) : Except Fault α → Except Fault β → Prop
  | fault (f : Fault) : Outcomes r (.error f) (.error f)
  | answer {a b} (related : r a b) : Outcomes r (.ok a) (.ok b)

end Tables

section Runs
variable {S₁ T₁ P₁ S₂ T₂ P₂ : Type} [Cursor S₁ T₁ P₁] [Cursor S₂ T₂ P₂]

namespace Cursor
variable [Token T₁] [Token T₂] {s₁ : Stream S₁} {s₂ : Stream S₂} {a : S₁} {b : S₂}

theorem nextIf_related (alike : Alike s₁.tokens s₂.tokens) (p : Char → Bool)
    (same : s₁.SamePlace s₂ a b) :
    Option.Rel (s₁.SamePlace s₂) (nextIf (fun t : T₁ => p (Token.toChar t)) a)
      (nextIf (fun t : T₂ => p (Token.toChar t)) b) := by
  unfold nextIf
  cases front : (peek a : Option T₁) with
  | none =>
    rw [same.none alike front]
    exact .none
  | some t =>
    obtain ⟨u, front', char, next⟩ := same.next alike front
    simp only [front', char]
    split
    · exact .some next
    · exact .none

theorem nextChars_related (alike : Alike s₁.tokens s₂.tokens) (cs : List Char)
    (same : s₁.SamePlace s₂ a b) :
    Option.Rel (s₁.SamePlace s₂) (nextChars a cs) (nextChars b cs) := by
  induction cs generalizing a b with
  | nil => exact .some same
  | cons ch cs ih =>
    have first := nextIf_related alike (· == ch) same
    simp only [nextChars]
    generalize nextIf (fun t : T₁ => Token.toChar t == ch) a = found at first ⊢
    generalize nextIf (fun t : T₂ => Token.toChar t == ch) b = found' at first ⊢
    cases first with
    | none => exact .none
    | some next => exact ih next

variable [DecidableEq T₁] [DecidableEq P₁] [DecidableEq T₂] [DecidableEq P₂]

theorem nextCopy_related (alike : Alike s₁.tokens s₂.tokens) {source : S₁} {source' : S₂} {stop : P₁}
    {stop' : P₂} (begin : s₁.SamePlace s₂ source source') (ends : s₁.SamePos s₂ stop stop')
    (same : s₁.SamePlace s₂ a b) :
    Option.Rel (s₁.SamePlace s₂) (nextCopy source stop a) (nextCopy source' stop' b) := by
  -- Each search compares a token with one of its own stream; the other one's tokens are only equal if
  -- these are.
  fun_induction nextCopy source stop a generalizing source' b with
  | case1 source a found =>
    rw [nextCopy, if_pos ((begin.pos.eq_iff alike ends).1 found)]
    exact .some same
  | case2 source a apart out =>
    rw [nextCopy_of_done (mt (begin.pos.eq_iff alike ends).2 apart) (begin.none alike out)]
    exact .none
  | case3 source a apart want front _ out =>
    obtain ⟨want', front', _, _⟩ := begin.next alike front
    rw [nextCopy_of_peek (mt (begin.pos.eq_iff alike ends).2 apart) front', same.none alike out]
    exact .none
  | case4 source a apart want front front_source _ ih =>
    obtain ⟨want', front', _, begin'⟩ := begin.next alike front_source
    obtain ⟨_, _, _, next⟩ := same.next alike front
    have agree := (same.peek_eq_iff alike begin).1 (front.trans front_source.symm)
    rw [nextCopy_of_peek (mt (begin.pos.eq_iff alike ends).2 apart) front',
      if_pos (agree.trans front')]
    exact ih begin' next
  | case5 source a apart want front_source _ t front differs =>
    obtain ⟨want', front', _, _⟩ := begin.next alike front_source
    have disagree : (peek b : Option T₂) ≠ some want' := by
      intro agree
      have := (same.peek_eq_iff alike begin).2 (agree.trans front'.symm)
      rw [front, front_source] at this
      exact differs (Option.some.inj this)
    rw [nextCopy_of_peek (mt (begin.pos.eq_iff alike ends).2 apart) front', if_neg disagree]
    exact .none

end Cursor

/-- Both searches find a match or neither does; the matches end at related positions, and so do the
spans of every group. -/
structure AnswersRelated (R : P₁ → P₂ → Prop) (x : Option S₁ × Cache P₁) (y : Option S₂ × Cache P₂) :
    Prop where
  stop : Option.Rel (fun a b => R (pos a) (pos b)) x.1 y.1
  spans : ∀ tag, Option.Rel (Span.Related R) ((x.2.tracker? tag).bind Tracker.span?)
    ((y.2.tracker? tag).bind Tracker.span?)

namespace Machine

structure Related (s₁ : Stream S₁) (s₂ : Stream S₂) (m : Machine S₁ P₁) (k : Machine S₂ P₂) :
    Prop where
  control : m.control = k.control
  cursor : s₁.SamePlace s₂ m.cursor k.cursor
  trail : List.Forall₂ (TrailEntry.Related (s₁.SamePos s₂)) m.cache.trail k.cache.trail
  trackers : Pointwise (Tracker.Related (s₁.SamePos s₂)) m.cache.trackers k.cache.trackers
  slots : Pointwise (Slot.Related (s₁.SamePos s₂)) m.cache.slots k.cache.slots

inductive StepRelated (s₁ : Stream S₁) (s₂ : Stream S₂) : Step S₁ P₁ → Step S₂ P₂ → Prop
  | move {m k} (event event') (related : Related s₁ s₂ m k) :
      StepRelated s₁ s₂ (.move event m) (.move event' k)
  | accept {m k} (related : Related s₁ s₂ m k) : StepRelated s₁ s₂ (.accept m) (.accept k)
  | exhaust {m k} (related : Related s₁ s₂ m k) : StepRelated s₁ s₂ (.exhaust m) (.exhaust k)
  | fault (f : Fault) : StepRelated s₁ s₂ (.fault f) (.fault f)

variable {s₁ : Stream S₁} {s₂ : Stream S₂} {m : Machine S₁ P₁} {k : Machine S₂ P₂}

namespace Related

theorem resuming (h : Related s₁ s₂ m k) : Related s₁ s₂ m.resuming k.resuming :=
  { h with control := rfl }

theorem push (h : Related s₁ s₂ m k) {e : TrailEntry P₁} {f : TrailEntry P₂}
    (entry : TrailEntry.Related (s₁.SamePos s₂) e f) : Related s₁ s₂ (m.push e) (k.push f) :=
  { h with trail := .cons entry h.trail }

theorem goTo (h : Related s₁ s₂ m k) {a : S₁} {b : S₂} (same : s₁.SamePlace s₂ a b) :
    Related s₁ s₂ { m with cursor := a } { k with cursor := b } :=
  { h with cursor := same }

theorem setSlot (h : Related s₁ s₂ m k) (trap : TrapId) {old new : Slot P₁} {old' new' : Slot P₂}
    (before : Slot.Related (s₁.SamePos s₂) old old') (after : Slot.Related (s₁.SamePos s₂) new new') :
    Related s₁ s₂ (m.setSlot trap old new) (k.setSlot trap old' new') where
  control := h.control
  cursor := h.cursor
  trail := .cons (.trap trap before) h.trail
  trackers := h.trackers
  slots := h.slots.setIfInBounds trap.val after

theorem bind (h : Related s₁ s₂ m k) (tag : Option TagId)
    {change : Tracker P₁ → P₁ → Tracker.Undo P₁ × Tracker P₁}
    {change' : Tracker P₂ → P₂ → Tracker.Undo P₂ × Tracker P₂}
    (changes : ∀ t u p q, Tracker.Related (s₁.SamePos s₂) t u → s₁.SamePos s₂ p q →
      Tracker.Undo.Related (s₁.SamePos s₂) (change t p).1 (change' u q).1 ∧
        Tracker.Related (s₁.SamePos s₂) (change t p).2 (change' u q).2) :
    Outcomes (Related s₁ s₂) (m.bind tag change) (k.bind tag change') := by
  obtain ⟨control, cursor, ⟨trail, trackers, slots⟩⟩ := m
  obtain ⟨control', cursor', ⟨trail', trackers', slots'⟩⟩ := k
  cases tag with
  | none => exact .answer h
  | some tag =>
    have here := h.trackers tag.val
    dsimp only at here
    simp only [Machine.bind]
    generalize trackers[tag.val]? = found at here ⊢
    generalize trackers'[tag.val]? = found' at here ⊢
    cases here with
    | none => exact .fault _
    | some tracker =>
      obtain ⟨undo, after⟩ := changes _ _ _ _ tracker h.cursor.pos
      exact .answer ⟨h.control, h.cursor, .cons (.tag tag undo) h.trail,
        h.trackers.setIfInBounds tag.val after, h.slots⟩

end Related

theorem arrived_related {R : P₁ → P₂ → Prop} {old : Slot P₁} {old' : Slot P₂}
    (h : Slot.Related R old old') : Slot.Related R (arrived old) (arrived old') := by
  unfold arrived
  rw [h.active]
  split
  · exact ⟨rfl, congrArg Ordinal.saturatingSuccessor h.count, h.enteredAt⟩
  · exact ⟨rfl, rfl, .none⟩

/-- Whether a round has consumed nothing is seen alike. -/
theorem enteredAt_eq_iff [Token T₁] [Token T₂] (alike : Alike s₁.tokens s₂.tokens) {old : Slot P₁}
    {old' : Slot P₂} (h : Slot.Related (s₁.SamePos s₂) old old') {here : P₁} {here' : P₂}
    (same : s₁.SamePos s₂ here here') :
    old.enteredAt = some here ↔ old'.enteredAt = some here' := by
  have entered := h.enteredAt
  generalize old.enteredAt = place at entered ⊢
  generalize old'.enteredAt = place' at entered ⊢
  cases entered with
  | none => simp
  | some there => simpa using there.eq_iff alike same

theorem start_related (g : Graph) (cache : Cache P₁) (cache' : Cache P₂) {c₁ : S₁} {c₂ : S₂}
    (same : s₁.SamePlace s₂ c₁ c₂) : Related s₁ s₂ (start g cache c₁) (start g cache' c₂) := by
  rw [start, start, prepare_eq_ofGraph, prepare_eq_ofGraph]
  refine ⟨rfl, same, .nil, ?_, Pointwise.replicate _ ⟨rfl, rfl, .none⟩⟩
  simpa [Cache.ofGraph, Cache.prepare] using Pointwise.replicate _ Tracker.related_empty

theorem sighting?_related (h : Related s₁ s₂ m k) : List.Forall₂ (Mark.Related (s₁.SamePos s₂))
    (m.sighting?.toList.map .seen) (k.sighting?.toList.map .seen) := by
  obtain ⟨control, cursor, ⟨trail, trackers, slots⟩⟩ := m
  obtain ⟨control', cursor', ⟨trail', trackers', slots'⟩⟩ := k
  obtain ⟨same, place, left, tables, loops⟩ := h
  dsimp only at same place left tables loops
  subst same
  cases control with
  | visit id => exact .cons (.seen ⟨rfl, place.pos, tables, loops⟩) .nil
  | resume =>
    cases left with
    | nil => exact .nil
    | cons entry =>
      cases entry with
      | arrow id index there => exact .cons (.seen ⟨rfl, there, tables, loops⟩) .nil
      | leave id there => exact .cons (.seen ⟨rfl, there, tables, loops⟩) .nil
      | tag | trap => exact .nil

theorem answersRelated_settle (h : Related s₁ s₂ m k) (found : Bool) :
    AnswersRelated (s₁.SamePos s₂) (if found then some m.cursor else none, m.cache.settle found)
      (if found then some k.cursor else none, k.cache.settle found) := by
  have trackers : Pointwise (Tracker.Related (s₁.SamePos s₂)) (m.cache.settle found).trackers
      (k.cache.settle found).trackers := by
    cases found with
    | true => exact h.trackers
    | false => exact h.trackers.map fun _ _ _ => Tracker.related_empty
  constructor
  · cases found with
    | true => exact .some h.cursor.pos
    | false => exact .none
  · intro tag
    have here := trackers tag.val
    simp only [Cache.tracker?]
    generalize (m.cache.settle found).trackers[tag.val]? = t at here ⊢
    generalize (k.cache.settle found).trackers[tag.val]? = u at here ⊢
    cases here with
    | none => exact .none
    | some tracker => exact tracker.span?

variable [Token T₁] [DecidableEq T₁] [DecidableEq P₁] [Token T₂] [DecidableEq T₂] [DecidableEq P₂]

theorem along_related (alike : Alike s₁.tokens s₂.tokens) (g : Graph)
    {trackers : Array (Tracker P₁)} {trackers' : Array (Tracker P₂)} {a : S₁} {b : S₂}
    (tables : Pointwise (Tracker.Related (s₁.SamePos s₂)) trackers trackers')
    (same : s₁.SamePlace s₂ a b) (label : Label) :
    Outcomes (Option.Rel (s₁.SamePlace s₂)) (along g trackers a label)
      (along g trackers' b label) := by
  cases label with
  | empty => exact .answer (.some same)
  | char ch => exact .answer (nextIf_related alike (· == ch) same)
  | literal cs => exact .answer (nextChars_related alike cs same)
  | any => exact .answer (nextIf_related alike (fun _ => true) same)
  | charClass id =>
    simp only [along]
    cases g.class? id with
    | none => exact .fault _
    | some set => exact .answer (nextIf_related alike set.contains same)
  | backref tag =>
    have here := tables tag.val
    simp only [along]
    generalize trackers[tag.val]? = found at here ⊢
    generalize trackers'[tag.val]? = found' at here ⊢
    cases here with
    | none => exact .fault _
    | @some t u tracker =>
      have span := tracker.span?
      dsimp only
      generalize t.span? = set at span ⊢
      generalize u.span? = set' at span ⊢
      cases span with
      | none => exact .answer .none
      | some ends =>
        exact .answer (nextCopy_related alike (same.back alike ends.start) ends.stop same)

theorem take_related (alike : Alike s₁.tokens s₂.tokens) (g : Graph) (h : Related s₁ s₂ m k)
    (arrow : Arrow) (event : Option (Event P₁)) (event' : Option (Event P₂)) :
    StepRelated s₁ s₂ (take g event m arrow) (take g event' k arrow) := by
  have goes := along_related alike g h.trackers h.cursor arrow.label
  generalize left : along g m.cache.trackers m.cursor arrow.label = result at goes
  generalize right : along g k.cache.trackers k.cursor arrow.label = result' at goes
  cases goes with
  | fault f =>
    rw [take_of_fault left, take_of_fault right]
    exact .fault f
  | answer found =>
    cases found with
    | none =>
      obtain ⟨c, back, taken⟩ := take_of_none event left
      obtain ⟨c', back', taken'⟩ := take_of_none event' right
      rw [taken, taken']
      exact .move _ _ { h.goTo (Stream.samePlace_of_handsBack h.cursor back back') with control := rfl }
    | some next =>
      rw [take_of_some left, take_of_some right]
      exact .move _ _ { h.goTo next with control := rfl }

theorem fanOut_related (alike : Alike s₁.tokens s₂.tokens) (g : Graph) (h : Related s₁ s₂ m k)
    (id : StateId) (arrows : Array Arrow) :
    StepRelated s₁ s₂ (fanOut g m id arrows) (fanOut g k id arrows) := by
  simp only [fanOut]
  cases arrows[0]? with
  | none => exact .move _ _ h.resuming
  | some arrow =>
    dsimp only
    split
    · exact take_related alike g (h.push (.arrow id 1 h.cursor.pos)) arrow _ _
    · exact take_related alike g h arrow _ _

theorem enterTrap_related (alike : Alike s₁.tokens s₂.tokens) (g : Graph) (h : Related s₁ s₂ m k)
    (id : StateId) (trap : TrapId) (r : Repetition) (body leave : Arrow) :
    StepRelated s₁ s₂ (enterTrap g m id trap r body leave) (enterTrap g k id trap r body leave) := by
  have slot := h.slots trap.val
  simp only [enterTrap]
  generalize m.cache.slots[trap.val]? = found at slot ⊢
  generalize k.cache.slots[trap.val]? = found' at slot ⊢
  cases slot with
  | none => exact .fault _
  | @some old old' old_related =>
    have here := h.cursor.pos
    -- Positions are compared here, and nowhere is more made of them.
    have still : decide (old.enteredAt = some (pos m.cursor)) =
        decide (old'.enteredAt = some (pos k.cursor)) :=
      decide_eq_decide.2 (enteredAt_eq_iff alike old_related here)
    have new := arrived_related old_related
    simp only [old_related.active, old_related.count, still, new.count]
    split
    · refine take_related alike g (h.setSlot trap old_related ?_) leave _ _
      exact ⟨rfl, rfl, old_related.enteredAt⟩
    · split
      · split
        · refine take_related alike g (.push (h.setSlot trap old_related ?_) (.leave id here)) body _ _
          exact ⟨new.active, rfl, .some here⟩
        · refine take_related alike g (h.setSlot trap old_related ?_) body _ _
          exact ⟨new.active, rfl, .some here⟩
      · split
        · refine take_related alike g (h.setSlot trap old_related ?_) leave _ _
          exact ⟨rfl, rfl, new.enteredAt⟩
        · exact .move _ _ (h.setSlot trap old_related new).resuming

theorem bindFanOut_related (alike : Alike s₁.tokens s₂.tokens) (g : Graph) (id : StateId)
    (arrows : Array Arrow) {bound : Except Fault (Machine S₁ P₁)}
    {bound' : Except Fault (Machine S₂ P₂)} :
    Outcomes (Related s₁ s₂) bound bound' → StepRelated s₁ s₂
      (match bound with
        | .error f => .fault f
        | .ok m => fanOut g m id arrows)
      (match bound' with
        | .error f => .fault f
        | .ok m => fanOut g m id arrows) := by
  intro h
  cases h with
  | fault f => exact .fault f
  | answer related => exact fanOut_related alike g related id arrows

theorem visit_related (alike : Alike s₁.tokens s₂.tokens) (g : Graph) (matchToEnd : Bool)
    (h : Related s₁ s₂ m k) (id : StateId) :
    StepRelated s₁ s₂ (visit g matchToEnd m id) (visit g matchToEnd k id) := by
  unfold visit
  cases g.state? id with
  | none => exact .fault _
  | some state =>
    cases state with
    | relay arrow => exact take_related alike g h arrow _ _
    | fanout arrows => exact fanOut_related alike g h id arrows
    | tagOpen tag arrows =>
      exact bindFanOut_related alike g id arrows
        (h.bind tag fun _ _ _ _ tracker here => tracker.bindStart here)
    | tagClose tag arrows =>
      exact bindFanOut_related alike g id arrows
        (h.bind tag fun _ _ _ _ tracker here => tracker.bindStop here)
    | trap trap r body leave => exact enterTrap_related alike g h id trap r body leave
    | terminal =>
      have done : isDone m.cursor = isDone k.cursor := by
        have chars := congrArg Option.isNone (h.cursor.char_eq alike)
        rwa [Option.isNone_map, Option.isNone_map] at chars
      simp only [done]
      split
      · exact .move _ _ h.resuming
      · exact .accept h

theorem resumeArrow_related (alike : Alike s₁.tokens s₂.tokens) (g : Graph) (h : Related s₁ s₂ m k)
    (id : StateId) (index : Nat) {here : P₁} {here' : P₂} (there : s₁.SamePos s₂ here here') :
    StepRelated s₁ s₂ (resumeArrow g m id index here) (resumeArrow g k id index here') := by
  unfold resumeArrow
  cases g.state? id with
  | none => exact .fault _
  | some state =>
    dsimp only
    cases state.arrows[index]? with
    | none => exact .fault _
    | some arrow =>
      have returned := h.goTo (h.cursor.back alike there)
      dsimp only
      split
      · exact take_related alike g (returned.push (.arrow id (index + 1) there)) arrow _ _
      · exact take_related alike g returned arrow _ _

theorem resumeLeave_related (alike : Alike s₁.tokens s₂.tokens) (g : Graph) (h : Related s₁ s₂ m k)
    (id : StateId) {here : P₁} {here' : P₂} (there : s₁.SamePos s₂ here here') :
    StepRelated s₁ s₂ (resumeLeave g m id here) (resumeLeave g k id here') := by
  unfold resumeLeave
  cases g.state? id with
  | none => exact .fault _
  | some state =>
    cases state with
    | relay | fanout | tagOpen | tagClose | terminal => exact .fault _
    | trap trap r body leave =>
      have slot := h.slots trap.val
      dsimp only
      generalize m.cache.slots[trap.val]? = found at slot ⊢
      generalize k.cache.slots[trap.val]? = found' at slot ⊢
      cases slot with
      | none => exact .fault _
      | some old =>
        have returned := h.goTo (h.cursor.back alike there)
        refine take_related alike g (returned.setSlot trap old ?_) leave _ _
        exact ⟨rfl, old.count, old.enteredAt⟩

theorem resume_related (alike : Alike s₁.tokens s₂.tokens) (g : Graph) (h : Related s₁ s₂ m k) :
    StepRelated s₁ s₂ (resume g m) (resume g k) := by
  obtain ⟨control, cursor, ⟨trail, trackers, slots⟩⟩ := m
  obtain ⟨control', cursor', ⟨trail', trackers', slots'⟩⟩ := k
  obtain ⟨same, place, left, tables, loops⟩ := h
  dsimp only at same place left tables loops
  cases left with
  | nil => exact .exhaust ⟨same, place, .nil, tables, loops⟩
  | cons entry older =>
    cases entry with
    | arrow id index there =>
      exact resumeArrow_related alike g ⟨same, place, older, tables, loops⟩ id index there
    | leave id there => exact resumeLeave_related alike g ⟨same, place, older, tables, loops⟩ id there
    | tag tag undo =>
      have reverted := tables.modify tag.val fun _ _ tracker => tracker.undo undo
      exact .move _ _ ⟨same, place, older, reverted, loops⟩
    | trap trap slot =>
      exact .move _ _ ⟨same, place, older, tables, loops.setIfInBounds trap.val slot⟩

theorem step_related (alike : Alike s₁.tokens s₂.tokens) (g : Graph) (matchToEnd : Bool)
    (h : Related s₁ s₂ m k) : StepRelated s₁ s₂ (step g matchToEnd m) (step g matchToEnd k) := by
  unfold step
  rw [h.control]
  cases k.control with
  | visit id => exact visit_related alike g matchToEnd h id
  | resume => exact resume_related alike g h

theorem run_related (alike : Alike s₁.tokens s₂.tokens) (g : Graph) (matchToEnd : Bool) (n : Nat)
    (h : Related s₁ s₂ m k) :
    Outcomes (fun x y => x.1 = y.1 ∧ Related s₁ s₂ x.2 y.2) (run g matchToEnd n m)
      (run g matchToEnd n k) := by
  induction n generalizing m k with
  | zero => exact .fault _
  | succ n ih =>
    have stepped := step_related alike g matchToEnd h
    simp only [run]
    generalize step g matchToEnd m = next at stepped ⊢
    generalize step g matchToEnd k = next' at stepped ⊢
    cases stepped with
    | move _ _ related => exact ih related
    | accept related => exact .answer ⟨rfl, related⟩
    | exhaust related => exact .answer ⟨rfl, related⟩
    | fault f => exact .fault f

theorem course_related (alike : Alike s₁.tokens s₂.tokens) (g : Graph) (matchToEnd : Bool) (n : Nat)
    (h : Related s₁ s₂ m k) : List.Forall₂ (Mark.Related (s₁.SamePos s₂)) (m.course g matchToEnd n)
      (k.course g matchToEnd n) := by
  induction n generalizing m k with
  | zero => exact .nil
  | succ n ih =>
    have stepped := step_related alike g matchToEnd h
    simp only [course]
    apply List.rel_append (sighting?_related h)
    generalize step g matchToEnd m = next at stepped ⊢
    generalize step g matchToEnd k = next' at stepped ⊢
    cases stepped with
    | move _ _ related => exact ih related
    | accept => exact .cons .accepted .nil
    | exhaust => exact .cons .exhausted .nil
    | fault f => exact .cons (.fault f) .nil

end Machine

variable [Token T₁] [DecidableEq T₁] [DecidableEq P₁] [Token T₂] [DecidableEq T₂] [DecidableEq P₂]

/-- The searches from the two cursors take the same steps and come to the same answer, with positions
that are related. -/
structure Backtracker.Corresponds (b : Backtracker) (R : P₁ → P₂ → Prop) (c₁ : S₁) (c₂ : S₂) :
    Prop where
  course : ∀ steps (cache₁ : Cache P₁) (cache₂ : Cache P₂), List.Forall₂ (Mark.Related R)
    ((Machine.start b.graph cache₁ c₁).course b.graph b.matchToEnd steps)
    ((Machine.start b.graph cache₂ c₂).course b.graph b.matchToEnd steps)
  search : ∀ steps (cache₁ : Cache P₁) (cache₂ : Cache P₂),
    Outcomes (AnswersRelated R) (b.search steps cache₁ c₁) (b.search steps cache₂ c₂)

variable {s₁ : Stream S₁} {s₂ : Stream S₂}

theorem Backtracker.corresponds_of_alike (b : Backtracker) (alike : Alike s₁.tokens s₂.tokens)
    {c₁ : S₁} {c₂ : S₂} (same : s₁.SamePlace s₂ c₁ c₂) : b.Corresponds (s₁.SamePos s₂) c₁ c₂ := by
  constructor
  · intro steps cache₁ cache₂
    exact Machine.course_related alike b.graph b.matchToEnd steps (Machine.start_related _ _ _ same)
  · intro steps cache₁ cache₂
    have ran := Machine.run_related alike b.graph b.matchToEnd steps
      (Machine.start_related b.graph cache₁ cache₂ same)
    simp only [Backtracker.search]
    generalize Machine.run b.graph b.matchToEnd steps (.start b.graph cache₁ c₁) = r at ran ⊢
    generalize Machine.run b.graph b.matchToEnd steps (.start b.graph cache₂ c₂) = r' at ran ⊢
    cases ran with
    | fault f => exact .fault f
    | @answer x y related =>
      obtain ⟨found, m⟩ := x
      obtain ⟨found', k⟩ := y
      obtain ⟨rfl, machines⟩ := related
      exact .answer (Machine.answersRelated_settle machines found)

end Runs

namespace TextCursor

/-- Nothing depends on what precedes the cursor in its text. -/
theorem corresponds_of_drop (b : Backtracker) {text back : String} {front : List Char}
    (split : text.toList = front ++ back.toList) :
    b.Corresponds (fun p q => isBoundary back q = true ∧ p = String.utf8Len front + q)
      (⟨text, String.utf8Len front⟩ : TextCursor) (start back) := by
  have places : (fun p q => isBoundary back q = true ∧ p = String.utf8Len front + q) =
      ((stream text).drop front.length).SamePos (stream back) := by
    funext p q
    exact (propext (samePos_text_iff split)).symm
  rw [places]
  refine b.corresponds_of_alike ?_ ⟨0, stands_of_split split, Nat.zero_le _, rfl⟩
  rw [tokens_of_split split]
  exact .of_chars Function.injective_id Function.injective_id rfl

theorem corresponds_of_tokens (b : Backtracker) {T : Type} [Token T] [DecidableEq T]
    (inj : Function.Injective (Token.toChar : T → Char)) {text : String} {front : List Char}
    {ts : Array T} (split : text.toList = front ++ ts.toList.map Token.toChar) :
    b.Corresponds (fun p i => i ≤ ts.size ∧
        p = String.utf8Len front + String.utf8Len ((ts.toList.take i).map Token.toChar))
      (⟨text, String.utf8Len front⟩ : TextCursor) (TokenCursor.start ts) := by
  have places : (fun p i => i ≤ ts.size ∧
        p = String.utf8Len front + String.utf8Len ((ts.toList.take i).map Token.toChar)) =
      ((stream text).drop front.length).SamePos (TokenCursor.stream ts) := by
    funext p i
    exact (propext (samePos_tokens_iff split)).symm
  rw [places]
  exact b.corresponds_of_alike (alike_tokens inj split)
    ⟨0, stands_of_split split, Nat.zero_le _, rfl⟩

end TextCursor

/-- Searches from two cursors whose streams are alike from there on take the same steps and come to the
same answer, place for place. So it makes no difference whether a cursor is set up inside a text or at
the beginning of what is left of it, nor whether it goes through a text or through its characters, nor
whether these are given as bytes. -/
theorem search_corresponds (b : Backtracker) :
    (∀ {S₁ T₁ P₁ S₂ T₂ P₂ : Type} [Cursor S₁ T₁ P₁] [Token T₁] [DecidableEq T₁] [DecidableEq P₁]
        [Cursor S₂ T₂ P₂] [Token T₂] [DecidableEq T₂] [DecidableEq P₂] (s₁ : Stream S₁)
        (s₂ : Stream S₂) {k₁ k₂ : Nat} {c₁ : S₁} {c₂ : S₂},
      s₁.Stands c₁ k₁ → s₂.Stands c₂ k₂ → Alike (s₁.tokens.drop k₁) (s₂.tokens.drop k₂) →
        b.Corresponds ((s₁.drop k₁).SamePos (s₂.drop k₂)) c₁ c₂) ∧
    (∀ (text : String) (k : Nat) (c : TextCursor), TextCursor.startAt? text k = some c →
      ∃ back, TextCursor.slice? text ⟨k, text.utf8ByteSize⟩ = some back ∧
        b.Corresponds (fun p q => TextCursor.isBoundary back q = true ∧ p = k + q) c
          (TextCursor.start back) ∧
        b.Corresponds (fun p i => i ≤ back.length ∧ p = k + String.utf8Len (back.toList.take i)) c
          (TokenCursor.start back.toList.toArray)) ∧
    ∀ bytes : Array UInt8, b.Corresponds
      (fun p i => i ≤ bytes.size ∧ p = String.utf8Len ((bytes.toList.take i).map Token.toChar))
      (TextCursor.start (String.ofList (bytes.toList.map Token.toChar))) (TokenCursor.start bytes) := by
  refine ⟨?_, ?_, ?_⟩
  · intro S₁ T₁ P₁ S₂ T₂ P₂ _ _ _ _ _ _ _ _ s₁ s₂ k₁ k₂ c₁ c₂ stands₁ stands₂ alike
    have place : (s₁.drop k₁).SamePlace (s₂.drop k₂) c₁ c₂ := ⟨0, stands₁, stands₂⟩
    refine b.corresponds_of_alike ?_ place
    exact alike
  · intro text k c placed
    unfold TextCursor.startAt? at placed
    split at placed
    · rename_i boundary
      obtain rfl := Option.some.inj placed
      obtain ⟨front, back, split, rfl⟩ := TextCursor.isBoundary_iff.1 boundary
      have whole : text.toList = front ++ (String.ofList back).toList := by
        rw [split, String.toList_ofList]
      -- A boundary cuts the text in two, and what is behind it is a text of its own.
      refine ⟨String.ofList back, TextCursor.slice_to_end split,
        TextCursor.corresponds_of_drop b whole, ?_⟩
      have spelled : text.toList = front ++
          ((String.ofList back).toList.toArray.toList.map Token.toChar) := by
        rw [whole]
        exact congrArg _ (List.map_id _).symm
      have corresponds := TextCursor.corresponds_of_tokens b Function.injective_id spelled
      have same (cs : List Char) : cs.map Token.toChar = cs := List.map_id cs
      simpa only [same, List.size_toArray, String.length_toList] using corresponds
    · cases placed
  · intro bytes
    have spelled : (String.ofList (bytes.toList.map Token.toChar)).toList =
        [] ++ bytes.toList.map Token.toChar := String.toList_ofList
    have corresponds := TextCursor.corresponds_of_tokens b toChar_byte_injective spelled
    simpa [TextCursor.start] using corresponds

def copiedToken : Graph where
  states := #[.tagOpen (some ⟨0⟩) #[⟨.any, ⟨1⟩⟩], .tagClose (some ⟨0⟩) #[⟨.char 'b', ⟨2⟩⟩],
    .relay ⟨.backref ⟨0⟩, ⟨3⟩⟩, .terminal]
  start := ⟨0⟩
  terminal := ⟨3⟩
  classes := #[]
  names := .single
  trapCount := 0
  leading := none

def markedTokens : Array (Char × Nat) := #[('a', 4), ('b', 0), ('a', 4)]

theorem search_corresponds_markedTokens :
    (TextCursor.stream "éaba").Stands ⟨"éaba", 2⟩ 1 ∧
    (TokenCursor.stream markedTokens).Stands (.start markedTokens) 0 ∧
    Alike ("éaba".toList.drop 1) (markedTokens.toList.drop 0) ∧
    (Backtracker.mk copiedToken true).Corresponds (((TextCursor.stream "éaba").drop 1).SamePos
      ((TokenCursor.stream markedTokens).drop 0)) (⟨"éaba", 2⟩ : TextCursor)
      (TokenCursor.start markedTokens) ∧
    ((Backtracker.mk copiedToken true).search 10 (.ofGraph copiedToken)
      (TokenCursor.start markedTokens)).toOption.bind (·.1.map (·.index)) = some 3 ∧
    TextCursor.startAt? "éaba" 2 = some ⟨"éaba", 2⟩ ∧
    ∃ back, TextCursor.slice? "éaba" ⟨2, 5⟩ = some back ∧
      (Backtracker.mk copiedToken true).Corresponds
        (fun p q => TextCursor.isBoundary back q = true ∧ p = 2 + q) (⟨"éaba", 2⟩ : TextCursor)
        (TextCursor.start back) := by
  have stands₁ : (TextCursor.stream "éaba").Stands ⟨"éaba", 2⟩ 1 := ⟨by decide +kernel, rfl⟩
  have stands₂ : (TokenCursor.stream markedTokens).Stands (.start markedTokens) 0 := ⟨by decide, rfl⟩
  have equal : ∀ i < 3, ∀ j < 3, (("éaba".toList.drop 1)[i]? = ("éaba".toList.drop 1)[j]? ↔
      (markedTokens.toList.drop 0)[i]? = (markedTokens.toList.drop 0)[j]?) := by decide +kernel
  have alike : Alike ("éaba".toList.drop 1) (markedTokens.toList.drop 0) :=
    ⟨by decide +kernel, fun i j left right => equal i left j right⟩
  have found : ((Backtracker.mk copiedToken true).search 10 (.ofGraph copiedToken)
      (TokenCursor.start markedTokens)).toOption.bind (·.1.map (·.index)) = some 3 := by
    decide +kernel
  have placed : TextCursor.startAt? "éaba" 2 = some ⟨"éaba", 2⟩ := rfl
  obtain ⟨streams, texts, _⟩ := search_corresponds (.mk copiedToken true)
  obtain ⟨back, rest, corresponds, _⟩ := texts "éaba" 2 _ placed
  exact ⟨stands₁, stands₂, alike, streams _ _ stands₁ stands₂ alike, found, placed, back, rest,
    corresponds⟩

end PatternGraph
