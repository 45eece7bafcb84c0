import PatternGraph.Capture.Tracker

/-!
The bindings of one group, one after the other. What a binding returns reverts it whatever the group held
before, so going back over a sequence of them passes through all that the group held on the way.
-/
namespace PatternGraph.Tracker
variable {P : Type}

theorem undo_bindStart (t : Tracker P) (p : P) : (t.bindStart p).2.undo (t.bindStart p).1 = t := by
  obtain ⟨starts, stop⟩ := t
  cases stop <;> cases starts <;> rfl

theorem undo_bindStop (t : Tracker P) (p : P) : (t.bindStop p).2.undo (t.bindStop p).1 = t := by
  obtain ⟨starts, stop⟩ := t
  simp only [bindStop, undo, mk.injEq, and_true]
  cases starts with
  | nil => rfl
  | cons s older => simp [List.getLast?_eq_some_getLast, List.dropLast_concat_getLast]

inductive Binding (P : Type)
  | start (p : P)
  | stop (p : P)
  deriving DecidableEq, Repr

def bind (t : Tracker P) : Binding P → Undo P × Tracker P
  | .start p => t.bindStart p
  | .stop p => t.bindStop p

/-- What the bindings return, in their order, and what the group holds after them. -/
def bindAll (t : Tracker P) : List (Binding P) → List (Undo P) × Tracker P
  | [] => ([], t)
  | b :: bs =>
    let (undo, t) := t.bind b
    let (undos, t) := t.bindAll bs
    (undo :: undos, t)

def undoAll (t : Tracker P) (undos : List (Undo P)) : Tracker P :=
  undos.foldr (fun undo t => t.undo undo) t

theorem undo_bind (t : Tracker P) (b : Binding P) : (t.bind b).2.undo (t.bind b).1 = t := by
  cases b with
  | start p => exact t.undo_bindStart p
  | stop p => exact t.undo_bindStop p

theorem length_bindAll (t : Tracker P) (bs : List (Binding P)) :
    (t.bindAll bs).1.length = bs.length := by
  induction bs generalizing t with
  | nil => rfl
  | cons b bs ih => exact congrArg (· + 1) (ih (t.bind b).2)

theorem undoAll_drop_bindAll (t : Tracker P) (bs : List (Binding P)) (k : Nat) :
    (t.bindAll bs).2.undoAll ((t.bindAll bs).1.drop k) = (t.bindAll (bs.take k)).2 := by
  induction bs generalizing t k with
  | nil => simp [bindAll, undoAll]
  | cons b bs ih =>
    cases k with
    | zero =>
      have later : (t.bindAll (b :: bs)).2.undoAll ((t.bind b).2.bindAll bs).1 = (t.bind b).2 :=
        ih (t.bind b).2 0
      change ((t.bindAll (b :: bs)).2.undoAll ((t.bind b).2.bindAll bs).1).undo (t.bind b).1 = t
      rw [later, undo_bind]
    | succ k => exact ih (t.bind b).2 k

/-- A group that was entered keeps a start: a new one comes in place of the last, and of several the
oldest stays. -/
theorem starts_bind_ne_nil {t : Tracker P} (entered : t.starts ≠ []) (b : Binding P) :
    (t.bind b).2.starts ≠ [] := by
  obtain ⟨starts, stop⟩ := t
  cases starts with
  | nil => exact absurd rfl entered
  | cons s older =>
    cases b with
    | start p => cases stop <;> exact List.cons_ne_nil _ _
    | stop p => simp [bind, bindStop, List.getLast?_cons]

theorem starts_bindAll_ne_nil {t : Tracker P} (entered : t.starts ≠ []) (bs : List (Binding P)) :
    (t.bindAll bs).2.starts ≠ [] := by
  induction bs generalizing t with
  | nil => exact entered
  | cons b bs ih => exact ih (starts_bind_ne_nil entered b)

/-- Every end comes after some start. -/
def Opened (bs : List (Binding P)) : Prop :=
  ∀ (i : Nat) (p : P), bs[i]? = some (.stop p) → ∃ j, j < i ∧ ∃ q, bs[j]? = some (.start q)

theorem Opened.starts_ne_nil {bs : List (Binding P)} (opened : Opened bs)
    (ended : ((empty : Tracker P).bindAll bs).2.stop ≠ none) :
    ((empty : Tracker P).bindAll bs).2.starts ≠ [] := by
  cases bs with
  | nil => exact absurd rfl ended
  | cons b bs =>
    cases b with
    | start p => exact starts_bindAll_ne_nil (List.cons_ne_nil p []) bs
    | stop p =>
      obtain ⟨j, before, _⟩ := opened 0 p rfl
      exact absurd before (Nat.not_lt_zero j)

theorem Opened.take {bs : List (Binding P)} (opened : Opened bs) (k : Nat) : Opened (bs.take k) := by
  intro i p stop
  rw [List.getElem?_take] at stop
  split at stop
  · rename_i inside
    obtain ⟨j, before, q, start⟩ := opened i p stop
    exact ⟨j, before, q, by rw [List.getElem?_take_of_lt (Nat.lt_trans before inside), start]⟩
  · cases stop

/-- Bindings are taken back exactly, all of them or the last ones, from whatever the group held before;
and as long as every end comes after some start, a group with an end has a start. -/
theorem bindAll_reverts (t : Tracker P) (bs : List (Binding P)) :
    (t.bindAll bs).1.length = bs.length ∧
    (t.bindAll bs).2.undoAll (t.bindAll bs).1 = t ∧
    (∀ k, (t.bindAll bs).2.undoAll ((t.bindAll bs).1.drop k) = (t.bindAll (bs.take k)).2) ∧
    (Opened bs → ∀ k, ((empty : Tracker P).bindAll (bs.take k)).2.stop ≠ none →
      ((empty : Tracker P).bindAll (bs.take k)).2.starts ≠ []) := by
  refine ⟨t.length_bindAll bs, t.undoAll_drop_bindAll bs 0, t.undoAll_drop_bindAll bs, ?_⟩
  intro opened k ended
  exact (opened.take k).starts_ne_nil ended

/-- A group with an end and no start is entered twice, left, and entered again. -/
theorem bindAll_reverts_endWithoutStart :
    let bs : List (Binding Nat) := [.start 1, .start 3, .stop 4, .start 6, .stop 7]
    let held : Tracker Nat := ⟨[], some 0⟩
    Opened bs ∧ (held.bindAll bs).1.length = 5 ∧ (held.bindAll bs).2.undoAll (held.bindAll bs).1 = held ∧
      (∀ k, (held.bindAll bs).2.undoAll ((held.bindAll bs).1.drop k) = (held.bindAll (bs.take k)).2) ∧
      ∀ k, (empty.bindAll (bs.take k)).2.stop ≠ none → (empty.bindAll (bs.take k)).2.starts ≠ [] := by
  intro bs held
  have opened : Opened bs := by
    intro i p stop
    refine ⟨0, ?_, 1, rfl⟩
    cases i with
    | zero => cases stop
    | succ i => exact Nat.succ_pos i
  obtain ⟨length, all, last, starts⟩ := bindAll_reverts held bs
  exact ⟨opened, length, all, last, starts opened⟩

/-- Of the pending starts 1 and 3 the newer one goes with the end 4, and comes back with it. -/
example :
    let t := ((empty : Tracker Nat).bindAll [.start 1, .start 3, .stop 4])
    t.2 = ⟨[1], some 4⟩ ∧ t.2.undoAll (t.1.drop 2) = ⟨[3, 1], none⟩ := by decide

end PatternGraph.Tracker
