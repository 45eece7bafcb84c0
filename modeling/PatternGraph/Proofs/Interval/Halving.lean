/-!
Searching an ordered list by halving the part in which an element can be. A search finds what it seeks
only if all that lies before it in the order also stands before it in the list.
-/
namespace PatternGraph

variable {α : Type}

/-- Where an element stands that is neither before nor after what is sought, if it is among those from
`low` up to `high`; otherwise where it would have to stand. -/
def halve (side : α → Ordering) (xs : List α) (low high : Nat) : Except Nat Nat :=
  if low < high then
    let middle := (low + high) / 2
    match xs[middle]? with
    | none => .error low
    | some x =>
      match side x with
      | .eq => .ok middle
      | .lt => halve side xs (middle + 1) high
      | .gt => halve side xs low middle
  else .error low
termination_by high - low

/-- No element that is before what is sought stands behind one that is not, and the other way round. -/
def Aligned (side : α → Ordering) (xs : List α) : Prop :=
  xs.Pairwise fun x y => (side y = .lt → side x = .lt) ∧ (side x = .gt → side y = .gt)

def Halved (side : α → Ordering) (xs : List α) : Except Nat Nat → Prop
  | .ok k => ∃ x, xs[k]? = some x ∧ side x = .eq
  | .error k => (∀ x ∈ xs.take k, side x = .lt) ∧ ∀ x ∈ xs.drop k, side x = .gt

theorem Aligned.take_lt {side : α → Ordering} {xs : List α} (aligned : Aligned side xs) {k : Nat}
    {x : α} (found : xs[k]? = some x) (before : side x = .lt) :
    ∀ y ∈ xs.take (k + 1), side y = .lt := by
  intro y mem
  obtain ⟨inside, rfl⟩ := List.getElem?_eq_some_iff.1 found
  rw [List.take_succ_eq_append_getElem inside, List.mem_append, List.mem_singleton] at mem
  rcases mem with mem | rfl
  · have split := List.take_append_drop k xs
    rw [List.drop_eq_getElem_cons inside] at split
    have aligned := aligned
    rw [Aligned, ← split, List.pairwise_append] at aligned
    exact (aligned.2.2 y mem _ List.mem_cons_self).1 before
  · exact before

theorem Aligned.drop_gt {side : α → Ordering} {xs : List α} (aligned : Aligned side xs) {k : Nat}
    {x : α} (found : xs[k]? = some x) (after : side x = .gt) : ∀ y ∈ xs.drop k, side y = .gt := by
  intro y mem
  obtain ⟨inside, rfl⟩ := List.getElem?_eq_some_iff.1 found
  rw [List.drop_eq_getElem_cons inside] at mem
  rcases List.mem_cons.1 mem with rfl | mem
  · exact after
  · have split := List.take_append_drop k xs
    rw [List.drop_eq_getElem_cons inside] at split
    have aligned := aligned
    rw [Aligned, ← split, List.pairwise_append, List.pairwise_cons] at aligned
    exact (aligned.2.1.1 y mem).2 after

/-- All that is left out on the way lies on its own side of what is sought. -/
theorem halved_halve {side : α → Ordering} {xs : List α} (aligned : Aligned side xs) {low high : Nat}
    (le : low ≤ high) (inside : high ≤ xs.length) (before : ∀ x ∈ xs.take low, side x = .lt)
    (after : ∀ x ∈ xs.drop high, side x = .gt) : Halved side xs (halve side xs low high) := by
  fun_induction halve side xs low high with
  | case1 low high open_ middle out =>
    rw [List.getElem?_eq_none_iff] at out
    omega
  | case2 low high open_ middle x found here => exact ⟨x, found, here⟩
  | case3 low high open_ middle x found here ih =>
    exact ih (by omega) inside (aligned.take_lt found here) after
  | case4 low high open_ middle x found here ih =>
    exact ih (by omega) (by omega) before (aligned.drop_gt found here)
  | case5 low high closed =>
    have same : low = high := by omega
    rw [same] at before ⊢
    exact ⟨before, after⟩

theorem halved_all {side : α → Ordering} {xs : List α} (aligned : Aligned side xs) :
    Halved side xs (halve side xs 0 xs.length) := by
  apply halved_halve aligned (Nat.zero_le _) (Nat.le_refl _)
  · simp
  · simp

/-- How many elements stand before the first that fails the test, if all behind it fail it too. -/
def cut (p : α → Bool) (xs : List α) : Nat :=
  match halve (fun x => if p x then .lt else .gt) xs 0 xs.length with
  | .ok k | .error k => k

theorem cut_splits {p : α → Bool} {xs : List α}
    (first : xs.Pairwise fun x y => p y = true → p x = true) :
    (∀ x ∈ xs.take (cut p xs), p x = true) ∧ ∀ x ∈ xs.drop (cut p xs), p x = false := by
  have aligned : Aligned (fun x => if p x then .lt else .gt) xs := by
    apply first.imp
    intro x y before
    cases px : p x <;> cases py : p y <;> simp_all
  have halved := halved_all aligned
  unfold cut
  cases found : halve (fun x => if p x then Ordering.lt else .gt) xs 0 xs.length with
  | ok k =>
    rw [found] at halved
    obtain ⟨x, _, here⟩ := halved
    cases px : p x <;> simp [px] at here
  | error k =>
    rw [found] at halved
    obtain ⟨before, after⟩ := halved
    constructor
    · intro x mem
      cases px : p x with
      | true => rfl
      | false => simpa [px] using before x mem
    · intro x mem
      cases px : p x with
      | true => simpa [px] using after x mem
      | false => rfl

end PatternGraph
