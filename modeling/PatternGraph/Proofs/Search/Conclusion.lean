import PatternGraph.Proofs.Search.Reference
import PatternGraph.Proofs.Search.Rewinding
import PatternGraph.Proofs.Search.UndoLog

/-!
Runs of the backtracking machine that come to an end, told by what they hold then. A machine is
written with the captures of an environment in place of trackers, because in a graph of nested
groups a tracker never holds more than one start.
-/
namespace PatternGraph
open Cursor

variable {S T P : Type}

def Capture.tracker (c : Capture P) : Tracker P := ⟨c.start.toList, c.stop⟩

theorem Capture.span?_tracker (c : Capture P) : c.tracker.span? = c.span? := by
  rcases c with ⟨start, stop⟩
  cases start <;> cases stop <;> rfl

namespace Env

def table (size : Nat) (σ : Env S P) : Array (Tracker P) :=
  .ofFn fun i : Fin size => (σ.captures ⟨i.val⟩).tracker

theorem getElem?_table {size : Nat} (σ : Env S P) {tag : TagId} (inside : tag.val < size) :
    (σ.table size)[tag.val]? = some (σ.captures tag).tracker := by
  simp [table, inside]

theorem table_set (size : Nat) (σ : Env S P) (tag : TagId) (c : Capture P) :
    (σ.table size).setIfInBounds tag.val c.tracker = (σ.set tag c).table size := by
  apply Array.ext_getElem?
  intro i
  rw [Array.getElem?_setIfInBounds]
  by_cases inside : i < size
  · by_cases same : tag.val = i
    · subst same
      simp [table, inside]
    · have apart : (⟨i⟩ : TagId) ≠ tag := by
        rintro rfl
        exact same rfl
      simp [table, inside, same, captures_set_of_ne c apart]
  · have outside : (σ.table size)[i]? = none := by simp [table, inside]
    rw [outside]
    simp [table, inside]
    omega

theorem table_start (size : Nat) (c : S) :
    (start c : Env S P).table size = Array.replicate size .empty := by
  apply Array.ext_getElem?
  intro i
  by_cases inside : i < size <;> simp [table, inside] <;> rfl

end Env

variable [Cursor S T P] [Token T] [DecidableEq T] [DecidableEq P]

namespace Machine
variable {g : Graph} {matchToEnd : Bool} {c₀ : S} {σ : Env S P} {trail : List (TrailEntry P)}
  {slots : Array (Slot P)} {answer : Option (Env S P)}

def holding (g : Graph) (control : Control) (σ : Env S P) (trail : List (TrailEntry P))
    (slots : Array (Slot P)) : Machine S P :=
  ⟨control, σ.cursor, ⟨trail, σ.table g.names.size, slots⟩⟩

/-- After finitely many steps the machine accepts with what an environment holds, or exhausts its
trail. -/
inductive Ends (g : Graph) (matchToEnd : Bool) : Machine S P → Option (Env S P) → Prop
  | accept {m m' σ} : step g matchToEnd m = .accept m' → m'.cursor = σ.cursor →
      m'.cache.trackers = σ.table g.names.size → Ends g matchToEnd m (some σ)
  | exhaust {m m'} : step g matchToEnd m = .exhaust m' → Ends g matchToEnd m none
  | move {m event m' answer} : step g matchToEnd m = .move event m' → Ends g matchToEnd m' answer →
      Ends g matchToEnd m answer

/-- Wherever the cursor is when the trail is turned to, the machine comes to `answer`. -/
def Falls (g : Graph) (matchToEnd : Bool) (c₀ : S) (σ : Env S P) (trail : List (TrailEntry P))
    (slots : Array (Slot P)) (answer : Option (Env S P)) : Prop :=
  ∀ c, Ahead c₀ c → Ends g matchToEnd (holding g .resume (σ.goTo c) trail slots) answer

def Leads (g : Graph) (matchToEnd : Bool) (σ : Env S P) (trail : List (TrailEntry P))
    (slots : Array (Slot P)) (a : Arrow) (answer : Option (Env S P)) : Prop :=
  ∃ found, along g (σ.table g.names.size) σ.cursor a.label = .ok found ∧
    match found with
    | none => ∀ c, HandsBack σ.cursor none (false, c) →
        Ends g matchToEnd (holding g .resume (σ.goTo c) trail slots) answer
    | some c => Ends g matchToEnd (holding g (.visit a.target) (σ.goTo c) trail slots) answer

/-- Taking the first of the arrows, which is the one at `index` of the state, and leaving the others
for later, the machine comes to `answer`. -/
def Chooses (g : Graph) (matchToEnd : Bool) (σ : Env S P) (trail : List (TrailEntry P))
    (slots : Array (Slot P)) (state : StateId) (index : Nat) (arrows : List Arrow)
    (answer : Option (Env S P)) : Prop :=
  match arrows with
  | [] => False
  | [a] => Leads g matchToEnd σ trail slots a answer
  | a :: _ :: _ =>
    Leads g matchToEnd σ (.arrow state (index + 1) (pos σ.cursor) :: trail) slots a answer

theorem Leads.ends {m : Machine S P} {a : Arrow} (leads : Leads g matchToEnd σ trail slots a answer)
    (control : Control) (event : Option (Event P))
    (takes : step g matchToEnd m = take g event (holding g control σ trail slots) a) :
    Ends g matchToEnd m answer := by
  obtain ⟨found, goes, ends⟩ := leads
  cases found with
  | none =>
    obtain ⟨c, back, taken⟩ := take_of_none event (m := holding g control σ trail slots) goes
    exact .move (takes.trans taken) (ends c back)
  | some c => exact .move (takes.trans (take_of_some goes)) ends

theorem leads_empty {id : StateId}
    (ends : Ends g matchToEnd (holding g (.visit id) σ trail slots) answer) :
    Leads g matchToEnd σ trail slots (.empty id) answer := ⟨some σ.cursor, rfl, ends⟩

theorem Leads.visit {id : StateId}
    (leads : Leads g matchToEnd σ trail slots (.empty id) answer) :
    Ends g matchToEnd (holding g (.visit id) σ trail slots) answer := by
  obtain ⟨found, goes, ends⟩ := leads
  cases goes
  exact ends

theorem Falls.here (falls : Falls g matchToEnd c₀ σ trail slots answer)
    (ahead : Ahead c₀ σ.cursor) :
    Ends g matchToEnd (holding g .resume σ trail slots) answer := falls σ.cursor ahead

/-- Where positions are restored, a cursor that was handed back has not moved. -/
theorem Falls.handedBack (falls : Falls g matchToEnd c₀ σ trail slots answer)
    (restores : Restores c₀) (ahead : Ahead c₀ σ.cursor) (c : S)
    (back : HandsBack σ.cursor none (false, c)) :
    Ends g matchToEnd (holding g .resume (σ.goTo c) trail slots) answer := by
  have same : c = σ.cursor := congrArg Prod.snd (back.restored restores ahead)
  rw [same]
  exact falls σ.cursor ahead

theorem Falls.goTo (falls : Falls g matchToEnd c₀ σ trail slots answer) (c : S) :
    Falls g matchToEnd c₀ (σ.goTo c) trail slots answer := falls

theorem Chooses.fanOut {m : Machine S P} (control : Control) {id : StateId} {arrows : Array Arrow}
    (chooses : Chooses g matchToEnd σ trail slots id 0 arrows.toList answer)
    (fans : step g matchToEnd m = fanOut g (holding g control σ trail slots) id arrows) :
    Ends g matchToEnd m answer := by
  rcases arrows with ⟨arrows⟩
  match arrows, chooses with
  | [a], leads => exact Leads.ends leads _ _ fans
  | a :: a' :: rest, leads =>
    have more : 1 < (a :: a' :: rest).toArray.size := by simp
    simp only [Machine.fanOut, List.getElem?_toArray, List.getElem?_cons_zero, more, if_true] at fans
    exact Leads.ends leads _ _ fans

theorem Chooses.later {id : StateId} {state : State} {index : Nat} {arrows : List Arrow}
    (restores : Restores c₀) (ahead : Ahead c₀ σ.cursor) (found : g.state? id = some state)
    (left : state.arrows.toList.drop index = arrows)
    (chooses : Chooses g matchToEnd σ trail slots id index arrows answer) :
    Falls g matchToEnd c₀ σ (.arrow id index (pos σ.cursor) :: trail) slots answer := by
  intro c ahead'
  have back : moveTo c (pos σ.cursor) = σ.cursor := restores c σ.cursor ahead' ahead
  have front : state.arrows[index]? = arrows.head? := by
    rw [← left, List.head?_drop, Array.getElem?_toList]
  have size : arrows ≠ [] → state.arrows.size = index + arrows.length := by
    intro some
    have length := congrArg List.length left
    have := List.length_pos_iff.2 some
    simp only [List.length_drop, Array.length_toList] at length
    omega
  have takes (a : Arrow) (more : Bool) (size : index + 1 < state.arrows.size ↔ more)
      (front : state.arrows[index]? = some a) :
      step g matchToEnd (holding g .resume (σ.goTo c) (.arrow id index (pos σ.cursor) :: trail) slots) =
        take g (some (.resumedArrow index id)) (holding g .resume σ
          (if more then .arrow id (index + 1) (pos σ.cursor) :: trail else trail) slots) a := by
    have stands : step g matchToEnd (holding g .resume (σ.goTo c)
        (.arrow id index (pos σ.cursor) :: trail) slots) =
        resumeArrow g (holding g .resume (σ.goTo c) trail slots) id index (pos σ.cursor) := rfl
    rw [stands, resumeArrow, found]
    simp only [front, size, holding, Env.goTo, back]
    cases more <;> rfl
  cases arrows with
  | nil => exact chooses.elim
  | cons a rest =>
    cases rest with
    | nil => exact Leads.ends chooses _ _ (takes a false (by simp [size]) front)
    | cons => exact Leads.ends chooses _ _ (takes a true (by simp [size]) front)

theorem Falls.tag {tag : TagId} {c : Capture P} {undo : Tracker.Undo P}
    (inside : tag.val < g.names.size) (reverts : c.tracker.undo undo = (σ.captures tag).tracker)
    (falls : Falls g matchToEnd c₀ σ trail slots answer) :
    Falls g matchToEnd c₀ (σ.set tag c) (.tag tag undo :: trail) slots answer := by
  intro c' ahead
  have back : (((σ.set tag c).goTo c').table g.names.size).modify tag.val (·.undo undo) =
      (σ.goTo c').table g.names.size := by
    have same := modify_setIfInBounds_undo (f := (·.undo undo)) (σ.getElem?_table inside) reverts
    rwa [Env.table_set] at same
  have unbinds : step g matchToEnd
      (holding g .resume ((σ.set tag c).goTo c') (.tag tag undo :: trail) slots) =
      .move none (holding g .resume (σ.goTo c') trail slots) := by
    simp only [step, resume, holding, back]
    rfl
  exact .move unbinds (falls c' ahead)

theorem Falls.slot {trap : TrapId} {old new : Slot P} (found : slots[trap.val]? = some old)
    (falls : Falls g matchToEnd c₀ σ trail slots answer) :
    Falls g matchToEnd c₀ σ (.trap trap old :: trail) (slots.setIfInBounds trap.val new) answer := by
  intro c ahead
  have sets : step g matchToEnd (holding g .resume (σ.goTo c) (.trap trap old :: trail)
      (slots.setIfInBounds trap.val new)) =
      .move none (holding g .resume (σ.goTo c) trail slots) := by
    simp only [step, resume, holding, setIfInBounds_undo found]
  exact .move sets (falls c ahead)

theorem Leads.later {id : StateId} {trap : TrapId} {r : Repetition} {body out : Arrow}
    {old : Slot P} (restores : Restores c₀) (ahead : Ahead c₀ σ.cursor)
    (state : g.state? id = some (.trap trap r body out)) (found : slots[trap.val]? = some old)
    (leads : Leads g matchToEnd σ (.trap trap old :: trail)
      (slots.setIfInBounds trap.val { old with active := false }) out answer) :
    Falls g matchToEnd c₀ σ (.leave id (pos σ.cursor) :: trail) slots answer := by
  intro c ahead'
  have back : moveTo c (pos σ.cursor) = σ.cursor := restores c σ.cursor ahead' ahead
  have stands : step g matchToEnd (holding g .resume (σ.goTo c)
      (.leave id (pos σ.cursor) :: trail) slots) =
      resumeLeave g (holding g .resume (σ.goTo c) trail slots) id (pos σ.cursor) := rfl
  apply leads.ends .resume (some (.resumedLeave id))
  rw [stands, resumeLeave, state]
  simp only [holding, found, setSlot, Env.goTo, back]
  rfl

theorem bind_enter (control : Control) {tag : Option TagId}
    (inside : ∀ t, tag = some t → t.val < g.names.size)
    (settled : ∀ t, tag = some t → (σ.captures t).Settled)
    (falls : Falls g matchToEnd c₀ σ trail slots answer) :
    ∃ trail', (holding g control σ trail slots).bind tag Tracker.bindStart =
        .ok (holding g control (σ.enter tag) trail' slots) ∧
      Falls g matchToEnd c₀ (σ.enter tag) trail' slots answer := by
  cases tag with
  | none => exact ⟨trail, rfl, falls⟩
  | some tag =>
    have inside := inside tag rfl
    let before := (σ.captures tag).tracker
    have opens : (before.bindStart (pos σ.cursor)).2 = (Capture.opened (pos σ.cursor)).tracker := by
      have settled := settled tag rfl
      revert settled before
      rcases σ.captures tag with ⟨start, stop⟩
      cases start <;> cases stop <;> simp [Capture.Settled, Capture.opened, Capture.tracker,
        Tracker.bindStart]
    refine ⟨.tag tag (before.bindStart (pos σ.cursor)).1 :: trail, ?_, ?_⟩
    · simp only [Machine.bind, holding, σ.getElem?_table inside]
      rw [opens, Env.table_set]
      rfl
    · refine falls.tag inside ?_
      rw [← opens]
      exact Tracker.undo_bindStart before _

theorem bind_leave (control : Control) {tag : Option TagId}
    (inside : ∀ t, tag = some t → t.val < g.names.size)
    (falls : Falls g matchToEnd c₀ σ trail slots answer) :
    ∃ trail', (holding g control σ trail slots).bind tag Tracker.bindStop =
        .ok (holding g control (σ.leave tag) trail' slots) ∧
      Falls g matchToEnd c₀ (σ.leave tag) trail' slots answer := by
  cases tag with
  | none => exact ⟨trail, rfl, falls⟩
  | some tag =>
    have inside := inside tag rfl
    let before := (σ.captures tag).tracker
    have closes : (before.bindStop (pos σ.cursor)).2 =
        ((σ.captures tag).closed (pos σ.cursor)).tracker := by
      revert before
      rcases σ.captures tag with ⟨start, stop⟩
      cases start <;> rfl
    refine ⟨.tag tag (before.bindStop (pos σ.cursor)).1 :: trail, ?_, ?_⟩
    · simp only [Machine.bind, holding, σ.getElem?_table inside]
      rw [closes, Env.table_set]
      rfl
    · refine falls.tag inside ?_
      rw [← closes]
      exact Tracker.undo_bindStop before _

end Machine

end PatternGraph
