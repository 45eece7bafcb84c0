import PatternGraph.Proofs.Cursor.Passage
import PatternGraph.Search.Machine

/-!
Where the machine goes along an arrow, and what it hands back where it cannot. A label that takes
several tokens may fail after some of them; the cursor is then taken back to its old position.
-/
namespace PatternGraph.Machine
open Cursor
variable {S T P : Type} [Cursor S T P] [Token T] [DecidableEq T] [DecidableEq P]

def along (g : Graph) (trackers : Array (Tracker P)) (c : S) : Label → Except Fault (Option S)
  | .empty => .ok (some c)
  | .char ch => .ok (nextIf (fun t : T => Token.toChar t == ch) c)
  | .literal cs => .ok (nextChars c cs)
  | .charClass id =>
    match g.class? id with
    | none => .error (.noSuchClass id)
    | some set => .ok (nextIf (fun t : T => set.contains (Token.toChar t)) c)
  | .any => .ok (nextIf (fun _ : T => true) c)
  | .backref tag =>
    match trackers[tag.val]? with
    | none => .error (.noSuchTag tag)
    | some t =>
      match t.span? with
      | none => .ok none
      | some span => .ok (nextCopy (moveTo c span.start) span.stop c)

inductive Answers (c : S) : Except Fault (Option S) → Except Fault (Bool × S) → Prop
  | fault (f : Fault) : Answers c (.error f) (.error f)
  | handsBack {found : Option S} {back : Bool × S} :
      HandsBack c found back → Answers c (.ok found) (.ok back)

theorem answers_follow (g : Graph) (trackers : Array (Tracker P)) (c : S) (label : Label) :
    Answers c (along g trackers c label) (follow g trackers c label) := by
  cases label with
  | empty => exact .handsBack (.passed c)
  | char ch => exact .handsBack (handsBack_consumeIf _ c)
  | literal cs => exact .handsBack (handsBack_consumeChars c cs)
  | any => exact .handsBack (handsBack_consumeIf _ c)
  | charClass id =>
    simp only [along, follow]
    cases g.class? id with
    | none => exact .fault _
    | some set => exact .handsBack (handsBack_consumeIf _ c)
  | backref tag =>
    simp only [along, follow]
    cases trackers[tag.val]? with
    | none => exact .fault _
    | some t =>
      cases ends : t.span? with
      | none =>
        simp only [ends]
        exact .handsBack .stayed
      | some span =>
        simp only [ends]
        exact .handsBack (handsBack_consumeCopy _ _ c)

section Following
variable {g : Graph} {trackers : Array (Tracker P)} {c : S} {label : Label}

theorem ahead_of_along {c' : S} (goes : along g trackers c label = .ok (some c')) : Ahead c c' := by
  cases label with
  | empty =>
    cases goes
    exact .refl c
  | char ch => exact ahead_of_nextIf (Except.ok.inj goes)
  | literal cs => exact ahead_of_nextChars (Except.ok.inj goes)
  | any => exact ahead_of_nextIf (Except.ok.inj goes)
  | charClass id =>
    simp only [along] at goes
    split at goes
    · cases goes
    · exact ahead_of_nextIf (Except.ok.inj goes)
  | backref tag =>
    simp only [along] at goes
    split at goes
    · cases goes
    · split at goes
      · cases goes
      · exact ahead_of_nextCopy (Except.ok.inj goes)

theorem follow_of_fault {f : Fault} (stops : along g trackers c label = .error f) :
    follow g trackers c label = .error f := by
  have answers := answers_follow g trackers c label
  rw [stops] at answers
  generalize follow g trackers c label = answer at answers ⊢
  cases answers
  rfl

theorem follow_of_along {c' : S} (goes : along g trackers c label = .ok (some c')) :
    follow g trackers c label = .ok (true, c') := by
  have answers := answers_follow g trackers c label
  rw [goes] at answers
  generalize follow g trackers c label = answer at answers ⊢
  cases answers with
  | handsBack back =>
    cases back
    rfl

theorem follow_of_stuck (stuck : along g trackers c label = .ok none) :
    ∃ c', HandsBack c none (false, c') ∧ follow g trackers c label = .ok (false, c') := by
  have answers := answers_follow g trackers c label
  rw [stuck] at answers
  generalize follow g trackers c label = answer at answers ⊢
  cases answers with
  | handsBack back =>
    cases back with
    | stayed => exact ⟨_, .stayed, rfl⟩
    | returned ahead => exact ⟨_, .returned ahead, rfl⟩

end Following

section Taking
variable {g : Graph} {event : Option (Event P)} {m : Machine S P} {a : Arrow}

theorem take_of_fault {f : Fault} (stops : along g m.cache.trackers m.cursor a.label = .error f) :
    take g event m a = .fault f := by
  rw [take, follow_of_fault stops]

theorem take_of_some {c : S} (goes : along g m.cache.trackers m.cursor a.label = .ok (some c)) :
    take g event m a = .move event { m with control := .visit a.target, cursor := c } := by
  rw [take, follow_of_along goes]

theorem take_of_none (event : Option (Event P))
    (stuck : along g m.cache.trackers m.cursor a.label = .ok none) :
    ∃ c, HandsBack m.cursor none (false, c) ∧
      take g event m a = .move event { m with control := .resume, cursor := c } := by
  obtain ⟨c, back, followed⟩ := follow_of_stuck stuck
  exact ⟨c, back, by rw [take, followed]⟩

/-- Where positions are restored, an arrow that cannot be followed leaves the cursor as it was. -/
theorem take_of_stuck {c₀ : S} (restores : Restores c₀) (ahead : Ahead c₀ m.cursor)
    (stuck : along g m.cache.trackers m.cursor a.label = .ok none) :
    take g event m a = .move event m.resuming := by
  obtain ⟨c, back, taken⟩ := take_of_none event stuck
  have same := congrArg Prod.snd (back.restored restores ahead)
  simp only at same
  rw [taken, same]
  rfl

end Taking

end PatternGraph.Machine
