import PatternGraph.CommandLine.Settings

/-!
Reading all the arguments of a command. Every argument makes the list shorter, and taking the value
of an option never makes it longer.
-/
namespace PatternGraph.CommandLine

namespace Settings
variable {A : Type} [Tokenizer A] {a b : A}

theorem size_of_valueOf {context v : String} (taken : valueOf context a = .ok (v, b)) :
    Tokenizer.size b ≤ Tokenizer.size a := by
  unfold valueOf at taken
  split at taken
  · next value =>
    cases taken
    exact Tokenizer.size_of_value value
  · cases taken

theorem size_of_withValue {context : String} {set : String → Except CommandError Settings}
    {t : Settings} (taken : withValue context a set = .ok (t, b)) :
    Tokenizer.size b ≤ Tokenizer.size a := by
  unfold withValue at taken
  cases value : valueOf context a with
  | error e => simp [value, bind, Except.bind] at taken
  | ok p =>
    cases done : set p.1 with
    | error e => simp [value, done, bind, Except.bind] at taken
    | ok u =>
      obtain ⟨_, rfl⟩ : u = t ∧ p.2 = b := by
        simpa [value, done, bind, Except.bind, pure, Except.pure] using taken
      exact size_of_valueOf value

theorem size_of_accept {withInputs : Bool} {s t : Settings} {arg : Argument}
    (taken : s.accept withInputs arg a = .ok (t, b)) : Tokenizer.size b ≤ Tokenizer.size a := by
  unfold accept at taken
  split at taken
  · cases taken; exact Nat.le_refl _
  · cases taken; exact Nat.le_refl _
  · cases taken; exact Nat.le_refl _
  · split at taken
    · cases taken
    · exact size_of_withValue taken
  · split at taken
    · cases taken
    · exact size_of_withValue taken
  · next v =>
    cases added : s.addValue withInputs v with
    | error e => simp [added, Except.map] at taken
    | ok u =>
      obtain ⟨_, rfl⟩ : u = t ∧ a = b := by simpa [added, Except.map] using taken
      exact Nat.le_refl _
  · cases taken; exact Nat.le_refl _
  · exact size_of_withValue taken
  · exact size_of_withValue taken
  · cases taken

/-- Acts on the arguments one by one. Help ends the reading as soon as it is asked for. -/
def readFrom (usage : Bool → String) (withInputs : Bool) (s : Settings) (a : A) :
    Except CommandError Settings :=
  match taken : Tokenizer.next a with
  | .error e => .error (.badArgument e)
  | .ok none => .ok s
  | .ok (some (arg, rest)) =>
    match helpRequest? arg with
    | some long => .error (.help (usage long))
    | none =>
      match accepted : s.accept withInputs arg rest with
      | .error e => .error e
      | .ok (s, left) =>
        have := Tokenizer.size_of_next taken
        have := size_of_accept accepted
        readFrom usage withInputs s left
termination_by Tokenizer.size a

def ofArguments (usage : Bool → String) (withInputs : Bool) (a : A) :
    Except CommandError Settings := readFrom usage withInputs .unset a

def patternGiven (s : Settings) : Except CommandError String :=
  match s.pattern with
  | some p => .ok p
  | none => .error .noPattern

end Settings

end PatternGraph.CommandLine
