import Mathlib.Data.List.Induction
import PatternGraph.CommandLine.Parsing
import PatternGraph.CommandLine.Usage

/-!
Arguments of a command that takes inputs, in another order. What the flags set does not depend on where
they stand, and neither does the pattern, as long as its flag comes before all values: a pattern flag
that comes after a value is refused, because that value was taken for the pattern.
-/
namespace PatternGraph.CommandLine

inductive Item
  | quiet
  | verbose
  | noCaptures
  | nestLimit (limit : Nat)
  | stateLimit (limit : Option Nat)
  | pattern (v : String)
  | positional (v : String)
  deriving DecidableEq, Repr

namespace Item

inductive Kind
  | quiet
  | verbose
  | noCaptures
  | nestLimit
  | stateLimit
  | pattern
  | positional
  deriving DecidableEq, Repr

def kind : Item → Kind
  | quiet => .quiet
  | verbose => .verbose
  | noCaptures => .noCaptures
  | nestLimit _ => .nestLimit
  | stateLimit _ => .stateLimit
  | pattern _ => .pattern
  | positional _ => .positional

inductive SetBy : Item → Flag → Prop
  | quietShort : SetBy quiet (.short 'q')
  | quiet : SetBy quiet (.long "quiet")
  | verbose : SetBy verbose (.long "verbose")
  | noCaptures : SetBy noCaptures (.long "no-captures")

inductive SetTo : Item → Flag → String → Prop
  | patternShort (v : String) : SetTo (pattern v) (.short 'p') v
  | pattern (v : String) : SetTo (pattern v) (.long "pattern") v
  | nestLimit {v : String} {limit : Nat} (read : parseNumeral 4294967295 v = .ok limit) :
      SetTo (nestLimit limit) (.long "nest-limit") v
  | stateLimit {v : String} {limit : Nat} (read : parseNumeral 18446744073709551615 v = .ok limit) :
      SetTo (stateLimit (some limit)) (.long "state-limit") v
  | noStateLimit : SetTo (stateLimit none) (.long "state-limit") "none"

end Item

variable {A : Type} [Tokenizer A]

/-- The arguments are these items, one after the other. -/
inductive Yields : A → List Item → Prop
  | nothing {a : A} (ended : Tokenizer.next a = .ok none) : Yields a []
  | positional {a b : A} {v : String} {items : List Item}
      (taken : Tokenizer.next a = .ok (some (.value v, b))) (rest : Yields b items) :
      Yields a (.positional v :: items)
  | switch {a b : A} {f : Flag} {x : Item} {items : List Item}
      (taken : Tokenizer.next a = .ok (some (.flag f, b))) (set : x.SetBy f) (rest : Yields b items) :
      Yields a (x :: items)
  | setting {a b c : A} {f : Flag} {v : String} {x : Item} {items : List Item}
      (taken : Tokenizer.next a = .ok (some (.flag f, b)))
      (given : Tokenizer.value b = .ok (v, c)) (set : x.SetTo f v) (rest : Yields c items) :
      Yields a (x :: items)

namespace Settings

theorem withValue_eq {context v : String} {a b : A} (given : Tokenizer.value a = .ok (v, b))
    (set : String → Except CommandError Settings) :
    withValue context a set = (set v).map fun s => (s, b) := by
  rw [withValue, valueOf, given]
  rfl

theorem setNestLimit_eq {v : String} {limit : Nat} (read : parseNumeral 4294967295 v = .ok limit)
    (s : Settings) : s.setNestLimit v = .ok { s with options := s.options.withNestLimit limit } := by
  rw [setNestLimit, read]
  rfl

theorem setStateLimit_eq {v : String} {limit : Nat}
    (read : parseNumeral 18446744073709551615 v = .ok limit) (s : Settings) :
    s.setStateLimit v = .ok { s with options := s.options.withStateLimit (some limit) } := by
  have number : v ≠ "none" := by
    rintro rfl
    cases read
  rw [setStateLimit, if_neg number, read]
  rfl

end Settings

namespace Item

def apply (s : Settings) : Item → Except CommandError Settings
  | quiet => .ok { s with quiet := true }
  | verbose => .ok { s with verbose := true }
  | noCaptures => .ok { s with options := s.options.withCaptures false }
  | nestLimit limit => .ok { s with options := s.options.withNestLimit limit }
  | stateLimit limit => .ok { s with options := s.options.withStateLimit limit }
  | pattern v =>
    if s.pattern.isSome then .error .tooManyPatterns else .ok { s with pattern := some v }
  | positional v => s.addValue true v

variable {x : Item} {f : Flag} {v : String} {a b : A}

theorem accept_of_setBy (set : x.SetBy f) (s : Settings) (a : A) :
    s.accept true (.flag f) a = (x.apply s).map fun s => (s, a) := by
  cases set <;> rfl

theorem accept_of_setTo (set : x.SetTo f v) (given : Tokenizer.value a = .ok (v, b)) (s : Settings) :
    s.accept true (.flag f) a = (x.apply s).map fun s => (s, b) := by
  cases set with
  | patternShort | pattern =>
    simp only [Settings.accept, Settings.withValue_eq given, apply]
    split <;> rfl
  | nestLimit read =>
    simp only [Settings.accept, Settings.withValue_eq given, Settings.setNestLimit_eq read, apply]
  | stateLimit read =>
    simp only [Settings.accept, Settings.withValue_eq given, Settings.setStateLimit_eq read, apply]
  | noStateLimit =>
    simp only [Settings.accept, Settings.withValue_eq given, Settings.setStateLimit, apply]
    rfl

theorem helpRequest?_of_setBy (set : x.SetBy f) : Settings.helpRequest? (.flag f) = none := by
  cases set <;> rfl

theorem helpRequest?_of_setTo (set : x.SetTo f v) : Settings.helpRequest? (.flag f) = none := by
  cases set <;> rfl

end Item

section Reading

variable {usage : Bool → String} {a b c : A} {arg : Argument} {x : Item} {items : List Item}

theorem readFrom_nothing (ended : Tokenizer.next a = .ok none) (s : Settings) :
    s.readFrom usage true a = .ok s := by
  rw [Settings.readFrom]
  split <;> simp_all

theorem readFrom_next (taken : Tokenizer.next a = .ok (some (arg, b)))
    (noHelp : Settings.helpRequest? arg = none) (s : Settings)
    (accepts : s.accept true arg b = (x.apply s).map fun s => (s, c)) :
    s.readFrom usage true a = (x.apply s).bind fun s => s.readFrom usage true c := by
  rw [Settings.readFrom]
  split
  · simp_all
  · simp_all
  · next arg' b' taken' =>
    obtain ⟨rfl, rfl⟩ : arg = arg' ∧ b = b' := by simpa [taken] using taken'
    split
    · simp_all
    · split
      · next e failed =>
        rw [accepts] at failed
        cases applied : x.apply s <;> simp_all [Except.map, Except.bind]
      · next s' left done =>
        rw [accepts] at done
        cases applied : x.apply s <;> simp_all [Except.map, Except.bind]

/-- Reading arguments applies their items one by one. -/
theorem readFrom_of_yields (yields : Yields a items) (s : Settings) :
    s.readFrom usage true a = items.foldlM Item.apply s := by
  induction yields generalizing s with
  | nothing ended => exact readFrom_nothing ended s
  | @positional _ _ v _ taken rest ih =>
    rw [List.foldlM_cons, readFrom_next (x := .positional v) taken rfl s rfl]
    exact congrArg _ (funext ih)
  | switch taken set rest ih =>
    rw [List.foldlM_cons, readFrom_next taken (Item.helpRequest?_of_setBy set) s
      (Item.accept_of_setBy set s _)]
    exact congrArg _ (funext ih)
  | setting taken given set rest ih =>
    rw [List.foldlM_cons, readFrom_next taken (Item.helpRequest?_of_setTo set) s
      (Item.accept_of_setTo set given s)]
    exact congrArg _ (funext ih)

end Reading

/-! ## What the items come to, whatever their order -/

namespace Item

def source? : Item → Option (Bool × String)
  | pattern v => some (true, v)
  | positional v => some (false, v)
  | quiet | verbose | noCaptures | nestLimit _ | stateLimit _ => none

def nestLimit? : Item → Option Nat
  | nestLimit limit => some limit
  | _ => none

def stateLimit? : Item → Option (Option Nat)
  | stateLimit limit => some limit
  | _ => none

def positional? : Item → Option String
  | positional v => some v
  | _ => none

/-- Of several limits the last one counts. -/
def options (items : List Item) : Options where
  captures? := if noCaptures ∈ items then some false else none
  nestLimit? := (items.filterMap nestLimit?).getLast?
  stateLimit? := (items.filterMap stateLimit?).getLast?

def settings (items : List Item) (pattern : Option String) (inputs : List String) : Settings where
  quiet := decide (quiet ∈ items)
  verbose := decide (verbose ∈ items)
  pattern := pattern
  inputs := inputs
  options := options items

/-- The first text is the pattern, and no later one may be given by a flag. -/
def outcome (items : List Item) : Except CommandError Settings :=
  match items.filterMap source? with
  | [] => .ok (settings items none [])
  | first :: rest =>
    if rest.any (·.1) then .error .tooManyPatterns
    else .ok (settings items (some first.2) (rest.map (·.2)))

theorem apply_settings {x : Item} (other : x.source? = none) (items : List Item)
    (pattern : Option String) (inputs : List String) :
    x.apply (settings items pattern inputs) = .ok (settings (items ++ [x]) pattern inputs) := by
  cases x with
  | pattern | positional => cases other
  | quiet | verbose | noCaptures | nestLimit | stateLimit =>
    simp [apply, settings, options, nestLimit?, stateLimit?, Options.withCaptures,
      Options.withNestLimit, Options.withStateLimit]

theorem settings_append_source {x : Item} {given : Bool × String} (source : x.source? = some given)
    (items : List Item) (pattern : Option String) (inputs : List String) :
    settings (items ++ [x]) pattern inputs = settings items pattern inputs := by
  cases x with
  | pattern | positional => simp [settings, options, nestLimit?, stateLimit?]
  | quiet | verbose | noCaptures | nestLimit | stateLimit => cases source

theorem apply_first {x : Item} {given : Bool × String} (source : x.source? = some given)
    (items : List Item) :
    x.apply (settings items none []) = .ok (settings items (some given.2) []) := by
  cases x with
  | pattern | positional =>
    cases source
    rfl
  | quiet | verbose | noCaptures | nestLimit | stateLimit => cases source

theorem apply_later {x : Item} {given : Bool × String} (source : x.source? = some given)
    (items : List Item) (v : String) (inputs : List String) :
    x.apply (settings items (some v) inputs) =
      if given.1 then .error .tooManyPatterns
      else .ok (settings items (some v) (inputs ++ [given.2])) := by
  cases x with
  | pattern | positional =>
    cases source
    rfl
  | quiet | verbose | noCaptures | nestLimit | stateLimit => cases source

theorem outcome_append (items : List Item) (x : Item) :
    outcome (items ++ [x]) = (outcome items).bind fun s => x.apply s := by
  have texts : (items ++ [x]).filterMap source? = items.filterMap source? ++ x.source?.toList := by
    cases source : x.source? <;> simp [source]
  unfold outcome
  rw [texts]
  cases source : x.source? with
  | none =>
    rw [Option.toList_none, List.append_nil]
    split
    · exact (apply_settings source items none []).symm
    · split
      · rfl
      · exact (apply_settings source items _ _).symm
  | some given =>
    rw [Option.toList_some]
    cases items.filterMap source? with
    | nil =>
      rw [List.nil_append, Except.bind, apply_first source items]
      exact congrArg Except.ok (settings_append_source source items _ _)
    | cons first rest =>
      rw [List.cons_append]
      simp only [List.any_append, List.any_cons, List.any_nil, Bool.or_false, List.map_append,
        List.map_cons, List.map_nil, settings_append_source source]
      cases late : rest.any (·.1) with
      | true => rfl
      | false =>
        simp only [Bool.false_or, Except.bind]
        exact (apply_later source items first.2 _).symm

theorem foldlM_apply (items : List Item) : items.foldlM apply .unset = outcome items := by
  induction items using List.reverseRecOn with
  | nil => rfl
  | append_singleton items x ih =>
    rw [List.foldlM_append, ih, outcome_append]
    simp only [List.foldlM_cons, List.foldlM_nil, bind_pure]
    rfl

/-! ## The flag for the pattern, and the values -/

/-- The first item that may give the pattern does. -/
def MayGive (x : Item) : Prop := x.kind = .pattern ∨ x.kind = .positional

theorem source?_eq_none_iff {x : Item} : x.source? = none ↔ ¬ x.MayGive := by
  cases x <;> simp [source?, MayGive, kind]

theorem filterMap_source?_eq_nil_iff {items : List Item} :
    items.filterMap source? = [] ↔ ∀ x ∈ items, ¬ x.MayGive := by
  simp only [List.filterMap_eq_nil_iff, source?_eq_none_iff]

theorem filterMap_source? {items : List Item} (noFlag : ∀ x ∈ items, x.kind ≠ .pattern) :
    items.filterMap source? = (items.filterMap positional?).map fun v => (false, v) := by
  induction items with
  | nil => rfl
  | cons x rest ih =>
    have others := ih fun y mem => noFlag y (List.mem_cons_of_mem _ mem)
    cases x with
    | pattern v => exact absurd rfl (noFlag _ List.mem_cons_self)
    | quiet | verbose | noCaptures | nestLimit | stateLimit | positional =>
      simp [List.filterMap_cons, source?, positional?, others]

variable {before after : List Item} {v : String}

theorem outcome_of_flag (first : ∀ x ∈ before, ¬ x.MayGive) (only : ∀ x ∈ after, x.kind ≠ .pattern) :
    outcome (before ++ pattern v :: after) =
      .ok (settings (before ++ pattern v :: after) (some v)
        ((before ++ pattern v :: after).filterMap positional?)) := by
  have noText : before.filterMap source? = [] := filterMap_source?_eq_nil_iff.2 first
  have noValue : before.filterMap positional? = [] := by
    rw [filterMap_source? fun x mem isFlag => first x mem (.inl isFlag)] at noText
    exact List.map_eq_nil_iff.1 noText
  have texts : (before ++ pattern v :: after).filterMap source? =
      (true, v) :: (after.filterMap positional?).map fun v => (false, v) := by
    rw [List.filterMap_append, noText, List.nil_append, List.filterMap_cons, filterMap_source? only]
    rfl
  have values : (before ++ pattern v :: after).filterMap positional? =
      after.filterMap positional? := by
    rw [List.filterMap_append, noValue, List.nil_append, List.filterMap_cons]
    rfl
  rw [outcome, texts, values]
  generalize after.filterMap positional? = inputs
  simp [Function.comp_def]

theorem outcome_of_late (given : ∃ x ∈ before, x.MayGive) (late : ∃ x ∈ after, x.kind = .pattern) :
    outcome (before ++ after) = .error .tooManyPatterns := by
  have texts : before.filterMap source? ≠ [] := fun none => by
    obtain ⟨x, mem, gives⟩ := given
    exact filterMap_source?_eq_nil_iff.1 none x mem gives
  have flag : (after.filterMap source?).any (·.1) = true := by
    obtain ⟨x, mem, isFlag⟩ := late
    cases x with
    | pattern v => exact List.any_eq_true.2 ⟨(true, v), List.mem_filterMap.2 ⟨_, mem, rfl⟩, rfl⟩
    | quiet | verbose | noCaptures | nestLimit | stateLimit | positional => cases isFlag
  rw [outcome, List.filterMap_append]
  cases found : before.filterMap source? with
  | nil => exact absurd found texts
  | cons first rest => simp [List.any_append, flag]

/-! ## Neighbours that change places -/

theorem filterMap_swap {B : Type} {f : Item → Option B} {x y : Item} (apart : f x = none ∨ f y = none)
    (before after : List Item) :
    (before ++ x :: y :: after).filterMap f = (before ++ y :: x :: after).filterMap f := by
  rcases apart with none | none <;> simp [List.filterMap_cons, none]

theorem settings_swap {x y : Item} (apart : x.kind ≠ y.kind) (before after : List Item)
    (pattern : Option String) (inputs : List String) :
    settings (before ++ x :: y :: after) pattern inputs =
      settings (before ++ y :: x :: after) pattern inputs := by
  have member (z : Item) : z ∈ before ++ x :: y :: after ↔ z ∈ before ++ y :: x :: after := by
    simp only [List.mem_append, List.mem_cons]
    exact or_congr_right or_left_comm
  have nest := filterMap_swap (f := nestLimit?) (x := x) (y := y)
    (by cases x <;> cases y <;> simp_all [kind, nestLimit?]) before after
  have state := filterMap_swap (f := stateLimit?) (x := x) (y := y)
    (by cases x <;> cases y <;> simp_all [kind, stateLimit?]) before after
  simp only [settings, options, member, nest, state]

/-- Neighbours of different kinds may change places, unless one is the flag for the pattern and the other a
value, and the pattern has not been given before. -/
theorem outcome_swap {x y : Item} (apart : x.kind ≠ y.kind)
    (settled : ¬ x.MayGive ∨ ¬ y.MayGive ∨ ∃ z ∈ before, z.MayGive) :
    outcome (before ++ x :: y :: after) = outcome (before ++ y :: x :: after) := by
  by_cases one : x.source? = none ∨ y.source? = none
  · simp only [outcome, filterMap_swap one before after, settings_swap apart]
  · have both : x.MayGive ∧ y.MayGive := by
      simpa only [source?_eq_none_iff, not_or, not_not] using one
    have given : ∃ z ∈ before, z.MayGive := by
      rcases settled with no | no | given
      · exact absurd both.1 no
      · exact absurd both.2 no
      · exact given
    have late : x.kind = .pattern ∨ y.kind = .pattern := by
      rcases both.1 with flag | value
      · exact .inl flag
      · exact .inr (both.2.resolve_right fun same => apart (value.trans same.symm))
    rw [outcome_of_late given, outcome_of_late given]
    · simp only [List.mem_cons, exists_eq_or_imp]
      exact late.elim (fun flag => .inr (.inl flag)) .inl
    · simp only [List.mem_cons, exists_eq_or_imp]
      exact late.elim .inl fun flag => .inr (.inl flag)

end Item

theorem ofArguments_of_yields (usage : Bool → String) {a : A} {items : List Item}
    (yields : Yields a items) : Settings.ofArguments usage true a = Item.outcome items := by
  rw [Settings.ofArguments, readFrom_of_yields yields, Item.foldlM_apply]

/-- Arguments with valid values, in any order, and with one flag for the pattern: if it comes before all
values, it gives the pattern, and all values are inputs; if a value comes before it, the arguments are
refused. Besides, arguments of which two neighbours of different kinds have changed places come to the
same, unless a value was moved before the flag for the pattern: then they are refused. -/
theorem ofArguments_rearranged (usage : Bool → String) {a : A} {items : List Item}
    (yields : Yields a items) :
    (∀ before v after, items = before ++ .pattern v :: after →
      (∀ x ∈ before ++ after, x.kind ≠ .pattern) →
      ((∀ x ∈ before, x.kind ≠ .positional) →
        Settings.ofArguments usage true a =
          .ok (Item.settings items (some v) (items.filterMap Item.positional?))) ∧
      ((∃ x ∈ before, x.kind = .positional) →
        Settings.ofArguments usage true a = .error .tooManyPatterns)) ∧
    ∀ before x y after (b : A), items = before ++ x :: y :: after → x.kind ≠ y.kind →
      Yields b (before ++ y :: x :: after) →
      ((¬ x.MayGive ∨ ¬ y.MayGive ∨ ∃ z ∈ before, z.MayGive) →
        Settings.ofArguments usage true a = Settings.ofArguments usage true b) ∧
      (x.kind = .pattern → y.kind = .positional →
        Settings.ofArguments usage true b = .error .tooManyPatterns) := by
  rw [ofArguments_of_yields usage yields]
  refine ⟨?_, ?_⟩
  · rintro before v after rfl single
    have first (x : Item) (mem : x ∈ before) : x.kind ≠ .pattern :=
      single x (List.mem_append_left _ mem)
    refine ⟨fun noValue => ?_, fun ⟨x, mem, value⟩ => ?_⟩
    · refine Item.outcome_of_flag (fun x mem gives => ?_) fun x mem =>
        single x (List.mem_append_right _ mem)
      exact gives.elim (first x mem) (noValue x mem)
    · exact Item.outcome_of_late ⟨x, mem, .inr value⟩ ⟨_, List.mem_cons_self, rfl⟩
  · rintro before x y after b rfl apart moved
    rw [ofArguments_of_yields usage moved]
    refine ⟨Item.outcome_swap apart, fun flag value => ?_⟩
    rw [List.append_cons]
    exact Item.outcome_of_late ⟨y, List.mem_append_right _ List.mem_cons_self, .inr value⟩
      ⟨x, List.mem_cons_self, flag⟩

def limitBetween : List String := ["-q", "-pa", "x", "--state-limit=none", "y"]

def limitBefore : List String := ["-q", "-pa", "--state-limit=none", "x", "y"]

theorem yields_limitBetween : Yields (Arguments.ofList limitBetween)
    [.quiet, .pattern "a", .positional "x", .stateLimit none, .positional "y"] :=
  .switch rfl .quietShort (.setting rfl rfl (.patternShort "a") (.positional rfl
    (.setting rfl rfl .noStateLimit (.positional rfl (.nothing rfl)))))

theorem yields_limitBefore : Yields (Arguments.ofList limitBefore)
    [.quiet, .pattern "a", .stateLimit none, .positional "x", .positional "y"] :=
  .switch rfl .quietShort (.setting rfl rfl (.patternShort "a") (.setting rfl rfl .noStateLimit
    (.positional rfl (.positional rfl (.nothing rfl)))))

theorem ofArguments_rearranged_limit :
    Settings.ofArguments findUsage true (Arguments.ofList limitBetween) =
        .ok ⟨true, false, some "a", ["x", "y"], ⟨none, none, some none⟩⟩ ∧
      Settings.ofArguments findUsage true (Arguments.ofList limitBetween) =
        Settings.ofArguments findUsage true (Arguments.ofList limitBefore) := by
  obtain ⟨given, moved⟩ := ofArguments_rearranged findUsage yields_limitBetween
  refine ⟨?_, ?_⟩
  · exact (given [.quiet] "a" _ rfl (by decide)).1 (by decide)
  · have apart : ¬ (Item.stateLimit none).MayGive := by simp [Item.MayGive, Item.kind]
    exact (moved [.quiet, .pattern "a"] _ _ _ _ rfl (by decide) yields_limitBefore).1
      (.inr (.inl apart))

/-- A value before the flag for the pattern is not an input. -/
theorem ofArguments_value_first :
    Yields (Arguments.ofList ["x", "-p", "a"]) [.positional "x", .pattern "a"] ∧
      Settings.ofArguments findUsage true (Arguments.ofList ["x", "-p", "a"]) =
        .error .tooManyPatterns ∧
      Settings.ofArguments verifyUsage true (Arguments.ofList ["x", "-p", "a"]) =
        .error .tooManyPatterns := by
  have yields : Yields (Arguments.ofList ["x", "-p", "a"]) [.positional "x", .pattern "a"] :=
    .positional rfl (.setting rfl rfl (.patternShort "a") (.nothing rfl))
  exact ⟨yields, ofArguments_of_yields findUsage yields, ofArguments_of_yields verifyUsage yields⟩

end PatternGraph.CommandLine
