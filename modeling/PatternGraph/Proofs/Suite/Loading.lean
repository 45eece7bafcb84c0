import Mathlib.Data.List.Forall2
import PatternGraph.Suite.Collection

/-!
Documents loaded one after another. A document that is refused adds no test, but the names of its
entries before the refused one stay taken. Later documents fare as if the refused one had never been
loaded, up to the first that uses one of these names: it is refused for a name that no test has.
-/
namespace PatternGraph.Suite

structure Source where
  group : String
  text : String
  deriving DecidableEq, Repr

namespace Entry

/-- The name that an entry gets. One without a name is numbered. -/
def givenName (number : Nat) (e : Entry) : String :=
  if e.name.isEmpty then toString number else e.name

def numberAfter (number : Nat) (e : Entry) : Nat := if e.name.isEmpty then number + 1 else number

def fullName (group : String) (number : Nat) (e : Entry) : String :=
  Test.joinName group (e.givenName number)

def fullNames (group : String) (number : Nat) : List Entry → List String
  | [] => []
  | e :: rest => e.fullName group number :: fullNames group (e.numberAfter number) rest

def test (group : String) (number : Nat) (aim : Aim) (e : Entry) : Test :=
  ⟨group, e.givenName number, e.pattern, e.input, aim, e.captures⟩

structure Becomes (e : Entry) (t : Test) : Prop where
  aim : e.aim = .ok t.aim
  pattern : t.pattern = e.pattern
  input : t.input = e.input
  captures : t.captures = e.captures

/-- What the entry of this name is refused for where these names are taken. -/
inductive RefusedFor (taken : List String) (name : String) (e : Entry) : LoadError → Prop
  | invalid {fault : EntryFault} (wrong : e.aim = .error fault) :
      RefusedFor taken name e (.invalidTest name fault)
  | duplicate {aim : Aim} (right : e.aim = .ok aim) (used : name ∈ taken) :
      RefusedFor taken name e (.duplicateName name)

end Entry

namespace Source

def entries (decode : Decoder) (s : Source) : List Entry := (decode s.text).getD []

def fullNames (decode : Decoder) (s : Source) : List String :=
  Entry.fullNames s.group 1 (s.entries decode)

end Source

namespace Collection

/-- Loads documents in turn, and goes on after those that are refused. -/
def loadAll (decode : Decoder) (c : Collection) :
    List Source → Collection × List (Except LoadError Unit)
  | [] => (c, [])
  | s :: rest =>
    let first := c.loadBy decode s.group s.text
    let others := first.1.loadAll decode rest
    (others.1, first.2 :: others.2)

/-! ## The entries of one document -/

section Entries

variable {group : String} {seen seen' left : List String} {number : Nat} {entries rest : List Entry}
  {x : Entry} {aim : Aim}

theorem enter_invalid {fault : EntryFault} (wrong : x.aim = .error fault) :
    enter group seen number (x :: rest) =
      (seen, .error (.invalidTest (x.fullName group number) fault)) := by
  simp [enter, wrong, Entry.fullName, Entry.givenName]

theorem enter_used (right : x.aim = .ok aim) (used : x.fullName group number ∈ seen) :
    enter group seen number (x :: rest) =
      (seen, .error (.duplicateName (x.fullName group number))) := by
  unfold Entry.fullName Entry.givenName at *
  simp only [enter, right, List.contains_iff_mem]
  rw [if_pos used]

theorem enter_next (right : x.aim = .ok aim) (fresh : x.fullName group number ∉ seen) :
    enter group seen number (x :: rest) =
      let later := enter group (x.fullName group number :: seen) (x.numberAfter number) rest
      (later.1, later.2.map (x.test group number aim :: ·)) := by
  unfold Entry.fullName Entry.givenName at *
  simp only [enter, right, List.contains_iff_mem]
  rw [if_neg fresh]
  rfl

theorem enter_ok {tests : List Test} (entered : enter group seen number entries = (seen', .ok tests)) :
    tests.map Test.fullName = Entry.fullNames group number entries ∧
      seen' = (Entry.fullNames group number entries).reverse ++ seen ∧
      List.Forall₂ Entry.Becomes entries tests := by
  induction entries generalizing seen number tests with
  | nil =>
    cases entered
    exact ⟨rfl, rfl, .nil⟩
  | cons x rest ih =>
    cases read : x.aim with
    | error fault =>
      rw [enter_invalid read] at entered
      cases entered
    | ok aim =>
      by_cases used : x.fullName group number ∈ seen
      · rw [enter_used read used] at entered
        cases entered
      · rw [enter_next read used] at entered
        rcases later : enter group (x.fullName group number :: seen) (x.numberAfter number) rest with
          ⟨taken, result⟩
        rw [later] at entered
        cases result with
        | error e => cases entered
        | ok others =>
          cases entered
          obtain ⟨names, rfl, all⟩ := ih later
          have named : (x.test group number aim).fullName = x.fullName group number := rfl
          refine ⟨?_, ?_, .cons ⟨read, rfl, rfl, rfl⟩ all⟩
          · simp [Entry.fullNames, named, names]
          · simp [Entry.fullNames]

/-- Of a document that is refused the names before the refused entry are taken. -/
theorem enter_error {e : LoadError} (entered : enter group seen number entries = (seen', .error e)) :
    ∃ k x name, entries[k]? = some x ∧ (Entry.fullNames group number entries)[k]? = some name ∧
      seen' = ((Entry.fullNames group number entries).take k).reverse ++ seen ∧
      x.RefusedFor seen' name e := by
  induction entries generalizing seen number with
  | nil => cases entered
  | cons x rest ih =>
    cases read : x.aim with
    | error fault =>
      rw [enter_invalid read] at entered
      cases entered
      exact ⟨0, x, _, rfl, rfl, rfl, .invalid read⟩
    | ok aim =>
      by_cases used : x.fullName group number ∈ seen
      · rw [enter_used read used] at entered
        cases entered
        exact ⟨0, x, _, rfl, rfl, rfl, .duplicate read used⟩
      · rw [enter_next read used] at entered
        rcases later : enter group (x.fullName group number :: seen) (x.numberAfter number) rest with
          ⟨taken, result⟩
        rw [later] at entered
        cases result with
        | ok others => cases entered
        | error e =>
          cases entered
          obtain ⟨k, y, name, found, named, rfl, refused⟩ := ih later
          refine ⟨k + 1, y, name, found, named, ?_, refused⟩
          simp [Entry.fullNames]

/-- Where more names are taken, the entries fare the same, unless they come to one of these names. -/
theorem enter_shadowed (group : String) (number : Nat) (entries : List Entry)
    (shadow : ∀ n, n ∈ seen' ↔ n ∈ left ∨ n ∈ seen) :
    ((enter group seen' number entries).2 = (enter group seen number entries).2 ∧
      ∀ n, n ∈ (enter group seen' number entries).1 ↔
        n ∈ left ∨ n ∈ (enter group seen number entries).1) ∨
    ∃ n ∈ left, n ∈ Entry.fullNames group number entries ∧ n ∉ seen ∧
      (enter group seen' number entries).2 = .error (.duplicateName n) := by
  induction entries generalizing seen seen' number with
  | nil => exact .inl ⟨rfl, shadow⟩
  | cons x rest ih =>
    cases read : x.aim with
    | error fault =>
      rw [enter_invalid read, enter_invalid read]
      exact .inl ⟨rfl, shadow⟩
    | ok aim =>
      by_cases used : x.fullName group number ∈ seen
      · rw [enter_used read used, enter_used read ((shadow _).2 (.inr used))]
        exact .inl ⟨rfl, shadow⟩
      · by_cases blocked : x.fullName group number ∈ left
        · rw [enter_used read ((shadow _).2 (.inl blocked))]
          exact .inr ⟨_, blocked, List.mem_cons_self, used, rfl⟩
        · have fresh : x.fullName group number ∉ seen' := fun taken =>
            ((shadow _).1 taken).elim blocked used
          have shadow' : ∀ n, n ∈ x.fullName group number :: seen' ↔
              n ∈ left ∨ n ∈ x.fullName group number :: seen := by
            intro n
            rw [List.mem_cons, List.mem_cons, shadow]
            exact or_left_comm
          rw [enter_next read used, enter_next read fresh]
          rcases ih (x.numberAfter number) shadow' with
            ⟨same, taken⟩ | ⟨n, mem, named, unused, refused⟩
          · exact .inl ⟨congrArg (Except.map (x.test group number aim :: ·)) same, taken⟩
          · refine .inr ⟨n, mem, List.mem_cons_of_mem _ named, ?_, ?_⟩
            · exact fun taken => unused (List.mem_cons_of_mem _ taken)
            · exact congrArg (Except.map (x.test group number aim :: ·)) refused

end Entries

/-! ## Documents -/

variable {decode : Decoder} {c c' : Collection} {s : Source} {left : List String}

theorem load_undecodable (unread : decode s.text = none) :
    c.loadBy decode s.group s.text = (c, .error .undecodable) := by
  rw [loadBy, unread]

theorem load_accepted {entries : List Entry} {tests : List Test} {seen : List String}
    (read : decode s.text = some entries)
    (entered : enter s.group c.seen 1 entries = (seen, .ok tests)) :
    c.loadBy decode s.group s.text = (⟨c.tests ++ tests, seen⟩, .ok ()) := by
  simp only [loadBy, read, entered]

theorem load_refused {entries : List Entry} {e : LoadError} {seen : List String}
    (read : decode s.text = some entries)
    (entered : enter s.group c.seen 1 entries = (seen, .error e)) :
    c.loadBy decode s.group s.text = (⟨c.tests, seen⟩, .error e) := by
  simp only [loadBy, read, entered]

inductive Loaded (decode : Decoder) (c : Collection) (s : Source) :
    Collection × Except LoadError Unit → Prop
  | undecodable : Loaded decode c s (c, .error .undecodable)
  | accepted {tests : List Test} (names : tests.map Test.fullName = s.fullNames decode)
      (all : List.Forall₂ Entry.Becomes (s.entries decode) tests) :
      Loaded decode c s (⟨c.tests ++ tests, (s.fullNames decode).reverse ++ c.seen⟩, .ok ())
  | refused {k : Nat} {x : Entry} {name : String} {e : LoadError}
      (found : (s.entries decode)[k]? = some x) (named : (s.fullNames decode)[k]? = some name)
      (cause : x.RefusedFor (((s.fullNames decode).take k).reverse ++ c.seen) name e) :
      Loaded decode c s (⟨c.tests, ((s.fullNames decode).take k).reverse ++ c.seen⟩, .error e)

theorem loaded (decode : Decoder) (c : Collection) (s : Source) :
    Loaded decode c s (c.loadBy decode s.group s.text) := by
  cases read : decode s.text with
  | none =>
    rw [load_undecodable read]
    exact .undecodable
  | some entries =>
    obtain rfl : s.entries decode = entries := by rw [Source.entries, read, Option.getD_some]
    rcases entered : enter s.group c.seen 1 (s.entries decode) with ⟨seen, result⟩
    cases result with
    | ok tests =>
      rw [load_accepted read entered]
      obtain ⟨names, rfl, all⟩ := enter_ok entered
      exact .accepted names all
    | error e =>
      rw [load_refused read entered]
      obtain ⟨k, x, name, found, named, rfl, cause⟩ := enter_error entered
      exact .refused found named cause

/-- The other collection has the same tests, but these names are taken in it as well. -/
structure Shadows (left : List String) (c c' : Collection) : Prop where
  tests : c'.tests = c.tests
  seen : ∀ n, n ∈ c'.seen ↔ n ∈ left ∨ n ∈ c.seen

/-- The document uses one of the names, which no test of the collection has, and is refused for it. -/
def BlockedBy (decode : Decoder) (left : List String) (s : Source) (c c' : Collection) : Prop :=
  ∃ n ∈ left, n ∈ s.fullNames decode ∧ n ∉ c.seen ∧
    (c'.loadBy decode s.group s.text).2 = .error (.duplicateName n)

theorem Shadows.load (decode : Decoder) (shadow : Shadows left c c') (s : Source) :
    ((c'.loadBy decode s.group s.text).2 = (c.loadBy decode s.group s.text).2 ∧
      Shadows left (c.loadBy decode s.group s.text).1 (c'.loadBy decode s.group s.text).1) ∨
    BlockedBy decode left s c c' := by
  cases read : decode s.text with
  | none =>
    rw [load_undecodable read, load_undecodable read]
    exact .inl ⟨rfl, shadow⟩
  | some entries =>
    have names : s.fullNames decode = Entry.fullNames s.group 1 entries := by
      rw [Source.fullNames, Source.entries, read, Option.getD_some]
    rcases entered : enter s.group c.seen 1 entries with ⟨seen, result⟩
    rcases entered' : enter s.group c'.seen 1 entries with ⟨seen', result'⟩
    have both := enter_shadowed s.group 1 entries shadow.seen
    rw [entered, entered'] at both
    rcases both with ⟨same, taken⟩ | ⟨n, mem, named, unused, refused⟩
    · obtain rfl : result' = result := same
      cases result' with
      | ok tests =>
        rw [load_accepted read entered, load_accepted read entered']
        exact .inl ⟨rfl, congrArg (· ++ tests) shadow.tests, taken⟩
      | error e =>
        rw [load_refused read entered, load_refused read entered']
        exact .inl ⟨rfl, shadow.tests, taken⟩
    · obtain rfl : result' = .error (.duplicateName n) := refused
      refine .inr ⟨n, mem, names ▸ named, unused, ?_⟩
      rw [load_refused read entered']

/-- From both collections the documents load with the same results, and leave the same tests. -/
def LoadAlike (decode : Decoder) (c c' : Collection) (later : List Source) : Prop :=
  (c'.loadAll decode later).2 = (c.loadAll decode later).2 ∧
    (c'.loadAll decode later).1.tests = (c.loadAll decode later).1.tests

theorem Shadows.loadAll (decode : Decoder) (shadow : Shadows left c c') (later : List Source) :
    ((c'.loadAll decode later).2 = (c.loadAll decode later).2 ∧
      Shadows left (c.loadAll decode later).1 (c'.loadAll decode later).1) ∨
    ∃ before s after, later = before ++ s :: after ∧ LoadAlike decode c c' before ∧
      BlockedBy decode left s (c.loadAll decode before).1 (c'.loadAll decode before).1 := by
  induction later generalizing c c' with
  | nil => exact .inl ⟨rfl, shadow⟩
  | cons s rest ih =>
    rcases shadow.load decode s with ⟨same, shadow'⟩ | blocked
    · rcases ih shadow' with ⟨others, shadow''⟩ | ⟨before, d, after, rfl, alike, blocked⟩
      · exact .inl ⟨by simp only [Collection.loadAll, same, others], shadow''⟩
      · refine .inr ⟨s :: before, d, after, rfl, ⟨?_, alike.2⟩, blocked⟩
        simp only [Collection.loadAll, same, alike.1]
    · exact .inr ⟨[], s, rest, rfl, ⟨rfl, shadow.tests⟩, blocked⟩

def Named (c : Collection) : Prop := ∀ t ∈ c.tests, t.fullName ∈ c.seen

theorem Named.load (named : c.Named) (s : Source) : (c.loadBy decode s.group s.text).1.Named := by
  have step := loaded decode c s
  generalize c.loadBy decode s.group s.text = result at step
  cases step with
  | undecodable => exact named
  | refused => exact fun t mem => List.mem_append_right _ (named t mem)
  | accepted names =>
    intro t mem
    rcases List.mem_append.1 mem with old | new
    · exact List.mem_append_right _ (named t old)
    · refine List.mem_append_left _ (List.mem_reverse.2 ?_)
      rw [← names]
      exact List.mem_map_of_mem new

theorem Named.loadAll (named : c.Named) (sources : List Source) :
    (c.loadAll decode sources).1.Named := by
  induction sources generalizing c with
  | nil => exact named
  | cons s rest ih => exact ih (named.load s)

theorem named_empty : empty.Named := fun _ mem => nomatch mem

theorem mem_load {t : Test} (mem : t ∈ (c.loadBy decode s.group s.text).1.tests) :
    t ∈ c.tests ∨ ∃ x ∈ s.entries decode, x.Becomes t := by
  have step := loaded decode c s
  generalize c.loadBy decode s.group s.text = result at step mem
  cases step with
  | undecodable => exact .inl mem
  | refused => exact .inl mem
  | accepted names all =>
    refine (List.mem_append.1 mem).imp_right fun new => ?_
    obtain ⟨k, lt, rfl⟩ := List.getElem_of_mem new
    have lt' : k < (s.entries decode).length := all.length_eq ▸ lt
    exact ⟨(s.entries decode)[k], List.getElem_mem lt', all.get lt' lt⟩

theorem mem_loadAll {t : Test} {sources : List Source}
    (mem : t ∈ (c.loadAll decode sources).1.tests) :
    t ∈ c.tests ∨ ∃ s ∈ sources, ∃ x ∈ s.entries decode, x.Becomes t := by
  induction sources generalizing c with
  | nil => exact .inl mem
  | cons s rest ih =>
    rcases ih mem with first | ⟨s', mem', found⟩
    · refine (mem_load first).imp_right fun found => ⟨s, List.mem_cons_self, found⟩
    · exact .inr ⟨s', List.mem_cons_of_mem _ mem', found⟩

theorem refusal_of_load {e : LoadError} (failed : (c.loadBy decode s.group s.text).2 = .error e) :
    let c' := (c.loadBy decode s.group s.text).1
    c'.tests = c.tests ∧ ∃ k, c'.seen = ((s.fullNames decode).take k).reverse ++ c.seen ∧
      ((e = .undecodable ∧ k = 0) ∨ ∃ x name, (s.entries decode)[k]? = some x ∧
        (s.fullNames decode)[k]? = some name ∧ x.RefusedFor c'.seen name e) := by
  have step := loaded decode c s
  generalize c.loadBy decode s.group s.text = result at step failed
  cases step with
  | accepted => cases failed
  | undecodable =>
    cases failed
    exact ⟨rfl, 0, rfl, .inl ⟨rfl, rfl⟩⟩
  | refused found named cause =>
    cases failed
    exact ⟨rfl, _, rfl, .inr ⟨_, _, found, named, cause⟩⟩

/-- Whatever was loaded before, a document that is refused leaves the tests as they were, and the names
of its entries before the refused one taken. Later documents that use none of these names load as if it
had never been loaded; and any later documents do so up to the first that uses one of them, which is
refused for that name although no test has it. -/
theorem loadAll_after_refusal (decode : Decoder) (earlier : List Source) {s : Source} {e : LoadError}
    (failed : ((empty.loadAll decode earlier).1.loadBy decode s.group s.text).2 = .error e) :
    let c := (empty.loadAll decode earlier).1
    let c' := (c.loadBy decode s.group s.text).1
    c'.tests = c.tests ∧ ∃ k, c'.seen = ((s.fullNames decode).take k).reverse ++ c.seen ∧
      ((e = .undecodable ∧ k = 0) ∨ ∃ x name, (s.entries decode)[k]? = some x ∧
        (s.fullNames decode)[k]? = some name ∧ x.RefusedFor c'.seen name e) ∧
      (∀ later : List Source,
        (∀ d ∈ later, ∀ n ∈ d.fullNames decode, n ∉ (s.fullNames decode).take k) →
          LoadAlike decode c c' later) ∧
      ∀ later : List Source, LoadAlike decode c c' later ∨
        ∃ before d after, later = before ++ d :: after ∧ LoadAlike decode c c' before ∧
          ∃ n ∈ (s.fullNames decode).take k, n ∈ d.fullNames decode ∧
            (∀ t ∈ (c'.loadAll decode before).1.tests, t.fullName ≠ n) ∧
            ((c'.loadAll decode before).1.loadBy decode d.group d.text).2 =
              .error (.duplicateName n) := by
  intro c c'
  obtain ⟨tests, k, seen, cause⟩ := refusal_of_load failed
  have shadow : Shadows ((s.fullNames decode).take k) c c' := by
    refine ⟨tests, fun n => ?_⟩
    rw [seen, List.mem_append, List.mem_reverse]
  refine ⟨tests, k, seen, cause, fun later unused => ?_, fun later => ?_⟩
  · rcases shadow.loadAll decode later with
      ⟨same, shadow'⟩ | ⟨before, d, after, rfl, -, n, mem, used, -⟩
    · exact ⟨same, shadow'.tests⟩
    · exact absurd mem (unused d (by simp) n used)
  · rcases shadow.loadAll decode later with
      ⟨same, shadow'⟩ | ⟨before, d, after, split, alike, blocked⟩
    · exact .inl ⟨same, shadow'.tests⟩
    · obtain ⟨n, mem, used, unseen, refused⟩ := blocked
      refine .inr ⟨before, d, after, split, alike, n, mem, used, fun t has same => ?_, refused⟩
      have named : c.Named := named_empty.loadAll earlier
      rw [alike.2] at has
      exact unseen (same ▸ named.loadAll before t has)

/-- The second entry expects nothing. -/
def halfRight : Source where
  group := "g"
  text := "[[tests]]\nname = \"a\"\nregex = \"a\"\ninput = \"a\"\nmatch = true\n" ++
    "[[tests]]\nname = \"b\"\nregex = \"b\"\ninput = \"b\"\n"

def firstAlone (group : String) : Source where
  group := group
  text := "[[tests]]\nname = \"a\"\nregex = \"a\"\ninput = \"a\"\nmatch = true\n"

theorem load_halfRight : empty.loadBy Entry.ofDocument? halfRight.group halfRight.text =
    (⟨[], ["g/a"]⟩, .error (.invalidTest "g/b" .noExpectation)) := by
  decide +kernel

theorem loadAll_after_refusal_halfRight :
    (empty.loadBy Entry.ofDocument? halfRight.group halfRight.text).2 =
        .error (.invalidTest "g/b" .noExpectation) ∧
      (empty.loadBy Entry.ofDocument? halfRight.group halfRight.text).1.tests = [] ∧
      LoadAlike Entry.ofDocument? empty
        (empty.loadBy Entry.ofDocument? halfRight.group halfRight.text).1 [firstAlone "h"] := by
  have refused := congrArg Prod.snd load_halfRight
  obtain ⟨tests, k, seen, -, unused, -⟩ := loadAll_after_refusal Entry.ofDocument? [] refused
  have start : (empty.loadAll Entry.ofDocument? []).1 = empty := rfl
  rw [start] at tests seen unused
  refine ⟨refused, tests, unused _ fun d mem n used left => ?_⟩
  obtain rfl := List.mem_singleton.1 mem
  have others : (firstAlone "h").fullNames Entry.ofDocument? = ["h/a"] := by decide +kernel
  rw [load_halfRight] at seen
  have taken : n ∈ ["g/a"] := by
    change ["g/a"] = _ at seen
    rw [seen]
    exact List.mem_append_left _ (List.mem_reverse.2 left)
  rw [others, List.mem_singleton] at used
  rw [used] at taken
  exact absurd taken (by decide)

/-- A document that is refused is not as if it had never been loaded. -/
theorem not_loadAlike_after_refusal :
    ¬ ∀ (earlier later : List Source) (s : Source) (e : LoadError),
      ((empty.loadAll Entry.ofDocument? earlier).1.loadBy Entry.ofDocument? s.group s.text).2 =
        .error e →
        LoadAlike Entry.ofDocument? (empty.loadAll Entry.ofDocument? earlier).1
          ((empty.loadAll Entry.ofDocument? earlier).1.loadBy Entry.ofDocument? s.group s.text).1
          later := by
  intro always
  have refused := congrArg Prod.snd load_halfRight
  have alike := (always [] [firstAlone "g"] halfRight _ refused).1
  have start : (empty.loadAll Entry.ofDocument? []).1 = empty := rfl
  rw [start, load_halfRight] at alike
  have first : (empty.loadAll Entry.ofDocument? [firstAlone "g"]).2 = [.ok ()] := by decide +kernel
  have again : (loadAll Entry.ofDocument? ⟨[], ["g/a"]⟩ [firstAlone "g"]).2 =
      [.error (.duplicateName "g/a")] := by
    decide +kernel
  rw [first, again] at alike
  cases alike

end Collection

end PatternGraph.Suite
