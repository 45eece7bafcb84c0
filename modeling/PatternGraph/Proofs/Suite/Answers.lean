import PatternGraph.Proofs.Suite.Loading
import PatternGraph.Suite.Run

/-!
Which answers pass a loaded test. An answer of a kind that tells about what the test expects passes
exactly if it agrees; one of another kind is reported as incompatible. The exception is an answer that
only tells whether the input matches as a whole: a test that expects spans takes it for an answer to
the question whether there is no match.
-/
namespace PatternGraph.Suite

namespace Entry

variable {x : Entry} {e : Expectation}

inductive Expects (x : Entry) : Expectation → Prop
  | whole {matched : Bool} (expected : x.matched? = some matched) (spans : x.spans? = none)
      (groups : x.groups? = none) : Expects x (.whole matched)
  | spans {spans : List (Span Nat)} (matched : x.matched? = none) (expected : x.spans? = some spans)
      (groups : x.groups? = none) : Expects x (.spans spans)
  | groups {groups : GroupSpans} (matched : x.matched? = none) (spans : x.spans? = none)
      (expected : x.groups? = some groups) : Expects x (.groups groups)

theorem expectations_eq_single_iff : x.expectations = [e] ↔ x.Expects e := by
  constructor
  · intro only
    unfold expectations at only
    cases matched : x.matched? <;> cases spans : x.spans? <;> cases groups : x.groups? <;>
      simp [matched, spans, groups] at only
    · exact only ▸ .groups matched spans groups
    · exact only ▸ .spans matched spans groups
    · exact only ▸ .whole matched spans groups
  · rintro (⟨matched, spans, groups⟩ | ⟨matched, spans, groups⟩ | ⟨matched, spans, groups⟩) <;>
      simp [expectations, matched, spans, groups]

/-- An entry is made a test that is answered if it has to compile, at no offset, and expects one
thing. -/
theorem aim_eq_answer_iff :
    x.aim = .ok (.answer e) ↔ x.compiles = true ∧ x.errorOffset? = none ∧ x.Expects e := by
  rw [← expectations_eq_single_iff, aim]
  split
  · next compiles =>
    split
    · next offset =>
      simp [compiles, Option.isSome_iff_ne_none.1 offset]
    · next offset =>
      rw [Option.not_isSome_iff_eq_none] at offset
      split
      · next nothing => simp [nothing]
      · next only => simp [only, compiles, offset]
      · next several =>
        simp only [reduceCtorEq, false_iff]
        exact fun only => several e only.2.2
  · next refused => split <;> simp [refused]

end Entry

/-- The answer is of a kind that tells about what is expected. -/
inductive Answer.Addresses : Answer → Expectation → Prop
  | whole (found matched : Bool) : Addresses (.whole found) (.whole matched)
  | presence (found : Option GroupSpans) (matched : Bool) : Addresses (.groups found) (.whole matched)
  | spans (found expected : List (Span Nat)) : Addresses (.spans found) (.spans expected)
  | matched (found : Bool) (expected : GroupSpans) : Addresses (.whole found) (.groups expected)
  | groups (found : Option GroupSpans) (expected : GroupSpans) :
      Addresses (.groups found) (.groups expected)

inductive Answer.Meets : Answer → Expectation → Prop
  | whole (matched : Bool) : Meets (.whole matched) (.whole matched)
  | presence (found : Option GroupSpans) : Meets (.groups found) (.whole found.isSome)
  | spans (expected : List (Span Nat)) : Meets (.spans expected) (.spans expected)
  | matched (expected : GroupSpans) : Meets (.whole true) (.groups expected)
  | groups (expected : GroupSpans) : Meets (.groups (some expected)) (.groups expected)

theorem Verdict.passedIf_eq_passed_iff {p : Prop} [Decidable p] {d : Discrepancy} :
    passedIf p d = .passed ↔ p := by
  unfold passedIf
  split <;> simp [*]

theorem Verdict.passedIf_eq_failed_iff {p : Prop} [Decidable p] {d d' : Discrepancy} :
    passedIf p d = .failed d' ↔ ¬ p ∧ d = d' := by
  unfold passedIf
  split <;> simp [*]

namespace Expectation

variable {e : Expectation} {a : Answer}

theorem check_eq_skipped_iff : e.check a = .skipped ↔ a = .skip := by
  cases a <;> cases e <;> simp [check, Verdict.passedIf] <;> split <;> simp

/-- An answer that tells about what is expected passes if it agrees. -/
theorem check_eq_passed_iff (addresses : a.Addresses e) : e.check a = .passed ↔ a.Meets e := by
  cases addresses <;>
    refine Verdict.passedIf_eq_passed_iff.trans ⟨?_, fun meets => by cases meets; rfl⟩
  case whole =>
    rintro rfl
    exact .whole _
  case presence =>
    rintro rfl
    exact .presence _
  case spans =>
    rintro rfl
    exact .spans _
  case matched =>
    rintro rfl
    exact .matched _
  case groups =>
    rintro rfl
    exact .groups _

theorem check_ne_incompatible (addresses : a.Addresses e) (expected got : String) :
    e.check a ≠ .failed (.incompatible expected got) := by
  cases addresses <;> simp [check, Verdict.passedIf_eq_failed_iff]

end Expectation

structure Judged (e : Expectation) (a : Answer) (v : Verdict) : Prop where
  skipped : v = .skipped ↔ a = .skip
  passed : a.Addresses e → (v = .passed ↔ a.Meets e)
  addressed : a.Addresses e → ∀ expected got, v ≠ .failed (.incompatible expected got)
  spans (found : List (Span Nat)) : a = .spans found → ¬ a.Addresses e →
    v = .failed (.incompatible e.kind "matches")
  groups (found : Option GroupSpans) : a = .groups found → ¬ a.Addresses e →
    v = .failed (.incompatible e.kind "captures")
  /-- The answer is not found to be of another kind. -/
  whole (found : Bool) : a = .whole found → ¬ a.Addresses e →
    v = if found then .failed .wrongMatch else .passed

structure Record.Tells (t : Test) (e : Expectation) (a : NamedAnswer) (r : Record) : Prop where
  test : r.test = t
  answerName : r.answerName = a.name
  judged : Judged e a.answer r.verdict

theorem judged_check (e : Expectation) (a : Answer) : Judged e a (e.check a) where
  skipped := Expectation.check_eq_skipped_iff
  passed := Expectation.check_eq_passed_iff
  addressed := Expectation.check_ne_incompatible
  spans := by
    rintro found rfl other
    cases e with
    | whole matched | groups expected => rfl
    | spans expected => exact absurd (.spans found expected) other
  groups := by
    rintro found rfl other
    cases e with
    | whole matched => exact absurd (.presence found matched) other
    | groups expected => exact absurd (.groups found expected) other
    | spans expected => rfl
  whole := by
    rintro found rfl other
    cases e with
    | whole matched => exact absurd (.whole found matched) other
    | groups expected => exact absurd (.matched found expected) other
    | spans expected => cases found <;> rfl

theorem runTest_answered {engine : Engine} {t : Test} {e : Expectation}
    {run : Test → Except String (List NamedAnswer)} {answers : List NamedAnswer}
    (aim : t.aim = .answer e) (ready : engine t = .ready run) (answered : run t = .ok answers) :
    runTest engine t = answers.map fun a => ⟨t, a.name, e.check a.answer⟩ := by
  simp only [runTest, ready, aim, answered]

/-- A loaded test that has to compile comes from an entry that expects one thing. Whatever engine
compiles it, each of its answers is recorded with the verdict on what that entry expects. -/
theorem records_of_answers {decode : Decoder} {sources : List Source} {t : Test}
    (loaded : t ∈ (Collection.empty.loadAll decode sources).1.tests) (compiles : t.compiles = true) :
    ∃ s ∈ sources, ∃ x ∈ s.entries decode, x.Becomes t ∧ x.compiles = true ∧
      ∃ e, x.Expects e ∧ t.aim = .answer e ∧
        ∀ (engine : Engine) (run : Test → Except String (List NamedAnswer))
          (answers : List NamedAnswer), engine t = .ready run → run t = .ok answers →
          List.Forall₂ (Record.Tells t e) answers (runTest engine t) := by
  rcases Collection.mem_loadAll loaded with new | ⟨s, source, x, entry, becomes⟩
  · nomatch new
  · cases aim : t.aim with
    | refusal offset =>
      rw [Test.compiles, aim] at compiles
      cases compiles
    | answer e =>
      obtain ⟨complete, -, expects⟩ := Entry.aim_eq_answer_iff.1 (aim ▸ becomes.aim)
      refine ⟨s, source, x, entry, becomes, complete, e, expects, rfl, ?_⟩
      intro engine run answers ready answered
      rw [runTest_answered aim ready answered, List.forall₂_map_right_iff, List.forall₂_same]
      exact fun a _ => ⟨rfl, rfl, judged_check e a.answer⟩

def spanSource : Source where
  group := "g"
  text := "[[tests]]\nname = \"s\"\nregex = \"a\"\ninput = \"a\"\nmatches = [[0, 1]]\n"

def spanTest : Test := ⟨"g", "s", "a", "a", .answer (.spans [⟨0, 1⟩]), true⟩

theorem loadAll_spanSource :
    (Collection.empty.loadAll Entry.ofDocument? [spanSource]).1.tests = [spanTest] := by
  decide +kernel

def answering (answers : List Answer) : Engine := fun _ => .ready fun _ => .ok (answers.map (⟨"", ·⟩))

theorem records_of_answers_spans :
    spanTest ∈ (Collection.empty.loadAll Entry.ofDocument? [spanSource]).1.tests ∧
      spanTest.compiles = true ∧
      List.Forall₂ (Record.Tells spanTest (.spans [⟨0, 1⟩]))
        [⟨"", .spans [⟨0, 1⟩]⟩, ⟨"", .groups none⟩]
        (runTest (answering [.spans [⟨0, 1⟩], .groups none]) spanTest) := by
  have loaded : spanTest ∈ (Collection.empty.loadAll Entry.ofDocument? [spanSource]).1.tests := by
    rw [loadAll_spanSource]
    exact List.mem_cons_self
  refine ⟨loaded, rfl, ?_⟩
  obtain ⟨_, _, _, _, _, _, e, _, aim, judged⟩ := records_of_answers loaded rfl
  cases aim
  exact judged _ _ _ rfl rfl

/-- A test that expects spans passes for an answer that does not tell of any. -/
theorem passed_without_spans :
    ∃ t ∈ (Collection.empty.loadAll Entry.ofDocument? [spanSource]).1.tests,
      t.compiles = true ∧ t.spans? = some [⟨0, 1⟩] ∧
        runTest (answering [.whole false]) t = [⟨t, "", .passed⟩] ∧
        ¬ Answer.Addresses (.whole false) (.spans [⟨0, 1⟩]) := by
  rw [loadAll_spanSource]
  exact ⟨spanTest, List.mem_cons_self, rfl, rfl, rfl, nofun⟩

end PatternGraph.Suite
