import Mathlib.Data.List.Forall2
import PatternGraph.Suite.Report

/-!
What a run leaves behind. Every test has its records, one for a test that the selection leaves out,
and the run is complained about exactly if one of them is a failure. Only a test whose engine answers
with no answers at all leaves no record.
-/
namespace PatternGraph.Suite

/-- The engine compiles the pattern of a test that is to be answered, and has no answer. -/
def Engine.Silent (engine : Engine) (t : Test) : Prop :=
  ∃ (e : Expectation) (run : Test → Except String (List NamedAnswer)),
    t.aim = .answer e ∧ engine t = .ready run ∧ run t = .ok []

/-! ## The records of one test -/

section Tests

variable {engine : Engine} {t : Test} {r : Record}

theorem runTest_eq_nil_iff : runTest engine t = [] ↔ engine.Silent t := by
  constructor
  · intro none
    unfold runTest at none
    split at none
    · cases none
    · cases none
    · cases none
    · next run ready =>
      split at none
      · cases none
      · next e aim =>
        split at none
        · cases none
        · next answers answered =>
          rw [List.map_eq_nil_iff] at none
          exact ⟨e, run, aim, ready, none ▸ answered⟩
  · rintro ⟨e, run, aim, ready, answered⟩
    simp only [runTest, ready, aim, answered, List.map_nil]

theorem test_of_mem_runTest (mem : r ∈ runTest engine t) : r.test = t := by
  unfold runTest at mem
  split at mem
  · exact List.mem_singleton.1 mem ▸ rfl
  · exact List.mem_singleton.1 mem ▸ rfl
  · exact List.mem_singleton.1 mem ▸ rfl
  · split at mem
    · exact List.mem_singleton.1 mem ▸ rfl
    · split at mem
      · exact List.mem_singleton.1 mem ▸ rfl
      · obtain ⟨a, -, rfl⟩ := List.mem_map.1 mem
        rfl

variable (selection : Selection)

def recordsOf (engine : Engine) (t : Test) : List Record :=
  if selection.skips t.fullName then [.settled t .skipped] else runTest engine t

structure Reports (selection : Selection) (t : Test) (engine : Engine) (records : List Record) :
    Prop where
  test : ∀ r ∈ records, r.test = t
  leftOut : selection.skips t.fullName = true → records = [.settled t .skipped]
  nothing : records = [] ↔ selection.skips t.fullName = false ∧ engine.Silent t

theorem reports_recordsOf : Reports selection t engine (recordsOf selection engine t) := by
  unfold recordsOf
  cases skips : selection.skips t.fullName with
  | true => exact ⟨by simp [Record.settled], fun _ => rfl, by simp [skips]⟩
  | false =>
    refine ⟨fun r mem => test_of_mem_runTest mem, fun yes => ?_, ?_⟩
    · rw [skips] at yes
      cases yes
    · simpa [skips] using runTest_eq_nil_iff

end Tests

/-! ## Reports on records -/

section Reports

variable {records : List Record}

theorem Record.failure?_eq_none_iff {r : Record} :
    r.failure? = none ↔ ∀ d, r.verdict ≠ .failed d := by
  unfold failure?
  split <;> simp [*]

theorem complaint?_eq_none_iff :
    complaint? records = none ↔ ∀ r ∈ records, ∀ d, r.verdict ≠ .failed d := by
  have failed : complaint? records = none ↔ failures records = [] := by
    unfold complaint?
    split
    · next none => exact iff_of_true rfl none
    · next several => exact iff_of_false nofun several
  simp [failed, failures, Record.failure?_eq_none_iff]

theorem length_records (records : List Record) :
    (recordsWith .passed records).length + (recordsWith .skipped records).length +
      (failures records).length = records.length := by
  induction records with
  | nil => rfl
  | cons r rest ih =>
    simp only [recordsWith, failures] at *
    cases verdict : r.verdict with
    | passed | skipped =>
      have fine : r.failure? = none := by rw [Record.failure?, verdict]
      simp [verdict, fine]
      omega
    | failed d =>
      have fails : r.failure? = some d := by rw [Record.failure?, verdict]
      simp [verdict, fails]
      omega

end Reports

/-- Runs tests with an engine that may be another at every turn, such as one that remembers what it was
asked before. -/
def runInTurn (selection : Selection) (turns : List (Test × Engine)) : List Record :=
  turns.flatMap fun turn => recordsOf selection turn.2 turn.1

theorem runTests_eq_runInTurn (selection : Selection) (engine : Engine) (tests : List Test) :
    runTests selection engine tests = runInTurn selection (tests.map fun t => (t, engine)) := by
  rw [runInTurn, List.flatMap_map]
  rfl

/-- The records of a run, with one engine or a changing one, are those of its tests, in order. A test that
is left out has one record, and only a test that meets with silence has none. All records are counted
in the report, and nothing is complained about exactly if no record is a failure. -/
theorem runInTurn_reports (selection : Selection) (turns : List (Test × Engine)) :
    (∀ (engine : Engine) (tests : List Test),
      runTests selection engine tests = runInTurn selection (tests.map fun t => (t, engine))) ∧
    ∃ blocks : List (List Record), runInTurn selection turns = blocks.flatten ∧
      List.Forall₂ (fun turn block => Reports selection turn.1 turn.2 block) turns blocks ∧
      (complaint? (runInTurn selection turns) = none ↔
        ∀ block ∈ blocks, ∀ r ∈ block, ∀ d, r.verdict ≠ .failed d) ∧
      (recordsWith .passed (runInTurn selection turns)).length +
        (recordsWith .skipped (runInTurn selection turns)).length +
        (failures (runInTurn selection turns)).length = (runInTurn selection turns).length := by
  have split : runInTurn selection turns =
      (turns.map fun turn => recordsOf selection turn.2 turn.1).flatten := List.flatMap_def
  refine ⟨runTests_eq_runInTurn selection, _, split, ?_, ?_, length_records _⟩
  · rw [List.forall₂_map_right_iff, List.forall₂_same]
    exact fun turn _ => reports_recordsOf selection
  · rw [complaint?_eq_none_iff, split]
    simp only [List.mem_flatten]
    exact ⟨fun all block mem r rec => all r ⟨block, mem, rec⟩,
      fun all r ⟨block, mem, rec⟩ => all block mem r rec⟩

/-- A test that an engine has no answer to leaves no trace. -/
theorem runTests_of_silence :
    let t : Test := ⟨"g", "a", "a", "a", .answer (.whole true), true⟩
    let silent : Engine := fun _ => .ready fun _ => .ok []
    Selection.empty.skips t.fullName = false ∧ runTests .empty silent [t] = [] ∧
      complaint? (runTests .empty silent [t]) = none :=
  ⟨rfl, rfl, rfl⟩

end PatternGraph.Suite
