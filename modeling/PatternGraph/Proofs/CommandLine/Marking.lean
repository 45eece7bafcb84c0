import Mathlib.Data.List.GetD
import PatternGraph.CommandLine.Marks
import PatternGraph.Proofs.Search.AllMatches

/-!
Mark lines by columns. As long as a text takes the columns of its characters, and each of them takes one
at least, the marks of the matches found in it stand below the characters that they are for.
-/
namespace PatternGraph.CommandLine
open TextCursor

def charsBefore : List Char → Nat → List Char
  | [], _ => []
  | c :: cs, p => if p = 0 then [] else c :: charsBefore cs (p - c.utf8Size)

section Columns
variable (measure : String → Nat) (text : String)

def columnsOf : List Char → Nat
  | [] => 0
  | c :: cs => measure c.toString + columnsOf cs

def column (p : Nat) : Nat := columnsOf measure (charsBefore text.toList p)

/-- Each part of the text takes the columns of its characters, and there is no character without one. -/
structure Columnar : Prop where
  sum : ∀ part : String, part.toList <:+: text.toList → measure part = columnsOf measure part.toList
  visible : ∀ c ∈ text.toList, 1 ≤ measure c.toString

def Fills (s : Span Nat) (k : Nat) : Prop :=
  s.start < s.stop ∧ column measure text s.start ≤ k ∧ k < column measure text s.stop

def Sits (s : Span Nat) (k : Nat) : Prop := s.start = s.stop ∧ k = column measure text s.start

def Unmarked (spans : List (Span Nat)) (k : Nat) : Prop :=
  ∀ s ∈ spans, ¬ Fills measure text s k ∧ ¬ Sits measure text s k

structure Belongs (spans : List (Span Nat)) (k : Nat) (ch : Char) : Prop where
  caret : ch = '^' ↔ ∃ s ∈ spans, Fills measure text s k
  bar : ch = '|' ↔ ∃ s ∈ spans, Sits measure text s k
  blank : ch = ' ' ↔ Unmarked measure text spans k

end Columns

variable {measure : String → Nat} {text : String} {s : Span Nat} {rest spans : List (Span Nat)}
  {k p q r : Nat} {ch : Char}

theorem charsBefore_append (front back : List Char) :
    charsBefore (front ++ back) (String.utf8Len front) = front := by
  induction front with
  | nil => cases back <;> rfl
  | cons c front ih =>
    have size := c.utf8Size_pos
    rw [List.cons_append, charsBefore, String.utf8Len_cons, if_neg (by omega), Nat.add_sub_cancel, ih]

theorem column_of_split {front back : List Char} (split : text.toList = front ++ back) :
    column measure text (String.utf8Len front) = columnsOf measure front := by
  rw [column, split, charsBefore_append]

theorem columnsOf_append (front back : List Char) :
    columnsOf measure (front ++ back) = columnsOf measure front + columnsOf measure back := by
  induction front with
  | nil => exact (Nat.zero_add _).symm
  | cons c front ih => rw [List.cons_append, columnsOf, columnsOf, ih, Nat.add_assoc]

theorem column_zero : column measure text 0 = 0 := @column_of_split measure text [] text.toList rfl

namespace Columnar

/-- Between two boundaries the text takes the columns from that of the first to that of the second. -/
theorem slice (columnar : Columnar measure text) (first : isBoundary text p = true)
    (second : isBoundary text q = true) (le : p ≤ q) :
    ∃ part, slice? text ⟨p, q⟩ = some part ∧
      column measure text q = column measure text p + measure part ∧ (p < q → 1 ≤ measure part) := by
  obtain ⟨front, middle, back, split, rfl, rfl⟩ := split_of_le first second le
  have inside : (String.ofList middle).toList <:+: text.toList := by
    rw [String.toList_ofList, split]
    exact ⟨front, back, rfl⟩
  have whole : column measure text (String.utf8Len front + String.utf8Len middle) =
      columnsOf measure (front ++ middle) := by
    rw [← String.utf8Len_append]
    exact column_of_split split
  have before : column measure text (String.utf8Len front) = columnsOf measure front :=
    column_of_split (by rw [split, List.append_assoc])
  refine ⟨_, slice_of_split split, ?_, fun lt => ?_⟩
  · rw [whole, before, columnar.sum _ inside, String.toList_ofList, columnsOf_append]
  · rw [columnar.sum _ inside, String.toList_ofList]
    cases middle with
    | nil => exact absurd lt (Nat.lt_irrefl _)
    | cons c middle =>
      have visible := columnar.visible c (by simp [split])
      exact Nat.le_add_right_of_le visible

theorem column_le (columnar : Columnar measure text) (first : isBoundary text p = true)
    (second : isBoundary text q = true) (le : p ≤ q) :
    column measure text p ≤ column measure text q := by
  obtain ⟨part, _, columns, _⟩ := columnar.slice first second le
  omega

theorem column_next (columnar : Columnar measure text) {c : Char} (boundary : isBoundary text p = true)
    (here : TextCursor.peek ⟨text, p⟩ = some c) :
    column measure text (p + c.utf8Size) = column measure text p + measure c.toString ∧
      1 ≤ measure c.toString := by
  obtain ⟨front, back, split, rfl⟩ := isBoundary_iff.1 boundary
  rw [peek_of_split split] at here
  obtain ⟨back, rfl⟩ := List.head?_eq_some_iff.1 here
  constructor
  · have passed : text.toList = (front ++ [c]) ++ back := by simpa using split
    rw [column_of_split split, ← utf8Len_append_single, column_of_split passed, columnsOf_append]
    rfl
  · exact columnar.visible c (by simp [split])

end Columnar

/-- The spans lie in the text one after the other, from an offset on. Behind an empty span the next
character is passed. -/
inductive Laid (text : String) : Nat → List (Span Nat) → Prop
  | nil (r : Nat) : Laid text r []
  | filled {r p q : Nat} {rest : List (Span Nat)} (le : r ≤ p) (lt : p < q)
      (first : isBoundary text p = true) (second : isBoundary text q = true) (later : Laid text q rest) :
      Laid text r (⟨p, q⟩ :: rest)
  | empty {r p : Nat} {c : Char} {rest : List (Span Nat)} (le : r ≤ p)
      (boundary : isBoundary text p = true) (here : TextCursor.peek ⟨text, p⟩ = some c)
      (later : Laid text (p + c.utf8Size) rest) : Laid text r (⟨p, p⟩ :: rest)
  | last {r p : Nat} (le : r ≤ p) (boundary : isBoundary text p = true)
      (ended : TextCursor.peek ⟨text, p⟩ = none) : Laid text r [⟨p, p⟩]

namespace Laid

theorem of_pairwise {r : Nat} {spans : List (Span Nat)}
    (ends : ∀ s ∈ spans, isBoundary text s.start = true ∧ isBoundary text s.stop = true ∧
      s.start ≤ s.stop)
    (begins : ∀ s ∈ spans, r ≤ s.start) (apart : spans.Pairwise Span.Precedes) : Laid text r spans := by
  induction spans generalizing r with
  | nil => exact .nil r
  | cons s rest ih =>
    obtain ⟨p, q⟩ := s
    obtain ⟨⟨first, second, forward⟩, more⟩ := List.forall_mem_cons.1 ends
    obtain ⟨le, -⟩ := List.forall_mem_cons.1 begins
    obtain ⟨precedes, others⟩ := List.pairwise_cons.1 apart
    simp only at first second forward le
    rcases Nat.lt_or_eq_of_le forward with lt | rfl
    · exact .filled le lt first second (ih more (fun t mem => (precedes t mem).2.1) others)
    · cases here : TextCursor.peek ⟨text, p⟩ with
      | some c =>
        refine .empty le first here (ih more (fun t mem => ?_) others)
        exact next_le_boundary first (more t mem).1 (precedes t mem).1 here
      | none =>
        cases rest with
        | nil => exact .last le first here
        | cons t rest =>
          -- Nothing begins behind the end of the text.
          have size := (peek_eq_none_iff first).1 here
          have inside := le_size_of_isBoundary (more t List.mem_cons_self).1
          have later := (precedes t List.mem_cons_self).1
          simp only at later
          omega

theorem begins (laid : Laid text r spans) :
    ∀ s ∈ spans, isBoundary text s.start = true ∧ r ≤ s.start := by
  induction laid with
  | nil => simp
  | filled le lt first _ _ ih =>
    refine List.forall_mem_cons.2 ⟨⟨first, le⟩, fun s mem => ⟨(ih s mem).1, ?_⟩⟩
    exact Nat.le_trans (Nat.le_of_lt (Nat.lt_of_le_of_lt le lt)) (ih s mem).2
  | empty le boundary _ _ ih =>
    refine List.forall_mem_cons.2 ⟨⟨boundary, le⟩, fun s mem => ⟨(ih s mem).1, ?_⟩⟩
    exact Nat.le_trans (Nat.le_add_right_of_le le) (ih s mem).2
  | last le boundary => simpa using ⟨boundary, le⟩

theorem unmarked_before (laid : Laid text r spans) (columnar : Columnar measure text)
    (boundary : isBoundary text r = true) (left : k < column measure text r) :
    Unmarked measure text spans k := by
  intro s mem
  obtain ⟨first, le⟩ := laid.begins s mem
  have columns := columnar.column_le boundary first le
  constructor
  · rintro ⟨_, right, _⟩
    omega
  · rintro ⟨_, here⟩
    omega

end Laid

theorem unmarked_past (past : column measure text p < k) :
    ¬ Fills measure text ⟨p, p⟩ k ∧ ¬ Sits measure text ⟨p, p⟩ k :=
  ⟨fun fills => Nat.lt_irrefl p fills.1, fun sits => Nat.ne_of_gt past sits.2⟩

theorem getD_blanks (n i : Nat) : (List.replicate n ' ').getD i ' ' = ' ' := by
  rw [List.getD_eq_getElem?_getD, List.getElem?_getD_replicate_default_eq]

namespace Belongs

theorem of_unmarked (none : Unmarked measure text spans k) :
    Belongs measure text spans k ' ' where
  caret := iff_of_false (by decide) fun ⟨s, mem, fills⟩ => (none s mem).1 fills
  bar := iff_of_false (by decide) fun ⟨s, mem, sits⟩ => (none s mem).2 sits
  blank := iff_of_true rfl none

theorem nil : Belongs measure text [] k ' ' :=
  of_unmarked fun _ mem => absurd mem List.not_mem_nil

theorem of_fills (fills : Fills measure text s k) (none : Unmarked measure text rest k) :
    Belongs measure text (s :: rest) k '^' where
  caret := iff_of_true rfl ⟨s, List.mem_cons_self, fills⟩
  bar := by
    refine iff_of_false (by decide) ?_
    rintro ⟨t, mem, sits⟩
    rcases List.mem_cons.1 mem with rfl | mem
    · exact absurd sits.1 (Nat.ne_of_lt fills.1)
    · exact (none t mem).2 sits
  blank := iff_of_false (by decide) fun all => (all s List.mem_cons_self).1 fills

theorem of_sits (sits : Sits measure text s k) (none : Unmarked measure text rest k) :
    Belongs measure text (s :: rest) k '|' where
  caret := by
    refine iff_of_false (by decide) ?_
    rintro ⟨t, mem, fills⟩
    rcases List.mem_cons.1 mem with rfl | mem
    · exact absurd sits.1 (Nat.ne_of_lt fills.1)
    · exact (none t mem).1 fills
  bar := iff_of_true rfl ⟨s, List.mem_cons_self, sits⟩
  blank := iff_of_false (by decide) fun all => (all s List.mem_cons_self).2 sits

theorem cons (unmarked : ¬ Fills measure text s k ∧ ¬ Sits measure text s k)
    (belongs : Belongs measure text rest k ch) : Belongs measure text (s :: rest) k ch where
  caret := by rw [belongs.caret, List.exists_mem_cons_iff, or_iff_right unmarked.1]
  bar := by rw [belongs.bar, List.exists_mem_cons_iff, or_iff_right unmarked.2]
  blank := by rw [belongs.blank, Unmarked, Unmarked, List.forall_mem_cons, and_iff_right unmarked]

theorem of_append {gap : Nat} {own tail : List Char}
    (place : column measure text p = column measure text r + gap)
    (before : ∀ k, k < column measure text p → Unmarked measure text spans k)
    (below : ∀ i, i < own.length →
      Belongs measure text spans (column measure text p + i) (own.getD i ' '))
    (after : ∀ i, Belongs measure text spans (column measure text p + own.length + i)
      (tail.getD i ' ')) (i : Nat) :
    Belongs measure text spans (column measure text r + i)
      ((List.replicate gap ' ' ++ (own ++ tail)).getD i ' ') := by
  by_cases left : i < gap
  · rw [List.getD_append _ _ _ _ (by simpa using left), getD_blanks]
    exact of_unmarked (before _ (by omega))
  · obtain ⟨j, rfl⟩ := Nat.exists_eq_add_of_le (Nat.le_of_not_lt left)
    rw [List.getD_append_right _ _ _ _ (by simp), List.length_replicate, Nat.add_sub_cancel_left,
      ← Nat.add_assoc, ← place]
    by_cases inside : j < own.length
    · rw [List.getD_append _ _ _ _ inside]
      exact below j inside
    · obtain ⟨n, rfl⟩ := Nat.exists_eq_add_of_le (Nat.le_of_not_lt inside)
      rw [List.getD_append_right _ _ _ _ (by omega), Nat.add_sub_cancel_left, ← Nat.add_assoc]
      exact after n

end Belongs

namespace MarkLine

theorem gap_eq (columnar : Columnar measure text) (reached : isBoundary text r = true)
    (boundary : isBoundary text s.start = true) (le : r ≤ s.start) (marks : List Char) :
    column measure text s.start = column measure text r + gap measure text ⟨marks, r⟩ s := by
  obtain ⟨part, sliced, columns, _⟩ := columnar.slice reached boundary le
  rw [columns, gap]
  simp only [sliced, Option.map_some, Option.getD_some]

def Draws (measure : String → Nat) (text : String) (r : Nat) (spans : List (Span Nat)) : Prop :=
  ∀ marks : List Char, ∃ tail last,
    spans.foldlM (add? measure text) ⟨marks, r⟩ = some ⟨marks ++ tail, last⟩ ∧
      ∀ i, Belongs measure text spans (column measure text r + i) (tail.getD i ' ')

theorem Draws.nil (p : Nat) : Draws measure text p [] := fun marks =>
  ⟨[], p, by rw [List.append_nil]; rfl, fun _ => .nil⟩

theorem Draws.cons {own : List Char} (columnar : Columnar measure text)
    (reached : isBoundary text r = true) (laid : Laid text s.start (s :: rest)) (le : r ≤ s.start)
    (drawn : ofSpan? measure text s = some (own, q))
    (below : ∀ i, i < own.length →
      Belongs measure text (s :: rest) (column measure text s.start + i) (own.getD i ' '))
    (after : ∀ (i : Nat) (ch : Char), Belongs measure text rest (column measure text q + i) ch →
      Belongs measure text (s :: rest) (column measure text s.start + own.length + i) ch)
    (later : Draws measure text q rest) : Draws measure text r (s :: rest) := by
  intro marks
  have boundary := (laid.begins s List.mem_cons_self).1
  obtain ⟨tail, last, run, belongs⟩ :=
    later (marks ++ List.replicate (gap measure text ⟨marks, r⟩ s) ' ' ++ own)
  refine ⟨List.replicate (gap measure text ⟨marks, r⟩ s) ' ' ++ (own ++ tail), last, ?_, ?_⟩
  · rw [List.foldlM_cons, add?, drawn]
    simpa using run
  · refine Belongs.of_append (gap_eq columnar reached boundary le marks) ?_ below ?_
    · intro k left
      exact laid.unmarked_before columnar boundary left
    · intro i
      exact after i _ (belongs i)

theorem ofSpan?_filled (columnar : Columnar measure text) (first : isBoundary text p = true)
    (second : isBoundary text q = true) (lt : p < q) :
    ∃ wide, ofSpan? measure text ⟨p, q⟩ = some (List.replicate wide '^', q) ∧
      column measure text q = column measure text p + wide := by
  obtain ⟨part, sliced, columns, wide⟩ := columnar.slice first second (Nat.le_of_lt lt)
  have filled : (⟨p, q⟩ : Span Nat).isEmpty = false := by
    simp only [Span.isEmpty, Span.length, beq_eq_false_iff_ne]
    omega
  refine ⟨measure part, ?_, columns⟩
  rw [ofSpan?, filled, sliced, Option.map_some, Nat.max_eq_right (wide lt)]
  rfl

theorem ofSpan?_empty (boundary : isBoundary text p = true) :
    ofSpan? measure text ⟨p, p⟩ = some (bar measure text p) := by
  have empty : (⟨p, p⟩ : Span Nat).isEmpty = true := by simp [Span.isEmpty, Span.length]
  rw [ofSpan?, if_pos empty, if_pos boundary]

theorem draws_of_laid (columnar : Columnar measure text) (laid : Laid text r spans)
    (reached : isBoundary text r = true) : Draws measure text r spans := by
  induction laid with
  | nil r => exact .nil r
  | @filled r p q rest le lt first second later ih =>
    obtain ⟨wide, drawn, columns⟩ := ofSpan?_filled columnar first second lt
    refine Draws.cons columnar reached (.filled (Nat.le_refl p) lt first second later) le drawn
      ?_ ?_ (ih second)
    · intro i inside
      rw [List.length_replicate] at inside
      rw [List.getD_replicate _ inside]
      have right : column measure text p + i < column measure text q := by omega
      exact Belongs.of_fills ⟨lt, Nat.le_add_right _ _, right⟩
        (later.unmarked_before columnar second right)
    · intro i ch belongs
      rw [List.length_replicate, ← columns]
      refine belongs.cons ⟨fun fills => ?_, fun sits => absurd sits.1 (Nat.ne_of_lt lt)⟩
      exact absurd fills.2.2 (Nat.not_lt_of_le (Nat.le_add_right _ _))
  | @empty r p c rest le boundary here later ih =>
    obtain ⟨columns, visible⟩ := columnar.column_next boundary here
    have next := boundary_next boundary here
    have drawn : ofSpan? measure text ⟨p, p⟩ =
        some ('|' :: List.replicate (measure c.toString - 1) ' ', p + c.utf8Size) := by
      rw [ofSpan?_empty boundary, bar, here]
    refine Draws.cons columnar reached (.empty (Nat.le_refl p) boundary here later) le drawn
      ?_ ?_ (ih next)
    · intro i inside
      rw [List.length_cons, List.length_replicate] at inside
      have unmarked := later.unmarked_before columnar next
        (k := column measure text p + i) (by omega)
      cases i with
      | zero => exact Belongs.of_sits ⟨rfl, rfl⟩ unmarked
      | succ i =>
        rw [List.getD_cons_succ, getD_blanks]
        exact (Belongs.of_unmarked unmarked).cons
          (unmarked_past (Nat.lt_add_of_pos_right (Nat.succ_pos i)))
    · intro i ch belongs
      rw [List.length_cons, List.length_replicate, Nat.sub_add_cancel visible, ← columns]
      exact belongs.cons (unmarked_past (by omega))
  | @last r p le boundary ended =>
    have drawn : ofSpan? measure text ⟨p, p⟩ = some (['|'], p) := by
      rw [ofSpan?_empty boundary, bar, ended]
    refine Draws.cons columnar reached (.last (Nat.le_refl p) boundary ended) le drawn ?_ ?_ (.nil p)
    · intro i inside
      obtain rfl : i = 0 := by simpa using inside
      exact Belongs.of_sits ⟨rfl, rfl⟩ fun _ mem => absurd mem List.not_mem_nil
    · intro i ch belongs
      obtain rfl : ch = ' ' := belongs.blank.2 fun _ mem => absurd mem List.not_mem_nil
      rw [List.length_singleton]
      exact Belongs.nil.cons (unmarked_past (by simp only; omega))

theorem getD_trimmed (marks : List Char) (k : Nat) :
    (marks.reverse.dropWhile (· == ' ')).reverse.getD k ' ' = marks.getD k ' ' := by
  induction marks using List.reverseRecOn with
  | nil => rfl
  | append_singleton marks ch ih =>
    rw [List.reverse_append, List.reverse_singleton, List.singleton_append]
    by_cases blank : ch = ' '
    · subst blank
      rw [List.dropWhile_cons_of_pos (by decide), ih]
      by_cases inside : k < marks.length
      · rw [List.getD_append _ _ _ _ inside]
      · have outside := Nat.le_of_not_lt inside
        rw [List.getD_append_right _ _ _ _ outside, List.getD_eq_default _ _ outside]
        exact (getD_blanks 1 _).symm
    · rw [List.dropWhile_cons_of_neg (by simpa using blank), List.reverse_cons, List.reverse_reverse]

end MarkLine

theorem markedBy?_of_laid (columnar : Columnar measure text) (nonempty : text ≠ "")
    (laid : Laid text 0 spans) :
    ∃ marks : List Char,
      markedBy? measure text spans = some (text ++ "\n" ++ String.ofList marks ++ "\n") ∧
        ∀ k, Belongs measure text spans k (marks.getD k ' ') := by
  obtain ⟨marks, last, drawn, belongs⟩ :=
    MarkLine.draws_of_laid columnar laid (isBoundary_zero text) []
  have shown : text.isEmpty = false := by
    rw [Bool.eq_false_iff]
    exact fun empty => nonempty (String.isEmpty_iff.1 empty)
  refine ⟨(marks.reverse.dropWhile (· == ' ')).reverse, ?_, fun k => ?_⟩
  · rw [markedBy?, MarkLine.ofSpans?, MarkLine.empty, drawn, shown]
    rfl
  · have here := belongs k
    rw [column_zero, Nat.zero_add] at here
    rwa [MarkLine.getD_trimmed]

/-- Below a text whose characters take a column each or more, the matches of a pattern are marked column
by column: a caret below each column of a match, a bar below the first column of the character where an
empty one is, and nothing else. -/
theorem marks_belong {options : Options} {pattern : String} {g : Graph}
    (compiled : compile options pattern = .ok g) (nonempty : text ≠ "")
    (columnar : Columnar measure text) :
    ∃ n, ∀ steps, n ≤ steps → ∃ (spans : List (Span Nat)) (marks : List Char),
      (Matcher.ofGraph g).findAll steps (.ofString text) = .ok spans ∧
      markedBy? measure text spans = some (text ++ "\n" ++ String.ofList marks ++ "\n") ∧
      ∀ k, Belongs measure text spans k (marks.getD k ' ') := by
  obtain ⟨n, decided⟩ := decides_of_compile compiled text
  refine ⟨n, fun steps enough => ?_⟩
  have decides := decided steps enough
  obtain ⟨spans, all, sweeps⟩ :=
    Matcher.findAll_sweeps (Matcher.looksForLeading_of_compile compiled) decides
  have forward := fun start stop found => (decides.forward start stop found).2
  have laid : Laid text 0 spans := by
    refine .of_pairwise (fun s mem => ?_) (fun s _ => Nat.zero_le _) (sweeps.pairwise forward)
    have found := sweeps.matches_of_mem s mem
    exact ⟨found.1, decides.forward _ _ found⟩
  obtain ⟨marks, line, belongs⟩ := markedBy?_of_laid columnar nonempty laid
  exact ⟨spans, marks, all, line, belongs⟩

theorem Columnar.of_all
    (sum : (text.toList.tails.flatMap List.inits).all
      (fun cs => measure (String.ofList cs) = columnsOf measure cs) = true)
    (visible : text.toList.all (fun c => 1 ≤ measure c.toString) = true) : Columnar measure text where
  sum part inside := by
    obtain ⟨rest, initial, final⟩ := List.infix_iff_prefix_suffix.1 inside
    have mem : part.toList ∈ text.toList.tails.flatMap List.inits :=
      List.mem_flatMap.2 ⟨rest, (List.mem_tails _ _).2 final, (List.mem_inits _ _).2 initial⟩
    have equal := of_decide_eq_true (List.all_eq_true.1 sum _ mem)
    rwa [String.ofList_toList] at equal
  visible c mem := of_decide_eq_true (List.all_eq_true.1 visible c mem)

theorem marks_belong_wideCharacter :
    ∃ g, compile .unset "a*" = .ok g ∧ Columnar (Text.displayWidth .unicode15) "aé世b" ∧
      ∃ n, ∀ steps, n ≤ steps → ∃ (spans : List (Span Nat)) (marks : List Char),
        (Matcher.ofGraph g).findAll steps (.ofString "aé世b") = .ok spans ∧
        marked? "aé世b" spans = some ("aé世b" ++ "\n" ++ String.ofList marks ++ "\n") ∧
        ∀ k, Belongs (Text.displayWidth .unicode15) "aé世b" spans k (marks.getD k ' ') := by
  have compiles : (compile .unset "a*").toOption.isSome = true := by decide +kernel
  obtain ⟨g, compiled⟩ := Except.exists_eq_ok compiles
  have columnar : Columnar (Text.displayWidth .unicode15) "aé世b" :=
    .of_all (by decide +kernel) (by decide +kernel)
  exact ⟨g, compiled, columnar, marks_belong compiled (by decide) columnar⟩

/-- A match, and empty ones before a wide character, before a narrow one and at the end. -/
example : marked? "aé世b" [⟨0, 1⟩, ⟨3, 3⟩, ⟨6, 6⟩, ⟨7, 7⟩] = some "aé世b\n^ | ||\n" := by
  decide +kernel

end PatternGraph.CommandLine
