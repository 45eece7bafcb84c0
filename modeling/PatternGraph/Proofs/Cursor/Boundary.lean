import Mathlib.Data.String.Basic
import PatternGraph.Proofs.Cursor.Passage

/-!
The character boundaries of a text. A boundary splits the characters of a text in two, and no cursor
that set out from one ever stands anywhere else.
-/
namespace PatternGraph
open Cursor

namespace TextCursor
variable {text : String}

theorem utf8Len_append_single (front : List Char) (ch : Char) :
    String.utf8Len (front ++ [ch]) = String.utf8Len front + ch.utf8Size := by
  rw [String.utf8Len_append, String.utf8Len_cons, String.utf8Len_nil, Nat.zero_add]

theorem peek_of_split {front back : List Char} (split : text.toList = front ++ back) :
    (⟨text, String.utf8Len front⟩ : TextCursor).peek = back.head? := by
  have whole : text = String.ofList (front ++ back) := by rw [← split, String.ofList_toList]
  unfold peek
  split
  · rw [whole, String.get?_of_valid]
  · rename_i outside
    have empty : String.utf8Len back = 0 := by
      rw [← String.utf8Len_toList, split, String.utf8Len_append] at outside
      simp only at outside
      omega
    rw [String.utf8Len_eq_zero.1 empty]
    rfl

theorem passes_of_split {front back : List Char} (split : text.toList = front ++ back) :
    ∃ c, Passes (⟨text, String.utf8Len front⟩ : TextCursor) back c ∧ isDone c = true := by
  induction back generalizing front with
  | nil =>
    refine ⟨_, .stay _, ?_⟩
    rw [isDone]
    exact Option.isNone_iff_eq_none.2 (peek_of_split split)
  | cons ch back ih =>
    have here : (⟨text, String.utf8Len front⟩ : TextCursor).peek = some ch := peek_of_split split
    obtain ⟨c, passes, done⟩ := @ih (front ++ [ch]) (by rw [split, List.append_assoc]; rfl)
    refine ⟨c, .step here ?_, done⟩
    rw [utf8Len_append_single] at passes
    have next := advance_one here
    change Cursor.advance _ 1 = _ at next
    rwa [next]

theorem isBoundary_iff {p : Nat} :
    isBoundary text p = true ↔
      ∃ front back, text.toList = front ++ back ∧ p = String.utf8Len front := by
  rw [isBoundary, String.Pos.Raw.isValid_eq_true_iff, String.Pos.Raw.isValid_iff_exists_append]
  constructor
  · rintro ⟨first, second, whole, place⟩
    refine ⟨first.toList, second.toList, ?_, ?_⟩
    · rw [whole, String.toList_append]
    · rw [String.utf8Len_toList]
      exact congrArg String.Pos.Raw.byteIdx place
  · rintro ⟨front, back, split, rfl⟩
    refine ⟨String.ofList front, String.ofList back, ?_, ?_⟩
    · rw [← String.ofList_append, ← split, String.ofList_toList]
    · rw [String.rawEndPos_ofList]

theorem isBoundary_zero (text : String) : isBoundary text 0 = true :=
  isBoundary_iff.2 ⟨[], text.toList, rfl, rfl⟩

theorem le_size_of_isBoundary {p : Nat} (boundary : isBoundary text p = true) :
    p ≤ text.utf8ByteSize := by
  obtain ⟨front, back, split, rfl⟩ := isBoundary_iff.1 boundary
  rw [← String.utf8Len_toList, split, String.utf8Len_append]
  omega

theorem split_of_passes {front back ts : List Char} {c : TextCursor}
    (split : text.toList = front ++ back)
    (passes : Passes (⟨text, String.utf8Len front⟩ : TextCursor) ts c) :
    ∃ rest, back = ts ++ rest ∧ c = ⟨text, String.utf8Len (front ++ ts)⟩ := by
  induction ts generalizing front back with
  | nil =>
    cases passes
    exact ⟨back, rfl, by rw [List.append_nil]⟩
  | cons ch ts ih =>
    cases passes with
    | step here later =>
      have head : back.head? = some ch := (peek_of_split split).symm.trans here
      obtain ⟨back, rfl⟩ := List.head?_eq_some_iff.1 head
      have next := advance_one here
      change Cursor.advance _ 1 = _ at next
      rw [next, ← utf8Len_append_single] at later
      have split : text.toList = (front ++ [ch]) ++ back := by simpa using split
      obtain ⟨rest, rfl, rfl⟩ := ih split later
      exact ⟨rest, rfl, by simp⟩

theorem boundary_of_ahead {p : Nat} {c : TextCursor} (boundary : isBoundary text p = true)
    (ahead : Ahead (⟨text, p⟩ : TextCursor) c) :
    isBoundary text c.offset = true ∧ p ≤ c.offset := by
  obtain ⟨front, back, split, rfl⟩ := isBoundary_iff.1 boundary
  obtain ⟨ts, passes⟩ := ahead
  obtain ⟨rest, rfl, rfl⟩ := split_of_passes split passes
  constructor
  · apply isBoundary_iff.2
    exact ⟨front ++ ts, rest, by rw [split, List.append_assoc], rfl⟩
  · rw [String.utf8Len_append]
    exact Nat.le_add_right _ _

theorem peek_eq_none_iff {p : Nat} (boundary : isBoundary text p = true) :
    (⟨text, p⟩ : TextCursor).peek = none ↔ p = text.utf8ByteSize := by
  obtain ⟨front, back, split, rfl⟩ := isBoundary_iff.1 boundary
  have empty : String.utf8Len back = 0 ↔ back = [] := String.utf8Len_eq_zero
  rw [peek_of_split split, List.head?_eq_none_iff, ← String.utf8Len_toList, split,
    String.utf8Len_append, ← empty]
  omega

theorem boundary_next {p : Nat} {ch : Char} (boundary : isBoundary text p = true)
    (here : (⟨text, p⟩ : TextCursor).peek = some ch) : isBoundary text (p + ch.utf8Size) = true := by
  have next := (boundary_of_ahead boundary (Ahead.next here)).1
  rwa [show Cursor.advance (⟨text, p⟩ : TextCursor) 1 = _ from advance_one here] at next

theorem next_le_boundary {p q : Nat} {ch : Char} (first : isBoundary text p = true)
    (second : isBoundary text q = true) (lt : p < q)
    (here : (⟨text, p⟩ : TextCursor).peek = some ch) : p + ch.utf8Size ≤ q := by
  obtain ⟨front, back, split, rfl⟩ := isBoundary_iff.1 first
  obtain ⟨front', back', split', rfl⟩ := isBoundary_iff.1 second
  rw [peek_of_split split] at here
  obtain ⟨back, rfl⟩ := List.head?_eq_some_iff.1 here
  rw [split] at split'
  rcases List.append_eq_append_iff.1 split' with ⟨between, rfl, same⟩ | ⟨between, rfl, _⟩
  · cases between with
    | nil =>
      rw [List.append_nil] at lt
      omega
    | cons c between =>
      obtain ⟨rfl, _⟩ := List.cons.inj same
      rw [String.utf8Len_append, String.utf8Len_cons]
      omega
  · rw [String.utf8Len_append] at lt
    omega

theorem split_of_le {p q : Nat} (first : isBoundary text p = true) (second : isBoundary text q = true)
    (le : p ≤ q) : ∃ front middle back, text.toList = front ++ middle ++ back ∧
      p = String.utf8Len front ∧ q = String.utf8Len front + String.utf8Len middle := by
  obtain ⟨front, back, split, rfl⟩ := isBoundary_iff.1 first
  obtain ⟨front', back', split', rfl⟩ := isBoundary_iff.1 second
  rw [split] at split'
  rcases List.append_eq_append_iff.1 split' with ⟨middle, rfl, rfl⟩ | ⟨between, rfl, rfl⟩
  · exact ⟨front, middle, back', by rw [split, List.append_assoc], rfl, String.utf8Len_append ..⟩
  · rw [String.utf8Len_append] at le
    obtain rfl : between = [] := String.utf8Len_eq_zero.1 (by omega)
    refine ⟨front', [], back, by simpa using split, ?_, ?_⟩ <;> simp

theorem slice_of_split {front middle back : List Char} (split : text.toList = front ++ middle ++ back) :
    slice? text ⟨String.utf8Len front, String.utf8Len front + String.utf8Len middle⟩ =
      some (String.ofList middle) := by
  have first : isBoundary text (String.utf8Len front) = true :=
    isBoundary_iff.2 ⟨front, middle ++ back, by rw [split, List.append_assoc], rfl⟩
  have last : isBoundary text (String.utf8Len front + String.utf8Len middle) = true :=
    isBoundary_iff.2 ⟨front ++ middle, back, split, (String.utf8Len_append ..).symm⟩
  have part := String.extract_of_valid front middle back
  rw [← split, String.ofList_toList] at part
  rw [slice?, if_pos (by simp [first, last]), part]

end TextCursor

end PatternGraph
