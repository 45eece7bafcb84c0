import PatternGraph.Proofs.Cursor.Boundary
import PatternGraph.Search.Needle

/-!
Where the bytes of a literal occur in a text: only on character boundaries, and wherever its
characters are ahead. A needle is found at the first such place.
-/
namespace PatternGraph
open Cursor

namespace Needle

theorem occursAt_iff {haystack : ByteArray} {p : Nat} {bytes : List UInt8} :
    occursAt haystack p bytes = true ↔ bytes <+: haystack.data.toList.drop p := by
  induction bytes generalizing p with
  | nil => simp [occursAt]
  | cons b rest ih =>
    rw [occursAt]
    by_cases inside : p < haystack.size
    · have inside' : p < haystack.data.toList.length := inside
      rw [dif_pos inside, Bool.and_eq_true, ih, beq_iff_eq, List.drop_eq_getElem_cons inside',
        List.cons_prefix_cons]
      exact and_congr_left' eq_comm
    · have past : haystack.data.toList.drop p = [] := List.drop_eq_nil_of_le (Nat.le_of_not_lt inside)
      rw [dif_neg inside, past]
      simp

theorem find?_eq_some {n : Needle} {haystack : ByteArray} {p found : Nat}
    (h : n.find? haystack p = some found) :
    occursAt haystack found n.bytes = true ∧
      ∀ q, p ≤ q → q < found → occursAt haystack q n.bytes = false := by
  fun_induction find? n haystack p with
  | case1 => cases h
  | case2 p inside occurs =>
    cases h
    exact ⟨occurs, fun q above below => by omega⟩
  | case3 p inside absent ih =>
    obtain ⟨occurs, first⟩ := ih h
    refine ⟨occurs, ?_⟩
    intro q above below
    by_cases same : q = p
    · rw [same]
      exact Bool.eq_false_iff.2 absent
    · exact first q (by omega) below

theorem find?_eq_none {n : Needle} {haystack : ByteArray} {p : Nat}
    (h : n.find? haystack p = none) {q : Nat} (above : p ≤ q) (inside : q ≤ haystack.size) :
    occursAt haystack q n.bytes = false := by
  fun_induction find? n haystack p with
  | case1 => omega
  | case2 => cases h
  | case3 p _ absent ih =>
    by_cases same : q = p
    · rw [same]
      exact Bool.eq_false_iff.2 absent
    · exact ih h (by omega)

theorem bytes_of_ofChars? {cs : List Char} {n : Needle} (h : ofChars? cs = some n) :
    n.bytes = cs.flatMap String.utf8EncodeChar ∧ cs ≠ [] := by
  unfold ofChars? at h
  split at h
  · cases h
  · rename_i some
    cases h
    refine ⟨rfl, ?_⟩
    rintro rfl
    exact some rfl

end Needle

namespace TextCursor
variable {text : String}

theorem bytes_eq (text : String) :
    text.toUTF8.data.toList = text.toList.flatMap String.utf8EncodeChar := by
  rw [String.toUTF8_eq_toByteArray, ← String.utf8Encode_toList, List.utf8Encode,
    List.toList_data_toByteArray]

theorem length_bytes (cs : List Char) :
    (cs.flatMap String.utf8EncodeChar).length = String.utf8Len cs := by
  induction cs with
  | nil => rfl
  | cons c cs ih =>
    rw [List.flatMap_cons, List.length_append, ih, String.length_utf8EncodeChar, String.utf8Len_cons]
    omega

theorem nextChars_of_split {front back cs : List Char} {c : TextCursor}
    (split : text.toList = front ++ back) :
    nextChars (⟨text, String.utf8Len front⟩ : TextCursor) cs = some c ↔
      cs <+: back ∧ c = ⟨text, String.utf8Len (front ++ cs)⟩ := by
  have spelled (ts : List Char) : ts.map Token.toChar = ts := List.map_id ts
  rw [nextChars_eq_some_iff]
  constructor
  · rintro ⟨ts, passes, same⟩
    rw [spelled] at same
    subst same
    obtain ⟨rest, rfl, rfl⟩ := split_of_passes split passes
    exact ⟨List.prefix_append _ _, rfl⟩
  · rintro ⟨⟨rest, rfl⟩, rfl⟩
    obtain ⟨_, whole, _⟩ := passes_of_split split
    obtain ⟨c, passes, _⟩ := whole.split
    obtain ⟨_, _, rfl⟩ := split_of_passes split passes
    exact ⟨cs, passes, spelled cs⟩

theorem occursAt_of_nextChars {p : Nat} {cs : List Char} {c : TextCursor}
    (boundary : isBoundary text p = true) (passed : nextChars (⟨text, p⟩ : TextCursor) cs = some c) :
    Needle.occursAt text.toUTF8 p (cs.flatMap String.utf8EncodeChar) = true := by
  obtain ⟨front, back, split, rfl⟩ := isBoundary_iff.1 boundary
  obtain ⟨⟨rest, rfl⟩, _⟩ := (nextChars_of_split split).1 passed
  rw [Needle.occursAt_iff, bytes_eq, split, List.flatMap_append, List.flatMap_append, ← length_bytes,
    List.drop_left]
  exact List.prefix_append _ _

/-- No character begins with a byte that can be found inside a character. -/
theorem isBoundary_of_occursAt {p : Nat} {cs : List Char} (some : cs ≠ [])
    (occurs : Needle.occursAt text.toUTF8 p (cs.flatMap String.utf8EncodeChar) = true) :
    isBoundary text p = true := by
  obtain ⟨c, cs, rfl⟩ := List.exists_cons_of_ne_nil some
  obtain ⟨b, bytes, encoded⟩ := List.exists_cons_of_ne_nil (String.utf8EncodeChar_ne_nil (c := c))
  have first : b.IsUTF8FirstByte := by
    have inside : 0 < (String.utf8EncodeChar c).length := by simp [encoded]
    have leads : ((String.utf8EncodeChar c).get ⟨0, inside⟩).IsUTF8FirstByte :=
      UInt8.isUTF8FirstByte_getElem_zero_utf8EncodeChar
    simpa [encoded] using leads
  rw [List.flatMap_cons, encoded, List.cons_append, Needle.occursAt] at occurs
  split at occurs
  · rename_i inside
    rw [Bool.and_eq_true, beq_iff_eq] at occurs
    rw [isBoundary, String.Pos.Raw.isValid_eq_true_iff, String.Pos.Raw.isValid_iff_isUTF8FirstByte]
    right
    refine ⟨inside, ?_⟩
    have here : text.getUTF8Byte ⟨p⟩ inside = b := occurs.1
    rwa [here]
  · cases occurs

end TextCursor

end PatternGraph
