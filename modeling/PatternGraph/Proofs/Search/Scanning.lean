import Mathlib.Order.Bounds.Basic
import PatternGraph.Proofs.Search.Occurrence

/-!
Scanning a text for a literal with two foreign routines, one for a single byte and one for several.
Whatever routines return first occurrences, the scan finds the first place from which the characters of
the literal stand in the text.
-/
namespace PatternGraph
open Cursor

theorem isLeast_iff_forall_lt {places : Set Nat} {i : Nat} :
    IsLeast places i ↔ i ∈ places ∧ ∀ k, k < i → k ∉ places := by
  refine and_congr_right' ⟨fun first k below there => ?_, fun first k there => ?_⟩
  · exact absurd (first there) (Nat.not_le.2 below)
  · by_contra below
    exact first k (Nat.lt_of_not_le below) there

/-- The routines that look through bytes, for one byte and for a sequence of them. -/
structure Scanners where
  byte : UInt8 → List UInt8 → Option Nat
  bytes : List UInt8 → List UInt8 → Option Nat

namespace Scanners

/-- Both routines return the first occurrence, and nothing only if there is none. -/
structure Exact (s : Scanners) : Prop where
  byte : ∀ b haystack i, s.byte b haystack = some i ↔ IsLeast {k | haystack[k]? = some b} i
  bytes : ∀ needle haystack i, s.bytes needle haystack = some i ↔
    IsLeast {k | needle <+: haystack.drop k} i

def plain : Scanners where
  byte b haystack := haystack.findIdx? (· == b)
  bytes needle haystack :=
    (List.range (haystack.length + 1)).find? fun k => needle.isPrefixOf (haystack.drop k)

theorem exact_plain : plain.Exact where
  byte b haystack i := by
    simp only [plain, List.findIdx?_eq_some_iff_getElem, beq_iff_eq, isLeast_iff_forall_lt,
      Set.mem_ofPred_eq, List.getElem?_eq_some_iff]
    constructor
    · rintro ⟨inside, here, first⟩
      exact ⟨⟨inside, here⟩, fun k below there => first k below there.2⟩
    · rintro ⟨⟨inside, here⟩, first⟩
      exact ⟨inside, here, fun k below there => first k below ⟨Nat.lt_trans below inside, there⟩⟩
  bytes needle haystack i := by
    simp only [plain, List.find?_range_eq_some, List.isPrefixOf_iff_prefix, List.mem_range,
      Bool.not_eq_true', ← Bool.not_eq_true, isLeast_iff_forall_lt, Set.mem_ofPred_eq]
    constructor
    · rintro ⟨here, _, first⟩
      exact ⟨here, first⟩
    · rintro ⟨here, first⟩
      refine ⟨here, ?_, first⟩
      by_contra past
      -- Nothing is left there, so the needle is empty and occurs at the end as well.
      have past : haystack.length < i := by omega
      have empty : needle = [] := by simpa [List.drop_eq_nil_of_le past.le] using here
      exact first haystack.length past (by simp [empty])

end Scanners

namespace Needle
variable {n : Needle} {haystack : ByteArray} {p q : Nat}

/-- A single byte has a routine of its own, and what is found in the rest of the haystack is counted from
its beginning. -/
def findWith (s : Scanners) (n : Needle) (haystack : ByteArray) (p : Nat) : Option Nat :=
  if haystack.size < p then none
  else
    let rest := haystack.data.toList.drop p
    let found := match n.bytes with
      | [b] => s.byte b rest
      | bytes => s.bytes bytes rest
    found.map (p + ·)

def occurrences (n : Needle) (haystack : ByteArray) (p : Nat) : Set Nat :=
  {q | p ≤ q ∧ occursAt haystack q n.bytes = true}

theorem inside_of_occursAt (some : n.bytes ≠ []) (occurs : occursAt haystack q n.bytes = true) :
    q < haystack.size := by
  obtain ⟨b, rest, bytes⟩ := List.exists_cons_of_ne_nil some
  rw [bytes, occursAt] at occurs
  split at occurs
  · assumption
  · cases occurs

theorem find?_eq_some_iff (some : n.bytes ≠ []) :
    n.find? haystack p = .some q ↔ IsLeast (n.occurrences haystack p) q := by
  have least_of_found {r : Nat} (found : n.find? haystack p = .some r) :
      IsLeast (n.occurrences haystack p) r := by
    obtain ⟨occurs, first⟩ := find?_eq_some found
    refine isLeast_iff_forall_lt.2 ⟨⟨(bounds_of_find? found).1, occurs⟩, ?_⟩
    rintro k below ⟨above, there⟩
    exact absurd ((first k above below).symm.trans there) (by decide)
  refine ⟨least_of_found, fun least => ?_⟩
  cases found : n.find? haystack p with
  | none =>
    have inside := Nat.le_of_lt (inside_of_occursAt some least.1.2)
    have absent := find?_eq_none found least.1.1 inside
    exact absurd (absent.symm.trans least.1.2) (by decide)
  | some r => rw [(least_of_found found).unique least]

theorem isLeast_shift {places : Set Nat} {i : Nat} :
    IsLeast {k | p + k ∈ places} i ↔ IsLeast {q | p ≤ q ∧ q ∈ places} (p + i) := by
  constructor
  · rintro ⟨here, first⟩
    refine ⟨⟨Nat.le_add_right p i, here⟩, ?_⟩
    rintro q ⟨above, there⟩
    obtain ⟨k, rfl⟩ := Nat.exists_eq_add_of_le above
    exact Nat.add_le_add_left (first there) p
  · rintro ⟨⟨_, here⟩, first⟩
    refine ⟨here, fun k there => ?_⟩
    exact Nat.le_of_add_le_add_left (first ⟨Nat.le_add_right p k, there⟩)

theorem map_eq_some_iff {found : Option Nat} (places : Set Nat)
    (first : ∀ i, found = some i ↔ IsLeast {k | p + k ∈ places} i) :
    found.map (p + ·) = some q ↔ IsLeast {q | p ≤ q ∧ q ∈ places} q := by
  rw [Option.map_eq_some_iff]
  constructor
  · rintro ⟨i, found, rfl⟩
    exact isLeast_shift.1 ((first i).1 found)
  · intro least
    obtain ⟨i, rfl⟩ := Nat.exists_eq_add_of_le least.1.1
    exact ⟨i, (first i).2 (isLeast_shift.2 least), rfl⟩

theorem findWith_eq_some_iff {s : Scanners} (scans : s.Exact) (some : n.bytes ≠ []) :
    n.findWith s haystack p = .some q ↔ IsLeast (n.occurrences haystack p) q := by
  rw [findWith]
  by_cases past : haystack.size < p
  · rw [if_pos past]
    refine ⟨nofun, fun least => ?_⟩
    have inside := inside_of_occursAt some least.1.2
    exact absurd least.1.1 (by omega)
  · rw [if_neg past]
    apply map_eq_some_iff {q | occursAt haystack q n.bytes = true}
    intro i
    simp only [Set.mem_ofPred_eq, occursAt_iff, ← List.drop_drop]
    split
    · rename_i b single
      rw [single, scans.byte]
      simp only [List.singleton_prefix_iff_head?_eq_some, List.head?_drop]
    · exact scans.bytes _ _ _

end Needle

namespace TextCursor
variable {text : String} {p q : Nat} {cs : List Char}

def StandAt (text : String) (p : Nat) (cs : List Char) : Prop :=
  ∃ front back, text.toList = front ++ cs ++ back ∧ p = String.utf8Len front

theorem StandAt.boundary (h : StandAt text p cs) : isBoundary text p = true := by
  obtain ⟨front, back, split, rfl⟩ := h
  exact isBoundary_iff.2 ⟨front, cs ++ back, by rw [split, List.append_assoc], rfl⟩

theorem prefix_of_bytes {back : List Char}
    (bytes : cs.flatMap String.utf8EncodeChar <+: back.flatMap String.utf8EncodeChar) :
    cs <+: back := by
  obtain ⟨rest, whole⟩ := bytes
  apply List.isPrefix_of_utf8Encode_append_eq_utf8Encode rest.toByteArray
  rw [List.utf8Encode, List.utf8Encode, ← whole, List.toByteArray_append]

theorem occursAt_iff_standAt (some : cs ≠ []) :
    Needle.occursAt text.toUTF8 p (cs.flatMap String.utf8EncodeChar) = true ↔ StandAt text p cs := by
  have at_split {front back : List Char} (split : text.toList = front ++ back) :
      Needle.occursAt text.toUTF8 (String.utf8Len front) (cs.flatMap String.utf8EncodeChar) = true ↔
        cs.flatMap String.utf8EncodeChar <+: back.flatMap String.utf8EncodeChar := by
    rw [Needle.occursAt_iff, bytes_eq, split, List.flatMap_append, ← length_bytes, List.drop_left]
  constructor
  · intro occurs
    obtain ⟨front, back, split, rfl⟩ := isBoundary_iff.1 (isBoundary_of_occursAt some occurs)
    obtain ⟨rest, rfl⟩ := prefix_of_bytes ((at_split split).1 occurs)
    exact ⟨front, rest, by rw [split, List.append_assoc], rfl⟩
  · rintro ⟨front, back, split, rfl⟩
    rw [List.append_assoc] at split
    rw [at_split split, List.flatMap_append]
    exact List.prefix_append _ _

end TextCursor

namespace Needle
open TextCursor

theorem exists_ofChars? {cs : List Char} (some : cs ≠ []) :
    ∃ n, ofChars? cs = .some n ∧ n.bytes = cs.flatMap String.utf8EncodeChar ∧ n.bytes ≠ [] := by
  obtain ⟨c, cs, rfl⟩ := List.exists_cons_of_ne_nil some
  obtain ⟨b, bytes, encoded⟩ := List.exists_cons_of_ne_nil (String.utf8EncodeChar_ne_nil (c := c))
  have whole : (c :: cs).flatMap String.utf8EncodeChar =
      b :: (bytes ++ cs.flatMap String.utf8EncodeChar) := by
    rw [List.flatMap_cons, encoded, List.cons_append]
  exact ⟨⟨_⟩, by rw [ofChars?, whole], whole.symm, List.cons_ne_nil _ _⟩

theorem occurrences_eq {n : Needle} {cs : List Char} {text : String} {p : Nat} (some : cs ≠ [])
    (bytes : n.bytes = cs.flatMap String.utf8EncodeChar) :
    n.occurrences text.toUTF8 p = {q | p ≤ q ∧ StandAt text q cs} := by
  ext q
  simp only [occurrences, bytes, occursAt_iff_standAt some]

/-- With routines that return first occurrences, the scan for characters in a text goes from any place to
the least boundary from which they stand, on the ways for one byte and for several alike. -/
theorem findWith_least {s : Scanners} (scans : s.Exact) {cs : List Char} (some : cs ≠ []) :
    ∃ n, ofChars? cs = .some n ∧ ∀ (text : String) (p : Nat),
      n.findWith s text.toUTF8 p = n.find? text.toUTF8 p ∧
      (∀ q, n.findWith s text.toUTF8 p = .some q ↔
        IsLeast {q | p ≤ q ∧ isBoundary text q = true ∧ StandAt text q cs} q) ∧
      (n.findWith s text.toUTF8 p = none ↔ ∀ q, p ≤ q → ¬ StandAt text q cs) ∧
      ∀ q, n.findWith s text.toUTF8 p = .some q → isBoundary text q = true := by
  obtain ⟨n, built, bytes, nonempty⟩ := exists_ofChars? some
  refine ⟨n, built, fun text p => ?_⟩
  have found (q : Nat) : n.findWith s text.toUTF8 p = .some q ↔
      IsLeast {q | p ≤ q ∧ StandAt text q cs} q := by
    rw [findWith_eq_some_iff scans nonempty, occurrences_eq some bytes]
  have places : {q | p ≤ q ∧ isBoundary text q = true ∧ StandAt text q cs} =
      {q | p ≤ q ∧ StandAt text q cs} := by
    ext q
    exact and_congr_right' (and_iff_right_of_imp StandAt.boundary)
  have same : n.findWith s text.toUTF8 p = n.find? text.toUTF8 p := by
    apply Option.ext
    intro q
    rw [findWith_eq_some_iff scans nonempty, find?_eq_some_iff nonempty]
  refine ⟨same, fun q => places ▸ found q, ?_, fun q here => ((found q).1 here).1.2.boundary⟩
  constructor
  · intro missed q above stands
    have occurs := (occursAt_iff_standAt some).2 stands
    rw [← bytes] at occurs
    have inside := Nat.le_of_lt (inside_of_occursAt nonempty occurs)
    have absent := find?_eq_none (same ▸ missed) above inside
    exact absurd (absent.symm.trans occurs) (by decide)
  · intro missed
    apply Option.eq_none_iff_forall_ne_some.2
    intro q here
    exact missed q ((found q).1 here).1.1 ((found q).1 here).1.2

theorem find?_snowman : Scanners.plain.Exact ∧ ['☃', 'x'] ≠ [] ∧
    ∃ n, ofChars? ['☃', 'x'] = some n ∧ n.find? "ab☃y☃x".toUTF8 0 = some 6 ∧
      n.find? "ab☃y☃x".toUTF8 7 = none := by
  have some : ['☃', 'x'] ≠ [] := List.cons_ne_nil _ _
  refine ⟨Scanners.exact_plain, some, ?_⟩
  obtain ⟨n, built, finds⟩ := findWith_least Scanners.exact_plain some
  refine ⟨n, built, ?_⟩
  rw [← (finds _ _).1, ← (finds _ _).1]
  have same : n = ⟨[226, 152, 131, 120]⟩ := by
    rw [← Option.some.injEq, ← built]
    decide +kernel
  rw [same]
  decide +kernel

end Needle

end PatternGraph
