import PatternGraph.Proofs.Cursor.Stream

/-!
Requests to a cursor, one after the other and in any order. However a cursor over a text is moved about, it
answers as one over the array of the characters does, with the byte offset of a character in place of its
index.
-/
namespace PatternGraph.Cursor

inductive Request where
  | peek
  | next
  | isDone
  | advance (n : Int)
  | back (k : Nat)
  deriving DecidableEq, Repr

inductive Reply (T : Type) where
  | token (t : Option T)
  | flag (b : Bool)
  | moved
  deriving DecidableEq, Repr

variable {S T P : Type} [Cursor S T P]

/-- A number that no position has so far leaves the cursor where it is. -/
def serve (c : S) (seen : List P) : Request → Reply T × S
  | .peek => (.token (peek c), c)
  | .next =>
    match next c with
    | some (t, c') => (.token (some t), c')
    | none => (.token none, c)
  | .isDone => (.flag (isDone c), c)
  | .advance n => (.moved, advance c n)
  | .back k =>
    match seen[k]? with
    | some p => (.moved, moveTo c p)
    | none => (.moved, c)

def serveAll (c : S) (seen : List P) : List Request → List (Reply T × P)
  | [] => []
  | r :: rs =>
    let (reply, c) := serve c seen r
    (reply, pos c) :: serveAll c (seen ++ [pos c]) rs

def answers (c : S) (requests : List Request) : List (Reply T × P) := serveAll c [pos c] requests

namespace Stream

def Moves (s : Stream S) : Prop :=
  ∀ {c : S} {i : Nat} (n : Int), s.Stands c i →
    s.Stands (advance c n) ((⟨s.tokens.toArray, i⟩ : TokenCursor T).advance n).index

structure Mirrors (s : Stream S) (c : S) (d : TokenCursor T) : Prop where
  tokens : d.tokens = s.tokens.toArray
  stands : s.Stands c d.index

variable {s : Stream S} {c : S} {d : TokenCursor T}

namespace Mirrors

theorem peek_eq (mirrors : s.Mirrors c d) : (peek c : Option T) = peek d := by
  change _ = d.tokens[d.index]?
  rw [s.peek_eq mirrors.stands, mirrors.tokens, List.getElem?_toArray]

theorem pos_eq (mirrors : s.Mirrors c d) : pos c = s.place (pos d) := s.pos_eq mirrors.stands

theorem advanced (moves : s.Moves) (mirrors : s.Mirrors c d) (n : Int) :
    s.Mirrors (advance c n) (advance d n) := by
  obtain ⟨tokens, index⟩ := d
  obtain ⟨rfl, stands⟩ := mirrors
  exact ⟨rfl, moves n stands⟩

theorem returned (mirrors : s.Mirrors c d) {i : Nat} (inside : i ≤ s.tokens.length) :
    s.Mirrors (moveTo c (s.place i)) (moveTo d i) := by
  have index : min i d.tokens.size = i := by
    rw [mirrors.tokens, List.size_toArray]
    exact Nat.min_eq_left inside
  refine ⟨mirrors.tokens, ?_⟩
  change s.Stands _ (min i d.tokens.size)
  rw [index]
  exact s.back mirrors.stands inside

theorem served (moves : s.Moves) (mirrors : s.Mirrors c d) {seen : List Nat}
    (inside : ∀ i ∈ seen, i ≤ s.tokens.length) (r : Request) :
    (serve c (seen.map s.place) r).1 = (serve d seen r).1 ∧
      s.Mirrors (serve c (seen.map s.place) r).2 (serve d seen r).2 := by
  have front := mirrors.peek_eq
  cases r with
  | peek => exact ⟨congrArg Reply.token front, mirrors⟩
  | isDone => exact ⟨congrArg (fun t : Option T => Reply.flag t.isNone) front, mirrors⟩
  | advance n => exact ⟨rfl, mirrors.advanced moves n⟩
  | next =>
    simp only [serve, Cursor.next, front]
    cases (peek d : Option T) with
    | none => exact ⟨rfl, mirrors⟩
    | some t => exact ⟨rfl, mirrors.advanced moves 1⟩
  | back k =>
    simp only [serve, List.getElem?_map]
    cases had : seen[k]? with
    | none => exact ⟨rfl, mirrors⟩
    | some i => exact ⟨rfl, mirrors.returned (inside i (List.mem_of_getElem? had))⟩

/-- By induction on the requests. The positions that either cursor has had are those of the same tokens, so
going back takes both to the same place. -/
theorem answered (moves : s.Moves) (mirrors : s.Mirrors c d) {seen : List Nat}
    (inside : ∀ i ∈ seen, i ≤ s.tokens.length) (requests : List Request) :
    serveAll c (seen.map s.place) requests =
        (serveAll d seen requests).map (fun a => (a.1, s.place a.2)) ∧
      ∀ a ∈ serveAll d seen requests, a.2 ≤ s.tokens.length := by
  induction requests generalizing c d seen with
  | nil => exact ⟨rfl, fun a mem => absurd mem List.not_mem_nil⟩
  | cons r requests ih =>
    obtain ⟨reply, after⟩ := mirrors.served moves inside r
    have here : pos (serve d seen r).2 ≤ s.tokens.length := s.within after.stands
    have inside : ∀ i ∈ seen ++ [pos (serve d seen r).2], i ≤ s.tokens.length := by
      intro i mem
      rcases List.mem_append.1 mem with earlier | last
      · exact inside i earlier
      · rwa [List.mem_singleton.1 last]
    obtain ⟨same, bounded⟩ := ih after inside
    rw [List.map_append, List.map_singleton] at same
    constructor
    · simp only [serveAll, List.map_cons, reply, after.pos_eq, same]
    · exact List.forall_mem_cons.2 ⟨here, bounded⟩

theorem answers_eq (moves : s.Moves) (mirrors : s.Mirrors c d) (requests : List Request) :
    answers c requests = (answers d requests).map (fun a => (a.1, s.place a.2)) ∧
      ∀ a ∈ answers d requests, a.2 ≤ s.tokens.length := by
  have inside : ∀ i ∈ [pos d], i ≤ s.tokens.length := by
    intro i mem
    rw [List.mem_singleton.1 mem]
    exact s.within mirrors.stands
  have answered := mirrors.answered moves inside requests
  rwa [List.map_singleton, ← mirrors.pos_eq] at answered

end Mirrors

end Stream

end PatternGraph.Cursor

namespace PatternGraph
open Cursor

namespace TextCursor
variable {text : String} {c : TextCursor} {i : Nat}

theorem length_le_utf8Len (cs : List Char) : cs.length ≤ String.utf8Len cs := by
  induction cs with
  | nil => exact Nat.le_refl 0
  | cons ch cs ih => exact Nat.add_le_add ih ch.utf8Size_pos

theorem stands_forward (stands : (stream text).Stands c i) (n : Nat) :
    (stream text).Stands (c.forward n) (min (i + n) text.toList.length) := by
  induction n generalizing c i with
  | zero => rwa [Nat.add_zero, Nat.min_eq_left stands.1]
  | succ n ih =>
    have front : c.peek = text.toList[i]? := (stream text).peek_eq stands
    rw [forward, front]
    by_cases inside : i < text.toList.length
    · rw [List.getElem?_eq_getElem inside] at front ⊢
      have next := (stream text).next stands inside
      rw [show Cursor.advance c 1 = _ from advance_one front] at next
      have further := ih next
      rwa [Nat.add_right_comm] at further
    · have done : i = text.toList.length := by
        have := stands.1
        omega
      rw [List.getElem?_eq_none (Nat.le_of_not_lt inside), Nat.min_eq_right (by omega), ← done]
      exact stands

theorem stands_prev (stands : (stream text).Stands c (i + 1)) :
    (stream text).Stands { c with offset := (String.Pos.Raw.prev c.text ⟨c.offset⟩).byteIdx } i := by
  obtain ⟨inside, rfl⟩ := stands
  have split : text.toList = text.toList.take i ++ text.toList[i] :: text.toList.drop (i + 1) := by
    rw [List.getElem_cons_drop inside, List.take_append_drop]
  have before := String.prev_of_valid (text.toList.take i) text.toList[i] (text.toList.drop (i + 1))
  rw [← split, String.ofList_toList, ← utf8Len_append_single, ← List.take_succ_eq_append_getElem inside]
    at before
  refine ⟨Nat.le_of_succ_le inside, ?_⟩
  rw [before]

theorem stands_backward (stands : (stream text).Stands c i) (n : Nat) :
    (stream text).Stands (c.backward n) (i - n) := by
  induction n generalizing c i with
  | zero => exact stands
  | succ n ih =>
    cases i with
    | zero =>
      obtain ⟨inside, rfl⟩ := stands
      rw [Nat.zero_sub]
      exact ⟨inside, rfl⟩
    | succ i =>
      have nonzero : c.offset ≠ 0 := by
        obtain ⟨inside, rfl⟩ := stands
        intro none
        exact absurd (utf8Len_take_injective inside (Nat.zero_le _) none) (Nat.succ_ne_zero i)
      rw [backward, if_neg nonzero, Nat.add_sub_add_right]
      exact ih (stands_prev stands)

/-- A text has no more characters than bytes, so no move is cut short before it comes to an end. -/
theorem moves_stream (text : String) : (stream text).Moves := by
  intro c i n stands
  have count := length_le_utf8Len text.toList
  have inside := stands.1
  rw [String.utf8Len_toList] at count
  have size : c.text.utf8ByteSize = text.utf8ByteSize := by rw [stands.2]
  change (stream text).Stands (c.advance n)
    (if n < 0 then i - n.natAbs else min (i + n.natAbs) text.toList.length)
  unfold advance
  rw [size]
  by_cases negative : n < 0
  · have reached : i - min n.natAbs text.utf8ByteSize = i - n.natAbs := by omega
    simp only [if_pos negative, ← reached]
    exact stands_backward stands _
  · have reached : min (i + min n.natAbs text.utf8ByteSize) text.toList.length =
        min (i + n.natAbs) text.toList.length := by omega
    simp only [if_neg negative, ← reached]
    exact stands_forward stands _

end TextCursor

namespace TokenCursor

def saturatingSub (a b : UInt64) : UInt64 := if a < b then 0 else a - b

def saturatingAdd (a b : UInt64) : UInt64 := if a + b < a then -1 else a + b

/-- The index after a move, in words. The size of a move is a word also for the one number that has no
opposite. -/
def indexInWords (size index : UInt64) (n : Int64) : UInt64 :=
  if n < 0 then saturatingSub index n.abs.toUInt64 else min (saturatingAdd index n.toUInt64) size

theorem toNat_saturatingSub (a b : UInt64) : (saturatingSub a b).toNat = a.toNat - b.toNat := by
  unfold saturatingSub
  by_cases less : a < b
  · have order : a.toNat < b.toNat := less
    rw [if_pos less, Nat.sub_eq_zero_of_le (Nat.le_of_lt order)]
    rfl
  · rw [if_neg less, UInt64.toNat_sub_of_le _ _ (UInt64.not_lt.1 less)]

theorem toNat_saturatingAdd (a b : UInt64) :
    (saturatingAdd a b).toNat = min (a.toNat + b.toNat) (2 ^ 64 - 1) := by
  have first := a.toNat_lt
  have second := b.toNat_lt
  have largest : (-1 : UInt64).toNat = 2 ^ 64 - 1 := rfl
  have sum := UInt64.toNat_add a b
  unfold saturatingAdd
  by_cases wrapped : a + b < a
  · have less : (a + b).toNat < a.toNat := wrapped
    rw [if_pos wrapped, largest]
    omega
  · have enough : ¬ (a + b).toNat < a.toNat := wrapped
    rw [if_neg wrapped]
    omega

theorem toNat_abs (n : Int64) : n.abs.toUInt64.toNat = n.toInt.natAbs := by
  have size := n.toBitVec.isLt
  change n.toBitVec.abs.toNat = n.toBitVec.toInt.natAbs
  rw [BitVec.toNat_abs, BitVec.toInt_eq_msb_cond]
  split <;> omega

theorem toNat_of_nonneg {n : Int64} (nonneg : ¬ n < 0) : n.toUInt64.toNat = n.toInt.natAbs := by
  have size := n.toBitVec.isLt
  have sign : ¬ n.toBitVec.toInt < 0 := fun less => nonneg (Int64.lt_iff_toInt_lt.2 less)
  change n.toBitVec.toNat = n.toBitVec.toInt.natAbs
  rw [BitVec.toInt_eq_toNat_cond] at sign ⊢
  split at sign <;> omega

theorem toNat_indexInWords {T : Type} {tokens : Array T} {size : UInt64} (count : tokens.size = size.toNat)
    (index : UInt64) (n : Int64) :
    (indexInWords size index n).toNat =
      ((⟨tokens, index.toNat⟩ : TokenCursor T).advance n.toInt).index := by
  have last := size.toNat_lt
  unfold indexInWords advance
  by_cases negative : n < 0
  · have sign : n.toInt < 0 := Int64.lt_iff_toInt_lt.1 negative
    simp only [if_pos negative, if_pos sign, toNat_saturatingSub, toNat_abs]
  · have sign : ¬ n.toInt < 0 := fun less => negative (Int64.lt_iff_toInt_lt.2 less)
    simp only [if_neg negative, if_neg sign, UInt64.toNat_min, toNat_saturatingAdd,
      toNat_of_nonneg negative, count]
    omega

end TokenCursor

namespace TextCursor

/-- A cursor over a text, set up on any boundary, replies to all requests as the cursor over the array of its
characters does that is set up at the same character. Its position is always the byte offset of the other
one's index, and so a boundary of the text. The index after a move of any size can be found in words. -/
theorem answers_eq_tokens {text : String} {p : Nat} (boundary : isBoundary text p = true)
    (requests : List Request) :
    ∃ (c : TextCursor) (i : Nat), startAt? text p = some c ∧ i ≤ text.length ∧
      p = String.utf8Len (text.toList.take i) ∧
      let chars := text.toList.toArray
      let byIndex := answers ((TokenCursor.start chars).moveTo i) requests
      answers c requests = byIndex.map (fun a => (a.1, String.utf8Len (text.toList.take a.2))) ∧
        (∀ a ∈ byIndex, a.2 ≤ text.length) ∧
        (∀ a ∈ answers c requests, isBoundary text a.2 = true ∧ a.2 ≤ text.utf8ByteSize) ∧
        ∀ (size index : UInt64) (n : Int64), text.length = size.toNat →
          (TokenCursor.indexInWords size index n).toNat =
            ((⟨chars, index.toNat⟩ : TokenCursor Char).advance n.toInt).index := by
  obtain ⟨front, back, split, rfl⟩ := isBoundary_iff.1 boundary
  have stands := stands_of_split split
  have inside : front.length ≤ text.toList.length := stands.1
  have place : String.utf8Len front = String.utf8Len (text.toList.take front.length) := by
    rw [split, List.take_left]
  have mirrors : (stream text).Mirrors ⟨text, String.utf8Len front⟩
      ((TokenCursor.start text.toList.toArray).moveTo front.length) := by
    refine ⟨rfl, ?_⟩
    change (stream text).Stands _ (min front.length text.toList.length)
    rwa [Nat.min_eq_left inside]
  obtain ⟨same, bounded⟩ := mirrors.answers_eq (moves_stream text) requests
  rw [String.length_toList] at inside
  refine ⟨_, front.length, if_pos boundary, inside, place, same, ?_, ?_, ?_⟩
  · intro a mem
    rw [← String.length_toList]
    exact bounded a mem
  · intro a mem
    rw [same] at mem
    obtain ⟨b, _, rfl⟩ := List.mem_map.1 mem
    have stop := isBoundary_place text b.2
    exact ⟨stop, le_size_of_isBoundary stop⟩
  · intro size index n count
    rw [← String.length_toList] at count
    exact TokenCursor.toNat_indexInWords count index n

/-- Past both ends of four characters that have one to four bytes, and back to where the cursor has been. -/
theorem answers_eq_tokens_widths :
    let text := "aβ☃😀"
    let requests : List Request := [.next, .advance (-9223372036854775808), .peek, .back 0, .advance (-1),
      .next, .advance 9223372036854775807, .isDone, .next, .back 3, .next, .back 5, .peek]
    isBoundary text 3 = true ∧ startAt? text 3 = some ⟨text, 3⟩ ∧
      answers (⟨text, 3⟩ : TextCursor) requests =
        [(.token '☃', 6), (.moved, 0), (.token 'a', 0), (.moved, 3), (.moved, 1), (.token 'β', 3),
          (.moved, 10), (.flag true, 10), (.token none, 10), (.moved, 0), (.token 'a', 1), (.moved, 1),
          (.token 'β', 1)] ∧
      answers (⟨text, 3⟩ : TextCursor) requests =
        (answers ((TokenCursor.start text.toList.toArray).moveTo 2) requests).map
          (fun a => (a.1, String.utf8Len (text.toList.take a.2))) ∧
      text.length = (4 : UInt64).toNat ∧
      let halfway : TokenCursor Char := ⟨text.toList.toArray, (2 : UInt64).toNat⟩
      (TokenCursor.indexInWords 4 2 Int64.minValue).toNat =
        (halfway.advance Int64.minValue.toInt).index := by
  intro text requests
  have boundary : isBoundary text 3 = true := by decide +kernel
  have count : text.length = (4 : UInt64).toNat := by decide +kernel
  have third : 3 = String.utf8Len (text.toList.take 2) := by decide +kernel
  have here : startAt? text 3 = some ⟨text, 3⟩ := if_pos boundary
  obtain ⟨c, i, placed, inside, place, same, _, _, words⟩ := answers_eq_tokens boundary requests
  obtain rfl : (⟨text, 3⟩ : TextCursor) = c := Option.some.inj (here.symm.trans placed)
  obtain rfl : 2 = i := by
    rw [← String.length_toList] at inside
    exact utf8Len_take_injective (by decide +kernel) inside (third.symm.trans place)
  exact ⟨boundary, here, by decide +kernel, same, count, words 4 2 Int64.minValue count⟩

end TextCursor

end PatternGraph
