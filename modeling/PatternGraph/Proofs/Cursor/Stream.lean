import PatternGraph.Interval.Ordinal
import PatternGraph.Proofs.Cursor.Boundary

/-!
Streams of tokens, whatever their cursors are made of. Two streams are alike if their tokens stand for
the same characters and the same ones among them are equal; then a cursor of the one shows as much of
what it stands before as a cursor of the other at the same place.
-/
namespace PatternGraph.Cursor

/-- A finite list of tokens that cursors go through. A cursor stands before the token of some index,
or at the end; no two of these places have the same position, and a cursor can go back to any. -/
structure Stream (S : Type) {T P : Type} [Cursor S T P] where
  tokens : List T
  place : Nat → P
  Stands : S → Nat → Prop
  within : ∀ {c n}, Stands c n → n ≤ tokens.length
  peek_eq : ∀ {c n}, Stands c n → peek c = tokens[n]?
  pos_eq : ∀ {c n}, Stands c n → pos c = place n
  next : ∀ {c n}, Stands c n → n < tokens.length → Stands (advance c 1) (n + 1)
  back : ∀ {c m n}, Stands c m → n ≤ tokens.length → Stands (moveTo c (place n)) n
  distinct : ∀ {m n}, m ≤ tokens.length → n ≤ tokens.length → place m = place n → m = n

/-- What a matcher can find out about the tokens is the same for both lists. -/
structure Alike {T₁ T₂ : Type} [Token T₁] [Token T₂] (ts : List T₁) (us : List T₂) : Prop where
  chars : ts.map Token.toChar = us.map Token.toChar
  equal : ∀ i j, i < ts.length → j < ts.length → (ts[i]? = ts[j]? ↔ us[i]? = us[j]?)

namespace Alike
variable {T₁ T₂ : Type} [Token T₁] [Token T₂] {ts : List T₁} {us : List T₂}

theorem length_eq (alike : Alike ts us) : ts.length = us.length := by
  simpa using congrArg List.length alike.chars

theorem char_eq (alike : Alike ts us) (n : Nat) :
    ts[n]?.map Token.toChar = us[n]?.map Token.toChar := by
  rw [← List.getElem?_map, alike.chars, List.getElem?_map]

theorem getElem?_eq_iff (alike : Alike ts us) (i j : Nat) : ts[i]? = ts[j]? ↔ us[i]? = us[j]? := by
  have same := alike.length_eq
  by_cases inside : i < ts.length ∧ j < ts.length
  · exact alike.equal i j inside.1 inside.2
  · -- One of the indices is past the end, so there is a token at neither or the two differ.
    have outside {α : Type} (l : List α) (size : l.length = ts.length) :
        l[i]? = l[j]? ↔ ts.length ≤ i ∧ ts.length ≤ j := by
      rw [← size]
      rw [← size] at inside
      constructor
      · intro both
        by_cases left : i < l.length
        · rw [List.getElem?_eq_getElem left, eq_comm, List.getElem?_eq_some_iff] at both
          obtain ⟨right, _⟩ := both
          exact absurd ⟨left, right⟩ inside
        · rw [List.getElem?_eq_none (by omega), eq_comm, List.getElem?_eq_none_iff] at both
          omega
      · rintro ⟨left, right⟩
        rw [List.getElem?_eq_none left, List.getElem?_eq_none right]
    rw [outside ts rfl, outside us same.symm]

theorem of_chars (inj₁ : Function.Injective (Token.toChar : T₁ → Char))
    (inj₂ : Function.Injective (Token.toChar : T₂ → Char))
    (chars : ts.map Token.toChar = us.map Token.toChar) : Alike ts us := by
  refine ⟨chars, fun i j _ _ => ?_⟩
  have seen {T : Type} [Token T] (inj : Function.Injective (Token.toChar : T → Char)) (l : List T) :
      l[i]? = l[j]? ↔ (l.map Token.toChar)[i]? = (l.map Token.toChar)[j]? := by
    rw [List.getElem?_map, List.getElem?_map]
    exact (Option.map_injective inj).eq_iff.symm
  rw [seen inj₁, seen inj₂, chars]

end Alike

namespace Stream
variable {S T P : Type} [Cursor S T P]

def drop (s : Stream S) (k : Nat) : Stream S where
  tokens := s.tokens.drop k
  place n := s.place (k + n)
  Stands c n := s.Stands c (k + n)
  within {c n} stands := by
    have : k + n ≤ s.tokens.length := s.within stands
    rw [List.length_drop]
    omega
  peek_eq stands := by rw [s.peek_eq stands, List.getElem?_drop]
  pos_eq stands := s.pos_eq stands
  next {c n} stands more := by
    rw [List.length_drop] at more
    have inside : k + n < s.tokens.length := by omega
    exact s.next stands inside
  back {c m n} stands inside := by
    have : k + m ≤ s.tokens.length := s.within stands
    rw [List.length_drop] at inside
    exact s.back stands (by omega)
  distinct {m n} inside inside' same := by
    rw [List.length_drop] at inside inside'
    by_cases ahead : k ≤ s.tokens.length
    · exact Nat.add_left_cancel (s.distinct (by omega) (by omega) same)
    · omega

section Handing
variable {s : Stream S} {c c' : S} {n : Nat} {run : List T}

theorem ahead_of_passes (stands : s.Stands c n) (passes : Passes c run c') :
    run <+: s.tokens.drop n ∧ s.Stands c' (n + run.length) := by
  induction passes generalizing n with
  | stay => exact ⟨List.nil_prefix, stands⟩
  | @step c c' t ts front _ ih =>
    rw [s.peek_eq stands] at front
    obtain ⟨more, rfl⟩ := List.getElem?_eq_some_iff.1 front
    obtain ⟨later, stands'⟩ := ih (s.next stands more)
    rw [List.drop_eq_getElem_cons more, List.length_cons]
    refine ⟨List.cons_prefix_cons.2 ⟨rfl, later⟩, ?_⟩
    have same : n + (ts.length + 1) = n + 1 + ts.length := by omega
    rwa [same]

/-- A cursor that is handed back where it set out, or taken back there, stands there. -/
theorem stands_of_handsBack (stands : s.Stands c n) (back : HandsBack c none (false, c')) :
    s.Stands c' n := by
  cases back with
  | stayed => exact stands
  | returned ahead =>
    obtain ⟨ts, passes⟩ := ahead
    have there := (ahead_of_passes stands passes).2
    rw [s.pos_eq stands]
    exact s.back there (s.within stands)

end Handing

section Places
variable {S₁ T₁ P₁ S₂ T₂ P₂ : Type} [Cursor S₁ T₁ P₁] [Cursor S₂ T₂ P₂]
  (s₁ : Stream S₁) (s₂ : Stream S₂)

def SamePlace (a : S₁) (b : S₂) : Prop := ∃ n, s₁.Stands a n ∧ s₂.Stands b n

def SamePos (p : P₁) (q : P₂) : Prop :=
  ∃ n, n ≤ s₁.tokens.length ∧ p = s₁.place n ∧ q = s₂.place n

variable {s₁ s₂} [Token T₁] [Token T₂]

omit [Token T₁] [Token T₂] in
theorem SamePlace.pos {a : S₁} {b : S₂} (same : SamePlace s₁ s₂ a b) :
    SamePos s₁ s₂ (pos a) (pos b) := by
  obtain ⟨n, left, right⟩ := same
  exact ⟨n, s₁.within left, s₁.pos_eq left, s₂.pos_eq right⟩

theorem SamePlace.char_eq (alike : Alike s₁.tokens s₂.tokens) {a : S₁} {b : S₂}
    (same : SamePlace s₁ s₂ a b) :
    (peek a).map Token.toChar = (peek b).map Token.toChar := by
  obtain ⟨n, left, right⟩ := same
  rw [s₁.peek_eq left, s₂.peek_eq right, alike.char_eq]

theorem SamePlace.peek_eq_iff (alike : Alike s₁.tokens s₂.tokens) {a a' : S₁} {b b' : S₂}
    (same : SamePlace s₁ s₂ a b) (same' : SamePlace s₁ s₂ a' b') :
    (peek a : Option T₁) = peek a' ↔ (peek b : Option T₂) = peek b' := by
  obtain ⟨n, left, right⟩ := same
  obtain ⟨n', left', right'⟩ := same'
  rw [s₁.peek_eq left, s₂.peek_eq right, s₁.peek_eq left', s₂.peek_eq right',
    alike.getElem?_eq_iff]

theorem SamePlace.next (alike : Alike s₁.tokens s₂.tokens) {a : S₁} {b : S₂} {t : T₁}
    (same : SamePlace s₁ s₂ a b) (front : peek a = some t) :
    ∃ u : T₂, peek b = some u ∧ Token.toChar t = Token.toChar u ∧
      SamePlace s₁ s₂ (advance a 1) (advance b 1) := by
  have chars := same.char_eq alike
  obtain ⟨n, left, right⟩ := same
  rw [front, Option.map_some, eq_comm, Option.map_eq_some_iff] at chars
  obtain ⟨u, front', char⟩ := chars
  have inside : n < s₁.tokens.length := by
    rw [s₁.peek_eq left] at front
    exact (List.getElem?_eq_some_iff.1 front).1
  exact ⟨u, front', char.symm, n + 1, s₁.next left inside, s₂.next right (alike.length_eq ▸ inside)⟩

theorem SamePlace.none (alike : Alike s₁.tokens s₂.tokens) {a : S₁} {b : S₂}
    (same : SamePlace s₁ s₂ a b) (done : (peek a : Option T₁) = none) :
    (peek b : Option T₂) = none := by
  have chars := same.char_eq alike
  rwa [done, Option.map_none, eq_comm, Option.map_eq_none_iff] at chars

theorem SamePlace.back (alike : Alike s₁.tokens s₂.tokens) {a : S₁} {b : S₂} {p : P₁} {q : P₂}
    (same : SamePlace s₁ s₂ a b) (there : SamePos s₁ s₂ p q) :
    SamePlace s₁ s₂ (moveTo a p) (moveTo b q) := by
  obtain ⟨m, left, right⟩ := same
  obtain ⟨n, inside, rfl, rfl⟩ := there
  exact ⟨n, s₁.back left inside, s₂.back right (alike.length_eq ▸ inside)⟩

omit [Token T₁] [Token T₂] in
theorem samePlace_of_handsBack {a a' : S₁} {b b' : S₂} (same : SamePlace s₁ s₂ a b)
    (back : HandsBack a none (false, a')) (back' : HandsBack b none (false, b')) :
    SamePlace s₁ s₂ a' b' := by
  obtain ⟨n, left, right⟩ := same
  exact ⟨n, stands_of_handsBack left back, stands_of_handsBack right back'⟩

theorem SamePos.eq_iff (alike : Alike s₁.tokens s₂.tokens) {p p' : P₁} {q q' : P₂}
    (same : SamePos s₁ s₂ p q) (same' : SamePos s₁ s₂ p' q') : p = p' ↔ q = q' := by
  obtain ⟨n, inside, rfl, rfl⟩ := same
  obtain ⟨n', inside', rfl, rfl⟩ := same'
  have size := alike.length_eq
  constructor
  · intro left
    rw [s₁.distinct inside inside' left]
  · intro right
    rw [s₂.distinct (size ▸ inside) (size ▸ inside') right]

end Places
end Stream
end PatternGraph.Cursor

namespace PatternGraph
open Cursor

namespace TextCursor

theorem utf8Len_take_injective {cs : List Char} {m n : Nat} (inside : m ≤ cs.length)
    (inside' : n ≤ cs.length) (same : String.utf8Len (cs.take m) = String.utf8Len (cs.take n)) :
    m = n := by
  -- A character has at least one byte, so the longer beginning would have more.
  have nothing_between {i k : Nat} (inside : i + k ≤ cs.length)
      (same : String.utf8Len (cs.take i) = String.utf8Len (cs.take (i + k))) : k = 0 := by
    rw [List.take_add, String.utf8Len_append, Nat.left_eq_add, String.utf8Len_eq_zero] at same
    have := congrArg List.length same
    rw [List.length_take, List.length_drop, List.length_nil] at this
    omega
  rcases Nat.le_total m n with le | le
  · obtain ⟨k, rfl⟩ := Nat.exists_eq_add_of_le le
    rw [nothing_between inside' same, Nat.add_zero]
  · obtain ⟨k, rfl⟩ := Nat.exists_eq_add_of_le le
    rw [nothing_between inside same.symm, Nat.add_zero]

def stream (text : String) : Stream TextCursor where
  tokens := text.toList
  place n := String.utf8Len (text.toList.take n)
  Stands c n := n ≤ text.toList.length ∧ c = ⟨text, String.utf8Len (text.toList.take n)⟩
  within stands := stands.1
  peek_eq := by
    rintro _ n ⟨_, rfl⟩
    rw [← List.head?_drop]
    exact peek_of_split (List.take_append_drop n _).symm
  pos_eq := by
    rintro _ n ⟨_, rfl⟩
    rfl
  next := by
    rintro _ n ⟨_, rfl⟩ more
    have front : (⟨text, String.utf8Len (text.toList.take n)⟩ : TextCursor).peek =
        some text.toList[n] := by
      rw [peek_of_split (List.take_append_drop n _).symm, List.head?_drop,
        List.getElem?_eq_getElem more]
    refine ⟨more, (advance_one front).trans ?_⟩
    rw [List.take_succ_eq_append_getElem more, utf8Len_append_single]
  back := by
    rintro _ m n ⟨_, rfl⟩ inside
    exact ⟨inside, rfl⟩
  distinct := utf8Len_take_injective

theorem isBoundary_place (text : String) (i : Nat) : isBoundary text ((stream text).place i) = true :=
  isBoundary_iff.2 ⟨_, _, (List.take_append_drop i text.toList).symm, rfl⟩

end TextCursor

namespace TokenCursor
variable {T : Type}

def stream (ts : Array T) : Stream (TokenCursor T) where
  tokens := ts.toList
  place := id
  Stands c n := n ≤ ts.size ∧ c = ⟨ts, n⟩
  within stands := stands.1
  peek_eq := by
    rintro _ n ⟨_, rfl⟩
    exact Array.getElem?_toList.symm
  pos_eq := by
    rintro _ n ⟨_, rfl⟩
    rfl
  next := by
    rintro _ n ⟨_, rfl⟩ more
    have inside : n + 1 ≤ ts.size := more
    exact ⟨inside, congrArg (TokenCursor.mk ts) (Nat.min_eq_left inside)⟩
  back := by
    rintro _ m n ⟨_, rfl⟩ inside
    exact ⟨inside, congrArg (TokenCursor.mk ts) (Nat.min_eq_left inside)⟩
  distinct := fun _ _ same => same

end TokenCursor

namespace TextCursor
variable {text : String} {front : List Char}

theorem stands_of_split {back : List Char} (split : text.toList = front ++ back) :
    (stream text).Stands ⟨text, String.utf8Len front⟩ front.length := by
  constructor
  · rw [split, List.length_append]
    exact Nat.le_add_right _ _
  · rw [split, List.take_left]

theorem place_of_split {back : List Char} (split : text.toList = front ++ back) (n : Nat) :
    ((stream text).drop front.length).place n =
      String.utf8Len front + String.utf8Len (back.take n) := by
  change String.utf8Len (text.toList.take (front.length + n)) = _
  rw [split, List.take_length_add_append, String.utf8Len_append]

theorem tokens_of_split {back : List Char} (split : text.toList = front ++ back) :
    ((stream text).drop front.length).tokens = back := by
  change text.toList.drop front.length = back
  rw [split, List.drop_left]

theorem samePos_text_iff {back : String} (split : text.toList = front ++ back.toList) {p q : Nat} :
    ((stream text).drop front.length).SamePos (stream back) p q ↔
      isBoundary back q = true ∧ p = String.utf8Len front + q := by
  simp only [Stream.SamePos, tokens_of_split split, place_of_split split]
  constructor
  · rintro ⟨n, inside, rfl, rfl⟩
    exact ⟨isBoundary_place back n, rfl⟩
  · rintro ⟨boundary, rfl⟩
    obtain ⟨before, after, whole, rfl⟩ := isBoundary_iff.1 boundary
    refine ⟨before.length, ?_, ?_, ?_⟩
    · rw [whole, List.length_append]
      exact Nat.le_add_right _ _
    · rw [whole, List.take_left]
    · change _ = String.utf8Len (back.toList.take before.length)
      rw [whole, List.take_left]

theorem slice_to_end {back : List Char} (split : text.toList = front ++ back) :
    slice? text ⟨String.utf8Len front, text.utf8ByteSize⟩ = some (String.ofList back) := by
  have size : text.utf8ByteSize = String.utf8Len front + String.utf8Len back := by
    rw [← String.utf8Len_toList, split, String.utf8Len_append]
  have cut : text.toList = front ++ back ++ [] := by rw [split, List.append_nil]
  rw [size]
  exact slice_of_split cut
variable {T : Type} [Token T] {ts : Array T}

theorem samePos_tokens_iff (split : text.toList = front ++ ts.toList.map Token.toChar) {p i : Nat} :
    ((stream text).drop front.length).SamePos (TokenCursor.stream ts) p i ↔
      i ≤ ts.size ∧
        p = String.utf8Len front + String.utf8Len ((ts.toList.take i).map Token.toChar) := by
  simp only [Stream.SamePos, tokens_of_split split, place_of_split split, List.length_map,
    Array.length_toList, List.map_take]
  constructor
  · rintro ⟨n, inside, rfl, rfl⟩
    exact ⟨inside, rfl⟩
  · rintro ⟨inside, rfl⟩
    exact ⟨i, inside, rfl, rfl⟩

theorem alike_tokens (inj : Function.Injective (Token.toChar : T → Char))
    (split : text.toList = front ++ ts.toList.map Token.toChar) :
    Alike ((stream text).drop front.length).tokens (TokenCursor.stream ts).tokens := by
  apply Alike.of_chars Function.injective_id inj
  rw [tokens_of_split split]
  exact List.map_id _

end TextCursor

theorem toChar_byte_injective : Function.Injective (Token.toChar : UInt8 → Char) := by
  intro a b same
  have code (c : UInt8) : (Token.toChar c).toNat = c.toNat := by
    change (Char.ofNat c.toNat).toNat = c.toNat
    have := c.toNat_lt
    exact toNat_ofNat_of_scalar (.inl (by omega))
  apply UInt8.toNat_inj.1
  rw [← code a, ← code b, same]

end PatternGraph
