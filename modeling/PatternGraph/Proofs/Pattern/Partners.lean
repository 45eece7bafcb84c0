import PatternGraph.Pattern.Pairing

/-!
Which parens of a pattern belong together. Backslashes and classes decide which characters are parens at
all; of these, an opening paren belongs to the closing one up to which as many are opened as closed.
-/
namespace PatternGraph

inductive Setting
  | outside
  | escaped
  | inClass
  | escapedInClass
  deriving DecidableEq, Repr

namespace Setting

def next : Setting → Char → Setting
  | .outside, c => if c = '\\' then .escaped else if c = '[' then .inClass else .outside
  | .escaped, _ => .outside
  | .inClass, c => if c = '\\' then .escapedInClass else if c = ']' then .outside else .inClass
  | .escapedInClass, _ => .inClass

/-- The character belongs to the contents of a class, or is the bracket that ends it. -/
def isWithin : Setting → Bool
  | .inClass | .escapedInClass => true
  | .outside | .escaped => false

end Setting

def settingAt (text : List Char) : Nat → Setting
  | 0 => .outside
  | i + 1 =>
    match text[i]? with
    | some c => (settingAt text i).next c
    | none => settingAt text i

/-- The character stands at the offset, outside classes and not after a backslash. -/
def StandsAt (text : List Char) (c : Char) (i : Nat) : Prop :=
  text[i]? = some c ∧ settingAt text i = .outside

instance (text : List Char) (c : Char) (i : Nat) : Decidable (StandsAt text c i) :=
  inferInstanceAs (Decidable (_ ∧ _))

def depthAt (text : List Char) : Nat → Int
  | 0 => 0
  | i + 1 =>
    if StandsAt text '(' i then depthAt text i + 1
    else if StandsAt text ')' i then depthAt text i - 1
    else depthAt text i

/-- From `i` up to `j` as many parens are opened as closed, and none is closed before it is opened. -/
def BalancedFrom (text : List Char) (i j : Nat) : Prop :=
  depthAt text j = depthAt text i ∧ ∀ k, i ≤ k → k ≤ j → depthAt text i ≤ depthAt text k

def Partners (text : List Char) (i j : Nat) : Prop :=
  i < j ∧ StandsAt text '(' i ∧ StandsAt text ')' j ∧ BalancedFrom text (i + 1) j

def ClassSpans (text : List Char) (i j : Nat) : Prop :=
  i < j ∧ StandsAt text '[' i ∧ text[j]? = some ']' ∧ settingAt text j = .inClass ∧
    ∀ k, i < k → k ≤ j → (settingAt text k).isWithin = true

/-- A closing paren that closes none, or a bracket whose class is never ended. -/
def StrayAt (text : List Char) (i : Nat) : Cause → Prop
  | .unmatchedParen => StandsAt text ')' i ∧ ∀ j, ¬ Partners text j i
  | .unmatchedBracket => StandsAt text '[' i ∧ ∀ j, ¬ ClassSpans text i j
  | _ => False

def UnclosedAt (text : List Char) (i : Nat) : Prop :=
  StandsAt text '(' i ∧ ∀ j, ¬ Partners text i j

def WellBracketed (text : List Char) : Prop :=
  (∀ i, StandsAt text '[' i → ∃ j, ClassSpans text i j) ∧ BalancedFrom text 0 text.length

def QuantifierAt (text : List Char) (i : Nat) : Prop := ∃ c ∈ ['*', '+', '{'], text[i]? = some c

instance (text : List Char) (i : Nat) : Decidable (QuantifierAt text i) :=
  inferInstanceAs (Decidable (∃ c ∈ ['*', '+', '{'], text[i]? = some c))

variable {text : List Char} {c d : Char} {i j k : Nat}

theorem settingAt_succ (here : text[i]? = some c) :
    settingAt text (i + 1) = (settingAt text i).next c := by
  simp only [settingAt, here]

namespace StandsAt

theorem lt_length (h : StandsAt text c i) : i < text.length :=
  (List.getElem?_eq_some_iff.1 h.1).1

theorem not_of_ne (h : StandsAt text c i) (ne : d ≠ c) : ¬ StandsAt text d i :=
  fun h' => ne (Option.some.inj (h'.1.symm.trans h.1))

theorem lt_of_lt_succ {n : Nat} (h : StandsAt text c i) (lt : i < n + 1)
    (other : ¬ StandsAt text c n) : i < n := by
  rcases Nat.lt_succ_iff_lt_or_eq.1 lt with lt | rfl
  · exact lt
  · exact absurd h other

theorem depth_opening (h : StandsAt text '(' i) : depthAt text (i + 1) = depthAt text i + 1 :=
  if_pos h

theorem depth_closing (h : StandsAt text ')' i) : depthAt text (i + 1) = depthAt text i - 1 := by
  rw [depthAt, if_neg (h.not_of_ne (by decide)), if_pos h]

end StandsAt

theorem StrayAt.lt_length {cause : Cause} (h : StrayAt text i cause) : i < text.length := by
  cases cause with
  | unmatchedParen | unmatchedBracket => exact h.1.lt_length
  | _ => exact h.elim

theorem depthAt_succ (opening : ¬ StandsAt text '(' i) (closing : ¬ StandsAt text ')' i) :
    depthAt text (i + 1) = depthAt text i := by
  rw [depthAt, if_neg opening, if_neg closing]

namespace Partners

theorem depth_after (h : Partners text i j) : depthAt text (j + 1) = depthAt text i := by
  obtain ⟨_, opening, closing, level, _⟩ := h
  rw [closing.depth_closing, level, opening.depth_opening]
  omega

theorem left_unique {i' : Nat} (h : Partners text i j) (h' : Partners text i' j) : i = i' := by
  have apart {a b : Nat} (first : Partners text a j) (second : Partners text b j) : ¬ a < b := by
    intro lt
    have within := first.2.2.2.2 b lt (Nat.le_of_lt second.1)
    have same := first.depth_after.symm.trans second.depth_after
    rw [first.2.1.depth_opening] at within
    omega
  have := apart h h'
  have := apart h' h
  omega

theorem not_deeper {n : Nat} (h : Partners text i j) (before : j < n)
    (deeper : ∀ k, i < k → k ≤ n → depthAt text i < depthAt text k) : False := by
  have within := deeper (j + 1) (Nat.lt_succ_of_lt h.1) before
  rw [h.depth_after] at within
  omega

theorem right_unique {j' : Nat} (h : Partners text i j) (h' : Partners text i j') : j = j' := by
  have apart {a b : Nat} (first : Partners text i a) (second : Partners text i b) : ¬ a < b := by
    intro lt
    apply first.not_deeper lt
    intro k after upTo
    have within := second.2.2.2.2 k after upTo
    rw [second.2.1.depth_opening] at within
    omega
  have := apart h h'
  have := apart h' h
  omega

end Partners

end PatternGraph
