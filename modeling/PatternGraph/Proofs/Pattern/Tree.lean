import PatternGraph.Index

/-!
Syntax trees of patterns, with the tags of their groups resolved. Tags are given out in the order in
which groups open, so inside a group all tags are larger than its own.
-/
namespace PatternGraph

structure Bounds where
  least : Nat
  /-- Missing if there is no limit. -/
  most : Option Nat
  deriving DecidableEq, Repr

namespace Bounds

def within (b : Bounds) (n : Nat) : Bool :=
  match b.most with
  | none => true
  | some m => decide (n ≤ m)

def accepts (b : Bounds) (n : Nat) : Bool := decide (b.least ≤ n) && b.within n

def mayRepeat (b : Bounds) (n : Nat) : Bool := b.within (n + 1)

theorem within_of_le {b : Bounds} {m n : Nat} (h : b.within n = true) (le : m ≤ n) :
    b.within m = true := by
  unfold within at *
  split at h
  · rfl
  · simp only [decide_eq_true_eq] at h ⊢
    omega

theorem accepts_iff {b : Bounds} {n : Nat} :
    b.accepts n = true ↔ b.least ≤ n ∧ b.within n = true := by
  simp [accepts]

theorem accepts_of_le {b : Bounds} {n m k : Nat} (accepts : b.accepts n = true)
    (within : b.within k = true) (lower : n ≤ m) (upper : m ≤ k) : b.accepts m = true :=
  accepts_iff.2 ⟨Nat.le_trans (accepts_iff.1 accepts).1 lower, within_of_le within upper⟩

theorem lt_least {b : Bounds} {n : Nat} (more : b.mayRepeat n = true) (short : b.accepts n = false) :
    n < b.least := by
  have within := within_of_le more (Nat.le_succ n)
  apply Nat.lt_of_not_le
  intro enough
  simp [accepts, within, enough] at short

end Bounds

inductive Tree
  | empty
  | char (c : Char)
  | any
  | charClass (fits : Char → Bool)
  | backref (tag : TagId)
  | cat (first second : Tree)
  /-- The first is preferred. -/
  | alt (first second : Tree)
  /-- A group without a tag does not capture. -/
  | group (tag : Option TagId) (body : Tree)
  | loop (bounds : Bounds) (body : Tree)

namespace Tree

/-- The characters one after the other, and what comes after them. -/
def chars (cs : List Char) (rest : Tree) : Tree := cs.foldr (fun c t => .cat (.char c) t) rest

/-- The tags of groups lie from `low` on, each below those inside its group. -/
def TagsFrom (low : Nat) : Tree → Prop
  | .empty | .char _ | .any | .charClass _ | .backref _ => True
  | .cat first second | .alt first second => first.TagsFrom low ∧ second.TagsFrom low
  | .group none body | .loop _ body => body.TagsFrom low
  | .group (some tag) body => low ≤ tag.val ∧ body.TagsFrom (tag.val + 1)

/-- All tags, also of backreferences, lie below `count`. -/
def TagsBelow (count : Nat) : Tree → Prop
  | .empty | .char _ | .any | .charClass _ => True
  | .backref tag => tag.val < count
  | .cat first second | .alt first second => first.TagsBelow count ∧ second.TagsBelow count
  | .group none body | .loop _ body => body.TagsBelow count
  | .group (some tag) body => tag.val < count ∧ body.TagsBelow count

def HasBackref : Tree → Prop
  | .empty | .char _ | .any | .charClass _ => False
  | .backref _ => True
  | .cat first second | .alt first second => first.HasBackref ∨ second.HasBackref
  | .group _ body | .loop _ body => body.HasBackref

def untagged : Tree → Tree
  | .group _ body => .group none body.untagged
  | .cat first second => .cat first.untagged second.untagged
  | .alt first second => .alt first.untagged second.untagged
  | .loop bounds body => .loop bounds body.untagged
  | .backref _ => .backref ⟨0⟩
  | .empty => .empty
  | .char c => .char c
  | .any => .any
  | .charClass fits => .charClass fits

theorem TagsFrom.mono {t : Tree} {low low' : Nat} (h : t.TagsFrom low) (le : low' ≤ low) :
    t.TagsFrom low' := by
  induction t generalizing low low' with
  | empty | char | any | charClass | backref => trivial
  | cat _ _ ihf ihs | alt _ _ ihf ihs => exact ⟨ihf h.1 le, ihs h.2 le⟩
  | loop _ _ ih => exact ih h le
  | group tag body ih =>
    cases tag with
    | none => exact ih h le
    | some tag => exact ⟨Nat.le_trans le h.1, h.2⟩

theorem TagsBelow.mono {t : Tree} {count count' : Nat} (h : t.TagsBelow count)
    (le : count ≤ count') : t.TagsBelow count' := by
  induction t with
  | empty | char | any | charClass => trivial
  | backref => exact Nat.lt_of_lt_of_le h le
  | cat _ _ ihf ihs | alt _ _ ihf ihs => exact ⟨ihf h.1, ihs h.2⟩
  | loop _ _ ih => exact ih h
  | group tag body ih =>
    cases tag with
    | none => exact ih h
    | some tag => exact ⟨Nat.lt_of_lt_of_le h.1 le, ih h.2⟩

theorem hasBackref_untagged {t : Tree} : t.untagged.HasBackref ↔ t.HasBackref := by
  induction t with
  | empty | char | any | charClass | backref => rfl
  | cat _ _ first second | alt _ _ first second => exact or_congr first second
  | group _ _ ih | loop _ _ ih => exact ih

end Tree

end PatternGraph
