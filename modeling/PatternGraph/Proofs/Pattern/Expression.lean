import PatternGraph.Proofs.Pattern.Grammar

/-!
Patterns as they are written, where a group is known by its name. The grammar alone says which texts
are patterns up to their names; the names are looked at afterwards, over the whole expression.
-/
namespace PatternGraph

inductive GroupMark
  | unnamed
  | bare
  | named (name : String)
  deriving DecidableEq, Repr

inductive Expression
  | empty
  | char (c : Char)
  | any
  | charClass (fits : Char → Bool)
  | backref (name : String)
  | cat (first second : Expression)
  | alt (first second : Expression)
  | group (mark : GroupMark) (body : Expression)
  | repeated (bounds : Bounds) (body : Expression)

namespace GroupMark

def unnamedCount : GroupMark → Nat
  | .unnamed => 1
  | .bare | .named _ => 0

/-- The name of the group, if it has one. A group without a name is called by its number, and `before`
of these open to its left. -/
def names (before : Nat) : GroupMark → List String
  | .unnamed => [toString (before + 1)]
  | .bare => []
  | .named name => [name]

theorem length_names_le (mark : GroupMark) (before : Nat) : (mark.names before).length ≤ 1 := by
  cases mark <;> simp [names]

end GroupMark

namespace Expression

def unnamedCount : Expression → Nat
  | .empty | .char _ | .any | .charClass _ | .backref _ => 0
  | .cat first second | .alt first second => first.unnamedCount + second.unnamedCount
  | .group mark body => mark.unnamedCount + body.unnamedCount
  | .repeated _ body => body.unnamedCount

def names (before : Nat) : Expression → List String
  | .empty | .char _ | .any | .charClass _ | .backref _ => []
  | .cat first second | .alt first second =>
    first.names before ++ second.names (before + first.unnamedCount)
  | .group mark body => mark.names before ++ body.names (before + mark.unnamedCount)
  | .repeated _ body => body.names before

/-- Every backreference names a group that is closed to its left; those in `closed` are closed to the
left of the expression. -/
def RefsClosed (before : Nat) (closed : List String) : Expression → Prop
  | .empty | .char _ | .any | .charClass _ => True
  | .backref name => name ∈ closed
  | .cat first second | .alt first second =>
    first.RefsClosed before closed ∧
      second.RefsClosed (before + first.unnamedCount) (closed ++ first.names before)
  | .group mark body => body.RefsClosed (before + mark.unnamedCount) closed
  | .repeated _ body => body.RefsClosed before closed

end Expression

namespace Grammar

/-- A question mark after the paren is always part of the mark. -/
inductive Opening : List Glyph → GroupMark → List Glyph → Prop
  | unnamed {gs} : gs.head? ≠ some (.plain '?') → Opening gs .unnamed gs
  | bare {gs} : Opening (.plain '?' :: .plain ':' :: gs) .bare gs
  | named {gs name after} : Name gs name after → Opening (.plain '?' :: gs) (.named name) after

inductive Generates : Kind → List Glyph → Expression → List Glyph → Prop
  | literal {g c gs} : g.literal? = some c → Generates .item (g :: gs) (.char c) gs
  | any {gs} : Generates .item (.plain '.' :: gs) .any gs
  | charClass {gs fits after} : Class gs fits after →
      Generates .item (.plain '[' :: gs) (.charClass fits) after
  | backref {value gs name after} : Name gs name after →
      Generates .item (.escape 'k' value :: gs) (.backref name) after
  | group {gs mark gs₁ body after} : Opening gs mark gs₁ →
      Generates .alternatives gs₁ body (.plain ')' :: after) →
      Generates .item (.plain '(' :: gs) (.group mark body) after
  | done {gs} : Generates .sequence gs .empty gs
  | once {gs e gs₁ e' gs₂} : Generates .item gs e gs₁ → Generates .sequence gs₁ e' gs₂ →
      Generates .sequence gs (.cat e e') gs₂
  | repeated {gs e gs₁ b gs₂ e' gs₃} : Generates .item gs e gs₁ → Quantifier gs₁ b gs₂ →
      Generates .sequence gs₂ e' gs₃ → Generates .sequence gs (.cat (.repeated b e) e') gs₃
  | only {gs e gs'} : Generates .sequence gs e gs' → Generates .alternatives gs e gs'
  | either {gs e gs₁ e' gs₂} : Generates .sequence gs e (.plain '|' :: gs₁) →
      Generates .alternatives gs₁ e' gs₂ → Generates .alternatives gs (.alt e e') gs₂

end Grammar

/-- The grammar generates the pattern, no two groups have one name, and backreferences look back at
closed groups. -/
def WellFormed (pattern : String) : Prop :=
  ∃ gs e, Lexed pattern.toList gs ∧ Grammar.Generates .alternatives gs e [] ∧
    (e.names 0).Nodup ∧ e.RefsClosed 0 []

namespace Grammar
variable {gs after : List Glyph}

theorem Name.length_le {name : String} (h : Name gs name after) : after.length ≤ gs.length := by
  obtain ⟨cs, _, _, _, rfl⟩ := h
  simp only [List.length_cons, List.length_append]
  omega

theorem Count.length_le {n : Nat} (h : Count gs n after) : after.length ≤ gs.length := by
  obtain ⟨digits, _, _, rfl, _, _⟩ := h
  simp only [List.length_append]
  omega

theorem Quantifier.length_le {b : Bounds} (h : Quantifier gs b after) :
    after.length ≤ gs.length := by
  cases h with
  | star | plus => simp
  | exactly count | atLeast count =>
    have := count.length_le
    simp only [List.length_cons] at this ⊢
    omega
  | between count count' _ =>
    have := count.length_le
    have := count'.length_le
    simp only [List.length_cons] at *
    omega

theorem Items.length_le {items : List (Char × Char)} (h : Items gs items after) :
    after.length ≤ gs.length := by
  induction h with
  | close => simp
  | single _ _ _ _ ih | range _ _ _ _ _ _ ih =>
    simp only [List.length_cons]
    omega

theorem Class.length_le {fits : Char → Bool} (h : Class gs fits after) :
    after.length ≤ gs.length := by
  cases h with
  | union _ items => exact items.length_le
  | complement items => exact Nat.le_succ_of_le items.length_le

theorem Opening.length_le {mark : GroupMark} (h : Opening gs mark after) :
    after.length ≤ gs.length := by
  cases h with
  | unnamed => exact Nat.le_refl _
  | bare =>
    simp only [List.length_cons]
    omega
  | named name => exact Nat.le_succ_of_le name.length_le

theorem Generates.length_names_le {kind : Kind} {e : Expression} (h : Generates kind gs e after)
    (before : Nat) : (e.names before).length + after.length ≤ gs.length := by
  induction h generalizing before with
  | literal | any | done => simp [Expression.names]
  | charClass inner =>
    have := inner.length_le
    simp only [Expression.names, List.length_nil, List.length_cons]
    omega
  | backref name =>
    have := name.length_le
    simp only [Expression.names, List.length_nil, List.length_cons]
    omega
  | @group _ mark _ _ _ opening _ ih =>
    have := opening.length_le
    have := mark.length_names_le before
    have := ih (before + mark.unnamedCount)
    simp only [Expression.names, List.length_append, List.length_cons] at *
    omega
  | @once _ e _ _ _ _ _ ihf ihr =>
    have := ihf before
    have := ihr (before + e.unnamedCount)
    simp only [Expression.names, List.length_append]
    omega
  | @repeated _ e _ _ _ _ _ _ quantifier _ ihf ihr =>
    have := ihf before
    have := quantifier.length_le
    have := ihr (before + e.unnamedCount)
    simp only [Expression.names, Expression.unnamedCount, List.length_append]
    omega
  | only _ ih => exact ih before
  | @either _ e _ _ _ _ _ ihf ihr =>
    have := ihf before
    have := ihr (before + e.unnamedCount)
    simp only [Expression.names, List.length_append, List.length_cons] at *
    omega

end Grammar

theorem Lexed.length_le {cs : List Char} {gs : List Glyph} (h : Lexed cs gs) :
    gs.length ≤ cs.length := by
  induction h with
  | done | dangling => exact Nat.le_refl _
  | plain _ _ ih | escape _ _ ih | codePoint _ _ ih | noCodePoint _ _ ih =>
    simp only [List.length_cons]
    omega

end PatternGraph
