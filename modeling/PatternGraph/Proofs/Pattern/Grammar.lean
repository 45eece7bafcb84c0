import PatternGraph.Pattern.Reading
import PatternGraph.Proofs.Capture.NameTables
import PatternGraph.Proofs.Pattern.Tree

/-!
The grammar of patterns. A text is cut into glyphs, and each part of a pattern is given with the
glyphs from its beginning on and with those that are left after it. Which tag a group gets, and which
group a backreference means, depends on the groups declared before, so these are passed along.
-/
namespace PatternGraph
open Symbol

/-- What a backslash and one character stand for. -/
inductive Escapes : Char → Char → Prop
  | newline : Escapes 'n' '\n'
  | tab : Escapes 't' '\t'
  | itself {c} : c ≠ 'n' → c ≠ 't' → c ≠ 'x' → Escapes c c

def smallDigits : List Char :=
  ['0', '1', '2', '3', '4', '5', '6', '7', '8', '9', 'a', 'b', 'c', 'd', 'e', 'f']

def capitalDigits : List Char :=
  ['0', '1', '2', '3', '4', '5', '6', '7', '8', '9', 'A', 'B', 'C', 'D', 'E', 'F']

/-- The value of a digit is its place among the sixteen. -/
def HexDigit (c : Char) (n : Nat) : Prop := smallDigits[n]? = some c ∨ capitalDigits[n]? = some c

/-- The four digits are the number of the character `v`. Surrogates have no character. -/
def CodePoint (a b c d v : Char) : Prop :=
  ∃ i j k l, HexDigit a i ∧ HexDigit b j ∧ HexDigit c k ∧ HexDigit d l ∧
    v.toNat = i * 4096 + j * 256 + k * 16 + l

inductive Lexed : List Char → List Glyph → Prop
  | done : Lexed [] []
  | plain {c cs gs} : c ≠ '\\' → Lexed cs gs → Lexed (c :: cs) (.plain c :: gs)
  | escape {c v cs gs} : Escapes c v → Lexed cs gs →
      Lexed ('\\' :: c :: cs) (.escape c (some v) :: gs)
  | codePoint {a b c d v cs gs} : CodePoint a b c d v → Lexed cs gs →
      Lexed ('\\' :: 'x' :: a :: b :: c :: d :: cs) (.escape 'x' (some v) :: gs)
  /-- The digits are missing or name no character. -/
  | noCodePoint {cs gs} : (∀ a b c d rest v, cs = a :: b :: c :: d :: rest → ¬ CodePoint a b c d v) →
      Lexed cs gs → Lexed ('\\' :: 'x' :: cs) (.escape 'x' none :: gs)
  | dangling : Lexed ['\\'] [.dangling]

def Glyph.value? : Glyph → Option Char
  | .plain c => some c
  | .escape _ value => value
  | .dangling => none

def operators : List Char := ['.', '(', ')', '[', ']', '*', '+', '{', '}', '|']

/-- What a glyph stands for outside classes, where operators are none and an escaped `k` begins a
backreference. -/
def Glyph.literal? : Glyph → Option Char
  | .plain c => if c ∈ operators then none else some c
  | .escape c value => if c = 'k' then none else value
  | .dangling => none

structure Declared where
  names : GroupNames
  unnamed : Nat
  deriving DecidableEq, Repr

namespace Declared

def none : Declared := ⟨.empty, 0⟩

/-- A new name. It gets a tag unless groups do not capture. -/
def declare? (captures : Bool) (name : String) (d : Declared) : Option (Option TagId × Declared) :=
  match d.names.find? name with
  | some _ => Option.none
  | Option.none =>
    if captures then
      match d.names.register name with
      | .ok (tag, names) => some (some tag, { d with names := names })
      | .error _ => Option.none
    else some (Option.none, d)

def declareUnnamed? (captures : Bool) (d : Declared) : Option (Option TagId × Declared) :=
  { d with unnamed := d.unnamed + 1 }.declare? captures (toString (d.unnamed + 1))

def close (d : Declared) : Option TagId → Declared
  | Option.none => d
  | some tag => { d with names := d.names.close tag }

end Declared

namespace Grammar

def valueOf (digits : List Char) : Nat :=
  digits.foldl (fun n c => n * 10 + (c.toNat - '0'.toNat)) 0

/-- A decimal numeral of a number below the largest word of 32 bits. -/
def Count (gs : List Glyph) (n : Nat) (after : List Glyph) : Prop :=
  ∃ digits : List Char, digits ≠ [] ∧ (∀ c ∈ digits, '0' ≤ c ∧ c ≤ '9') ∧
    gs = digits.map .plain ++ after ∧ n = valueOf digits ∧ n ≤ 4294967294

inductive Quantifier : List Glyph → Bounds → List Glyph → Prop
  | star {after} : Quantifier (.plain '*' :: after) ⟨0, none⟩ after
  | plus {after} : Quantifier (.plain '+' :: after) ⟨1, none⟩ after
  | exactly {gs n after} : Count gs n (.plain '}' :: after) →
      Quantifier (.plain '{' :: gs) ⟨n, some n⟩ after
  | atLeast {gs m after} : Count gs m (.plain ',' :: .plain '}' :: after) →
      Quantifier (.plain '{' :: gs) ⟨m, none⟩ after
  | between {gs m gs' n after} : Count gs m (.plain ',' :: gs') → Count gs' n (.plain '}' :: after) →
      m ≤ n → Quantifier (.plain '{' :: gs) ⟨m, some n⟩ after

def NameChar (c : Char) : Prop := Text.isAlphanumeric c = true ∨ c = '_'

instance : DecidablePred NameChar := fun _ => inferInstanceAs (Decidable (_ ∨ _))

def Name (gs : List Glyph) (name : String) (after : List Glyph) : Prop :=
  ∃ cs : List Char, cs ≠ [] ∧ (∀ c ∈ cs, NameChar c) ∧ name = String.ofList cs ∧
    gs = .plain '<' :: (cs.map .plain ++ .plain '>' :: after)

/-- The items of a class and the bracket that ends it, each item as a range. A character is the
beginning of a range if a dash follows that is not the last of the class. -/
inductive Items : List Glyph → List (Char × Char) → List Glyph → Prop
  | close {after} : Items (.plain ']' :: after) [] after
  | single {g c gs items after} : g ≠ .plain ']' → g.value? = some c →
      (∀ h rest, gs = .plain '-' :: h :: rest → h = .plain ']') → Items gs items after →
      Items (g :: gs) ((c, c) :: items) after
  | range {g low h high gs items after} : g ≠ .plain ']' → g.value? = some low →
      h ≠ .plain ']' → h.value? = some high → low ≤ high → Items gs items after →
      Items (g :: .plain '-' :: h :: gs) ((low, high) :: items) after

def Covered (items : List (Char × Char)) (c : Char) : Prop := ∃ i ∈ items, i.1 ≤ c ∧ c ≤ i.2

inductive Class : List Glyph → (Char → Bool) → List Glyph → Prop
  | union {gs items after fits} : gs.head? ≠ some (.plain '^') → Items gs items after → items ≠ [] →
      (∀ c, fits c = true ↔ Covered items c) → Class gs fits after
  /-- There has to be a character that is not covered. -/
  | complement {gs items after fits} : Items gs items after → items ≠ [] →
      (∀ c, fits c = true ↔ ¬ Covered items c) → (∃ c, fits c = true) →
      Class (.plain '^' :: gs) fits after

inductive Header (captures : Bool) :
    Declared → List Glyph → Option TagId → Declared → List Glyph → Prop
  | unnamed {d gs tag d'} : gs.head? ≠ some (.plain '?') →
      d.declareUnnamed? captures = some (tag, d') → Header captures d gs tag d' gs
  | bare {d gs} : Header captures d (.plain '?' :: .plain ':' :: gs) none d gs
  | named {d gs name after tag d'} : Name gs name after →
      d.declare? captures name = some (tag, d') →
      Header captures d (.plain '?' :: gs) tag d' after

inductive Kind
  | item
  | sequence
  | alternatives

inductive Spells (captures : Bool) :
    Kind → Declared → List Glyph → Tree → Declared → List Glyph → Prop
  | literal {d g c gs} : g.literal? = some c → Spells captures .item d (g :: gs) (.char c) d gs
  | any {d gs} : Spells captures .item d (.plain '.' :: gs) .any d gs
  | charClass {d gs fits after} : Class gs fits after →
      Spells captures .item d (.plain '[' :: gs) (.charClass fits) d after
  | backref {d value gs name after tag} : Name gs name after → d.names.find? name = some tag →
      d.names.isClosed tag = true →
      Spells captures .item d (.escape 'k' value :: gs) (.backref tag) d after
  | group {d gs tag d₁ gs₁ body d₂ after} : Header captures d gs tag d₁ gs₁ →
      Spells captures .alternatives d₁ gs₁ body d₂ (.plain ')' :: after) →
      Spells captures .item d (.plain '(' :: gs) (.group tag body) (d₂.close tag) after
  | done {d gs} : Spells captures .sequence d gs .empty d gs
  | once {d gs t d₁ gs₁ t' d₂ gs₂} : Spells captures .item d gs t d₁ gs₁ →
      Spells captures .sequence d₁ gs₁ t' d₂ gs₂ →
      Spells captures .sequence d gs (.cat t t') d₂ gs₂
  | repeated {d gs t d₁ gs₁ b gs₂ t' d₂ gs₃} : Spells captures .item d gs t d₁ gs₁ →
      Quantifier gs₁ b gs₂ → Spells captures .sequence d₁ gs₂ t' d₂ gs₃ →
      Spells captures .sequence d gs (.cat (.loop b t) t') d₂ gs₃
  | only {d gs t d' gs'} : Spells captures .sequence d gs t d' gs' →
      Spells captures .alternatives d gs t d' gs'
  | either {d gs t d₁ gs₁ t' d₂ gs₂} : Spells captures .sequence d gs t d₁ (.plain '|' :: gs₁) →
      Spells captures .alternatives d₁ gs₁ t' d₂ gs₂ →
      Spells captures .alternatives d gs (.alt t t') d₂ gs₂

end Grammar

namespace Declared
variable {captures : Bool} {d d' : Declared}

theorem size_close (d : Declared) (tag : Option TagId) :
    (d.close tag).names.size = d.names.size := by
  cases tag with
  | none => rfl
  | some tag => exact d.names.size_close tag

theorem declare?_eq_some {name : String} {tag : Option TagId}
    (h : d.declare? captures name = some (tag, d')) : d.names.find? name = Option.none ∧
      (captures = false ∧ tag = Option.none ∧ d' = d ∨
        captures = true ∧ d.names.size < Index.limit ∧ tag = some ⟨d.names.size⟩ ∧
          d' = { d with names := d.names.push name false }) := by
  unfold declare? at h
  split at h
  · cases h
  · rename_i new
    refine ⟨new, ?_⟩
    cases captures with
    | false =>
      cases h
      exact .inl ⟨rfl, rfl, rfl⟩
    | true =>
      rw [if_pos rfl] at h
      split at h
      · rename_i registered
        obtain ⟨room, rfl, rfl⟩ := GroupNames.register_eq_ok_iff.1 registered
        cases h
        exact .inr ⟨rfl, room, rfl, rfl⟩
      · cases h

theorem tag_of_declare? {name : String} {tag : Option TagId}
    (h : d.declare? captures name = some (tag, d')) :
    (tag = Option.none ∧ d'.names.size = d.names.size) ∨
      ∃ i : TagId, tag = some i ∧ i.val = d.names.size ∧ d'.names.size = i.val + 1 := by
  obtain ⟨_, ⟨_, rfl, rfl⟩ | ⟨_, _, rfl, rfl⟩⟩ := declare?_eq_some h
  · exact .inl ⟨rfl, rfl⟩
  · exact .inr ⟨_, rfl, rfl, GroupNames.size_push ..⟩

theorem coherent_of_declare? {name : String} {tag : Option TagId}
    (h : d.declare? captures name = some (tag, d')) (coherent : d.names.Coherent) :
    d'.names.Coherent := by
  obtain ⟨new, ⟨_, _, rfl⟩ | ⟨_, _, _, rfl⟩⟩ := declare?_eq_some h
  · exact coherent
  · exact coherent.push new false

theorem coherent_close (coherent : d.names.Coherent) (tag : Option TagId) :
    (d.close tag).names.Coherent := by
  cases tag with
  | none => exact coherent
  | some tag => exact coherent.close tag

end Declared

namespace Grammar
variable {captures : Bool}

theorem Header.tag {d d' : Declared} {gs after : List Glyph} {tag : Option TagId}
    (h : Header captures d gs tag d' after) :
    (tag = none ∧ d'.names.size = d.names.size) ∨
      ∃ i : TagId, tag = some i ∧ i.val = d.names.size ∧ d'.names.size = i.val + 1 := by
  cases h with
  | unnamed _ declared =>
    exact Declared.tag_of_declare? (d := { d with unnamed := d.unnamed + 1 }) declared
  | bare => exact .inl ⟨rfl, rfl⟩
  | named _ declared => exact Declared.tag_of_declare? declared

theorem Header.coherent {d d' : Declared} {gs after : List Glyph} {tag : Option TagId}
    (h : Header captures d gs tag d' after) (coherent : d.names.Coherent) : d'.names.Coherent := by
  cases h with
  | unnamed _ declared =>
    exact Declared.coherent_of_declare? (d := { d with unnamed := d.unnamed + 1 }) declared coherent
  | bare => exact coherent
  | named _ declared => exact Declared.coherent_of_declare? declared coherent

theorem Header.uncaptured {d d' : Declared} {gs after : List Glyph} {tag : Option TagId}
    (h : Header false d gs tag d' after) : tag = none ∧ d'.names = d.names := by
  have dropped {d d' : Declared} {name : String} {tag : Option TagId}
      (declared : d.declare? false name = some (tag, d')) : tag = none ∧ d' = d := by
    obtain ⟨_, ⟨_, tag, same⟩ | ⟨captures, _⟩⟩ := Declared.declare?_eq_some declared
    · exact ⟨tag, same⟩
    · cases captures
  cases h with
  | bare => exact ⟨rfl, rfl⟩
  | unnamed _ declared | named _ declared =>
    obtain ⟨rfl, rfl⟩ := dropped declared
    exact ⟨rfl, rfl⟩

theorem Spells.names_uncaptured {kind : Kind} {d d' : Declared} {gs after : List Glyph} {t : Tree}
    (h : Spells false kind d gs t d' after) : d'.names = d.names := by
  induction h with
  | literal | any | charClass | backref | done => rfl
  | group header _ ih =>
    obtain ⟨rfl, same⟩ := header.uncaptured
    exact ih.trans same
  | once _ _ first rest | repeated _ _ _ first rest | either _ _ first rest => exact rest.trans first
  | only _ ih => exact ih

theorem Spells.coherent {kind : Kind} {d d' : Declared} {gs after : List Glyph} {t : Tree}
    (h : Spells captures kind d gs t d' after) (coherent : d.names.Coherent) : d'.names.Coherent := by
  induction h with
  | literal | any | charClass | backref | done => exact coherent
  | group header _ ih => exact Declared.coherent_close (ih (header.coherent coherent)) _
  | once _ _ first rest | repeated _ _ _ first rest | either _ _ first rest =>
    exact rest (first coherent)
  | only _ ih => exact ih coherent

theorem Spells.tags {kind : Kind} {d d' : Declared} {gs after : List Glyph} {t : Tree}
    (h : Spells captures kind d gs t d' after) (coherent : d.names.Coherent) :
    d.names.size ≤ d'.names.size ∧ t.TagsFrom d.names.size ∧ t.TagsBelow d'.names.size := by
  induction h with
  | literal | any | charClass | done => exact ⟨Nat.le_refl _, trivial, trivial⟩
  | backref _ found _ => exact ⟨Nat.le_refl _, trivial, coherent.lt_size_of_find? found⟩
  | group header _ ih =>
    obtain ⟨grows, tagsFrom, tagsBelow⟩ := ih (header.coherent coherent)
    rw [Declared.size_close]
    rcases header.tag with ⟨rfl, same⟩ | ⟨i, rfl, index, next⟩
    · rw [same] at grows tagsFrom
      exact ⟨grows, tagsFrom, tagsBelow⟩
    · rw [next] at grows tagsFrom
      exact ⟨by omega, ⟨by omega, tagsFrom⟩, ⟨by omega, tagsBelow⟩⟩
  | once first _ one other | repeated first _ _ one other | either first _ one other =>
    have one := one coherent
    have other := other (first.coherent coherent)
    exact ⟨Nat.le_trans one.1 other.1, ⟨one.2.1, other.2.1.mono one.1⟩,
      ⟨one.2.2.mono other.1, other.2.2⟩⟩
  | only _ ih => exact ih coherent

end Grammar

/-- The pattern is a text for the tree, whose tags stand for `names`. -/
def Denotes (options : Options) (pattern : String) (t : Tree) (names : GroupNames) : Prop :=
  ∃ gs unnamed, Lexed pattern.toList gs ∧
    Grammar.Spells options.captures .alternatives .none gs t ⟨names, unnamed⟩ []

end PatternGraph
