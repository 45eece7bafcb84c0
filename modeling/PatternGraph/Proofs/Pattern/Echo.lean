import PatternGraph.Proofs.Pattern.Naming
import PatternGraph.Proofs.Pattern.Splicing

/-!
Patterns that are a group and copies of what it matched. The pattern in the group stands in other
surroundings there than by itself, but for the tags its tree is the same.
-/
namespace PatternGraph
open Grammar

def Tree.echo (body : Tree) (b : Bounds) : Tree :=
  .cat (.group (some ⟨0⟩) body) (.cat (.loop b (.backref ⟨0⟩)) .empty)

/-- The pattern `(p)\k<1>{least,most}`: a group, and copies of what it matched. -/
def echoText (p least most : String) : String :=
  "(" ++ p ++ ")\\k<1>\x7b" ++ least ++ "," ++ most ++ "\x7d"

theorem toList_echoText (p least most : String) :
    (echoText p least most).toList = '(' :: (p.toList ++ ')' :: '\\' :: 'k' :: '<' :: '1' :: '>' ::
      '{' :: (least.toList ++ ',' :: (most.toList ++ ['}']))) := by
  simp [echoText]

/-- The counts that are accepted between two numerals; there is no limit where the second is missing. -/
def Bounds.ofNumerals (least most : List Char) : Bounds :=
  ⟨valueOf least, if most = [] then none else some (valueOf most)⟩

theorem GroupNames.Coherent.find?_first {names : GroupNames} (h : names.Coherent) {name : String}
    {more : List String} {tag : TagId} (first : names.toList = name :: more)
    (found : names.find? name = some tag) : tag = ⟨0⟩ := by
  have here : names.nameOf? ⟨0⟩ = some name := by
    rw [nameOf?_eq, first]
    rfl
  rw [(h name ⟨0⟩).2 here, Option.some.injEq] at found
  exact found.symm

def Digits (cs : List Char) : Prop := ∀ c ∈ cs, '0' ≤ c ∧ c ≤ '9'

instance (cs : List Char) : Decidable (Digits cs) :=
  List.decidableBAll (fun c => '0' ≤ c ∧ c ≤ '9') cs

namespace Grammar
variable {captures : Bool} {kind : Kind} {d d' : Declared} {gs rest after : List Glyph} {t : Tree}

theorem Count.numeral {cs : List Char} {n : Nat} (h : Count (cs.map .plain ++ gs) n after)
    (digits : Digits cs) (stops : Stops (fun c => '0' ≤ c ∧ c ≤ '9') gs)
    (stops' : Stops (fun c => '0' ≤ c ∧ c ≤ '9') after) : cs ≠ [] ∧ n = valueOf cs ∧ gs = after := by
  obtain ⟨cs', some, digits', same, rfl, _⟩ := h
  obtain ⟨rfl, rfl⟩ := run_unique digits digits' stops stops' same
  exact ⟨some, rfl, rfl⟩

theorem Quantifier.numerals {least most : List Char} {b : Bounds} (digits : Digits least)
    (digits' : Digits most)
    (h : Quantifier (.plain '{' :: (least.map .plain ++ .plain ',' ::
      (most.map .plain ++ .plain '}' :: rest))) b after) :
    b = .ofNumerals least most ∧ after = rest := by
  cases h with
  | exactly count =>
    obtain ⟨_, _, same⟩ := count.numeral digits (stops_comma _) (stops_brace _)
    cases same
  | atLeast count =>
    obtain ⟨_, rfl, same⟩ := count.numeral digits (stops_comma _) (stops_comma _)
    have same := (List.cons.inj same).2
    cases most with
    | nil =>
      cases same
      exact ⟨rfl, rfl⟩
    | cons c most =>
      obtain ⟨⟨⟩, _⟩ := List.cons.inj same
      exact absurd (digits' _ List.mem_cons_self) (by decide)
  | between count count' _ =>
    obtain ⟨_, rfl, same⟩ := count.numeral digits (stops_comma _) (stops_comma _)
    have same := (List.cons.inj same).2
    subst same
    obtain ⟨some, rfl, same⟩ := count'.numeral digits' (stops_brace _) (stops_brace _)
    exact ⟨by rw [Bounds.ofNumerals, if_neg some], (List.cons.inj same).2.symm⟩

def copyGlyphs (least most : List Char) : List Glyph :=
  .escape 'k' (some 'k') :: .plain '<' :: .plain '1' :: .plain '>' :: .plain '{' ::
    (least.map .plain ++ .plain ',' :: (most.map .plain ++ [.plain '}']))

theorem Spells.not_nil (h : Spells captures .item d [] t d' after) : False := by
  obtain ⟨g, rest, same, _⟩ := h.begins
  cases same

theorem Spells.not_brace (h : Spells captures .item d (.plain '{' :: gs) t d' after) : False := by
  obtain ⟨g, rest, same, begins⟩ := h.begins
  cases same
  exact begins.2.2.2.2 rfl

theorem Spells.backref_of_copy {value : Option Char}
    (h : Spells captures .item d (.escape 'k' value :: .plain '<' :: .plain '1' :: .plain '>' :: rest)
      t d' after) :
    ∃ tag, d.names.find? "1" = some tag ∧ t = .backref tag ∧ d' = d ∧ after = rest := by
  cases h with
  | literal stands => cases stands
  | backref name found _ =>
    have digit : ∀ c ∈ ['1'], NameChar c := by
      intro c mem
      rw [List.mem_singleton.1 mem]
      decide +kernel
    obtain ⟨rfl, rfl⟩ := name.unique ⟨['1'], List.cons_ne_nil _ _, digit, rfl, rfl⟩
    exact ⟨_, found, rfl, rfl, rfl⟩

theorem Spells.copies {least most : List Char} (digits : Digits least) (digits' : Digits most)
    (h : Spells captures .sequence d (copyGlyphs least most) t d' after) (ends : Ends .sequence after) :
    after = [] ∧ ∃ tag, d.names.find? "1" = some tag ∧
      t = .cat (.loop (.ofNumerals least most) (.backref tag)) .empty := by
  cases h with
  | done => simp [copyGlyphs, Ends] at ends
  | once copy later =>
    obtain ⟨_, _, _, _, rfl⟩ := copy.backref_of_copy
    cases later with
    | done => simp [Ends] at ends
    | once item | repeated item => exact item.not_brace.elim
  | repeated copy quantifier later =>
    obtain ⟨tag, found, rfl, rfl, rfl⟩ := copy.backref_of_copy
    obtain ⟨rfl, rfl⟩ := quantifier.numerals digits digits'
    cases later with
    | done => exact ⟨rfl, tag, found, rfl⟩
    | once item | repeated item => exact item.not_nil.elim

/-- In the group the part has another context, in which only its tags can differ. -/
theorem Spells.body_of_group {captures' : Bool} {e e' : Declared} {u : Tree}
    (h : Spells captures .item d (.plain '(' :: (gs ++ .plain ')' :: rest)) t d' after)
    (other : gs.head? ≠ some (.plain '?')) (part : Spells captures' .alternatives e gs u e' []) :
    after = rest ∧ ∃ tag d₁ body d₂, d.declareUnnamed? captures = some (tag, d₁) ∧
      Spells captures .alternatives d₁ (gs ++ .plain ')' :: rest) body d₂ (.plain ')' :: rest) ∧
      t = .group tag body ∧ d' = d₂.close tag ∧ body.untagged = u.untagged := by
  have other : (gs ++ .plain ')' :: rest).head? ≠ some (.plain '?') := by
    cases gs with
    | nil => simp
    | cons g gs => exact other
  generalize whole : gs ++ .plain ')' :: rest = inside at h other
  cases h with
  | literal stands => cases stands
  | group header body =>
    cases header with
    | unnamed _ declared =>
      subst whole
      obtain ⟨same, trees, _⟩ := body.alike (part.append (.plain ')' :: rest)) (.inr rfl) (.inr rfl)
      obtain ⟨_, rfl⟩ := List.cons.inj same
      exact ⟨rfl, _, _, _, _, declared, body, rfl, rfl, trees⟩
    | bare | named => exact absurd rfl other

theorem Spells.first_group {tag : TagId}
    (h : Spells captures .item .none (.plain '(' :: gs) t d' after)
    (other : gs.head? ≠ some (.plain '?')) (found : d'.names.find? "1" = some tag) :
    captures = true ∧ tag = ⟨0⟩ := by
  cases captures with
  | false =>
    have none : Declared.none.names.find? "1" = none := by decide +kernel
    rw [h.names_uncaptured, none] at found
    cases found
  | true =>
    have coherent := h.coherent GroupNames.coherent_empty
    obtain ⟨e, generates, rfl, _⟩ :=
      h.generates GroupNames.coherent_empty ⟨List.nodup_nil, Nat.zero_le _⟩
    cases generates with
    | literal stands => cases stands
    | group opening _ =>
      cases opening with
      | unnamed =>
        exact ⟨rfl, coherent.find?_first (Declared.toList_after ..) found⟩
      | bare | named => exact absurd rfl other

theorem lexed_echo {p least most : List Char} {gs : List Glyph} (lexed : Lexed p gs)
    (complete : ∀ g ∈ gs, g.Complete) (digits : Digits least) (digits' : Digits most) :
    Lexed ('(' :: (p ++ ')' :: '\\' :: 'k' :: '<' :: '1' :: '>' :: '{' ::
        (least ++ ',' :: (most ++ ['}']))))
      (.plain '(' :: (gs ++ .plain ')' :: copyGlyphs least most)) := by
  have plain {cs : List Char} (digits : Digits cs) : '\\' ∉ cs := fun mem =>
    absurd (digits _ mem) (by decide)
  have counts : Lexed (least ++ ',' :: (most ++ ['}'])) _ :=
    .plains (plain digits) (.plain (by decide) (.plains (plain digits') (.plain (by decide) .done)))
  have name : Lexed ('<' :: '1' :: '>' :: '{' :: (least ++ ',' :: (most ++ ['}']))) _ :=
    .plain (by decide) (.plain (by decide) (.plain (by decide) (.plain (by decide) counts)))
  have copied : Escapes 'k' 'k' := .itself (by decide) (by decide) (by decide)
  exact .plain (by decide) (lexed.append complete (.plain (by decide) (.escape copied name)))

theorem head?_of_lexed {cs : List Char} {gs : List Glyph} {c : Char} (h : Lexed cs gs)
    (front : gs.head? = some (.plain c)) : cs.head? = some c := by
  cases h <;> cases front
  rfl

theorem Spells.echo {captures' : Bool} {e e' : Declared} {u : Tree} {least most : List Char}
    (other : gs.head? ≠ some (.plain '?')) (digits : Digits least) (digits' : Digits most)
    (h : Spells captures .sequence .none (.plain '(' :: (gs ++ .plain ')' :: copyGlyphs least most))
      t d' after) (ends : Ends .sequence after) (part : Spells captures' .alternatives e gs u e' []) :
    after = [] ∧ ∃ body : Tree, t = body.echo (.ofNumerals least most) ∧ body.TagsFrom 1 ∧
      body.untagged = u.untagged := by
  cases h with
  | done => simp [Ends] at ends
  | once group later =>
    obtain ⟨rfl, tag, d₁, body, d₂, declared, inside, rfl, rfl, same⟩ := group.body_of_group other part
    obtain ⟨rfl, tag', found, rfl⟩ := later.copies digits digits' ends
    obtain ⟨rfl, rfl⟩ := group.first_group (by cases gs <;> simp_all) found
    have opened : Declared.none.declareUnnamed? true =
        some (some ⟨0⟩, ⟨GroupNames.empty.push "1" false, 1⟩) := by decide +kernel
    rw [opened] at declared
    cases declared
    have coherent : (GroupNames.empty.push "1" false).Coherent :=
      GroupNames.coherent_empty.push rfl false
    exact ⟨rfl, body, rfl, (inside.tags coherent).2.1, same⟩
  | repeated group quantifier _ =>
    obtain ⟨rfl, _⟩ := group.body_of_group other part
    cases quantifier

end Grammar

/-- The group is what the pattern in it denotes, whatever its own groups are called and whether or not
they capture. -/
theorem Denotes.echo {options options' : Options} {p least most : String} {t u : Tree}
    {names names' : GroupNames} (other : p.toList.head? ≠ some '?') (digits : Digits least.toList)
    (digits' : Digits most.toList)
    (h : Denotes options (echoText p least most) t names)
    (part : Denotes options' p u names') :
    ∃ body : Tree, t = body.echo (.ofNumerals least.toList most.toList) ∧ body.TagsFrom 1 ∧
      body.untagged = u.untagged := by
  obtain ⟨gs, _, lexed, part⟩ := part
  obtain ⟨_, _, lexed', whole⟩ := h
  obtain ⟨front, same, complete⟩ := part.completes
  rw [List.append_nil] at same
  subst same
  rw [toList_echoText] at lexed'
  obtain rfl := lexed'.unique (lexed_echo lexed complete digits digits')
  have other : gs.head? ≠ some (.plain '?') := fun front => other (head?_of_lexed lexed front)
  cases whole with
  | only sequence => exact (sequence.echo other digits digits' (.inl rfl) part).2
  | either sequence _ =>
    obtain ⟨ended, _⟩ := sequence.echo other digits digits' (.inr (.inr rfl)) part
    cases ended

end PatternGraph
