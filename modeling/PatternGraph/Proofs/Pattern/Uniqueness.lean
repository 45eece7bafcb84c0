import PatternGraph.Proofs.Pattern.Lexing

/-!
The grammar is unambiguous: a pattern denotes at most one tree, with one list of names. A part is
read as far as it can be, since what may follow it is never the beginning of more of it.
-/
namespace PatternGraph
open Symbol

theorem CodePoint.unique {a b c d v v' : Char} (h : CodePoint a b c d v) (h' : CodePoint a b c d v') :
    v = v' := by
  have read := codePoint?_eq_some_iff.2 ⟨a, b, c, d, [], rfl, h⟩
  rw [codePoint?_eq_some_iff.2 ⟨a, b, c, d, [], rfl, h'⟩, Option.some.injEq] at read
  exact read.symm

theorem Lexed.unique {cs : List Char} {gs gs' : List Glyph} (h : Lexed cs gs) (h' : Lexed cs gs') :
    gs = gs' := by
  induction h generalizing gs' with
  | done =>
    cases h'
    rfl
  | plain plain _ ih =>
    cases h' with
    | plain _ rest => rw [ih rest]
    | escape | codePoint | noCodePoint | dangling => contradiction
  | escape stands _ ih =>
    cases h' with
    | plain => contradiction
    | escape stands' rest => rw [stands.eq_simpleEscape, stands'.eq_simpleEscape, ih rest]
    | codePoint | noCodePoint => exact absurd rfl stands.ne_x
  | codePoint number _ ih =>
    cases h' with
    | plain => contradiction
    | escape stands => exact absurd rfl stands.ne_x
    | codePoint number' rest => rw [number.unique number', ih rest]
    | noCodePoint missing => exact absurd number (missing _ _ _ _ _ _ rfl)
  | noCodePoint missing _ ih =>
    cases h' with
    | plain => contradiction
    | escape stands => exact absurd rfl stands.ne_x
    | codePoint number => exact absurd number (missing _ _ _ _ _ _ rfl)
    | noCodePoint _ rest => rw [ih rest]
  | dangling =>
    cases h' with
    | plain => contradiction
    | dangling => rfl

namespace Grammar

def Stops (p : Char → Prop) (gs : List Glyph) : Prop := ∀ c, gs.head? = some (.plain c) → ¬ p c

theorem run_unique {p : Char → Prop} {cs cs' : List Char} {gs gs' : List Glyph}
    (all : ∀ c ∈ cs, p c) (all' : ∀ c ∈ cs', p c) (stops : Stops p gs) (stops' : Stops p gs')
    (same : cs.map .plain ++ gs = cs'.map .plain ++ gs') : cs = cs' ∧ gs = gs' := by
  induction cs generalizing cs' with
  | nil =>
    cases cs' with
    | nil => exact ⟨rfl, same⟩
    | cons c' cs' =>
      rw [List.map_nil, List.nil_append] at same
      exact absurd (all' c' (List.mem_cons_self ..)) (stops c' (by rw [same]; rfl))
  | cons c cs ih =>
    cases cs' with
    | nil =>
      rw [List.map_nil, List.nil_append] at same
      exact absurd (all c (List.mem_cons_self ..)) (stops' c (by rw [← same]; rfl))
    | cons c' cs' =>
      simp only [List.map_cons, List.cons_append, List.cons.injEq, Glyph.plain.injEq] at same
      obtain ⟨rfl, rfl⟩ := ih (fun c mem => all c (List.mem_cons_of_mem _ mem))
        (fun c mem => all' c (List.mem_cons_of_mem _ mem)) same.2
      rw [same.1]
      exact ⟨rfl, rfl⟩

theorem Name.unique {gs after after' : List Glyph} {name name' : String} (h : Name gs name after)
    (h' : Name gs name' after') : name = name' ∧ after = after' := by
  obtain ⟨cs, _, all, rfl, rfl⟩ := h
  obtain ⟨cs', _, all', rfl, same⟩ := h'
  have stops : ∀ gs, Stops NameChar (.plain '>' :: gs) := by
    rintro gs c ⟨⟩
    decide +kernel
  obtain ⟨rfl, rest⟩ := run_unique all all' (stops _) (stops _) (List.cons.inj same).2
  exact ⟨rfl, (List.cons.inj rest).2⟩

theorem Count.unique {gs after after' : List Glyph} {n n' : Nat} (h : Count gs n after)
    (h' : Count gs n' after') (stops : Stops (fun c => '0' ≤ c ∧ c ≤ '9') after)
    (stops' : Stops (fun c => '0' ≤ c ∧ c ≤ '9') after') : n = n' ∧ after = after' := by
  obtain ⟨digits, _, all, rfl, rfl, _⟩ := h
  obtain ⟨digits', _, all', same, rfl, _⟩ := h'
  obtain ⟨rfl, rfl⟩ := run_unique all all' stops stops' same
  exact ⟨rfl, rfl⟩

theorem stops_brace (gs : List Glyph) : Stops (fun c => '0' ≤ c ∧ c ≤ '9') (.plain '}' :: gs) := by
  rintro c ⟨⟩
  decide

theorem stops_comma (gs : List Glyph) : Stops (fun c => '0' ≤ c ∧ c ≤ '9') (.plain ',' :: gs) := by
  rintro c ⟨⟩
  decide

theorem Count.not_brace {gs after : List Glyph} {n : Nat} (h : Count (.plain '}' :: gs) n after) :
    False := by
  obtain ⟨digits, some, all, same, _⟩ := h
  cases digits with
  | nil => exact some rfl
  | cons c digits =>
    obtain ⟨⟨⟩, _⟩ := List.cons.inj same
    exact absurd (all '}' (List.mem_cons_self ..)) (by decide)

theorem Quantifier.unique {gs after after' : List Glyph} {b b' : Bounds}
    (h : Quantifier gs b after) (h' : Quantifier gs b' after') : b = b' ∧ after = after' := by
  cases h with
  | star =>
    cases h'
    exact ⟨rfl, rfl⟩
  | plus =>
    cases h'
    exact ⟨rfl, rfl⟩
  | exactly count =>
    cases h' with
    | exactly count' =>
      obtain ⟨rfl, same⟩ := count.unique count' (stops_brace _) (stops_brace _)
      exact ⟨rfl, (List.cons.inj same).2⟩
    | atLeast count' | between count' _ _ =>
      obtain ⟨_, same⟩ := count.unique count' (stops_brace _) (stops_comma _)
      cases same
  | atLeast count =>
    cases h' with
    | exactly count' =>
      obtain ⟨_, same⟩ := count.unique count' (stops_comma _) (stops_brace _)
      cases same
    | atLeast count' =>
      obtain ⟨rfl, same⟩ := count.unique count' (stops_comma _) (stops_comma _)
      cases same
      exact ⟨rfl, rfl⟩
    | between count' more _ =>
      obtain ⟨_, same⟩ := count.unique count' (stops_comma _) (stops_comma _)
      cases same
      exact more.not_brace.elim
  | between count more _ =>
    cases h' with
    | exactly count' =>
      obtain ⟨_, same⟩ := count.unique count' (stops_comma _) (stops_brace _)
      cases same
    | atLeast count' =>
      obtain ⟨_, same⟩ := count.unique count' (stops_comma _) (stops_comma _)
      cases same
      exact more.not_brace.elim
    | between count' more' _ =>
      obtain ⟨rfl, same⟩ := count.unique count' (stops_comma _) (stops_comma _)
      cases same
      obtain ⟨rfl, same⟩ := more.unique more' (stops_brace _) (stops_brace _)
      cases same
      exact ⟨rfl, rfl⟩

theorem Items.unique {gs after after' : List Glyph} {items items' : List (Char × Char)}
    (h : Items gs items after) (h' : Items gs items' after') : items = items' ∧ after = after' := by
  induction h generalizing items' with
  | close =>
    cases h' with
    | close => exact ⟨rfl, rfl⟩
    | single | range => contradiction
  | single _ value last _ ih =>
    cases h' with
    | close => contradiction
    | single _ value' _ rest =>
      obtain ⟨rfl, rfl⟩ := ih rest
      rw [value, Option.some.injEq] at value'
      rw [value']
      exact ⟨rfl, rfl⟩
    | range _ _ more => exact absurd (last _ _ rfl) more
  | range _ value more value' _ _ ih =>
    cases h' with
    | close => contradiction
    | single _ _ last => exact absurd (last _ _ rfl) more
    | range _ low _ high _ rest =>
      obtain ⟨rfl, rfl⟩ := ih rest
      rw [value, Option.some.injEq] at low
      rw [value', Option.some.injEq] at high
      rw [low, high]
      exact ⟨rfl, rfl⟩

theorem Class.unique {gs after after' : List Glyph} {fits fits' : Char → Bool}
    (h : Class gs fits after) (h' : Class gs fits' after') : fits = fits' ∧ after = after' := by
  cases h with
  | union plain items _ covers =>
    cases h' with
    | union _ items' _ covers' =>
      obtain ⟨rfl, rfl⟩ := items.unique items'
      exact ⟨funext fun c => Bool.eq_iff_iff.2 ((covers c).trans (covers' c).symm), rfl⟩
    | complement => exact absurd rfl plain
  | complement items _ covers _ =>
    cases h' with
    | union plain => exact absurd rfl plain
    | complement items' _ covers' _ =>
      obtain ⟨rfl, rfl⟩ := items.unique items'
      exact ⟨funext fun c => Bool.eq_iff_iff.2 ((covers c).trans (covers' c).symm), rfl⟩

/-- Where a header ends depends neither on the names nor on whether groups capture. -/
theorem Header.alike {captures captures' : Bool} {d d' e e' : Declared} {gs after after' : List Glyph}
    {tag tag' : Option TagId} (h : Header captures d gs tag d' after)
    (h' : Header captures' e gs tag' e' after') :
    after = after' ∧ (captures = captures' → d = e → tag = tag' ∧ d' = e') := by
  have not_colon : ∀ gs name after, ¬ Name (.plain ':' :: gs) name after := by
    rintro gs name after ⟨_, _, _, _, same⟩
    cases (List.cons.inj same).1
  cases h with
  | unnamed plain declared =>
    cases h' with
    | unnamed _ declared' =>
      refine ⟨rfl, ?_⟩
      rintro rfl rfl
      rwa [declared, Option.some.injEq, Prod.mk.injEq] at declared'
    | bare | named => exact absurd rfl plain
  | bare =>
    cases h' with
    | unnamed plain => exact absurd rfl plain
    | bare => exact ⟨rfl, fun _ same => ⟨rfl, same⟩⟩
    | named name => exact absurd name (not_colon _ _ _)
  | named name declared =>
    cases h' with
    | unnamed plain => exact absurd rfl plain
    | bare => exact absurd name (not_colon _ _ _)
    | named name' declared' =>
      obtain ⟨rfl, rfl⟩ := name.unique name'
      refine ⟨rfl, ?_⟩
      rintro rfl rfl
      rwa [declared, Option.some.injEq, Prod.mk.injEq] at declared'

def Ends : Kind → List Glyph → Prop
  | .item, _ => True
  | .sequence, gs => gs = [] ∨ gs.head? = some (.plain ')') ∨ gs.head? = some (.plain '|')
  | .alternatives, gs => gs = [] ∨ gs.head? = some (.plain ')')

theorem Ends.sequence {gs : List Glyph} (h : Ends .alternatives gs) : Ends .sequence gs :=
  h.imp_right .inl

def Begins : Glyph → Prop
  | .plain c => c ≠ ')' ∧ c ≠ '|' ∧ c ≠ '*' ∧ c ≠ '+' ∧ c ≠ '{'
  | .escape .. | .dangling => True

theorem begins_of_literal? {g : Glyph} {c : Char} (h : g.literal? = some c) : Begins g := by
  cases g with
  | plain c =>
    refine ⟨?_, ?_, ?_, ?_, ?_⟩ <;> (rintro rfl; simp [Glyph.literal?, operators] at h)
  | escape | dangling => trivial

theorem Spells.begins {captures : Bool} {d d' : Declared} {gs after : List Glyph} {t : Tree}
    (h : Spells captures .item d gs t d' after) : ∃ g rest, gs = g :: rest ∧ Begins g := by
  cases h with
  | literal stands => exact ⟨_, _, rfl, begins_of_literal? stands⟩
  | backref => exact ⟨_, _, rfl, trivial⟩
  | any | charClass | group => exact ⟨_, _, rfl, by simp [Begins]⟩

theorem Spells.not_ends {captures : Bool} {d d' : Declared} {gs after : List Glyph} {t : Tree}
    (h : Spells captures .item d gs t d' after) : ¬ Ends .sequence gs := by
  obtain ⟨g, rest, rfl, begins⟩ := h.begins
  rintro (empty | paren | bar)
  · cases empty
  · cases paren
    exact begins.1 rfl
  · cases bar
    exact begins.2.1 rfl

theorem Quantifier.not_sequence {captures : Bool} {d d' : Declared} {gs after after' : List Glyph}
    {b : Bounds} {t : Tree} (h : Quantifier gs b after)
    (sequence : Spells captures .sequence d gs t d' after') : ¬ Ends .sequence after' := by
  have apart : ¬ Ends .sequence gs ∧ ∀ g rest, gs = g :: rest → ¬ Begins g := by
    cases h <;> refine ⟨by simp [Ends], ?_⟩ <;> rintro g rest ⟨⟩ <;> simp [Begins]
  cases sequence with
  | done => exact apart.1
  | once first _ | repeated first _ _ =>
    obtain ⟨g, rest, same, begins⟩ := first.begins
    exact absurd begins (apart.2 g rest same)

/-- The glyphs alone tell where a part ends and what its tree is but for the tags. These depend on the
groups declared before as well, and on nothing else. -/
theorem Spells.alike {captures captures' : Bool} {kind : Kind} {d d' e e' : Declared}
    {gs after after' : List Glyph} {t t' : Tree} (h : Spells captures kind d gs t d' after)
    (h' : Spells captures' kind e gs t' e' after') (ends : Ends kind after) (ends' : Ends kind after') :
    after = after' ∧ t.untagged = t'.untagged ∧
      (captures = captures' → d = e → t = t' ∧ d' = e') := by
  induction h generalizing t' e e' after' with
  | literal stands =>
    cases h' with
    | literal stands' =>
      rw [stands, Option.some.injEq] at stands'
      rw [stands']
      exact ⟨rfl, rfl, fun _ same => ⟨rfl, same⟩⟩
    | any | charClass | group | backref => simp [Glyph.literal?, operators] at stands
  | any =>
    cases h' with
    | literal stands => simp [Glyph.literal?, operators] at stands
    | any => exact ⟨rfl, rfl, fun _ same => ⟨rfl, same⟩⟩
  | charClass items =>
    cases h' with
    | literal stands => simp [Glyph.literal?, operators] at stands
    | charClass items' =>
      obtain ⟨rfl, rfl⟩ := items.unique items'
      exact ⟨rfl, rfl, fun _ same => ⟨rfl, same⟩⟩
  | backref name found _ =>
    cases h' with
    | literal stands => simp [Glyph.literal?] at stands
    | backref name' found' _ =>
      obtain ⟨rfl, rfl⟩ := name.unique name'
      refine ⟨rfl, rfl, ?_⟩
      rintro rfl rfl
      rw [found, Option.some.injEq] at found'
      rw [found']
      exact ⟨rfl, rfl⟩
  | group header _ ih =>
    cases h' with
    | literal stands => simp [Glyph.literal?, operators] at stands
    | group header' inner =>
      obtain ⟨rfl, declares⟩ := header.alike header'
      obtain ⟨same, bodies, inside⟩ := ih inner (.inr rfl) (.inr rfl)
      refine ⟨(List.cons.inj same).2, congrArg (Tree.group none) bodies, fun modes before => ?_⟩
      obtain ⟨rfl, opened⟩ := declares modes before
      obtain ⟨rfl, rfl⟩ := inside modes opened
      exact ⟨rfl, rfl⟩
  | done =>
    -- Where one reading ends the other cannot go on, since nothing begins there.
    cases h' with
    | done => exact ⟨rfl, rfl, fun _ same => ⟨rfl, same⟩⟩
    | once first _ | repeated first _ _ => exact absurd ends first.not_ends
  | once first rest ihf ihr =>
    cases h' with
    | done => exact absurd ends' first.not_ends
    | once first' rest' =>
      obtain ⟨rfl, firsts, one⟩ := ihf first' trivial trivial
      obtain ⟨rfl, rests, other⟩ := ihr rest' ends ends'
      refine ⟨rfl, by simp only [Tree.untagged, firsts, rests], fun modes before => ?_⟩
      obtain ⟨rfl, between⟩ := one modes before
      obtain ⟨rfl, rfl⟩ := other modes between
      exact ⟨rfl, rfl⟩
    | repeated first' quantifier _ =>
      obtain ⟨rfl, _⟩ := ihf first' trivial trivial
      exact absurd ends (quantifier.not_sequence rest)
  | repeated first quantifier rest ihf ihr =>
    cases h' with
    | done => exact absurd ends' first.not_ends
    | once first' rest' =>
      obtain ⟨rfl, _⟩ := ihf first' trivial trivial
      exact absurd ends' (quantifier.not_sequence rest')
    | repeated first' quantifier' rest' =>
      obtain ⟨rfl, firsts, one⟩ := ihf first' trivial trivial
      obtain ⟨rfl, rfl⟩ := quantifier.unique quantifier'
      obtain ⟨rfl, rests, other⟩ := ihr rest' ends ends'
      refine ⟨rfl, by simp only [Tree.untagged, firsts, rests], fun modes before => ?_⟩
      obtain ⟨rfl, between⟩ := one modes before
      obtain ⟨rfl, rfl⟩ := other modes between
      exact ⟨rfl, rfl⟩
  | only sequence ih =>
    cases h' with
    | only sequence' => exact ih sequence' ends.sequence ends'.sequence
    | either sequence' _ =>
      obtain ⟨rfl, _⟩ := ih sequence' ends.sequence (.inr (.inr rfl))
      exact absurd ends (by simp [Ends])
  | either sequence rest ihs ihr =>
    cases h' with
    | only sequence' =>
      obtain ⟨rfl, _⟩ := ihs sequence' (.inr (.inr rfl)) ends'.sequence
      exact absurd ends' (by simp [Ends])
    | either sequence' rest' =>
      obtain ⟨same, firsts, one⟩ := ihs sequence' (.inr (.inr rfl)) (.inr (.inr rfl))
      cases same
      obtain ⟨rfl, rests, other⟩ := ihr rest' ends ends'
      refine ⟨rfl, by simp only [Tree.untagged, firsts, rests], fun modes before => ?_⟩
      obtain ⟨rfl, between⟩ := one modes before
      obtain ⟨rfl, rfl⟩ := other modes between
      exact ⟨rfl, rfl⟩

theorem Spells.unique {captures : Bool} {kind : Kind} {d d' d'' : Declared}
    {gs after after' : List Glyph} {t t' : Tree} (h : Spells captures kind d gs t d' after)
    (h' : Spells captures kind d gs t' d'' after') (ends : Ends kind after) (ends' : Ends kind after') :
    t = t' ∧ d' = d'' ∧ after = after' := by
  obtain ⟨rfl, _, same⟩ := h.alike h' ends ends'
  obtain ⟨rfl, rfl⟩ := same rfl rfl
  exact ⟨rfl, rfl, rfl⟩

end Grammar

theorem Denotes.unique {options : Options} {pattern : String} {t t' : Tree}
    {names names' : GroupNames} (h : Denotes options pattern t names)
    (h' : Denotes options pattern t' names') : t = t' ∧ names = names' := by
  obtain ⟨gs, unnamed, lexed, spells⟩ := h
  obtain ⟨gs', unnamed', lexed', spells'⟩ := h'
  obtain rfl := lexed.unique lexed'
  obtain ⟨rfl, same, _⟩ := spells.unique spells' (.inl rfl) (.inl rfl)
  cases same
  exact ⟨rfl, rfl⟩

end PatternGraph
