import PatternGraph.Proofs.Pattern.Uniqueness

/-!
Patterns inside larger ones. More text after a pattern changes neither how it is cut into glyphs nor how
these are derived.
-/
namespace PatternGraph
open Symbol

/-- Nothing that could come next would be part of the glyph. -/
def Glyph.Complete (g : Glyph) : Prop := g ≠ .dangling ∧ g ≠ .escape 'x' none

namespace Glyph

theorem complete_plain (c : Char) : (plain c).Complete := ⟨by simp, by simp⟩

theorem complete_of_value? {g : Glyph} {c : Char} (value : g.value? = some c) : g.Complete := by
  constructor <;> rintro rfl <;> cases value

theorem complete_of_literal? {g : Glyph} {c : Char} (stands : g.literal? = some c) : g.Complete := by
  constructor <;> rintro rfl <;> cases stands

end Glyph

theorem Lexed.append {cs cs' : List Char} {gs gs' : List Glyph} (h : Lexed cs gs)
    (complete : ∀ g ∈ gs, g.Complete) (h' : Lexed cs' gs') : Lexed (cs ++ cs') (gs ++ gs') := by
  induction h with
  | done => exact h'
  | plain plain _ ih => exact .plain plain (ih (List.forall_mem_cons.1 complete).2)
  | escape ordinary _ ih => exact .escape ordinary (ih (List.forall_mem_cons.1 complete).2)
  | codePoint digits _ ih => exact .codePoint digits (ih (List.forall_mem_cons.1 complete).2)
  | noCodePoint => exact absurd rfl (List.forall_mem_cons.1 complete).1.2
  | dangling => exact absurd rfl (List.forall_mem_cons.1 complete).1.1

theorem Lexed.plains {cs cs' : List Char} {gs : List Glyph} (plain : '\\' ∉ cs) (h : Lexed cs' gs) :
    Lexed (cs ++ cs') (cs.map .plain ++ gs) := by
  induction cs with
  | nil => exact h
  | cons c cs ih =>
    rw [List.mem_cons, not_or] at plain
    exact .plain (Ne.symm plain.1) (ih plain.2)

namespace Grammar

def Completes (gs after : List Glyph) : Prop :=
  ∃ front, gs = front ++ after ∧ ∀ g ∈ front, g.Complete

namespace Completes
variable {gs gs' after : List Glyph}

theorem refl (gs : List Glyph) : Completes gs gs := ⟨[], rfl, by simp⟩

theorem trans (first : Completes gs gs') (second : Completes gs' after) : Completes gs after := by
  obtain ⟨front, rfl, complete⟩ := first
  obtain ⟨front', rfl, complete'⟩ := second
  refine ⟨front ++ front', (List.append_assoc ..).symm, fun g mem => ?_⟩
  exact (List.mem_append.1 mem).elim (complete g) (complete' g)

theorem cons {g : Glyph} (complete : g.Complete) (rest : Completes gs after) :
    Completes (g :: gs) after := by
  obtain ⟨front, rfl, completes⟩ := rest
  exact ⟨g :: front, rfl, List.forall_mem_cons.2 ⟨complete, completes⟩⟩

theorem plain (c : Char) (rest : Completes gs after) : Completes (.plain c :: gs) after :=
  rest.cons (Glyph.complete_plain c)

theorem plains (cs : List Char) (gs : List Glyph) : Completes (cs.map .plain ++ gs) gs := by
  induction cs with
  | nil => exact refl gs
  | cons c cs ih => exact ih.plain c

theorem ne_nil {g : Glyph} (h : Completes gs (g :: after)) : gs ≠ [] := by
  obtain ⟨front, rfl, _⟩ := h
  simp

end Completes

section Parts
variable {gs after : List Glyph}

theorem Name.completes {name : String} (h : Name gs name after) : Completes gs after := by
  obtain ⟨cs, _, _, _, rfl⟩ := h
  exact .plain '<' ((Completes.plains cs _).trans (.plain '>' (.refl after)))

theorem Name.append {name : String} (h : Name gs name after) (tail : List Glyph) :
    Name (gs ++ tail) name (after ++ tail) := by
  obtain ⟨cs, some, all, rfl, rfl⟩ := h
  exact ⟨cs, some, all, rfl, by simp⟩

theorem Count.completes {n : Nat} (h : Count gs n after) : Completes gs after := by
  obtain ⟨digits, _, _, rfl, _, _⟩ := h
  exact .plains digits after

theorem Count.append {n : Nat} (h : Count gs n after) (tail : List Glyph) :
    Count (gs ++ tail) n (after ++ tail) := by
  obtain ⟨digits, some, all, rfl, value, small⟩ := h
  exact ⟨digits, some, all, List.append_assoc .., value, small⟩

theorem Quantifier.completes {b : Bounds} (h : Quantifier gs b after) : Completes gs after := by
  cases h with
  | star => exact .plain '*' (.refl after)
  | plus => exact .plain '+' (.refl after)
  | exactly count => exact .plain '{' (count.completes.trans (.plain '}' (.refl after)))
  | atLeast count =>
    exact .plain '{' (count.completes.trans (.plain ',' (.plain '}' (.refl after))))
  | between count count' _ =>
    exact .plain '{' (count.completes.trans
      (.plain ',' (count'.completes.trans (.plain '}' (.refl after)))))

theorem Quantifier.append {b : Bounds} (h : Quantifier gs b after) (tail : List Glyph) :
    Quantifier (gs ++ tail) b (after ++ tail) := by
  cases h with
  | star => exact .star
  | plus => exact .plus
  | exactly count => exact .exactly (count.append tail)
  | atLeast count => exact .atLeast (count.append tail)
  | between count count' ordered => exact .between (count.append tail) (count'.append tail) ordered

theorem Items.completes {items : List (Char × Char)} (h : Items gs items after) :
    Completes gs after := by
  induction h with
  | close => exact .plain ']' (.refl _)
  | single _ value _ _ ih => exact ih.cons (Glyph.complete_of_value? value)
  | range _ low _ high _ _ ih =>
    exact ((ih.cons (Glyph.complete_of_value? high)).plain '-').cons (Glyph.complete_of_value? low)

theorem Items.ne_nil {items : List (Char × Char)} (h : Items gs items after) : gs ≠ [] := by
  cases h <;> simp

theorem Items.append {items : List (Char × Char)} (h : Items gs items after) (tail : List Glyph) :
    Items (gs ++ tail) items (after ++ tail) := by
  induction h with
  | close => exact .close
  | range other low other' high ordered _ ih => exact .range other low other' high ordered ih
  | single other value last items ih =>
    refine .single other value (fun h rest same => ?_) ih
    -- What decides about a range is no further away than the bracket that ends the class.
    cases items with
    | close => cases same
    | single _ _ _ items' =>
      obtain ⟨h', rest', rfl⟩ := List.exists_cons_of_ne_nil items'.ne_nil
      obtain ⟨rfl, rfl, _⟩ : _ ∧ _ ∧ _ := by simpa using same
      exact last _ _ rfl
    | range =>
      obtain ⟨rfl, rfl, _⟩ : _ ∧ _ ∧ _ := by simpa using same
      exact last _ _ rfl

theorem Class.completes {fits : Char → Bool} (h : Class gs fits after) : Completes gs after := by
  cases h with
  | union _ items => exact items.completes
  | complement items => exact items.completes.plain '^'

theorem head?_append_of_ne_nil {g : Glyph} (filled : gs ≠ []) (tail : List Glyph)
    (other : gs.head? ≠ some g) : (gs ++ tail).head? ≠ some g := by
  obtain ⟨h, rest, rfl⟩ := List.exists_cons_of_ne_nil filled
  exact other

theorem Class.append {fits : Char → Bool} (h : Class gs fits after) (tail : List Glyph) :
    Class (gs ++ tail) fits (after ++ tail) := by
  cases h with
  | union other items some covers =>
    exact .union (head?_append_of_ne_nil items.ne_nil tail other) (items.append tail) some covers
  | complement items some covers fits => exact .complement (items.append tail) some covers fits

variable {captures : Bool} {d d' : Declared} {tag : Option TagId}

theorem Header.completes (h : Header captures d gs tag d' after) : Completes gs after := by
  cases h with
  | unnamed => exact .refl gs
  | bare => exact .plain '?' (.plain ':' (.refl after))
  | named name => exact name.completes.plain '?'

theorem Header.append (h : Header captures d gs tag d' after) (filled : after ≠ [])
    (tail : List Glyph) : Header captures d (gs ++ tail) tag d' (after ++ tail) := by
  cases h with
  | unnamed other declared => exact .unnamed (head?_append_of_ne_nil filled tail other) declared
  | bare => exact .bare
  | named name declared => exact .named (name.append tail) declared

end Parts

variable {captures : Bool} {kind : Kind} {d d' : Declared} {gs after : List Glyph} {t : Tree}

theorem Spells.completes (h : Spells captures kind d gs t d' after) : Completes gs after := by
  induction h with
  | literal stands => exact (Completes.refl _).cons (Glyph.complete_of_literal? stands)
  | any => exact .plain '.' (.refl _)
  | charClass items => exact items.completes.plain '['
  | backref name => exact name.completes.cons ⟨by simp, by simp⟩
  | group header _ ih =>
    exact ((header.completes.trans ih).trans (.plain ')' (.refl _))).plain '('
  | done => exact .refl _
  | once _ _ first rest => exact first.trans rest
  | repeated _ quantifier _ first rest => exact (first.trans quantifier.completes).trans rest
  | only _ ih => exact ih
  | either _ _ first rest => exact (first.trans (.plain '|' (.refl _))).trans rest

theorem Spells.append (h : Spells captures kind d gs t d' after) (tail : List Glyph) :
    Spells captures kind d (gs ++ tail) t d' (after ++ tail) := by
  induction h with
  | literal stands => exact .literal stands
  | any => exact .any
  | charClass items => exact .charClass (items.append tail)
  | backref name found closed => exact .backref (name.append tail) found closed
  | group header body ih => exact .group (header.append body.completes.ne_nil tail) ih
  | done => exact .done
  | once _ _ first rest => exact .once first rest
  | repeated _ quantifier _ first rest => exact .repeated first (quantifier.append tail) rest
  | only _ ih => exact .only ih
  | either _ _ first rest => exact .either first rest

end Grammar

end PatternGraph
