import PatternGraph.Proofs.Pattern.Balance

/-!
Reading a pattern whose groups capture, and reading it when they do not. The two go on side by side and
yield the same pieces up to tags, until the first comes to a name that is taken. A backreference needs
the names that the second does not keep, so it is left out.
-/
namespace PatternGraph
open Symbol

/-- What comes out first, mapped by `f`, comes out second, unless the first is an error of the kind
that is excused. -/
def Carries {ε A B : Type} (excuse : ε → Prop) (f : A → B) (x : Except ε A) (y : Except ε B) : Prop :=
  y = x.map f ∨ ∃ e, x = .error e ∧ excuse e

namespace Carries
variable {ε ε' A B A' B' : Type} {E : ε → Prop} {E' : ε' → Prop} {f : A → B} {f' : A' → B'}
  {x : Except ε A} {y : Except ε B}

theorem of_eq (same : y = x.map f) : Carries E f x y := .inl same

theorem excused {e : ε} (excuse : E e) : Carries E f (.error e) y := .inr ⟨e, rfl, excuse⟩

theorem bind {k : A → Except ε A'} {l : B → Except ε B'} (first : Carries E f x y)
    (next : ∀ a, x = .ok a → Carries E f' (k a) (l (f a))) : Carries E f' (x >>= k) (y >>= l) := by
  obtain rfl | ⟨e, rfl, excuse⟩ := first
  · cases x with
    | ok a => exact next a rfl
    | error e => exact of_eq rfl
  · exact excused excuse

theorem mapError {c : ε → ε'} (first : Carries E f x y) (weaker : ∀ e, E e → E' (c e)) :
    Carries E' f (x.mapError c) (y.mapError c) := by
  obtain rfl | ⟨e, rfl, excuse⟩ := first
  · cases x <;> exact of_eq rfl
  · exact excused (weaker e excuse)

end Carries

def Piece.untagged : Piece → Piece
  | .openGroup _ looped => .openGroup none looped
  | .atom a repetition => .atom a repetition
  | .closeGroup repetition => .closeGroup repetition
  | .alternative => .alternative

def OpenGroup.untagged (group : OpenGroup) : OpenGroup := { group with tag := none }

def Reading.untagged (r : Reading) : Reading :=
  { r with names := .empty, opened := r.opened.map OpenGroup.untagged }

def Outline.untagged (o : Outline) : Outline :=
  ⟨o.pieces.map Piece.untagged, o.ending.map fun _ => .empty⟩

def Scope.uncaptured (scope : Scope) : Scope :=
  { scope with options := scope.options.withCaptures false }

/-- What can be wrong with a name only where groups capture: it is taken, or there are no more tags. -/
def NameError (count : Nat) (e : PatternError) : Prop :=
  (∃ name offset, e = .here (.duplicateGroup name) offset) ∨ Index.limit ≤ count

def Failure.OfName (count : Nat) : Failure → Prop
  | .refused e => NameError count e
  | .defect _ => False

/-- The symbol begins a backreference where it stands outside classes. -/
def Symbol.isBackref (s : Symbol) : Bool :=
  match s.glyph with
  | .escape 'k' _ => true
  | _ => false

namespace Reading
variable {scope : Scope} {r r' : Reading} {s : Symbol} {rest : List Symbol}

theorem register_uncaptured (scope : Scope) (offset : Nat) (name : String) (r : Reading) :
    Carries (NameError r.names.size) (Prod.map (fun _ => none) untagged)
      (register scope offset name r) (register scope.uncaptured offset name r.untagged) := by
  have accepted : register scope.uncaptured offset name r.untagged = .ok (none, r.untagged) := by
    simp [register, untagged, GroupNames.find?, GroupNames.empty, Scope.uncaptured,
      Options.captures, Options.withCaptures]
  rw [accepted, register]
  split
  · exact .excused (.inl ⟨name, offset, rfl⟩)
  · split
    · split
      · rename_i full
        exact .excused (.inr (limit_le_of_register full))
      · exact .of_eq rfl
    · exact .of_eq rfl

theorem readHeader_uncaptured (scope : Scope) (offset : Nat) (r : Reading) :
    Carries (NameError r.names.size) (Prod.map (fun _ => none) untagged)
      (readHeader scope offset r) (readHeader scope.uncaptured offset r.untagged) := by
  obtain ⟨rest, names, unnamed, opened, quantified⟩ := r
  cases rest with
  | nil => exact register_uncaptured scope offset _ ⟨[], names, unnamed + 1, opened, quantified⟩
  | cons s rest =>
    simp only [readHeader, untagged]
    split
    · cases rest with
      | nil => exact .of_eq rfl
      | cons t after =>
        simp only
        split
        · exact .of_eq rfl
        · split
          · have sameLength : scope.uncaptured.length = scope.length := rfl
            rw [sameLength]
            split
            · exact .of_eq rfl
            · rename_i name after _
              exact register_uncaptured scope offset name ⟨after, names, unnamed, opened, quantified⟩
          · exact .of_eq rfl
    · exact register_uncaptured scope offset _ ⟨s :: rest, names, unnamed + 1, opened, quantified⟩

abbrev Agree (count : Nat) (x y : Except Failure (Piece × Reading)) : Prop :=
  Carries (Failure.OfName count) (Prod.map Piece.untagged untagged) x y

theorem openGroup_uncaptured (scope : Scope) (offset : Nat) (r : Reading) :
    Agree r.names.size (openGroup scope offset r) (openGroup scope.uncaptured offset r.untagged) := by
  have depth : r.untagged.opened.length = r.opened.length := List.length_map _
  have limit : scope.uncaptured.options.nestLimit = scope.options.nestLimit := rfl
  have pairing : scope.uncaptured.pairing = scope.pairing := rfl
  simp only [openGroup, depth, limit, pairing]
  split
  · exact .of_eq rfl
  · split
    · exact .of_eq rfl
    · obtain same | ⟨e, failed, excuse⟩ := readHeader_uncaptured scope offset r
      · rw [same]
        cases readHeader scope offset r <;> exact .of_eq rfl
      · rw [failed]
        exact .excused excuse

theorem closeGroup_uncaptured (scope : Scope) (offset : Nat) (r : Reading) :
    closeGroup scope.uncaptured offset r.untagged =
      (closeGroup scope offset r).map (Prod.map Piece.untagged untagged) := by
  obtain ⟨rest, names, unnamed, opened, quantified⟩ := r
  cases opened with
  | nil => rfl
  | cons group outer =>
    have length : scope.uncaptured.length = scope.length := rfl
    simp only [closeGroup, untagged, List.map_cons, OpenGroup.untagged, length]
    split
    · rfl
    · split
      · split <;> rfl
      · rfl

theorem atomPiece_uncaptured (scope : Scope) (r : Reading) (plain : s.isBackref = false) :
    atomPiece scope.uncaptured s r.untagged =
      (atomPiece scope s r).map (Prod.map Piece.untagged untagged) := by
  have atom : readAtom scope.uncaptured s r.untagged = readAtom scope s r := by
    unfold readAtom
    split
    · rfl
    · rfl
    · rename_i escape
      simp [Symbol.isBackref, escape] at plain
    · rfl
  have length : scope.uncaptured.length = scope.length := rfl
  unfold atomPiece
  rw [atom, length]
  split
  · rfl
  · split <;> rfl

theorem pieceAt_uncaptured (scope : Scope) (r : Reading) (plain : s.isBackref = false) :
    Agree r.names.size (pieceAt scope s r) (pieceAt scope.uncaptured s r.untagged) := by
  unfold pieceAt
  split
  · exact .of_eq rfl
  · split
    · exact openGroup_uncaptured scope s.offset r
    · exact .of_eq (closeGroup_uncaptured scope s.offset r)
    · exact .of_eq rfl
    · exact .of_eq rfl
    · exact .of_eq rfl
    · exact .of_eq (atomPiece_uncaptured scope r plain)

end Reading

namespace Reading
variable {scope : Scope} {r r' last : Reading} {s : Symbol} {rest : List Symbol} {p : Piece}

theorem suffix_of_pieceAt (h : pieceAt scope s r = .ok (p, r')) : r'.rest <:+ s :: r.rest := by
  have tail := List.suffix_cons s r.rest
  obtain ⟨_, opens⟩ | ⟨_, closes⟩ | ⟨_, _, rfl⟩ | atom := pieceAt_cases h
  · exact (skims_of_openGroup opens).suffix.trans tail
  · exact (skims_of_closeGroup closes).suffix.trans tail
  · exact tail
  · exact (skims_of_atomPiece atom).suffix

theorem suffix_of_run {ps : List Piece} (run : Run scope r ps last) : last.rest <:+ r.rest := by
  induction run with
  | stay => exact List.suffix_refl _
  | step front read _ ih =>
    rw [front]
    exact ih.trans (suffix_of_pieceAt read)

theorem backref_of_pieceAt (escape : s.isBackref = true) (h : pieceAt scope s r = .ok (p, r')) :
    ∃ tag repetition, p = .atom (.backref tag) repetition := by
  obtain ⟨v, glyph⟩ : ∃ v, s.glyph = .escape 'k' v := by
    unfold Symbol.isBackref at escape
    split at escape
    · exact ⟨_, ‹_›⟩
    · cases escape
  have atom : pieceAt scope s r = atomPiece scope s r := by
    simp [pieceAt, Symbol.isQuantifier, glyph]
  rw [atom, atomPiece] at h
  split at h
  · cases h
  · rename_i read
    simp only [readAtom, glyph] at read
    split at read
    · cases read
    · rename_i found
      cases read
      obtain ⟨_, tag, rfl, _⟩ := backref_of_readBackref found
      split at h <;> cases h
      exact ⟨tag, _, rfl⟩

end Reading

namespace Outline
variable {scope : Scope} {r r' : Reading} {s : Symbol} {rest : List Symbol} {p : Piece}

theorem ofReading_done (front : r.rest = []) : ofReading scope r = ⟨[], .ok r.names⟩ := by
  rw [ofReading]
  split
  · rfl
  · simp_all

theorem ofReading_error {e : Failure} (front : r.rest = s :: rest)
    (failed : Reading.pieceAt scope s { r with rest := rest } = .error e) :
    ofReading scope r = ⟨[], .error e⟩ := by
  rw [ofReading]
  split
  · simp_all
  · rename_i front'
    obtain ⟨rfl, rfl⟩ := List.cons.inj (front.symm.trans front')
    split <;> simp_all

theorem ofReading_piece (front : r.rest = s :: rest)
    (read : Reading.pieceAt scope s { r with rest := rest } = .ok (p, r')) :
    ofReading scope r = ⟨p :: (ofReading scope r').pieces, (ofReading scope r').ending⟩ := by
  rw [ofReading]
  split
  · simp_all
  · rename_i front'
    obtain ⟨rfl, rfl⟩ := List.cons.inj (front.symm.trans front')
    split <;> simp_all

/-- No place to which the reading comes is the beginning of a backreference. -/
def Plain (scope : Scope) (r : Reading) : Prop :=
  ∀ ps last, Reading.Run scope r ps last → ∀ s ∈ last.rest.head?, s.isBackref = false

theorem plain_of_symbols (escapes : ∀ s ∈ r.rest, s.isBackref = false) : Plain scope r := by
  intro ps last run s front
  exact escapes s ((Reading.suffix_of_run run).mem (List.mem_of_mem_head? front))

/-- A reading without mistakes comes to no backreference but those among its pieces. -/
theorem plain_of_pieces {names : GroupNames} (ended : (ofReading scope r).ending = .ok names)
    (bare : ∀ tag repetition, .atom (.backref tag) repetition ∉ (ofReading scope r).pieces) :
    Plain scope r := by
  intro ps last run
  induction run with
  | stay r =>
    intro s head
    obtain ⟨rest, front⟩ := List.head?_eq_some_iff.1 head
    by_contra escape
    rw [Bool.not_eq_false] at escape
    cases read : Reading.pieceAt scope s { r with rest := rest } with
    | error e =>
      rw [ofReading_error front read] at ended
      cases ended
    | ok found =>
      obtain ⟨p, r'⟩ := found
      obtain ⟨tag, repetition, rfl⟩ := Reading.backref_of_pieceAt escape read
      refine bare tag repetition ?_
      rw [ofReading_piece front read]
      exact List.mem_cons_self
  | step front read _ ih =>
    rw [ofReading_piece front read] at ended bare
    exact ih ended fun tag repetition mem => bare tag repetition (List.mem_cons_of_mem _ mem)

theorem ofReading_uncaptured (plain : Plain scope r) :
    ofReading scope.uncaptured r.untagged = (ofReading scope r).untagged ∨
      ∃ last failure, Reading.Run scope r (ofReading scope r).pieces last ∧
        (ofReading scope r).ending = .error failure ∧ failure.OfName last.names.size ∧
        (ofReading scope r).untagged.pieces <+: (ofReading scope.uncaptured r.untagged).pieces := by
  fun_induction ofReading scope r with
  | case1 r front =>
    left
    rw [ofReading_done (r := r.untagged) front]
    rfl
  | case2 r s rest front e failed =>
    have here := plain [] r (.stay r) s (by simp [front])
    obtain same | ⟨e', failed', excuse⟩ :=
      Reading.pieceAt_uncaptured scope { r with rest := rest } here
    · left
      rw [failed] at same
      rw [ofReading_error (r := r.untagged) front same]
      rfl
    · right
      rw [failed] at failed'
      cases failed'
      exact ⟨r, e, .stay r, rfl, excuse, List.nil_prefix⟩
  | case3 r s rest front p r' read _ _ ih =>
    have here := plain [] r (.stay r) s (by simp [front])
    obtain same | ⟨e, failed, _⟩ := Reading.pieceAt_uncaptured scope { r with rest := rest } here
    · rw [read] at same
      rw [ofReading_piece (r := r.untagged) front same]
      obtain same | ⟨last, failure, run, ending, excuse, pieces⟩ :=
        ih fun ps last run => plain (p :: ps) last (.step front read run)
      · left
        rw [same]
        rfl
      · right
        exact ⟨last, failure, .step front read run, ending, excuse,
          List.cons_prefix_cons.2 ⟨rfl, pieces⟩⟩
    · rw [read] at failed
      cases failed

end Outline

theorem Symbol.infix_of_isBackref {skip offset : Nat} {text : List Char} {s : Symbol}
    (mem : s ∈ read skip offset text) (escape : s.isBackref = true) : ['\\', 'k'] <:+: text := by
  induction text generalizing skip offset with
  | nil => cases mem
  | cons c rest ih =>
    unfold read at mem
    split at mem
    · exact List.infix_cons (ih mem)
    · split at mem
      · rename_i backslash
        obtain rfl | mem := List.mem_cons.1 mem
        · cases rest with
          | nil => cases escape
          | cons d rest =>
            have here : d = 'k' := by
              simp only [isBackref, escapeAt] at escape
              split at escape
              · rename_i glyph
                split at glyph
                · split at glyph <;> simp_all
                · simp_all
              · cases escape
            rw [backslash, here]
            exact (List.prefix_append ['\\', 'k'] rest).isInfix
        · exact List.infix_cons (ih mem)
      · obtain rfl | mem := List.mem_cons.1 mem
        · cases escape
        · exact List.infix_cons (ih mem)

theorem Tree.hasBackref_chars (cs : List Char) (t : Tree) :
    (Tree.chars cs t).HasBackref ↔ t.HasBackref := by
  induction cs with
  | nil => rfl
  | cons c cs ih => exact (or_iff_right not_false).trans ih

open Grammar in
theorem bare_of_laid {kind : Kind} {ps : List Piece} {t : Tree} (laid : Laid kind ps t)
    (plain : ¬ t.HasBackref) (tag : TagId) (repetition : Option Repetition) :
    Piece.atom (.backref tag) repetition ∉ ps := by
  induction laid with
  | @atom a t tree | @loop a t _ _ tree _ =>
    intro mem
    obtain ⟨rfl, _⟩ := Piece.atom.inj (List.mem_singleton.1 mem)
    cases tree
    exact plain trivial
  | group _ ih | loopedGroup _ _ ih => simpa using ih plain
  | done => simp
  | item _ _ first second | either _ _ first second =>
    obtain ⟨plain, plain'⟩ := not_or.1 plain
    simpa using ⟨first plain, second plain'⟩
  | literal _ ih =>
    rw [Tree.hasBackref_chars] at plain
    simpa using ih plain
  | only _ ih => exact ih plain

end PatternGraph
