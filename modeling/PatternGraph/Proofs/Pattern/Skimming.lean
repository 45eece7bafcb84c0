import PatternGraph.Pattern.Pairing
import PatternGraph.Pattern.Piece

/-!
The readers of names, counts, classes and runs against the scan that pairs the parens: what a reader
takes, the scan passes over, and what a reader refuses stands in the pattern or is missing at its end.
-/
namespace PatternGraph
open Symbol Pairing

def Symbol.Neutral (s : Symbol) : Prop :=
  s.glyph ≠ .plain '(' ∧ s.glyph ≠ .plain ')' ∧ s.glyph ≠ .plain '['

theorem Symbol.neutral_of_plain {s : Symbol} {c : Char} (plain : s.glyph = .plain c)
    (other : c ≠ '(' ∧ c ≠ ')' ∧ c ≠ '[') : s.Neutral := by
  rw [Neutral, plain]
  simpa using other

theorem Symbol.neutral_of_isPlain {s : Symbol} {c : Char} (plain : s.isPlain c = true)
    (other : c ≠ '(' ∧ c ≠ ')' ∧ c ≠ '[') : s.Neutral := by
  rw [isPlain, decide_eq_true_iff] at plain
  exact neutral_of_plain plain other

namespace Pairing
variable {p : Pairing} {opened outer : List Nat} {s : Symbol} {rest after : List Symbol}

theorem scan_neutral (neutral : s.Neutral) : scan p opened (s :: rest) = scan p opened rest := by
  obtain ⟨opening, closing, bracket⟩ := neutral
  rw [scan.eq_def]
  split
  · contradiction
  · rename_i same
    cases same
    split <;> first | contradiction | rfl

theorem scan_charClass {k : Nat} (bracket : s.glyph = .plain '[')
    (ends : classEnd? rest = some (k, after)) :
    scan p opened (s :: rest) = scan p opened after := by
  rw [scan.eq_def]
  simp only [bracket]
  split
  · rename_i none
    rw [ends] at none
    cases none
  · rename_i found
    rw [ends] at found
    cases found
    rfl

theorem scan_open (paren : s.glyph = .plain '(') :
    scan p opened (s :: rest) = scan p (s.offset :: opened) rest := by
  rw [scan.eq_def]
  simp only [paren]

theorem scan_close {offset : Nat} (paren : s.glyph = .plain ')') :
    scan p (offset :: outer) (s :: rest) =
      scan (p.record offset ⟨s.offset, quantifierFollows rest⟩) outer rest := by
  rw [scan.eq_def]
  simp only [paren]

theorem scan_close_nil (paren : s.glyph = .plain ')') :
    scan p [] (s :: rest) = .error (.here .unmatchedParen s.offset) := by
  rw [scan.eq_def]
  simp only [paren]

theorem suffix_of_classEnd? {symbols : List Symbol} {k : Nat}
    (h : classEnd? symbols = some (k, after)) : after <:+ symbols := by
  induction symbols with
  | nil => cases h
  | cons s rest ih =>
    rw [classEnd?] at h
    split at h
    · cases h
      exact List.suffix_cons ..
    · exact (ih h).trans (List.suffix_cons s rest)

end Pairing

/-- From the one place to the other there are only neutral symbols and whole classes. -/
inductive Skims : List Symbol → List Symbol → Prop
  | refl (symbols : List Symbol) : Skims symbols symbols
  | cons {s : Symbol} {symbols after : List Symbol} : Skims symbols after → s.Neutral →
      Skims (s :: symbols) after
  | charClass {s : Symbol} {k : Nat} {rest inner after : List Symbol} : s.glyph = .plain '[' →
      classEnd? rest = some (k, inner) → Skims inner after → Skims (s :: rest) after

def Located (length : Nat) (symbols : List Symbol) (e : PatternError) : Prop :=
  ∃ k, e.offset = some k ∧ (k = length ∨ ∃ s ∈ symbols, s.offset = k)

def Skimming {A : Type} (length : Nat) (symbols : List Symbol) :
    Except PatternError (A × List Symbol) → Prop
  | .ok (_, after) => Skims symbols after
  | .error e => Located length symbols e

namespace Skims
variable {symbols middle after : List Symbol}

theorem trans (first : Skims symbols middle) (second : Skims middle after) :
    Skims symbols after := by
  induction first with
  | refl => exact second
  | cons _ neutral ih => exact (ih second).cons neutral
  | charClass bracket ends _ ih => exact .charClass bracket ends (ih second)

theorem suffix (skims : Skims symbols after) : after <:+ symbols := by
  induction skims with
  | refl => exact List.suffix_refl _
  | cons _ _ ih => exact ih.trans (List.suffix_cons _ _)
  | charClass _ ends _ ih =>
    exact (ih.trans (suffix_of_classEnd? ends)).trans (List.suffix_cons _ _)

theorem scan (skims : Skims symbols after) (p : Pairing) (opened : List Nat) :
    Pairing.scan p opened symbols = Pairing.scan p opened after := by
  induction skims with
  | refl => rfl
  | cons _ neutral ih => exact (scan_neutral neutral).trans ih
  | charClass bracket ends _ ih => exact (scan_charClass bracket ends).trans ih

end Skims

namespace Located
variable {length : Nat} {symbols after : List Symbol} {e : PatternError}

theorem ending (cause : Cause) : Located length symbols (.here cause length) := ⟨length, rfl, .inl rfl⟩

theorem of_mem {s : Symbol} (mem : s ∈ symbols) (cause : Cause) :
    Located length symbols (.here cause s.offset) := ⟨s.offset, rfl, .inr ⟨s, mem, rfl⟩⟩

theorem head (cause : Cause) (s : Symbol) (rest : List Symbol) :
    Located length (s :: rest) (.here cause s.offset) := of_mem List.mem_cons_self cause

theorem mono (located : Located length after e) (suffix : after <:+ symbols) :
    Located length symbols e := by
  obtain ⟨k, offset, place⟩ := located
  exact ⟨k, offset, place.imp_right fun ⟨s, mem, same⟩ => ⟨s, suffix.mem mem, same⟩⟩

end Located

namespace Skimming
variable {A : Type} {length : Nat} {symbols middle after : List Symbol} {a : A} {e : PatternError}
  {x : Except PatternError (A × List Symbol)}

theorem skims (reads : Skimming length symbols x) (ok : x = .ok (a, after)) :
    Skims symbols after := by
  subst ok
  exact reads

theorem located (reads : Skimming length symbols x) (error : x = .error e) :
    Located length symbols e := by
  subst error
  exact reads

theorem before (second : Skimming length middle x) (first : Skims symbols middle) :
    Skimming length symbols x := by
  cases x with
  | error e => exact Located.mono second first.suffix
  | ok found => exact first.trans second

theorem cons {s : Symbol} (rest : Skimming length symbols x) (neutral : s.Neutral) :
    Skimming length (s :: symbols) x := rest.before ((Skims.refl symbols).cons neutral)

end Skimming

namespace Piece
variable {length : Nat}

theorem neutral_of_digit? {s : Symbol} {d : Nat} (h : digit? s = some d) : s.Neutral := by
  unfold digit? at h
  split at h
  · rename_i c plain
    apply neutral_of_plain plain
    refine ⟨?_, ?_, ?_⟩ <;>
    · rintro rfl
      cases h
  · cases h

theorem neutral_of_nameChar? {s : Symbol} {c : Char} (h : nameChar? s = some c) : s.Neutral := by
  unfold nameChar? at h
  split at h
  · rename_i plain
    split at h
    · rename_i name
      apply neutral_of_plain plain
      have parens : isNameChar '(' = false ∧ isNameChar ')' = false ∧ isNameChar '[' = false := by
        decide +kernel
      refine ⟨?_, ?_, ?_⟩ <;>
      · rintro rfl
        simp [parens] at name
    · cases h
  · cases h

theorem neutral_of_isLiteral {s : Symbol} (h : isLiteral s = true) : s.Neutral := by
  unfold isLiteral at h
  split at h
  · rename_i plain
    apply neutral_of_plain plain
    refine ⟨?_, ?_, ?_⟩ <;>
    · rintro rfl
      cases h
  · rename_i escape
    simp [Neutral, escape]
  · rename_i dangling
    simp [Neutral, dangling]

theorem skims_of_readDigits? {n m : Nat} {symbols after : List Symbol}
    (h : readDigits? n symbols = some (m, after)) : Skims symbols after := by
  induction symbols generalizing n with
  | nil =>
    cases h
    exact .refl _
  | cons s rest ih =>
    rw [readDigits?] at h
    split at h
    · cases h
      exact .refl _
    · rename_i d digit
      split at h
      · exact (ih h).cons (neutral_of_digit? digit)
      · cases h

theorem skimming_readCount (symbols : List Symbol) :
    Skimming length symbols (readCount length symbols) := by
  unfold readCount
  split
  · exact .ending _
  · split
    · exact .head ..
    · rename_i digit
      split
      · exact .head ..
      · rename_i digits
        exact (skims_of_readDigits? digits).cons (neutral_of_digit? digit)

theorem skimming_readBrace (r : Repetition) (symbols : List Symbol) :
    Skimming length symbols (readBrace length r symbols) := by
  unfold readBrace
  split
  · exact .ending _
  · split
    · rename_i brace
      exact (Skims.refl _).cons (neutral_of_isPlain brace (by decide))
    · exact .head ..

theorem offsetOf_located (cause : Cause) (symbols : List Symbol) :
    Located length symbols (.here cause (offsetOf length symbols)) := by
  cases symbols with
  | nil => exact .ending cause
  | cons s rest => exact .head cause s rest

theorem skimming_readUpper (low : UInt32) (symbols : List Symbol) :
    Skimming length symbols (readUpper length low symbols) := by
  unfold readUpper
  split
  · rename_i open_
    exact (skimming_readBrace _ symbols).skims open_
  · split
    · rename_i missing
      exact (skimming_readCount symbols).located missing
    · rename_i count
      split
      · exact offsetOf_located _ symbols
      · exact (skimming_readBrace _ _).before ((skimming_readCount symbols).skims count)

theorem skimming_readBounds (symbols : List Symbol) :
    Skimming length symbols (readBounds length symbols) := by
  unfold readBounds
  split
  · rename_i missing
    exact (skimming_readCount symbols).located missing
  · rename_i count
    have first := (skimming_readCount symbols).skims count
    split
    · exact .ending _
    · split
      · rename_i comma
        exact ((skimming_readUpper _ _).cons (neutral_of_isPlain comma (by decide))).before first
      · exact (skimming_readBrace _ _).before first

theorem skimming_readQuantifier (symbols : List Symbol) :
    Skimming length symbols (readQuantifier length symbols) := by
  unfold readQuantifier
  split
  · exact .ending _
  · split
    · rename_i star
      exact (Skims.refl _).cons (neutral_of_plain star (by decide))
    · rename_i plus
      exact (Skims.refl _).cons (neutral_of_plain plus (by decide))
    · rename_i brace
      exact (skimming_readBounds _).cons (neutral_of_plain brace (by decide))
    · exact .head ..

theorem skimming_readRepetition (symbols : List Symbol) :
    Skimming length symbols (readRepetition length symbols) := by
  unfold readRepetition
  split
  · split
    · rename_i refused
      exact (skimming_readQuantifier symbols).located refused
    · rename_i read
      exact (skimming_readQuantifier symbols).skims read
  · exact Skims.refl _

theorem skims_readNameChars (symbols : List Symbol) : Skims symbols (readNameChars symbols).2 := by
  induction symbols with
  | nil => exact .refl _
  | cons s rest ih =>
    rw [readNameChars]
    split
    · exact .refl _
    · rename_i name
      exact ih.cons (neutral_of_nameChar? name)

theorem skimming_readName (symbols : List Symbol) :
    Skimming length symbols (readName length symbols) := by
  unfold readName
  split
  · exact .ending _
  · rename_i s rest
    have name := skims_readNameChars rest
    split
    · rename_i opening
      have opening := neutral_of_isPlain opening (by decide)
      split
      · exact .head ..
      · rename_i chars
        rw [chars] at name
        split
        · rename_i closing
          have closing := neutral_of_isPlain (Bool.and_eq_true_iff.1 closing).1 (by decide)
          exact (name.trans ((Skims.refl _).cons closing)).cons opening
        · exact (Located.head ..).mono (name.cons opening).suffix
    · exact .head ..

/-- A class ends where the scan finds its bracket. What is refused there stands in the class, or it is
the class itself. -/
def EndsClass {A : Type} (start : Nat) (symbols : List Symbol) :
    Except PatternError (A × List Symbol) → Prop
  | .ok (_, after) => ∃ k, classEnd? symbols = some (k, after)
  | .error e => Located start symbols e

theorem EndsClass.cons {A : Type} {start : Nat} {s : Symbol} {symbols : List Symbol}
    {x : Except PatternError (A × List Symbol)} (rest : EndsClass start symbols x)
    (inner : s.isPlain ']' = false) : EndsClass start (s :: symbols) x := by
  cases x with
  | error e => exact Located.mono rest (List.suffix_cons s symbols)
  | ok found =>
    obtain ⟨k, ends⟩ := rest
    exact ⟨k, by rw [classEnd?, if_neg (by simp [inner]), ends]⟩

theorem isPlain_of_rangeEnd? {symbols : List Symbol} {t : Symbol}
    (h : rangeEnd? symbols = some t) :
    t ∈ symbols ∧ ∀ s ∈ symbols.take 2, s.isPlain ']' = false := by
  unfold rangeEnd? at h
  split at h
  · rename_i dash s rest
    split at h
    · rename_i range
      cases h
      obtain ⟨dash', other⟩ := Bool.and_eq_true_iff.1 range
      have dash' : dash.isPlain ']' = false := by
        rw [Symbol.isPlain, decide_eq_true_iff] at dash'
        simp [Symbol.isPlain, dash']
      simp [dash', Bool.not_eq_true' _ ▸ other]
    · cases h
  · cases h

theorem endsClass_readItems {start skip : Nat} {set : CharSet} {found : Bool}
    {symbols : List Symbol} (skipped : ∀ s ∈ symbols.take skip, s.isPlain ']' = false) :
    EndsClass start symbols (readItems start set found skip symbols) := by
  induction symbols generalizing set found skip with
  | nil => exact Located.ending _
  | cons s rest ih =>
    unfold readItems
    split
    · rename_i k
      rw [List.take_succ_cons, List.forall_mem_cons] at skipped
      exact (ih skipped.2).cons skipped.1
    · split
      · rename_i bracket
        split
        · exact ⟨s.offset, by rw [classEnd?, if_pos bracket]⟩
        · exact Located.ending _
      · rename_i inner
        have inner : s.isPlain ']' = false := Bool.eq_false_iff.2 inner
        split
        · exact Located.head ..
        · split
          · exact (ih (by simp)).cons inner
          · rename_i t range
            obtain ⟨mem, skipped⟩ := isPlain_of_rangeEnd? range
            split
            · exact Located.of_mem (List.mem_cons_of_mem s mem) _
            · split
              · exact (ih skipped).cons inner
              · exact Located.head ..

theorem endsClass_readClass (start : Nat) (symbols : List Symbol) :
    EndsClass start symbols (readClass start symbols) := by
  unfold readClass
  split
  · exact endsClass_readItems (by simp)
  · rename_i s rest
    split
    · rename_i caret
      have inner : s.isPlain ']' = false := by
        rw [Symbol.isPlain, decide_eq_true_iff] at caret
        rw [Symbol.isPlain, caret]
        rfl
      exact (endsClass_readItems (by simp)).cons inner
    · exact endsClass_readItems (by simp)

theorem skimming_readClass {s : Symbol} (bracket : s.glyph = .plain '[') (rest : List Symbol) :
    Skimming length (s :: rest) (readClass s.offset rest) := by
  have ends := endsClass_readClass s.offset rest
  cases read : readClass s.offset rest with
  | error e =>
    rw [read] at ends
    obtain ⟨k, offset, rfl | ⟨t, mem, same⟩⟩ := ends
    · exact ⟨_, offset, .inr ⟨s, List.mem_cons_self, rfl⟩⟩
    · exact ⟨k, offset, .inr ⟨t, List.mem_cons_of_mem s mem, same⟩⟩
  | ok found =>
    rw [read] at ends
    obtain ⟨k, ends⟩ := ends
    exact .charClass bracket ends (.refl _)

theorem skimming_readRun (first : Bool) (symbols : List Symbol) :
    Skimming length symbols (readRun first symbols) := by
  induction symbols generalizing first with
  | nil => exact Skims.refl _
  | cons s rest ih =>
    rw [readRun]
    split
    · rename_i literal
      have neutral := neutral_of_isLiteral literal
      split
      · exact .head ..
      · split
        · split
          · exact (Skims.refl rest).cons neutral
          · exact Skims.refl _
        · split
          · rename_i refused
            exact ((ih false).located refused).mono (List.suffix_cons s rest)
          · rename_i later
            exact ((ih false).skims later).cons neutral
    · exact Skims.refl _

theorem readRun_ne_nil {s : Symbol} {rest after : List Symbol} (literal : isLiteral s = true) :
    readRun true (s :: rest) ≠ .ok ([], after) := by
  rw [readRun, if_pos literal]
  split
  · simp
  · split
    · simp
    · split <;> simp

end Piece

end PatternGraph
