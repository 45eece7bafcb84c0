import PatternGraph.Proofs.Pattern.CharClass
import PatternGraph.Proofs.Pattern.Surveying

/-!
What the scan of a pattern finds: each opening paren with its partner, or else the first character that
is stray, or the last paren that stays open. The scan goes over symbols, which may be several characters
each, and leaps over classes.
-/
namespace PatternGraph
open Symbol

variable {text : List Char} {n : Nat} {opened : List Nat} {p : Pairing}

section Cutting
variable {c : Char} {rest : List Char}

theorem front_of_drop (front : text.drop n = c :: rest) :
    text[n]? = some c ∧ text.drop (n + 1) = rest ∧ n < text.length := by
  have here : text[n]? = some c := by rw [← List.head?_drop, front, List.head?_cons]
  refine ⟨here, ?_, (List.getElem?_eq_some_iff.1 here).1⟩
  rw [← List.drop_drop, front, List.drop_one, List.tail_cons]

theorem read_plain (plain : c ≠ '\\') (offset : Nat) (rest : List Char) :
    Symbol.read 0 offset (c :: rest) = ⟨offset, .plain c⟩ :: Symbol.read 0 (offset + 1) rest :=
  if_neg plain

theorem neutral_escapeAt (offset : Nat) (rest : List Char) :
    Symbol.Neutral ⟨offset, (escapeAt rest).1⟩ := by
  have escaped (c : Char) : (escapeAt rest).1 ≠ .plain c := by
    have := Pairing.not_isPlain_escapeAt offset rest c
    rwa [isPlain_iff] at this
  exact ⟨escaped '(', escaped ')', escaped '['⟩

theorem isQuantifier_iff {s : Symbol} :
    s.isQuantifier = true ↔ ∃ c ∈ ['*', '+', '{'], s.glyph = .plain c := by
  constructor
  · intro quantifier
    unfold isQuantifier at quantifier
    split at quantifier
    · exact ⟨'*', by decide, ‹_›⟩
    · exact ⟨'+', by decide, ‹_›⟩
    · exact ⟨'{', by decide, ‹_›⟩
    · cases quantifier
  · rintro ⟨c, mem, plain⟩
    simp only [List.mem_cons, List.not_mem_nil, or_false] at mem
    rcases mem with rfl | rfl | rfl <;> simp [isQuantifier, plain]

/-- The character in front decides whether a quantifier follows, however it is cut into symbols. -/
theorem quantifierFollows_read (text : List Char) (n : Nat) :
    quantifierFollows (Symbol.read 0 n (text.drop n)) = true ↔ QuantifierAt text n := by
  rw [QuantifierAt, ← List.head?_drop]
  cases text.drop n with
  | nil => simp [Symbol.read, quantifierFollows]
  | cons c rest =>
    by_cases escape : c = '\\'
    · subst escape
      have other (c : Char) := Pairing.not_isPlain_escapeAt n rest c
      simp only [isPlain_iff] at other
      rw [read_escape, quantifierFollows, isQuantifier_iff]
      simp [other]
    · rw [read_plain escape, quantifierFollows, isQuantifier_iff]
      simp only [Glyph.plain.injEq, List.head?_cons, Option.some.injEq]

namespace Pairing

theorem scan_hexDigit {k : Nat} (digit : hexDigit? c = some k) (p : Pairing) (opened : List Nat)
    (offset : Nat) (rest : List Char) :
    scan p opened (Symbol.read 0 offset (c :: rest)) =
      scan p opened (Symbol.read 0 (offset + 1) rest) := by
  have other (d : Char) (none : hexDigit? d = none) : c ≠ d := by
    rintro rfl
    rw [digit] at none
    cases none
  rw [read_plain (other _ rfl)]
  exact scan_neutral (neutral_of_plain rfl ⟨other _ rfl, other _ rfl, other _ rfl⟩)

/-- The digits of a code point are passed over one by one as well as together with their escape. -/
theorem scan_escape (p : Pairing) (opened : List Nat) (offset : Nat) (c : Char) (rest : List Char) :
    scan p opened (Symbol.read 0 offset ('\\' :: c :: rest)) =
      scan p opened (Symbol.read 0 (offset + 2) rest) := by
  rw [read_escape, scan_neutral (neutral_escapeAt offset (c :: rest)), read_skip]
  rcases length_escapeAt c rest with single | ⟨a, b, d, e, more, rfl, digits, whole⟩
  · rw [single]
    rfl
  · simp only [List.forall_mem_cons] at digits
    obtain ⟨⟨_, first⟩, ⟨_, second⟩, ⟨_, third⟩, ⟨_, fourth⟩, _⟩ := digits
    rw [whole, scan_hexDigit first, scan_hexDigit second, scan_hexDigit third, scan_hexDigit fourth]
    rfl

theorem scan_charClass_open {s : Symbol} {symbols : List Symbol} (bracket : s.glyph = .plain '[')
    (none : classEnd? symbols = none) :
    scan p opened (s :: symbols) = .error (.here .unmatchedBracket s.offset) := by
  rw [scan.eq_def]
  simp only [bracket]
  split
  · rfl
  · rename_i found
    rw [none] at found
    cases found

end Pairing

end Cutting

section Classes

/-- From inside a class, the search for its bracket goes over its contents and finds the first bracket
there. -/
theorem contents_of_bracketFrom? {back : List Char} (inner : settingAt text n = .inClass)
    (front : text.drop n = back) :
    match Pairing.bracketFrom? n back with
    | some (close, rest) => n ≤ close ∧ text[close]? = some ']' ∧ settingAt text close = .inClass ∧
        text.drop (close + 1) = rest ∧ ∀ k, n ≤ k → k ≤ close → (settingAt text k).isWithin = true
    | none => ∀ k, n ≤ k → ¬ (text[k]? = some ']' ∧ settingAt text k = .inClass) := by
  fun_induction Pairing.bracketFrom? n back with
  | case1 n =>
    intro k le bracket
    have := List.drop_eq_nil_iff.1 front
    have := (List.getElem?_eq_some_iff.1 bracket.1).1
    omega
  | case2 n d rest ih =>
    obtain ⟨here, front, _⟩ := front_of_drop front
    obtain ⟨next, front, _⟩ := front_of_drop front
    have escaped : settingAt text (n + 1) = .escapedInClass := by
      rw [settingAt_succ here, inner]
      rfl
    have inner' : settingAt text (n + 2) = .inClass := by
      rw [settingAt_succ next, escaped]
      rfl
    have later := ih inner' front
    have cases_of_le {k : Nat} (above : n ≤ k) : k = n ∨ k = n + 1 ∨ n + 2 ≤ k := by omega
    split at later
    · obtain ⟨le, bracket, setting, after, within⟩ := later
      refine ⟨by omega, bracket, setting, after, fun k above upTo => ?_⟩
      rcases cases_of_le above with rfl | rfl | above
      · rw [inner]
        rfl
      · rw [escaped]
        rfl
      · exact within k above upTo
    · rintro k above ⟨bracket, setting⟩
      rcases cases_of_le above with rfl | rfl | above
      · rw [here] at bracket
        cases bracket
      · rw [escaped] at setting
        cases setting
      · exact later k above ⟨bracket, setting⟩
  | case3 n rest other =>
    obtain ⟨here, front, _⟩ := front_of_drop front
    refine ⟨Nat.le_refl n, here, inner, front, fun k above upTo => ?_⟩
    obtain rfl : k = n := by omega
    rw [inner]
    rfl
  | case4 n c rest other bracket ih =>
    obtain ⟨here, next, _⟩ := front_of_drop front
    by_cases dangling : c = '\\'
    · -- A backslash that nothing follows is the end of the text.
      subst dangling
      obtain rfl : rest = [] := by
        cases rest with
        | nil => rfl
        | cons d rest => exact absurd rfl (other d rest rfl)
      rintro k above ⟨found, _⟩
      rcases Nat.lt_or_eq_of_le above with later | rfl
      · have := List.drop_eq_nil_iff.1 next
        have := (List.getElem?_eq_some_iff.1 found).1
        omega
      · rw [here] at found
        cases found
    have inner' : settingAt text (n + 1) = .inClass := by
      rw [settingAt_succ here, inner, Setting.next, if_neg dangling, if_neg bracket]
    have later := ih inner' next
    split at later
    · obtain ⟨le, close, setting, after, within⟩ := later
      refine ⟨Nat.le_of_succ_le le, close, setting, after, fun k above upTo => ?_⟩
      rcases Nat.lt_or_eq_of_le above with above | rfl
      · exact within k above upTo
      · rw [inner]
        rfl
    · rintro k above ⟨found, setting⟩
      rcases Nat.lt_or_eq_of_le above with above | rfl
      · exact later k above ⟨found, setting⟩
      · rw [here, Option.some.injEq] at found
        exact bracket found

end Classes

namespace Surveyed

def Continues (text : List Char) (n : Nat) (x : Except PatternError Pairing) : Prop :=
  ∃ m opened p, n < m ∧ m ≤ text.length ∧ Surveyed text m opened p ∧
    (m < text.length → settingAt text m = .outside) ∧
    x = p.scan opened (Symbol.read 0 m (text.drop m))

theorem continues_escape {rest : List Char} (h : Surveyed text n opened p)
    (front : text.drop n = '\\' :: rest) (setting : settingAt text n = .outside) :
    Continues text n (p.scan opened (Symbol.read 0 n (text.drop n))) := by
  obtain ⟨here, next, inside⟩ := front_of_drop front
  have stands : StandsAt text '\\' n := ⟨here, setting⟩
  have passed : Surveyed text (n + 1) opened p :=
    h.pass (stands.not_of_ne (by decide)) (stands.not_of_ne (by decide)) fun bracket =>
      absurd bracket (stands.not_of_ne (by decide))
  have escaped : settingAt text (n + 1) = .escaped := by
    rw [settingAt_succ here, setting]
    rfl
  rw [front]
  cases rest with
  | nil =>
    refine ⟨n + 1, opened, p, Nat.lt_succ_self n, inside, passed, fun more => ?_, ?_⟩
    · have := List.drop_eq_nil_iff.1 next
      omega
    · rw [read_escape, Pairing.scan_neutral (neutral_escapeAt n []), next]
      rfl
  | cons c rest =>
    obtain ⟨found, after, inside'⟩ := front_of_drop next
    have hidden (d : Char) : ¬ StandsAt text d (n + 1) := by
      rintro ⟨_, setting'⟩
      rw [escaped] at setting'
      cases setting'
    refine ⟨n + 2, opened, p, by omega, inside', ?_, fun _ => ?_, ?_⟩
    · exact passed.pass (hidden '(') (hidden ')') fun bracket => absurd bracket (hidden '[')
    · rw [settingAt_succ found, escaped]
      rfl
    · rw [Pairing.scan_escape, after]

theorem continues_class {rest : List Char} (h : Surveyed text n opened p)
    (front : text.drop n = '[' :: rest) (setting : settingAt text n = .outside) :
    Verdict text (p.scan opened (Symbol.read 0 n (text.drop n))) ∨
      Continues text n (p.scan opened (Symbol.read 0 n (text.drop n))) := by
  obtain ⟨here, next, inside⟩ := front_of_drop front
  have stands : StandsAt text '[' n := ⟨here, setting⟩
  have inner : settingAt text (n + 1) = .inClass := by
    rw [settingAt_succ here, setting]
    rfl
  have contents := contents_of_bracketFrom? inner next
  have ends := Pairing.classEnd?_read (n + 1) rest
  rw [front, read_plain (by decide)]
  split at contents
  · rename_i close after found
    obtain ⟨le, bracket, within, rfl, isWithin⟩ := contents
    rw [found] at ends
    have spans : ClassSpans text n close :=
      ⟨le, stands, bracket, within, fun k after upTo => isWithin k after upTo⟩
    have hidden (c : Char) (k : Nat) (above : n < k) (upTo : k < close + 1) :
        ¬ StandsAt text c k := by
      rintro ⟨_, outside⟩
      have := isWithin k above (Nat.le_of_lt_succ upTo)
      rw [outside] at this
      cases this
    have other {c : Char} (ne : c ≠ '[') (k : Nat) (above : n ≤ k) (upTo : k < close + 1) :
        ¬ StandsAt text c k := by
      rcases Nat.lt_or_eq_of_le above with above | rfl
      · exact hidden c k above upTo
      · exact stands.not_of_ne ne
    refine .inr ⟨close + 1, opened, p, by omega, (List.getElem?_eq_some_iff.1 bracket).1, ?_,
      fun _ => ?_, ?_⟩
    · refine h.skip (by omega) (other (by decide)) (other (by decide)) fun k above upTo bracket => ?_
      rcases Nat.lt_or_eq_of_le above with above | rfl
      · exact absurd bracket (hidden '[' k above upTo)
      · exact ⟨close, spans⟩
    · rw [settingAt_succ bracket, within]
      rfl
    · exact Pairing.scan_charClass rfl ends
  · rename_i missing
    rw [missing] at ends
    rw [Pairing.scan_charClass_open rfl ends]
    refine .inl (h.verdict_stray ⟨stands, fun j spans => ?_⟩)
    exact contents j spans.1 ⟨spans.2.2.1, spans.2.2.2.1⟩

theorem step (h : Surveyed text n opened p) (inside : n < text.length)
    (setting : settingAt text n = .outside) :
    Verdict text (p.scan opened (Symbol.read 0 n (text.drop n))) ∨
      Continues text n (p.scan opened (Symbol.read 0 n (text.drop n))) := by
  have front := List.drop_eq_getElem_cons inside
  generalize text[n] = c at front
  have here := (front_of_drop front).1
  have stands : StandsAt text c n := ⟨here, setting⟩
  by_cases escape : c = '\\'
  · exact .inr (h.continues_escape (escape ▸ front) setting)
  by_cases bracket : c = '['
  · exact h.continues_class (bracket ▸ front) setting
  have plain : settingAt text (n + 1) = .outside := by
    rw [settingAt_succ here, setting, Setting.next, if_neg escape, if_neg bracket]
  have onward {opened : List Nat} {p : Pairing} (h : Surveyed text (n + 1) opened p) :
      Continues text n (p.scan opened (Symbol.read 0 (n + 1) (text.drop (n + 1)))) :=
    ⟨n + 1, opened, p, Nat.lt_succ_self n, inside, h, fun _ => plain, rfl⟩
  rw [front, read_plain escape]
  by_cases opening : c = '('
  · subst opening
    rw [Pairing.scan_open rfl]
    exact .inr (onward (h.opens stands))
  by_cases closing : c = ')'
  · subst closing
    cases opened with
    | nil =>
      rw [Pairing.scan_close_nil rfl]
      exact .inl (h.verdict_stray (h.stray_of_nil stands))
    | cons x outer =>
      rw [Pairing.scan_close rfl]
      exact .inr (onward (h.closes stands rfl (quantifierFollows_read text (n + 1))))
  rw [Pairing.scan_neutral (neutral_of_plain rfl ⟨opening, closing, bracket⟩)]
  exact .inr (onward (h.pass (stands.not_of_ne (Ne.symm opening))
    (stands.not_of_ne (Ne.symm closing)) fun found =>
      absurd found (stands.not_of_ne (Ne.symm bracket))))

theorem verdict (h : Surveyed text n opened p)
    (outside : n < text.length → settingAt text n = .outside) (le : n ≤ text.length) :
    Verdict text (p.scan opened (Symbol.read 0 n (text.drop n))) := by
  induction remaining : text.length - n using Nat.strongRecOn generalizing n opened p with
  | ind m ih =>
    subst remaining
    rcases Nat.lt_or_eq_of_le le with inside | rfl
    · rcases h.step inside (outside inside) with verdict | ⟨m, opened, p, above, le, h, outside, same⟩
      · exact verdict
      · rw [same]
        exact ih (text.length - m) (by omega) h outside le rfl
    · rw [List.drop_length, Symbol.read, Pairing.scan.eq_def]
      cases opened with
      | nil => exact h.verdict_ok
      | cons x outer => exact h.verdict_unclosed

end Surveyed

theorem verdict_ofSymbols (text : List Char) :
    Verdict text (Pairing.ofSymbols text.length (ofText text)) :=
  (surveyed_start text).verdict (fun _ => rfl) (Nat.zero_le _)

/-- The parens of a pattern are paired just if it is well bracketed. Then each opening paren comes with its
partner. Otherwise the error is at the first character that is stray, and where none is, at the last paren
that is never closed. -/
theorem Pairing.ofSymbols_pairs (text : List Char) :
    ((∃ p, ofSymbols text.length (ofText text) = .ok p) ↔ WellBracketed text) ∧
    (∀ p, ofSymbols text.length (ofText text) = .ok p →
      p.pairs.size = text.length ∧
      (∀ i, (∃ pair, p.pairs[i]? = some (some pair)) ↔ StandsAt text '(' i) ∧
      ∀ i pair, p.pairs[i]? = some (some pair) → Partners text i pair.close ∧
        (pair.looped = true ↔ QuantifierAt text (pair.close + 1))) ∧
    ∀ e, ofSymbols text.length (ofText text) = .error e → ∃ cause offset, e = .here cause offset ∧
      ((StrayAt text offset cause ∧ ∀ k < offset, ∀ cause', ¬ StrayAt text k cause') ∨
        (∀ k cause', ¬ StrayAt text k cause') ∧ cause = .unmatchedParen ∧ UnclosedAt text offset ∧
          ∀ k, UnclosedAt text k → k ≤ offset) := by
  have verdict := verdict_ofSymbols text
  cases made : ofSymbols text.length (ofText text) with
  | ok p =>
    rw [made] at verdict
    refine ⟨iff_of_true ⟨p, rfl⟩ verdict.1, ?_, nofun⟩
    rintro _ ⟨⟩
    exact verdict.2
  | error e =>
    rw [made] at verdict
    obtain ⟨unbalanced, offset, place, found⟩ := verdict
    refine ⟨iff_of_false nofun unbalanced, nofun, ?_⟩
    rintro _ ⟨⟩
    refine ⟨e.cause, offset, ?_, found⟩
    rw [PatternError.here, ← place]

/-- Escaped parens and those in classes are passed over, and a plus follows the group. -/
example : (Pairing.ofSymbols 11 (ofText "\\((a[)\\]])+".toList)).toOption.map (·.pairs) =
    some #[none, none, some ⟨9, true⟩, none, none, none, none, none, none, none, none] := by
  decide +kernel

end PatternGraph
