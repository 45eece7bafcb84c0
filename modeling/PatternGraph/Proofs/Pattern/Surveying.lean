import PatternGraph.Proofs.Pattern.Balance
import PatternGraph.Proofs.Pattern.Partners

/-!
What the scan that pairs parens knows of the text it has passed. It keeps the open parens and the pairs
found so far and forgets the text, so how these come from the text is stated beside it; at the end of the
text, or at the first stray character, that is all there is to know.
-/
namespace PatternGraph

variable {text : List Char} {n : Nat} {opened outer : List Nat} {p : Pairing}

/-- What is known when the scan has come to `n`, with the parens that are open there. -/
structure Surveyed (text : List Char) (n : Nat) (opened : List Nat) (p : Pairing) : Prop where
  level : depthAt text n = opened.length
  floor : ∀ k ≤ n, 0 ≤ depthAt text k
  closings : ∀ j < n, StandsAt text ')' j → ∃ i, Partners text i j
  classes : ∀ i < n, StandsAt text '[' i → ∃ j, ClassSpans text i j
  openings : ∀ i < n, StandsAt text '(' i → i ∈ opened ∨ ∃ j < n, Partners text i j
  unclosed : ∀ i ∈ opened, i < n ∧ StandsAt text '(' i ∧
    ∀ k, i < k → k ≤ n → depthAt text i < depthAt text k
  levels : ∀ i outer, i :: outer <:+ opened → depthAt text i = outer.length
  sorted : opened.Pairwise (· > ·)
  size : p.pairs.size = text.length
  pairs : ∀ i pair, p.pairAt? i = some pair ↔ pair.close < n ∧ Partners text i pair.close ∧
    (pair.looped = true ↔ QuantifierAt text (pair.close + 1))

theorem surveyed_start (text : List Char) : Surveyed text 0 [] (.unpaired text.length) where
  level := rfl
  floor k le := by
    obtain rfl : k = 0 := by omega
    exact Int.le_refl 0
  closings _ lt := absurd lt (Nat.not_lt_zero _)
  classes _ lt := absurd lt (Nat.not_lt_zero _)
  openings _ lt := absurd lt (Nat.not_lt_zero _)
  unclosed _ mem := by cases mem
  levels _ _ suffix := by simp at suffix
  sorted := .nil
  size := by simp [Pairing.unpaired]
  pairs i pair := by
    have none : (Pairing.unpaired text.length).pairAt? i = none := by
      simp [Pairing.unpaired, Pairing.pairAt?, Array.getElem?_replicate]
      split <;> rfl
    simp [none]

namespace Surveyed

theorem not_stray {k : Nat} {cause : Cause} (h : Surveyed text n opened p) (lt : k < n) :
    ¬ StrayAt text k cause := by
  intro stray
  cases cause with
  | unmatchedParen =>
    obtain ⟨i, pair⟩ := h.closings k lt stray.1
    exact stray.2 i pair
  | unmatchedBracket =>
    obtain ⟨j, spans⟩ := h.classes k lt stray.1
    exact stray.2 j spans
  | _ => exact stray

theorem mono_floor (h : Surveyed text n opened p) (room : 0 ≤ depthAt text (n + 1)) :
    ∀ k ≤ n + 1, 0 ≤ depthAt text k := by
  intro k le
  rcases Nat.le_or_eq_of_le_succ le with le | rfl
  · exact h.floor k le
  · exact room

theorem still_open (h : Surveyed text n opened p) {i : Nat} (mem : i ∈ opened)
    (deep : depthAt text i < depthAt text (n + 1)) :
    i < n + 1 ∧ StandsAt text '(' i ∧
      ∀ k, i < k → k ≤ n + 1 → depthAt text i < depthAt text k := by
  obtain ⟨before, opening, deeper⟩ := h.unclosed i mem
  refine ⟨Nat.lt_succ_of_lt before, opening, fun k after le => ?_⟩
  rcases Nat.le_or_eq_of_le_succ le with le | rfl
  · exact deeper k after le
  · exact deep

/-- A character that is no paren, and opens no class that is never ended, is passed over. -/
theorem pass (h : Surveyed text n opened p) (opening : ¬ StandsAt text '(' n)
    (closing : ¬ StandsAt text ')' n) (ends : StandsAt text '[' n → ∃ j, ClassSpans text n j) :
    Surveyed text (n + 1) opened p := by
  have same := depthAt_succ opening closing
  refine ⟨same.trans h.level, h.mono_floor (same ▸ h.floor n (Nat.le_refl n)), ?_, ?_, ?_, ?_,
    h.levels, h.sorted, h.size, ?_⟩
  · intro j lt stands
    exact h.closings j (stands.lt_of_lt_succ lt closing) stands
  · intro i lt stands
    rcases Nat.lt_succ_iff_lt_or_eq.1 lt with lt | rfl
    · exact h.classes i lt stands
    · exact ends stands
  · intro i lt stands
    refine (h.openings i (stands.lt_of_lt_succ lt opening) stands).imp_right ?_
    rintro ⟨j, before, pair⟩
    exact ⟨j, Nat.lt_succ_of_lt before, pair⟩
  · intro i mem
    obtain ⟨before, _, deeper⟩ := h.unclosed i mem
    exact h.still_open mem (same ▸ deeper n before (Nat.le_refl n))
  · intro i pair
    rw [h.pairs]
    refine and_congr_left fun ⟨partners, _⟩ => ⟨Nat.lt_succ_of_lt, fun lt => ?_⟩
    exact partners.2.2.1.lt_of_lt_succ lt closing

theorem skip {m : Nat} (h : Surveyed text n opened p) (le : n ≤ m)
    (opening : ∀ k, n ≤ k → k < m → ¬ StandsAt text '(' k)
    (closing : ∀ k, n ≤ k → k < m → ¬ StandsAt text ')' k)
    (ends : ∀ k, n ≤ k → k < m → StandsAt text '[' k → ∃ j, ClassSpans text k j) :
    Surveyed text m opened p := by
  induction le with
  | refl => exact h
  | @step m le ih =>
    have before := ih (fun k above below => opening k above (Nat.lt_succ_of_lt below))
      (fun k above below => closing k above (Nat.lt_succ_of_lt below))
      (fun k above below => ends k above (Nat.lt_succ_of_lt below))
    exact before.pass (opening m le (Nat.lt_succ_self m)) (closing m le (Nat.lt_succ_self m))
      (ends m le (Nat.lt_succ_self m))

theorem opens (h : Surveyed text n opened p) (paren : StandsAt text '(' n) :
    Surveyed text (n + 1) (n :: opened) p := by
  have deeper := paren.depth_opening
  have level := h.level
  refine ⟨?_, h.mono_floor ?_, ?_, ?_, ?_, ?_, ?_, ?_, h.size, ?_⟩
  · rw [deeper, level]
    rfl
  · omega
  · intro j lt stands
    exact h.closings j (stands.lt_of_lt_succ lt (paren.not_of_ne (by decide))) stands
  · intro i lt stands
    exact h.classes i (stands.lt_of_lt_succ lt (paren.not_of_ne (by decide))) stands
  · intro i lt stands
    rcases Nat.lt_succ_iff_lt_or_eq.1 lt with lt | rfl
    · rcases h.openings i lt stands with mem | ⟨j, before, pair⟩
      · exact .inl (List.mem_cons_of_mem n mem)
      · exact .inr ⟨j, Nat.lt_succ_of_lt before, pair⟩
    · exact .inl List.mem_cons_self
  · intro i mem
    rcases List.mem_cons.1 mem with rfl | mem
    · refine ⟨Nat.lt_succ_self i, paren, fun k after le => ?_⟩
      obtain rfl : k = i + 1 := by omega
      omega
    · obtain ⟨before, _, unclosed⟩ := h.unclosed i mem
      have := unclosed n before (Nat.le_refl n)
      exact h.still_open mem (by omega)
  · intro i outer suffix
    rcases List.suffix_cons_iff.1 suffix with same | suffix
    · cases same
      exact level
    · exact h.levels i outer suffix
  · exact .cons (fun i mem => (h.unclosed i mem).1) h.sorted
  · intro i pair
    rw [h.pairs]
    refine and_congr_left fun ⟨partners, _⟩ => ⟨Nat.lt_succ_of_lt, fun lt => ?_⟩
    exact partners.2.2.1.lt_of_lt_succ lt (paren.not_of_ne (by decide))

/-- A closing paren belongs to the innermost one that is open. -/
theorem partners {x : Nat} (h : Surveyed text n (x :: outer) p) (paren : StandsAt text ')' n) :
    Partners text x n := by
  obtain ⟨before, opening, deeper⟩ := h.unclosed x List.mem_cons_self
  have level := h.level
  have inner := h.levels x outer (List.suffix_refl _)
  refine ⟨before, opening, paren, ?_, ?_⟩
  · rw [opening.depth_opening, level, inner]
    rfl
  · intro k after le
    have := deeper k after le
    rw [opening.depth_opening]
    omega

theorem closes {x : Nat} {pair : GroupPair} (h : Surveyed text n (x :: outer) p)
    (paren : StandsAt text ')' n) (close : pair.close = n)
    (looped : pair.looped = true ↔ QuantifierAt text (n + 1)) :
    Surveyed text (n + 1) outer (p.record x pair) := by
  have partners := h.partners paren
  have shallower := partners.depth_after
  have inner := h.levels x outer (List.suffix_refl _)
  obtain ⟨before, opening, deeper⟩ := h.unclosed x List.mem_cons_self
  obtain ⟨innermost, sorted⟩ := List.pairwise_cons.1 h.sorted
  refine ⟨shallower.trans inner, h.mono_floor ?_, ?_, ?_, ?_, ?_, ?_, sorted, ?_, ?_⟩
  · omega
  · intro j lt stands
    rcases Nat.lt_succ_iff_lt_or_eq.1 lt with lt | rfl
    · exact h.closings j lt stands
    · exact ⟨x, partners⟩
  · intro i lt stands
    exact h.classes i (stands.lt_of_lt_succ lt (paren.not_of_ne (by decide))) stands
  · intro i lt stands
    have earlier := stands.lt_of_lt_succ lt (paren.not_of_ne (by decide))
    rcases h.openings i earlier stands with mem | ⟨j, before, pair⟩
    · rcases List.mem_cons.1 mem with rfl | mem
      · exact .inr ⟨n, Nat.lt_succ_self n, partners⟩
      · exact .inl mem
    · exact .inr ⟨j, Nat.lt_succ_of_lt before, pair⟩
  · intro i mem
    have above := (h.unclosed i (List.mem_cons_of_mem x mem)).2.2 x (innermost i mem)
      (Nat.le_of_lt before)
    exact h.still_open (List.mem_cons_of_mem x mem) (shallower ▸ above)
  · intro i outer' suffix
    exact h.levels i outer' (suffix.trans (List.suffix_cons x outer))
  · rw [Pairing.size_record, h.size]
  · intro i pair'
    have inside : x < p.pairs.size := h.size ▸ opening.lt_length
    rw [Pairing.pairAt?_record]
    by_cases same : x = i
    · subst same
      rw [if_pos ⟨rfl, inside⟩, Option.some.injEq]
      constructor
      · rintro rfl
        rw [close]
        exact ⟨Nat.lt_succ_self n, partners, looped⟩
      · rintro ⟨_, partners', looped'⟩
        have close' := partners.right_unique partners'
        rw [← close', ← looped, ← Bool.eq_iff_iff] at looped'
        obtain ⟨close₁, looped₁⟩ := pair
        obtain ⟨close₂, looped₂⟩ := pair'
        rw [GroupPair.mk.injEq]
        exact ⟨close.trans close', looped'.symm⟩
    · rw [if_neg fun both => same both.1, h.pairs]
      refine and_congr_left fun ⟨partners', _⟩ => ⟨Nat.lt_succ_of_lt, fun lt => ?_⟩
      rcases Nat.lt_succ_iff_lt_or_eq.1 lt with lt | rfl
      · exact lt
      · exact absurd (partners.left_unique partners') same

end Surveyed

def Verdict (text : List Char) : Except PatternError Pairing → Prop
  | .ok p => WellBracketed text ∧ p.pairs.size = text.length ∧
      (∀ i, (∃ pair, p.pairs[i]? = some (some pair)) ↔ StandsAt text '(' i) ∧
      ∀ i pair, p.pairs[i]? = some (some pair) → Partners text i pair.close ∧
        (pair.looped = true ↔ QuantifierAt text (pair.close + 1))
  | .error e => ¬ WellBracketed text ∧ ∃ offset, e.offset = some offset ∧
      ((StrayAt text offset e.cause ∧ ∀ k < offset, ∀ cause, ¬ StrayAt text k cause) ∨
        (∀ k cause, ¬ StrayAt text k cause) ∧ e.cause = .unmatchedParen ∧ UnclosedAt text offset ∧
          ∀ k, UnclosedAt text k → k ≤ offset)

namespace Surveyed

theorem verdict_ok (h : Surveyed text text.length [] p) : Verdict text (.ok p) := by
  have entry (i : Nat) (pair : GroupPair) :
      p.pairs[i]? = some (some pair) ↔ p.pairAt? i = some pair := by
    rw [Pairing.pairAt?, Option.join_eq_some_iff]
  refine ⟨⟨fun i stands => h.classes i stands.lt_length stands, ?_⟩, h.size, fun i => ?_,
    fun i pair found => ?_⟩
  · exact ⟨h.level, fun k _ le => h.floor k le⟩
  · simp only [entry, h.pairs]
    constructor
    · rintro ⟨pair, _, partners, _⟩
      exact partners.2.1
    · intro stands
      rcases h.openings i stands.lt_length stands with mem | ⟨j, before, partners⟩
      · cases mem
      · obtain ⟨looped, quantified⟩ : ∃ looped, looped = true ↔ QuantifierAt text (j + 1) :=
          ⟨decide (QuantifierAt text (j + 1)), decide_eq_true_iff⟩
        exact ⟨⟨j, looped⟩, before, partners, quantified⟩
  · rw [entry, h.pairs] at found
    exact found.2

/-- Of the parens that are still open at the end, the innermost comes last. -/
theorem verdict_unclosed {x : Nat} (h : Surveyed text text.length (x :: outer) p) :
    Verdict text (.error (.here .unmatchedParen x)) := by
  refine ⟨?_, x, rfl, .inr ⟨fun k cause stray => ?_, rfl, ?_, fun k unclosed => ?_⟩⟩
  · rintro ⟨_, level, _⟩
    have := h.level.symm.trans level
    rw [List.length_cons] at this
    simp only [depthAt] at this
    omega
  · exact h.not_stray stray.lt_length stray
  · obtain ⟨_, opening, deeper⟩ := h.unclosed x List.mem_cons_self
    exact ⟨opening, fun j partners => partners.not_deeper partners.2.2.1.lt_length deeper⟩
  · rcases h.openings k unclosed.1.lt_length unclosed.1 with mem | ⟨j, _, partners⟩
    · rcases List.mem_cons.1 mem with rfl | mem
      · exact Nat.le_refl k
      · exact Nat.le_of_lt ((List.pairwise_cons.1 h.sorted).1 k mem)
    · exact absurd partners (unclosed.2 j)

theorem verdict_stray {cause : Cause} (h : Surveyed text n opened p) (stray : StrayAt text n cause) :
    Verdict text (.error (.here cause n)) := by
  refine ⟨?_, n, rfl, .inl ⟨stray, fun k lt _ => h.not_stray lt⟩⟩
  rintro ⟨classes, balanced⟩
  cases cause with
  | unmatchedParen =>
    obtain ⟨closing, none⟩ := stray
    cases opened with
    | nil =>
      have level := h.level
      have floor := balanced.2 (n + 1) (Nat.zero_le _) closing.lt_length
      rw [closing.depth_closing, level] at floor
      exact absurd floor (by simp [depthAt])
    | cons x outer => exact none x (h.partners closing)
  | unmatchedBracket =>
    obtain ⟨bracket, none⟩ := stray
    obtain ⟨j, spans⟩ := classes n bracket
    exact none j spans
  | _ => exact stray

theorem stray_of_nil (h : Surveyed text n [] p) (closing : StandsAt text ')' n) :
    StrayAt text n .unmatchedParen := by
  refine ⟨closing, fun j partners => ?_⟩
  have floor := h.floor j (Nat.le_of_lt partners.1)
  have after := partners.depth_after
  have level : depthAt text n = 0 := h.level
  rw [closing.depth_closing] at after
  omega

end Surveyed

end PatternGraph
