import AiHiring.Scoring.Deterministic

namespace AiHiring

open Library CandidateScoringService

-- What a NUMERIC column of that many decimals stores.
def numeric (decimals : ℕ) (q : ℚ) : ℚ := Rounding.halfUp.round decimals q

namespace SemanticScoringService

structure SemanticBreakdown where
  (semanticScore overallSimilarity : ℚ)
  semanticPassed : Bool
  semanticThreshold : ℚ
  scoreClampedToZero : Bool

structure SemanticColumns where
  semanticScore : ℚ
  semanticPassed : Bool
  semanticBreakdown : SemanticBreakdown

-- `r` is Python's `round`.
def calculateAndStoreSemanticScoreBreakdown (r : Rounding) (similarity semanticThreshold : ℚ) :
    SemanticColumns :=
  let scoreClampedToZero : Bool := similarity < 0
  let similarity := if similarity < 0 then 0 else similarity
  let passed : Bool := semanticThreshold ≤ similarity
  { semanticScore := numeric 4 similarity
    semanticPassed := passed
    semanticBreakdown :=
      { semanticScore := r.round 4 similarity
        overallSimilarity := r.round 4 similarity
        semanticPassed := passed
        semanticThreshold := semanticThreshold
        scoreClampedToZero := scoreClampedToZero } }

end SemanticScoringService

namespace StoredFlags

open SemanticScoringService

-- The threshold has the four decimals of the campaign's column.
def stored (r : Rounding) (similarity : ℚ) (threshold : ℤ) : SemanticColumns :=
  calculateAndStoreSemanticScoreBreakdown r similarity (threshold / 10 ^ 4)

-- The two layers' promises about what they store.
structure Agree (r : Rounding) (similarity : ℚ) (threshold : ℤ) : Prop where
  semantic : (stored r similarity threshold).semanticPassed = true ↔
    (threshold / 10 ^ 4 : ℚ) ≤ (stored r similarity threshold).semanticScore
  breakdown : (stored r similarity threshold).semanticBreakdown.semanticScore =
      (stored r similarity threshold).semanticScore ∨
    |(stored r similarity threshold).semanticBreakdown.semanticScore - max similarity 0| =
      |(stored r similarity threshold).semanticScore - max similarity 0|
  deterministic : ∀ context jdId resumeId experience education domain scoreWeights thresholds,
    ¬(experience.isNone ∧ education.isNone ∧ domain.isNone) →
      (calculateScoreBreakdown context jdId resumeId experience education domain scoreWeights
          thresholds).deterministicPassed = true →
        thresholds.deterministicThreshold ≤ numeric 2 (calculateScoreBreakdown context jdId
          resumeId experience education domain scoreWeights thresholds).deterministicScore

section Deterministic

variable {context : ScoringContext} {r : Rounding}

theorem computeTechnicalScore_decimal {mandatory : MandatoryBreakdown}
    {preferred : PreferredBreakdown} {q : ℚ}
    (h : computeTechnicalScore context mandatory preferred = some q) :
    ∃ m : ℤ, q = m / 10 ^ 2 := by
  simp only [computeTechnicalScore] at h
  split at h <;> cases h <;> exact context.rounding.decimal 2 _

theorem combinedScore_decimal {sub : SubScores} {weights : ScoreWeights}
    (h : ∀ q ∈ sub.skill, ∃ m : ℤ, q = m / 10 ^ 2) :
    ∃ m : ℤ, combinedScore r sub weights = m / 10 ^ 2 := by
  simp only [combinedScore]
  split_ifs
  · exact r.decimal 2 _
  · cases hskill : sub.skill with
    | none => exact ⟨10000, by norm_num⟩
    | some q => exact h q hskill

-- The blended score has two decimals, so that the column keeps it.
theorem deterministic_stored {jdId resumeId : Uuid} {experience : Option ExperienceResult}
    {education : Option EducationResult} {domain : Option DomainResult}
    {scoreWeights : Option ScoreWeights} {thresholds : ScoreThresholds}
    (hblended : ¬(experience.isNone ∧ education.isNone ∧ domain.isNone))
    (hpassed : (calculateScoreBreakdown context jdId resumeId experience education domain
      scoreWeights thresholds).deterministicPassed = true) :
    thresholds.deterministicThreshold ≤ numeric 2 (calculateScoreBreakdown context jdId resumeId
      experience education domain scoreWeights thresholds).deterministicScore := by
  simp only [calculateScoreBreakdown, if_neg hblended, combineDeterministicScore] at hpassed ⊢
  obtain ⟨m, hm⟩ := @combinedScore_decimal context.rounding
    ⟨computeTechnicalScore context (buildMandatorySkillBreakdown context jdId resumeId none)
      (buildPreferredSkillBreakdown context jdId resumeId), experience, education, domain⟩
    (scoreWeights.getD defaultScoreWeights) fun q hq => computeTechnicalScore_decimal hq
  rw [numeric, hm, Rounding.halfUp.fixes, ← hm]
  exact of_decide_eq_true (Bool.and_eq_true_iff.mp hpassed).2

end Deterministic

-- The stored score reaches the threshold from half a unit of its last decimal below.
theorem threshold_le_numeric (threshold : ℤ) {q : ℚ} (h : 0 ≤ q) :
    (threshold / 10 ^ 4 : ℚ) ≤ numeric 4 q ↔ (threshold / 10 ^ 4 - 1 / 20000 : ℚ) ≤ q := by
  have hpow : (0 : ℚ) < 10 ^ 4 := by positivity
  change _ ≤ Rounding.awayFromZero 4 q ↔ _
  rw [Rounding.awayFromZero, if_pos h, div_le_div_iff_of_pos_right hpow, Int.cast_le,
    Int.le_floor]
  constructor
  · intro hle
    linarith
  · intro hle
    linarith

-- The flags agree with the scores but for a similarity that is below the threshold by
-- half a unit of the score's last decimal or less.
theorem stored_flags_agree_iff (r : Rounding) (hnearest : Rounding.Nearest r) (similarity : ℚ)
    (threshold : ℤ) :
    Agree r similarity threshold ↔
      ¬((threshold / 10 ^ 4 - 1 / 20000 : ℚ) ≤ max similarity 0 ∧
        max similarity 0 < (threshold / 10 ^ 4 : ℚ)) := by
  have hclamp : (if similarity < 0 then 0 else similarity) = max similarity 0 := by
    split_ifs with hneg
    · rw [max_eq_right hneg.le]
    · rw [max_eq_left (not_lt.mp hneg)]
  have hstored := threshold_le_numeric threshold (le_max_right similarity 0)
  have hunit : (0 : ℚ) < 1 / 20000 := by norm_num
  constructor
  · rintro hagree ⟨hnear, hbelow⟩
    have hsemantic := hagree.semantic
    simp only [stored, calculateAndStoreSemanticScoreBreakdown, hclamp, decide_eq_true_eq]
      at hsemantic
    exact absurd (hsemantic.mpr (hstored.mpr hnear)) (not_le.mpr hbelow)
  · intro hapart
    refine ⟨?_, ?_, fun _ _ _ _ _ _ _ _ => deterministic_stored⟩
    · simp only [stored, calculateAndStoreSemanticScoreBreakdown, hclamp, decide_eq_true_eq,
        hstored]
      constructor
      · intro hpassed
        linarith
      · intro hnear
        exact not_lt.mp fun hbelow => hapart ⟨hnear, hbelow⟩
    · simp only [stored, calculateAndStoreSemanticScoreBreakdown, hclamp]
      exact hnearest.eq_or_tie Rounding.halfUp_nearest 4 _

theorem stored_flags_agree_far : Agree Rounding.halfUp (7 / 10) 6500 :=
  (stored_flags_agree_iff Rounding.halfUp Rounding.halfUp_nearest (7 / 10) 6500).mpr
    (by norm_num)

-- A similarity of 0.64996 is stored as 0.6500 and does not pass a threshold of 0.65.
theorem rounded_up_not_passed :
    ¬∀ (r : Rounding) (similarity : ℚ) (threshold : ℤ), Rounding.Nearest r →
      -1 ≤ similarity → similarity ≤ 1 → Agree r similarity threshold := by
  intro h
  have hsemantic := (h Rounding.halfUp (16249 / 25000) 6500 Rounding.halfUp_nearest (by norm_num)
    (by norm_num)).semantic
  have hstored := (@threshold_le_numeric 6500 (16249 / 25000) (by norm_num)).mpr (by norm_num)
  have hclamped : ¬(16249 / 25000 : ℚ) < 0 := by norm_num
  simp only [stored, calculateAndStoreSemanticScoreBreakdown, if_neg hclamped, decide_eq_true_eq]
    at hsemantic
  exact absurd (hsemantic.mpr hstored) (by norm_num)

end StoredFlags

end AiHiring
