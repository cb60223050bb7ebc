import AiHiring.Scoring.Ranges

namespace AiHiring

open Library

theorem Rounding.round_share (r : Rounding) (n : ℕ) {q : ℚ} (h : Share q) :
    Share (r.round n q) := by
  have hle : q ≤ ((1 : ℤ) : ℚ) := by exact_mod_cast h.2
  have hround := r.round_le_int n hle
  exact ⟨r.round_nonneg n h.1, by exact_mod_cast hround⟩

namespace ExperienceEducationValidationService

variable (self : ExperienceEducationValidationService) (r : Rounding)

theorem validateExperience_percent {minExperienceYears candidateTotalYears extractedMin : Option ℚ}
    (htotal : ∀ years ∈ candidateTotalYears, 0 ≤ years) :
    ∀ q ∈ (validateExperience self r minExperienceYears candidateTotalYears extractedMin).score,
      Percent q := by
  intro q hq
  cases hmin : extractedMin.or minExperienceYears with
  | none =>
    simp only [validateExperience, hmin, Option.mem_def, Option.some.injEq] at hq
    rw [← hq]
    exact percent_hundred
  | some minYears =>
    cases candidateTotalYears with
    | none => simp [validateExperience, hmin] at hq
    | some years =>
      have hnonneg := htotal years rfl
      simp only [validateExperience, hmin, Option.mem_def, Option.some.injEq] at hq
      rw [← hq]
      split_ifs with hpassed hpos
      · exact percent_hundred
      · -- short of the minimum, so the quotient is a share
        have hnot : ¬max (minYears - self.experienceToleranceYears) 0 ≤ years :=
          of_decide_eq_false (Bool.eq_false_iff.mpr hpassed)
        exact Rounding.round_percent r 2 (percent_ratio hnonneg (not_le.mp hnot).le)
      · exact percent_hundred

section Education

variable {classifyDegreeLevel : Option String → Option DegreeLevel}

theorem rank_pos {level : DegreeLevel} {rank : ℕ} (h : level.rank = some rank) : 0 < rank := by
  cases level <;> simp only [DegreeLevel.rank, Option.some.injEq, reduceCtorEq] at h <;> omega

-- The rank that a degree is measured against is never zero.
theorem rankedLevel_pos {extracted : Option DegreeLevel} {degree : Option String}
    {required : ℕ × DegreeLevel}
    (h : rankedLevel classifyDegreeLevel extracted degree = some required) : 0 < required.1 := by
  obtain ⟨level, -, hrank⟩ := Option.bind_eq_some_iff.mp h
  obtain ⟨rank, hlevel, rfl⟩ := Option.map_eq_some_iff.mp hrank
  exact rank_pos hlevel

theorem validateEducation_percent {requiredDegreeText : Option String}
    {entries : List EducationEntry} {candidateTotalYears : Option ℚ}
    {extracted : Option EducationEntry} :
    ∀ q ∈ (validateEducation self r classifyDegreeLevel requiredDegreeText entries
      candidateTotalYears extracted).score, Percent q := by
  intro q hq
  simp only [validateEducation] at hq
  split at hq
  · rw [← Option.some.inj hq]
    exact percent_hundred
  · next required hrequired =>
      split at hq
      · split_ifs at hq
        · rw [← Option.some.inj hq]
          exact percent_hundred
        · simp at hq
      · next best entry hbest =>
          rw [← Option.some.inj hq]
          split_ifs with hreached
          · exact percent_hundred
          · have hnot : ¬required.1 ≤ best.1 := by
              intro hle
              exact hreached (by simp [hle])
            have hle : (best.1 : ℚ) ≤ (required.1 : ℚ) := by
              exact_mod_cast (not_le.mp hnot).le
            exact Rounding.round_percent r 2 (percent_ratio (Nat.cast_nonneg _) hle)

end Education

end ExperienceEducationValidationService

namespace DomainCapabilityMatchingService

variable {t : CapabilityText} {r : Rounding}

theorem chunkScore_share {capabilityStems chunkStems : List String} :
    Share (chunkScore t capabilityStems chunkStems) := by
  have hcount : capabilityStems.countP (fun stem =>
      chunkStems.any fun other => t.tokensMatch stem other) ≤ capabilityStems.length :=
    List.countP_le_length
  have hcast : ((capabilityStems.countP fun stem =>
      chunkStems.any fun other => t.tokensMatch stem other : ℕ) : ℚ) ≤
        (capabilityStems.length : ℚ) := by
    exact_mod_cast hcount
  exact ⟨div_nonneg (Nat.cast_nonneg _) (Nat.cast_nonneg _),
    div_le_one_of_le₀ hcast (Nat.cast_nonneg _)⟩

-- Over the sentences the best so far stays a share.
theorem bestChunk_share {capability : String} {capabilityStems : List String}
    (chunks : List String) {best : ℚ × Option String} (h : Share best.1) :
    Share (bestChunk t capability capabilityStems chunks best).1 := by
  induction chunks generalizing best with
  | nil => exact h
  | cons chunk rest ih =>
    simp only [bestChunk]
    split_ifs
    · exact share_one
    · exact ih h
    · exact chunkScore_share
    · exact ih chunkScore_share
    · exact ih h

theorem scoreCapability_share (chunks : List String) (capability : String) :
    Share (scoreCapability t r chunks capability).score :=
  Rounding.round_share r 2 (bestChunk_share chunks share_zero)

theorem scores_bounds (chunks capabilities : List String) :
    0 ≤ ((capabilities.map (scoreCapability t r chunks)).map CapabilityScore.score).sum ∧
      ((capabilities.map (scoreCapability t r chunks)).map CapabilityScore.score).sum ≤
        (capabilities.length : ℚ) := by
  induction capabilities with
  | nil => simp
  | cons capability rest ih =>
    have hshare := scoreCapability_share (t := t) (r := r) chunks capability
    simp only [List.map_cons, List.sum_cons, List.length_cons, Nat.cast_add, Nat.cast_one]
    exact ⟨add_nonneg hshare.1 ih.1, by linarith [hshare.2, ih.2]⟩

theorem weightTotal_pos {required preferred : List String} (h : ¬(required = [] ∧ preferred = [])) :
    0 < (required.length : ℚ) + preferredCapabilityWeight * (preferred.length : ℚ) := by
  have hweight : (0 : ℚ) < preferredCapabilityWeight := by norm_num [preferredCapabilityWeight]
  by_cases hrequired : required = []
  · have hpreferred : preferred ≠ [] := fun hnil => h ⟨hrequired, hnil⟩
    have hlength : (0 : ℚ) < (preferred.length : ℚ) := by
      exact_mod_cast List.length_pos_of_ne_nil hpreferred
    have hpos := mul_pos hweight hlength
    have hnonneg : (0 : ℚ) ≤ (required.length : ℚ) := Nat.cast_nonneg _
    linarith
  · have hlength : (0 : ℚ) < (required.length : ℚ) := by
      exact_mod_cast List.length_pos_of_ne_nil hrequired
    have hpreferred : (0 : ℚ) ≤ (preferred.length : ℚ) := Nat.cast_nonneg _
    have hnonneg := mul_nonneg hweight.le hpreferred
    linarith

theorem evaluate_percent (required preferred chunks : List String) :
    ∀ q ∈ (evaluate t r required preferred chunks).score, Percent q := by
  intro q hq
  simp only [evaluate] at hq
  split_ifs at hq
  · simp at hq
  · simp at hq
  · rw [← Option.some.inj hq]
    obtain ⟨hrequired0, hrequired1⟩ := scores_bounds (t := t) (r := r) chunks required
    obtain ⟨hpreferred0, hpreferred1⟩ := scores_bounds (t := t) (r := r) chunks preferred
    have hweight : (0 : ℚ) ≤ preferredCapabilityWeight := by norm_num [preferredCapabilityWeight]
    refine Rounding.round_percent r 2 (percent_ratio ?_ ?_)
    · exact add_nonneg hrequired0 (mul_nonneg hweight hpreferred0)
    · exact add_le_add hrequired1 (mul_le_mul_of_nonneg_left hpreferred1 hweight)

end DomainCapabilityMatchingService

namespace CandidateScoringService

structure ScoreWeights.Nonneg (weights : ScoreWeights) : Prop where
  skills : 0 ≤ weights.skills
  functional : 0 ≤ weights.functional
  experience : 0 ≤ weights.experience
  education : 0 ≤ weights.education

theorem defaultScoreWeights_nonneg : defaultScoreWeights.Nonneg where
  skills := by norm_num [defaultScoreWeights]
  functional := by norm_num [defaultScoreWeights]
  experience := by norm_num [defaultScoreWeights]
  education := by norm_num [defaultScoreWeights]

theorem weightedSum_bounds {components : List (ℚ × ℚ)}
    (h : ∀ c ∈ components, Percent c.1 ∧ 0 ≤ c.2) :
    0 ≤ (components.map fun c => c.1 * c.2).sum ∧
      (components.map fun c => c.1 * c.2).sum ≤ 100 * (components.map Prod.snd).sum := by
  induction components with
  | nil => simp
  | cons c rest ih =>
    obtain ⟨hscore, hweight⟩ := h c List.mem_cons_self
    obtain ⟨hnonneg, hle⟩ := ih fun other hother => h other (List.mem_cons_of_mem c hother)
    have hfirst := mul_le_mul_of_nonneg_right hscore.2 hweight
    simp only [List.map_cons, List.sum_cons]
    exact ⟨add_nonneg (mul_nonneg hscore.1 hweight) hnonneg, by linarith⟩

theorem component_bounds {applicable : Bool} {score : Option ℚ} {weight : ℚ}
    (hscore : ∀ q ∈ score, Percent q) (hweight : 0 ≤ weight) :
    ∀ c ∈ component applicable score weight, Percent c.1 ∧ 0 ≤ c.2 := by
  intro c hc
  unfold component at hc
  split_ifs at hc
  · obtain ⟨q, hq, rfl⟩ := Option.map_eq_some_iff.mp (Option.mem_toList.mp hc)
    exact ⟨hscore q hq, hweight⟩
  · simp at hc

structure SubScores.InRange (sub : SubScores) : Prop where
  skill : ∀ q ∈ sub.skill, Percent q
  experience : ∀ result ∈ sub.experience, ∀ q ∈ result.score, Percent q
  education : ∀ result ∈ sub.education, ∀ q ∈ result.score, Percent q
  domain : ∀ result ∈ sub.domain, ∀ q ∈ result.score, Percent q

theorem percent_getD {score : Option ℚ} (h : ∀ q ∈ score, Percent q) :
    Percent (score.getD 100) := by
  cases score with
  | none => exact percent_hundred
  | some q => exact h q rfl

theorem combinedScore_percent {r : Rounding} {sub : SubScores} {weights : ScoreWeights}
    (hsub : sub.InRange) (hweights : weights.Nonneg) : Percent (combinedScore r sub weights) := by
  have hbind {α : Type} {result : Option α} {score : α → Option ℚ}
      (h : ∀ a ∈ result, ∀ q ∈ score a, Percent q) : ∀ q ∈ result.bind score, Percent q := by
    intro q hq
    obtain ⟨a, ha, hscore⟩ := Option.bind_eq_some_iff.mp hq
    exact h a ha q hscore
  have hcomponents : ∀ c ∈ components sub weights, Percent c.1 ∧ 0 ≤ c.2 := by
    intro c hc
    simp only [components, List.mem_append] at hc
    obtain ((hc | hc) | hc) | hc := hc
    · exact component_bounds hsub.skill hweights.skills c hc
    · exact component_bounds (hbind hsub.domain) hweights.functional c hc
    · exact component_bounds (hbind hsub.experience) hweights.experience c hc
    · exact component_bounds (hbind hsub.education) hweights.education c hc
  obtain ⟨hnonneg, hle⟩ := weightedSum_bounds hcomponents
  simp only [combinedScore]
  split_ifs with hpos
  · refine Rounding.round_percent r 2 ⟨div_nonneg hnonneg hpos.le, ?_⟩
    exact div_le_of_le_mul₀ hpos.le (by norm_num) hle
  · exact percent_getD hsub.skill

end CandidateScoringService

end AiHiring
