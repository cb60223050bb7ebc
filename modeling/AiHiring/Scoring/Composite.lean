import AiHiring.Campaign.Update
import AiHiring.Scoring.Layers

namespace AiHiring

open Library CandidateScoringService

-- What the schemas accept for the checks beside the skills.
structure ExperienceInput where
  (minExperienceYears candidateTotalYears extractedMin : Option ℚ)
  nonneg : ∀ years ∈ candidateTotalYears, 0 ≤ years

structure EducationInput where
  requiredDegreeText : Option String
  entries : List EducationEntry
  candidateTotalYears : Option ℚ
  extracted : Option EducationEntry

structure DomainInput where
  (required preferred chunks : List String)

-- The checks of one resume; each of them may be left out.
structure CandidateChecks where
  validation : ExperienceEducationValidationService
  classifyDegreeLevel : Option String → Option DegreeLevel
  capabilityText : CapabilityText
  experience : Option ExperienceInput
  education : Option EducationInput
  domain : Option DomainInput

namespace CandidateChecks

variable (c : CandidateChecks) (r : Rounding)

def experienceResult : Option ExperienceResult :=
  c.experience.map fun i =>
    c.validation.validateExperience r i.minExperienceYears i.candidateTotalYears i.extractedMin

def educationResult : Option EducationResult :=
  c.education.map fun i =>
    c.validation.validateEducation r c.classifyDegreeLevel i.requiredDegreeText i.entries
      i.candidateTotalYears i.extracted

def domainResult : Option DomainResult :=
  c.domain.map fun i =>
    DomainCapabilityMatchingService.evaluate c.capabilityText r i.required i.preferred i.chunks

def scoreBreakdown (context : ScoringContext) (jdId resumeId : Uuid)
    (scoreWeights : Option ScoreWeights) (thresholds : ScoreThresholds) : ScoreBreakdown :=
  calculateScoreBreakdown context jdId resumeId (c.experienceResult context.rounding)
    (c.educationResult context.rounding) (c.domainResult context.rounding) scoreWeights thresholds

end CandidateChecks

namespace CampaignService

-- The weights that `create_campaign` checks: their sum, and nothing else.
def checkNewWeights (weights : List ℚ) : Checked Unit :=
  if weights.sum ≠ 100 then .error ⟨"Scoring weights must sum to 100.00", 422⟩ else .ok ()

end CampaignService

-- The weights of a campaign, in columns with two decimals.
structure CampaignWeights where
  (deterministic semantic ai : ℚ)
  accepted : CampaignService.checkNewWeights [deterministic, semantic, ai] = .ok ()
  decimals : ∀ w ∈ [deterministic, semantic, ai], ∃ m : ℤ, w = m / 10 ^ 2

-- The scores of the three layers, each in its range or missing.
structure LayerScores where
  (deterministic semantic ai : Option ℚ)
  deterministicRange : ∀ q ∈ deterministic, 0 ≤ q ∧ q ≤ 100
  semanticRange : ∀ q ∈ semantic, 0 ≤ q ∧ q ≤ 1
  aiRange : ∀ q ∈ ai, 0 ≤ q ∧ q ≤ 100

-- A missing score counts as the lowest.
structure LayerScores.Le (s t : LayerScores) : Prop where
  deterministic : s.deterministic.getD 0 ≤ t.deterministic.getD 0
  semantic : s.semantic.getD 0 ≤ t.semantic.getD 0
  ai : s.ai.getD 0 ≤ t.ai.getD 0

namespace CampaignWeights

variable (w : CampaignWeights)

theorem sum_eq : w.deterministic + w.semantic + w.ai = 100 := by
  have haccepted := w.accepted
  unfold CampaignService.checkNewWeights at haccepted
  split_ifs at haccepted with hsum
  have hlist : [w.deterministic, w.semantic, w.ai].sum = 100 := not_not.mp hsum
  simp only [List.sum_cons, List.sum_nil, add_zero] at hlist
  linarith

def inputs (scores : LayerScores) : CompositeScoring.ScoreInputs where
  deterministicScore := scores.deterministic
  semanticScore := scores.semantic
  effectiveAiScore := scores.ai
  weightDeterministic := w.deterministic
  weightSemantic := w.semantic
  weightAi := w.ai
  weightsSum := w.sum_eq
  deterministicRange := scores.deterministicRange
  semanticRange := scores.semanticRange
  aiRange := scores.aiRange

def compositeScore (r : Rounding) (scores : LayerScores) : ℚ :=
  r.round 2 (CompositeScoring.calculateScore (w.inputs scores))

-- No layer counts against the candidate.
structure Nonneg : Prop where
  deterministic : 0 ≤ w.deterministic
  semantic : 0 ≤ w.semantic
  ai : 0 ≤ w.ai

end CampaignWeights

namespace CompositeScoring

structure InvalidScoreRangeError where
  fieldName : String
  (value minValue maxValue : ℚ)

def checkScoreRange (fieldName : String) (minValue maxValue : ℚ) :
    Option ℚ → Except InvalidScoreRangeError Unit
  | none => .ok ()
  | some value =>
    if value < minValue ∨ maxValue < value then .error ⟨fieldName, value, minValue, maxValue⟩
    else .ok ()

-- `_validate_score_ranges`
def validateScoreRanges (deterministicScore semanticScore effectiveAiScore : Option ℚ) :
    Except InvalidScoreRangeError Unit := do
  checkScoreRange "deterministic_score" 0 100 deterministicScore
  checkScoreRange "semantic_score" 0 1 semanticScore
  checkScoreRange "effective_ai_score" 0 100 effectiveAiScore

theorem checkScoreRange_ok {fieldName : String} {minValue maxValue : ℚ} {score : Option ℚ}
    (h : ∀ q ∈ score, minValue ≤ q ∧ q ≤ maxValue) :
    checkScoreRange fieldName minValue maxValue score = .ok () := by
  cases score with
  | none => rfl
  | some value =>
    obtain ⟨hmin, hmax⟩ := h value rfl
    exact if_neg (not_or.mpr ⟨not_lt.mpr hmin, not_lt.mpr hmax⟩)

theorem validateScoreRanges_ok {deterministicScore semanticScore effectiveAiScore : Option ℚ}
    (hdeterministic : ∀ q ∈ deterministicScore, 0 ≤ q ∧ q ≤ 100)
    (hsemantic : ∀ q ∈ semanticScore, 0 ≤ q ∧ q ≤ 1)
    (hai : ∀ q ∈ effectiveAiScore, 0 ≤ q ∧ q ≤ 100) :
    validateScoreRanges deterministicScore semanticScore effectiveAiScore = .ok () := by
  simp only [validateScoreRanges, checkScoreRange_ok hdeterministic, checkScoreRange_ok hsemantic,
    checkScoreRange_ok hai]
  rfl

end CompositeScoring

namespace CampaignWeights

variable {w : CampaignWeights} {r : Rounding}

-- The composite score is a percentage and grows with each of the scores.
structure CompositeInRange (r : Rounding) (w : CampaignWeights) : Prop where
  percent : ∀ scores, Percent (w.compositeScore r scores)
  monotone : ∀ s t : LayerScores, s.Le t → w.compositeScore r s ≤ w.compositeScore r t

theorem calculateScore_inputs (scores : LayerScores) :
    CompositeScoring.calculateScore (w.inputs scores) =
      w.deterministic / 100 * scores.deterministic.getD 0 +
        w.semantic / 100 * (scores.semantic.getD 0 * 100) + w.ai / 100 * scores.ai.getD 0 := by
  cases hsemantic : scores.semantic with
  | none => simp [CompositeScoring.calculateScore, inputs, hsemantic]
  | some semantic => simp [CompositeScoring.calculateScore, inputs, hsemantic]

theorem getD_range {score : Option ℚ} {bound : ℚ} (hbound : 0 ≤ bound)
    (h : ∀ q ∈ score, 0 ≤ q ∧ q ≤ bound) : 0 ≤ score.getD 0 ∧ score.getD 0 ≤ bound := by
  cases score with
  | none => exact ⟨le_rfl, hbound⟩
  | some q => exact h q rfl

theorem Nonneg.compositeInRange (h : w.Nonneg) : w.CompositeInRange r := by
  have hdeterministic : 0 ≤ w.deterministic / 100 := div_nonneg h.deterministic (by norm_num)
  have hsemantic : 0 ≤ w.semantic / 100 := div_nonneg h.semantic (by norm_num)
  have hai : 0 ≤ w.ai / 100 := div_nonneg h.ai (by norm_num)
  constructor
  · intro scores
    obtain ⟨hd0, hd1⟩ := getD_range (by norm_num) scores.deterministicRange
    obtain ⟨hs0, hs1⟩ := getD_range (by norm_num) scores.semanticRange
    obtain ⟨ha0, ha1⟩ := getD_range (by norm_num) scores.aiRange
    refine Rounding.round_percent r 2 ?_
    rw [calculateScore_inputs]
    have hd := mul_le_mul_of_nonneg_left hd1 hdeterministic
    have hs := mul_le_mul_of_nonneg_left (mul_le_mul_of_nonneg_right hs1
      (by norm_num : (0 : ℚ) ≤ 100)) hsemantic
    have ha := mul_le_mul_of_nonneg_left ha1 hai
    constructor
    · positivity
    · -- the weights add up to 100
      have hsum := w.sum_eq
      linarith
  · intro s t hle
    refine r.mono 2 ?_
    rw [calculateScore_inputs, calculateScore_inputs]
    have hd := mul_le_mul_of_nonneg_left hle.deterministic hdeterministic
    have hs := mul_le_mul_of_nonneg_left (mul_le_mul_of_nonneg_right hle.semantic
      (by norm_num : (0 : ℚ) ≤ 100)) hsemantic
    have ha := mul_le_mul_of_nonneg_left hle.ai hai
    linarith

theorem missing_range (bound : ℚ) : ∀ q ∈ (none : Option ℚ), 0 ≤ q ∧ q ≤ bound := by
  intro q hq
  simp at hq

theorem full_range {bound : ℚ} (h : 0 ≤ bound) : ∀ q ∈ some bound, 0 ≤ q ∧ q ≤ bound := by
  intro q hq
  rw [← Option.some.inj hq]
  exact ⟨h, le_rfl⟩

theorem missing_share : ∀ q ∈ (none : Option ℚ), 0 ≤ q ∧ q ≤ 1 := missing_range 1

theorem missing_percent : ∀ q ∈ (none : Option ℚ), 0 ≤ q ∧ q ≤ 100 := missing_range 100

theorem full_share : ∀ q ∈ some (1 : ℚ), 0 ≤ q ∧ q ≤ 1 := full_range (by norm_num)

theorem full_percent : ∀ q ∈ some (100 : ℚ), 0 ≤ q ∧ q ≤ 100 := full_range (by norm_num)

def onlyDeterministic : LayerScores where
  deterministic := some 100
  semantic := none
  ai := none
  deterministicRange := full_percent
  semanticRange := missing_share
  aiRange := missing_percent

def onlySemantic : LayerScores where
  deterministic := none
  semantic := some 1
  ai := none
  deterministicRange := missing_percent
  semanticRange := full_share
  aiRange := missing_percent

def onlyAi : LayerScores where
  deterministic := none
  semantic := none
  ai := some 100
  deterministicRange := missing_percent
  semanticRange := missing_share
  aiRange := full_percent

theorem composite_onlyDeterministic : w.compositeScore r onlyDeterministic = w.deterministic := by
  obtain ⟨m, hm⟩ := w.decimals w.deterministic (by simp)
  have hscore : CompositeScoring.calculateScore (w.inputs onlyDeterministic) = w.deterministic := by
    rw [calculateScore_inputs]
    simp [onlyDeterministic]
  rw [compositeScore, hscore, hm, r.fixes]

theorem composite_onlySemantic : w.compositeScore r onlySemantic = w.semantic := by
  obtain ⟨m, hm⟩ := w.decimals w.semantic (by simp)
  have hscore : CompositeScoring.calculateScore (w.inputs onlySemantic) = w.semantic := by
    rw [calculateScore_inputs]
    simp [onlySemantic]
  rw [compositeScore, hscore, hm, r.fixes]

theorem composite_onlyAi : w.compositeScore r onlyAi = w.ai := by
  obtain ⟨m, hm⟩ := w.decimals w.ai (by simp)
  have hscore : CompositeScoring.calculateScore (w.inputs onlyAi) = w.ai := by
    rw [calculateScore_inputs]
    simp [onlyAi]
  rw [compositeScore, hscore, hm, r.fixes]

theorem CompositeInRange.nonneg (h : w.CompositeInRange r) : w.Nonneg where
  deterministic := composite_onlyDeterministic (w := w) (r := r) ▸ (h.percent onlyDeterministic).1
  semantic := composite_onlySemantic (w := w) (r := r) ▸ (h.percent onlySemantic).1
  ai := composite_onlyAi (w := w) (r := r) ▸ (h.percent onlyAi).1

end CampaignWeights

structure ScoresInRange (context : ScoringContext) (jdId resumeId : Uuid)
    (checks : CandidateChecks) (scoreWeights : Option ScoreWeights)
    (thresholds : ScoreThresholds) (r : Rounding) (weights : CampaignWeights) : Prop where
  contributions : ∀ hierarchy,
    ∀ entry ∈ (buildMandatorySkillBreakdown context jdId resumeId hierarchy).mandatorySkills ++
      (buildPreferredSkillBreakdown context jdId resumeId).preferredSkills,
      ∀ c ∈ entry.skillContribution, 0 ≤ c ∧ ∀ w ∈ entry.effectiveJdWeight, c ≤ w
  mandatoryCoverage : ∀ hierarchy,
    Percent (buildMandatorySkillBreakdown context jdId resumeId hierarchy).mandatoryCoveragePct
  coreCoverage : ∀ hierarchy,
    Percent (buildMandatorySkillBreakdown context jdId resumeId hierarchy).coreCoveragePct
  skills : ∀ hierarchy,
    Percent (buildMandatorySkillBreakdown context jdId resumeId hierarchy).deterministicScore
  technical : ∀ hierarchy, ∀ q ∈ computeTechnicalScore context
    (buildMandatorySkillBreakdown context jdId resumeId hierarchy)
    (buildPreferredSkillBreakdown context jdId resumeId), Percent q
  experience : ∀ result ∈ checks.experienceResult context.rounding, ∀ q ∈ result.score, Percent q
  education : ∀ result ∈ checks.educationResult context.rounding, ∀ q ∈ result.score, Percent q
  functional : ∀ result ∈ checks.domainResult context.rounding, ∀ q ∈ result.score, Percent q
  blended : Percent
    (checks.scoreBreakdown context jdId resumeId scoreWeights thresholds).deterministicScore
  validated : CompositeScoring.validateScoreRanges
    (some (checks.scoreBreakdown context jdId resumeId scoreWeights thresholds).deterministicScore)
    none none = .ok ()
  -- what the checks divide by
  requiredRank : ∀ i ∈ checks.education, ∀ required ∈
    ExperienceEducationValidationService.rankedLevel checks.classifyDegreeLevel
      (i.extracted.bind EducationEntry.degreeLevel) i.requiredDegreeText, 0 < required.1
  capabilityWeight : ∀ i ∈ checks.domain, ¬(i.required = [] ∧ i.preferred = []) →
    0 < (i.required.length : ℚ) +
      DomainCapabilityMatchingService.preferredCapabilityWeight * (i.preferred.length : ℚ)
  composite : weights.CompositeInRange r

theorem CandidateChecks.subScores_inRange {checks : CandidateChecks} {r : Rounding}
    {skill : Option ℚ} (hskill : ∀ q ∈ skill, Percent q) :
    SubScores.InRange ⟨skill, checks.experienceResult r, checks.educationResult r,
      checks.domainResult r⟩ := by
  refine ⟨hskill, ?_, ?_, ?_⟩
  · intro result hresult
    obtain ⟨i, -, rfl⟩ := Option.map_eq_some_iff.mp hresult
    exact ExperienceEducationValidationService.validateExperience_percent _ r i.nonneg
  · intro result hresult
    obtain ⟨i, -, rfl⟩ := Option.map_eq_some_iff.mp hresult
    exact ExperienceEducationValidationService.validateEducation_percent _ r
  · intro result hresult
    obtain ⟨i, -, rfl⟩ := Option.map_eq_some_iff.mp hresult
    exact DomainCapabilityMatchingService.evaluate_percent i.required i.preferred i.chunks

theorem Admissible.blended_percent {context : ScoringContext} {jdId resumeId : Uuid}
    {checks : CandidateChecks} {scoreWeights : Option ScoreWeights} {thresholds : ScoreThresholds}
    (h : Admissible context jdId resumeId) (hweights : ∀ w ∈ scoreWeights, w.Nonneg) :
    Percent
      (checks.scoreBreakdown context jdId resumeId scoreWeights thresholds).deterministicScore := by
  have hskill : ∀ q ∈ computeTechnicalScore context
      (buildMandatorySkillBreakdown context jdId resumeId none)
      (buildPreferredSkillBreakdown context jdId resumeId), Percent q :=
    fun q hq => h.technical_percent hq
  have hnonneg : (scoreWeights.getD defaultScoreWeights).Nonneg := by
    cases scoreWeights with
    | none => exact defaultScoreWeights_nonneg
    | some w => exact hweights w rfl
  simp only [CandidateChecks.scoreBreakdown, calculateScoreBreakdown]
  split_ifs
  · exact percent_getD hskill
  · exact combinedScore_percent (CandidateChecks.subScores_inRange hskill) hnonneg

theorem scores_in_range_iff (context : ScoringContext) (jdId resumeId : Uuid)
    (checks : CandidateChecks) (scoreWeights : Option ScoreWeights)
    (thresholds : ScoreThresholds) (r : Rounding) (weights : CampaignWeights)
    (hadmissible : Admissible context jdId resumeId)
    (hscoreWeights : ∀ w ∈ scoreWeights, w.Nonneg) :
    ScoresInRange context jdId resumeId checks scoreWeights thresholds r weights ↔
      weights.Nonneg := by
  constructor
  · intro h
    exact h.composite.nonneg
  · intro hweights
    have hblended : Percent (checks.scoreBreakdown context jdId resumeId scoreWeights
        thresholds).deterministicScore := hadmissible.blended_percent hscoreWeights
    have hsub : SubScores.InRange ⟨none, checks.experienceResult context.rounding,
        checks.educationResult context.rounding, checks.domainResult context.rounding⟩ :=
      CandidateChecks.subScores_inRange (by simp)
    refine ⟨?_, fun _ => coveragePct_percent, fun _ => coveragePct_percent,
      fun _ => ratioScore_percent hadmissible.mandatory_bounded,
      fun _ q hq => hadmissible.technical_percent hq, hsub.experience, hsub.education, hsub.domain,
      hblended, ?_, fun _ _ _ => ExperienceEducationValidationService.rankedLevel_pos,
      fun _ _ => DomainCapabilityMatchingService.weightTotal_pos, hweights.compositeInRange⟩
    · intro hierarchy entry hentry c hc
      have hbounded : entry.Bounded := by
        obtain hmandatory | hpreferred := List.mem_append.mp hentry
        · exact hadmissible.mandatory_bounded entry hmandatory
        · exact hadmissible.preferred_bounded entry hpreferred
      have hcontribution : entry.contribution = c := by
        rw [BreakdownEntry.contribution, hc, Option.getD_some]
      refine ⟨hcontribution ▸ hbounded.nonneg, ?_⟩
      intro w hw
      have hweight : entry.weight = w := by rw [BreakdownEntry.weight, hw, Option.getD_some]
      exact hcontribution ▸ hweight ▸ hbounded.le
    · refine CompositeScoring.validateScoreRanges_ok ?_ (by simp) (by simp)
      intro q hq
      rw [← Option.some.inj hq]
      exact hblended

def scoredStore : SkillStore where
  ontology := SkillOntologyTable.empty
  unknownSkills := Table.empty
  jdSkills := Table.empty.insert
    (fun id => ⟨id, 0, 0, true, some 1, none, none, none, .exact, .autoVerified⟩) fun _ => rfl
  jdUnknownSkills := Table.empty
  candidateSkills := Table.empty.insert
    (fun id => ⟨id, 0, 0, some 0, none, "python", none, .exact, 1, .autoVerified⟩) fun _ => rfl

def scoredContext : ScoringContext where
  store := scoredStore
  vectors := ⟨fun _ => false, fun _ _ => none⟩
  config _ := none
  rounding := Rounding.halfUp

theorem scoredContext_admissible : Admissible scoredContext 0 0 where
  weights := by simp [scoredContext, scoredStore, Table.insert, Table.empty]
  pool := by simp [scoredContext, scoredStore, Table.insert, Table.empty, share_one]
  core := by simp [scoredContext]
  supporting := by simp [scoredContext]
  grandchild := by simp [scoredContext]
  preferred := by simp [scoredContext]

def experienceOnly : CandidateChecks where
  validation := ⟨0, none⟩
  classifyDegreeLevel _ := none
  capabilityText := ⟨fun _ => [], fun _ => [], fun _ _ => false, fun _ _ => false⟩
  experience := some ⟨some 3, some 5, none, by simp⟩
  education := none
  domain := none

def wholeWeights (deterministic semantic ai : ℤ) (h : deterministic + semantic + ai = 100) :
    CampaignWeights where
  deterministic := deterministic
  semantic := semantic
  ai := ai
  accepted := by
    refine if_neg (not_not.mpr ?_)
    simp only [List.sum_cons, List.sum_nil, add_zero]
    exact_mod_cast (add_assoc deterministic semantic ai).symm.trans h
  decimals := by
    intro w hw
    have hwhole : ∃ k : ℤ, w = k := by
      simp only [List.mem_cons, List.not_mem_nil, or_false] at hw
      obtain rfl | rfl | rfl := hw
      · exact ⟨_, rfl⟩
      · exact ⟨_, rfl⟩
      · exact ⟨_, rfl⟩
    obtain ⟨k, rfl⟩ := hwhole
    refine ⟨k * 10 ^ 2, ?_⟩
    push_cast
    exact (mul_div_cancel_right₀ (k : ℚ) (by norm_num)).symm

theorem scores_in_range_default :
    ScoresInRange scoredContext 0 0 experienceOnly none ⟨70, 0, 3⟩ Rounding.halfUp
      (wholeWeights 30 40 30 (by norm_num)) :=
  (scores_in_range_iff scoredContext 0 0 experienceOnly none ⟨70, 0, 3⟩ Rounding.halfUp
    (wholeWeights 30 40 30 (by norm_num)) scoredContext_admissible (by simp)).mpr
    ⟨by norm_num [wholeWeights], by norm_num [wholeWeights], by norm_num [wholeWeights]⟩

-- Weights that `create_campaign` takes and an edit would not.
theorem negative_weight_accepted : Admissible scoredContext 0 0 ∧
      ¬ScoresInRange scoredContext 0 0 experienceOnly none ⟨70, 0, 3⟩ Rounding.halfUp
        (wholeWeights (-50) 200 (-50) (by norm_num)) := by
  refine ⟨scoredContext_admissible, ?_⟩
  intro h
  have hpercent := h.composite.percent CampaignWeights.onlyDeterministic
  rw [CampaignWeights.composite_onlyDeterministic] at hpercent
  have hnonneg : (0 : ℚ) ≤ ((-50 : ℤ) : ℚ) := hpercent.1
  norm_num at hnonneg

end AiHiring
