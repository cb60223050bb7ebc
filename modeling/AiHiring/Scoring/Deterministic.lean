import AiHiring.Scoring.Skills
import AiHiring.Scoring.Validation

namespace AiHiring

open Library

namespace CandidateScoringService

structure SkillQualification where
  requiredSkillCoverageThreshold : ℚ
  (coveragePassed scorePassed : Bool)
  missingCoreSkillCount : ℕ
  maxMissingCoreSkills : ℤ
  (coreGapPassed skillQualificationPassed : Bool)

def missingCoreSkillCount (entries : List BreakdownEntry) : ℕ :=
  entries.countP fun entry => entry.matchType = .missing ∧ entry.importance = some .core

def evaluateSkillQualification (breakdown : MandatoryBreakdown) (skillScore : Option ℚ)
    (deterministicThreshold requiredSkillCoverageThreshold : ℚ) (maxMissingCoreSkills : ℤ) :
    SkillQualification :=
  let coveragePassed : Bool := requiredSkillCoverageThreshold ≤ breakdown.coreCoveragePct
  let missing := missingCoreSkillCount breakdown.mandatorySkills
  let coreGapPassed : Bool := (missing : ℤ) ≤ maxMissingCoreSkills
  let scorePassed : Bool := skillScore.all fun score => deterministicThreshold ≤ score
  ⟨requiredSkillCoverageThreshold, coveragePassed, scorePassed, missing, maxMissingCoreSkills,
    coreGapPassed, coveragePassed && scorePassed && coreGapPassed⟩

structure ScoreWeights where
  (skills functional experience education : ℚ)

-- `_DEFAULT_SCORE_WEIGHTS`
def defaultScoreWeights : ScoreWeights := ⟨7 / 10, 3 / 20, 3 / 20, 3 / 20⟩

structure SubScores where
  skill : Option ℚ
  experience : Option ExperienceResult
  education : Option EducationResult
  domain : Option DomainResult

-- A sub-score takes part when it is applicable.
def component (applicable : Bool) (score : Option ℚ) (weight : ℚ) : List (ℚ × ℚ) :=
  if applicable then (score.map fun score => (score, weight)).toList else []

def components (sub : SubScores) (weights : ScoreWeights) : List (ℚ × ℚ) :=
  component true sub.skill weights.skills ++
    component (sub.domain.any DomainResult.applicable) (sub.domain.bind DomainResult.score)
      weights.functional ++
    component (sub.experience.any ExperienceResult.applicable)
      (sub.experience.bind ExperienceResult.score) weights.experience ++
    component (sub.education.any EducationResult.applicable)
      (sub.education.bind EducationResult.score) weights.education

def combinedScore (r : Rounding) (sub : SubScores) (weights : ScoreWeights) : ℚ :=
  let components := components sub weights
  let weightSum := (components.map Prod.snd).sum
  if 0 < weightSum then
    r.round 2 ((components.map fun c => c.1 * c.2).sum / weightSum)
  else sub.skill.getD 100

-- `_combine_deterministic_score`
def combineDeterministicScore (r : Rounding) (mandatorySkillsPassed : Bool) (sub : SubScores)
    (scoreWeights : Option ScoreWeights) (deterministicThreshold : ℚ) : ℚ × Bool :=
  let score := combinedScore r sub (scoreWeights.getD defaultScoreWeights)
  (score, mandatorySkillsPassed && sub.experience.all ExperienceResult.passed &&
    sub.education.all EducationResult.passed && decide (deterministicThreshold ≤ score))

structure ScoreThresholds where
  (deterministicThreshold requiredSkillCoverageThreshold : ℚ)
  maxMissingCoreSkills : ℤ

-- What is stored as deterministic_breakdown, deterministic_score and
-- deterministic_passed.
structure ScoreBreakdown where
  mandatory : MandatoryBreakdown
  preferred : PreferredBreakdown
  mandatorySkillScore : ℚ
  technicalScore : Option ℚ
  qualification : SkillQualification
  functionalScore : Option ℚ
  (deterministicThreshold deterministicScore : ℚ)
  deterministicPassed : Bool

def calculateScoreBreakdown (context : ScoringContext) (jdId resumeId : Uuid)
    (experience : Option ExperienceResult) (education : Option EducationResult)
    (domain : Option DomainResult) (scoreWeights : Option ScoreWeights)
    (thresholds : ScoreThresholds) : ScoreBreakdown :=
  let mandatory := buildMandatorySkillBreakdown context jdId resumeId none
  let preferred := buildPreferredSkillBreakdown context jdId resumeId
  let skillScore := computeTechnicalScore context mandatory preferred
  let qualification := evaluateSkillQualification mandatory skillScore
    thresholds.deterministicThreshold thresholds.requiredSkillCoverageThreshold
    thresholds.maxMissingCoreSkills
  let final :=
    if experience.isNone ∧ education.isNone ∧ domain.isNone then
      (skillScore.getD 100, qualification.skillQualificationPassed)
    else
      combineDeterministicScore context.rounding
        (qualification.coveragePassed && qualification.coreGapPassed)
        ⟨skillScore, experience, education, domain⟩ scoreWeights thresholds.deterministicThreshold
  { mandatory := mandatory
    preferred := preferred
    mandatorySkillScore := mandatory.deterministicScore
    technicalScore := skillScore
    qualification := qualification
    functionalScore := domain.bind DomainResult.score
    deterministicThreshold := thresholds.deterministicThreshold
    deterministicScore := final.1
    deterministicPassed := final.2 }

end CandidateScoringService

end AiHiring
