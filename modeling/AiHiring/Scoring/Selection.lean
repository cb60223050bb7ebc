import AiHiring.Campaign.Model
import AiHiring.Scoring.Deterministic
import AiHiring.Talent.Embedding

namespace AiHiring

open Library CandidateScoringService

structure WorkExperience where
  (title description startDate endDate : Option String)

structure Project where
  (name description : Option String)

-- The part of a resume's parsed_json that scoring reads.
structure ParsedJson where
  summary : Option String
  workExperience : List WorkExperience
  projects : List Project
  education : List EducationEntry
  totalExperienceYears : Option ℚ

def ParsedJson.empty : ParsedJson where
  summary := none
  workExperience := []
  projects := []
  education := []
  totalExperienceYears := none

-- The part of a JD's extracted_json that scoring reads beside the skills.
structure JDRequirements where
  minExperienceYears : Option ℚ
  education : Option EducationEntry
  (requiredCapabilities preferredCapabilities : List String)

structure ScoredJd where
  id : Uuid
  minExperienceYears : Option ℚ
  educationDegree : Option String
  extractedJson : Option JDRequirements

structure ScoredCampaign extends CampaignRow where
  jdId : Uuid
  requiredSkillCoverageThreshold : ℚ
  maxMissingCoreSkills : ℤ

-- How the texts of a resume and of a JD are read. The years come from
-- `annotate_work_experience_durations`.
structure TextReaders where
  classifyDegreeLevel : Option String → Option DegreeLevel
  capabilityText : CapabilityText
  splitChunks : String → List String
  totalExperienceYears : ParsedJson → Option ℚ

namespace DomainCapabilityMatchingService

def capabilityList (values : List String) : List String :=
  (values.map strip).filter (· ≠ "")

def evidenceChunks (splitChunks : String → List String) (json : ParsedJson) : List String :=
  (json.summary.toList ++
    json.workExperience.flatMap (fun entry => entry.title.toList ++ entry.description.toList) ++
    json.projects.flatMap fun entry => entry.name.toList ++ entry.description.toList).flatMap
      splitChunks

def evaluateJson (readers : TextReaders) (r : Rounding) (jdJson : Option JDRequirements)
    (resumeJson : ParsedJson) : DomainResult :=
  evaluate readers.capabilityText r
    (capabilityList ((jdJson.map JDRequirements.requiredCapabilities).getD []))
    (capabilityList ((jdJson.map JDRequirements.preferredCapabilities).getD []))
    (evidenceChunks readers.splitChunks resumeJson)

end DomainCapabilityMatchingService

-- What both of the callers below read.
structure SelectionDb (V : Type) extends TalentDb V where
  jobDescriptions : Table ScoredJd ScoredJd.id
  parsedJson : Uuid → Option ParsedJson
  jdEmbedding : Uuid → Bool
  similarity : Uuid → Uuid → Option ℚ
  scoring : ScoringContext

namespace DeterministicScoringTask

variable {V : Type} (db : SelectionDb V) (readers : TextReaders)

-- `calculate_deterministic_score_task`, from its read of the resume to what it
-- stores through `calculate_and_store_score_breakdown`.
def calculateDeterministicScore (campaign : ScoredCampaign) (resumeId : Uuid) :
    Except String ScoreBreakdown :=
  let configs := db.scoring.config
  match db.resumes.find? resumeId with
  | none => .error (s!"Resume '{resumeId}' has not completed parsing/skill " ++
      "normalization yet - deterministic scoring cannot run.")
  | some resume =>
  if resume.parseStatus ≠ .parsed then
    .error (s!"Resume '{resumeId}' has not completed parsing/skill " ++
      "normalization yet - deterministic scoring cannot run.")
  else
  match db.jobDescriptions.find? campaign.jdId with
  | none => .error s!"Job description '{campaign.jdId}' not found."
  | some jobDescription =>
  let parsedJson := (db.parsedJson resumeId).getD ParsedJson.empty
  let candidateTotalYears := readers.totalExperienceYears parsedJson
  let jdExtractedEducation := jobDescription.extractedJson.bind JDRequirements.education
  let validationService : ExperienceEducationValidationService :=
    ⟨(configs "EXPERIENCE_TOLERANCE_YEARS").getD 0, configs "EQUIVALENT_EXPERIENCE_YEARS"⟩
  let jdExtractedExperience := jobDescription.extractedJson.bind JDRequirements.minExperienceYears
  let experienceResult := validationService.validateExperience db.scoring.rounding
    jobDescription.minExperienceYears candidateTotalYears jdExtractedExperience
  let educationResult := validationService.validateEducation db.scoring.rounding
    readers.classifyDegreeLevel jobDescription.educationDegree parsedJson.education
    candidateTotalYears jdExtractedEducation
  let scoreWeights : ScoreWeights :=
    { skills := (configs "DETERMINISTIC_WEIGHT_SKILLS").getD (7 / 10)
      experience := (configs "DETERMINISTIC_WEIGHT_EXPERIENCE").getD (3 / 20)
      education := (configs "DETERMINISTIC_WEIGHT_EDUCATION").getD (3 / 20)
      functional := (configs "DETERMINISTIC_WEIGHT_FUNCTIONAL").getD (3 / 20) }
  let domainResult := DomainCapabilityMatchingService.evaluateJson readers db.scoring.rounding
    jobDescription.extractedJson parsedJson
  .ok (calculateScoreBreakdown db.scoring campaign.jdId resumeId (some experienceResult)
    (some educationResult) (some domainResult) (some scoreWeights)
    ⟨campaign.deterministicThreshold, campaign.requiredSkillCoverageThreshold,
      campaign.maxMissingCoreSkills⟩)

end DeterministicScoringTask

inductive SelectionMethod where
  | direct
  | compared
  deriving DecidableEq, Repr

structure EvaluatedResume where
  resume : ResumeRow
  deterministicScore : Option ℚ
  deterministicPassed : Option Bool
  semanticScore : Option ℚ
  semanticPassed : Option Bool
  selectionScore : Option ℚ
  isSelected : Bool

structure ResumeSelectionResult where
  selectedResume : ResumeRow
  selectionMethod : SelectionMethod
  evaluatedResumes : List EvaluatedResume

inductive SelectionError where
  | unprocessable (error : UnprocessableError)
  | campaign (error : CampaignException)

namespace ResumeSelectionService

variable {V : Type} (db : SelectionDb V) (readers : TextReaders)

-- What `_experience_education_context` hands to every version.
structure ValidationContext where
  validationService : ExperienceEducationValidationService
  minExperienceYears : Option ℚ
  requiredDegreeText : Option String
  scoreWeights : ScoreWeights

def defaultExperienceToleranceYears : ℚ := 0
def defaultDeterministicWeightSkills : ℚ := 7 / 10
def defaultDeterministicWeightExperience : ℚ := 3 / 20
def defaultDeterministicWeightEducation : ℚ := 3 / 20
def defaultDeterministicWeightFunctional : ℚ := 3 / 20

def experienceEducationContext (configs : PlatformConfig) (jobDescription : ScoredJd) :
    ValidationContext where
  validationService :=
    ⟨(configs "EXPERIENCE_TOLERANCE_YEARS").getD defaultExperienceToleranceYears,
      configs "EQUIVALENT_EXPERIENCE_YEARS"⟩
  minExperienceYears := jobDescription.minExperienceYears
  requiredDegreeText := jobDescription.educationDegree
  scoreWeights :=
    { skills := (configs "DETERMINISTIC_WEIGHT_SKILLS").getD defaultDeterministicWeightSkills
      experience := (configs "DETERMINISTIC_WEIGHT_EXPERIENCE").getD
        defaultDeterministicWeightExperience
      education := (configs "DETERMINISTIC_WEIGHT_EDUCATION").getD
        defaultDeterministicWeightEducation
      functional := (configs "DETERMINISTIC_WEIGHT_FUNCTIONAL").getD
        defaultDeterministicWeightFunctional }

def selectionWeights (campaign : ScoredCampaign) (jdHasEmbedding : Bool) : ℚ × ℚ :=
  let weightDeterministic := campaign.weightDeterministic
  let weightSemantic := if jdHasEmbedding then campaign.weightSemantic else 0
  let total := weightDeterministic + weightSemantic
  if total ≤ 0 then (100, 0)
  else (weightDeterministic / total * 100, weightSemantic / total * 100)

def scoreDeterministic (resume : ResumeRow) (campaign : ScoredCampaign)
    (jobDescription : ScoredJd) (context : ValidationContext) (hierarchy : SkillHierarchy) :
    ℚ × Bool :=
  let r := db.scoring.rounding
  let parsedJson := (db.parsedJson resume.id).getD ParsedJson.empty
  let candidateTotalYears := readers.totalExperienceYears parsedJson
  let jdExtractedEducation := jobDescription.extractedJson.bind JDRequirements.education
  let jdExtractedExperience := jobDescription.extractedJson.bind JDRequirements.minExperienceYears
  let experienceResult := context.validationService.validateExperience r
    context.minExperienceYears candidateTotalYears jdExtractedExperience
  let educationResult := context.validationService.validateEducation r
    readers.classifyDegreeLevel context.requiredDegreeText parsedJson.education
    candidateTotalYears jdExtractedEducation
  let breakdown := buildMandatorySkillBreakdown db.scoring jobDescription.id resume.id
    (some hierarchy)
  let preferredBreakdown := buildPreferredSkillBreakdown db.scoring jobDescription.id resume.id
  let skillScore := computeTechnicalScore db.scoring breakdown preferredBreakdown
  let qualification := evaluateSkillQualification breakdown skillScore
    campaign.deterministicThreshold campaign.requiredSkillCoverageThreshold
    campaign.maxMissingCoreSkills
  let structuralPassed := qualification.coveragePassed && qualification.coreGapPassed
  let domainResult := DomainCapabilityMatchingService.evaluateJson readers r
    jobDescription.extractedJson parsedJson
  combineDeterministicScore r structuralPassed
    ⟨skillScore, some experienceResult, some educationResult, some domainResult⟩
    (some context.scoreWeights) campaign.deterministicThreshold

def scoreSemantic (resume : ResumeRow) (campaign : ScoredCampaign) : Option ℚ × Option Bool :=
  match db.similarity resume.id campaign.jdId with
  | none => (none, none)
  | some similarity =>
    let similarity := if similarity < 0 then 0 else similarity
    (some similarity, some (campaign.semanticThreshold ≤ similarity))

def evaluateOne (campaign : ScoredCampaign) (jobDescription : ScoredJd) (jdHasEmbedding : Bool)
    (context : ValidationContext) (weights : ℚ × ℚ) (hierarchy : SkillHierarchy)
    (resume : ResumeRow) : EvaluatedResume :=
  let deterministic := scoreDeterministic db readers resume campaign jobDescription context
    hierarchy
  let semantic := if jdHasEmbedding then scoreSemantic db resume campaign else (none, none)
  let semanticComponent := (semantic.1.map (· * 100)).getD 0
  { resume := resume
    deterministicScore := some deterministic.1
    deterministicPassed := some deterministic.2
    semanticScore := semantic.1
    semanticPassed := semantic.2
    selectionScore := some (db.scoring.rounding.round 2
      (weights.1 / 100 * deterministic.1 + weights.2 / 100 * semanticComponent))
    isSelected := false }

-- The winner is the first one with the highest score; it is told apart from the
-- others by its place in the list.
def finalize (evaluated : List EvaluatedResume) : List EvaluatedResume :=
  let winner := evaluated.zipIdx.argmax fun entry => entry.1.selectionScore.getD 0
  evaluated.zipIdx.map fun entry =>
    { entry.1 with isSelected := winner.any fun w => entry.2 = w.2 }

def compareAndSelect (eligibleResumes : List ResumeRow) (campaign : ScoredCampaign) :
    Except SelectionError ResumeSelectionResult :=
  match db.jobDescriptions.find? campaign.jdId with
  | none => .error (.campaign ⟨"Job description not found for this campaign.", 404⟩)
  | some jobDescription =>
    let jdHasEmbedding := db.jdEmbedding campaign.jdId
    let weights := selectionWeights campaign jdHasEmbedding
    let context := experienceEducationContext db.scoring.config jobDescription
    -- loaded once for all versions
    let hierarchy := loadMandatorySkillHierarchyForJd db.scoring.store jobDescription.id
    let finalized := finalize (eligibleResumes.map
      (evaluateOne db readers campaign jobDescription jdHasEmbedding context weights hierarchy))
    match finalized.find? EvaluatedResume.isSelected with
    | none => .error (.unprocessable noEligibleResume)
    | some selected => .ok ⟨selected.resume, .compared, finalized⟩

-- Most recent first.
def getAllVersionsByCandidate (candidateId : Uuid) : List ResumeRow :=
  (db.resumes.rows.filter fun r => r.candidateId = candidateId).mergeSort
    fun a b => b.versionNumber ≤ a.versionNumber

def eligible (fresh : ResumeRow → Bool) (candidateId : Uuid) : List ResumeRow :=
  (getAllVersionsByCandidate db candidateId).filter fun r =>
    TalentPool.isEligible db.toTalentDb fresh r

def selectResumeForCampaign (fresh : ResumeRow → Bool) (candidateId : Uuid)
    (campaign : ScoredCampaign) : Except SelectionError ResumeSelectionResult :=
  match eligible db fresh candidateId with
  | [] => .error (.unprocessable noEligibleResume)
  | [resume] => .ok ⟨resume, .direct, [⟨resume, none, none, none, none, none, true⟩]⟩
  | eligibleResumes => compareAndSelect db readers eligibleResumes campaign

end ResumeSelectionService

end AiHiring
