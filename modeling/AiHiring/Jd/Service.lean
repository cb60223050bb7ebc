import AiHiring.Jd.Model

namespace AiHiring

open Library

-- The arguments of `persist_processed_jd`; the embedding goes to another table.
structure PersistRequest where
  title : Option String
  rawText : String
  jurisdiction : Option String
  (minExperienceYears maxExperienceYears : Option ℚ)
  noticePeriod : Option ℤ
  educationCriteria : Option EducationCriteria
  sourceFormat : JDSourceFormat
  (filePath originalFilename : Option String)
  (createdBy contentHash : String)
  promptTemplateId : Uuid
  extraction : JDExtractionResponse
  skillMatches : List SkillMatchResult
  existingJdId : Option Uuid
  versionNumber : ℕ
  (parentJdId lineageRootId : Option Uuid)

structure UpdateJDRequest where
  (title rawText : Option String)
  jurisdiction : String
  (minExperienceYears maxExperienceYears : ℚ)
  noticePeriod : ℤ
  educationCriteria : EducationCriteria
  promptTemplateId : Uuid

structure JDReprocessRequired where
  existingJdId : Uuid
  versionNumber : ℕ
  (parentJdId lineageRootId : Uuid)
  title : Option String
  jurisdiction : String
  (minExperienceYears maxExperienceYears : ℚ)
  noticePeriod : ℤ
  educationCriteria : EducationCriteria
  (rawText filePath originalFilename oldFilePath : Option String)
  updatedBy : String
  promptTemplateId : Uuid

-- What `update_jd` does after its checks: hand the work to the pipeline, or
-- write the next version itself.
inductive UpdateOutcome where
  | reprocess (required : JDReprocessRequired)
  | metadata (existing : JobDescription) (lineageRootId : Uuid)

namespace JDService

open JDRepository

section Skills

variable (store : SkillStore)

-- One match for each canonical skill, at the place of its first: a mandatory
-- match takes the place of one that is not.
def collapse (kept : List SkillMatchResult) (m : SkillMatchResult) : List SkillMatchResult :=
  if m.canonicalSkillId = none then
    kept
  else
    match kept.find? fun old => old.canonicalSkillId = m.canonicalSkillId with
    | none => kept ++ [m]
    | some existing =>
      if m.mandatory ∧ !existing.mandatory then
        kept.map fun old => if old.canonicalSkillId = m.canonicalSkillId then m else old
      else
        kept

variable (jdId : Uuid) (skillMatches : List SkillMatchResult)

def matchedBySkill : List SkillMatchResult :=
  skillMatches.foldl collapse []

-- The alias ids of every match of the skill, each once; an empty list is NULL.
def aliasSkillIds (skillMatches : List SkillMatchResult) (canonicalSkillId : Uuid) :
    Option (List Uuid) :=
  let ids := ((skillMatches.filter fun m => m.canonicalSkillId = some canonicalSkillId).flatMap
    (·.aliasSkillIds)).eraseDups
  if ids = [] then none else some ids

def jdSkillRow (m : SkillMatchResult) (canonicalSkillId id : Uuid) : JDSkill where
  id := id
  jdId := jdId
  canonicalSkillId := canonicalSkillId
  mandatory := m.mandatory
  weight := some defaultJdSkillWeight
  importance := m.importance
  aliasSkillIds := aliasSkillIds skillMatches canonicalSkillId
  confidence := m.confidence
  matchTier := m.matchTier
  verificationStatus := verificationStatusForTier m.matchTier

def addJdSkill (store : SkillStore) (m : SkillMatchResult) : SkillStore :=
  match m.canonicalSkillId with
  | none => store
  | some canonicalSkillId =>
    SkillRepository.createJdSkill store (jdSkillRow jdId skillMatches m canonicalSkillId)
      fun _ => rfl

def addUnknownSkill (store : SkillStore) (m : SkillMatchResult) : SkillStore :=
  match m.canonicalSkillId with
  | some _ => store
  | none =>
    let (store', unknownSkill, _) :=
      SkillRepository.upsertUnknownSkill store m.rawText (some m.normalizedText)
    SkillRepository.linkUnknownSkillToJd store' jdId unknownSkill.id (some m.mandatory)

def persistSkills : SkillStore :=
  let store' := (matchedBySkill skillMatches).foldl (addJdSkill jdId skillMatches) store
  skillMatches.foldl (addUnknownSkill jdId) store'

end Skills

variable (db : JdDatabase)

def notNull {α : Type} (column : String) : Option α → Except JdError α
  | some value => .ok value
  | none => .error (.integrity s!"null value in column \"{column}\" of job_descriptions")

def duplicateOf (existing : Option JobDescription) : Except JdError Unit :=
  match existing with
  | some jd => .error (.duplicate jd.id jd.title jd.versionNumber)
  | none => .ok ()

section Persist

variable (request : PersistRequest)

-- The checks right before the writes of `persist_processed_jd`.
def persistChecks : Except JdError Unit :=
  match request.existingJdId with
  | none => duplicateOf (getByContentHash db request.contentHash)
  | some existingJdId => do
    duplicateOf (getDuplicateExcludingLineage db request.contentHash request.lineageRootId)
    if hasActiveCampaign db existingJdId then
      Except.error (.conflict ("Cannot complete reprocessing for Job Description with ID " ++
        s!"{text existingJdId}: it has an active hiring campaign assigned."))
    else
      match getById db existingJdId with
      | none => Except.error (.attribute "'NoneType' object has no attribute 'prompt_template_id'")
      | some _ => .ok ()

-- The version the request replaces is loaded again and deactivated, active or not.
def deactivateExisting : JdDatabase :=
  match request.existingJdId.bind (getById db) with
  | some existing => deactivateVersion db existing
  | none => db

def verification (skillMatches : List SkillMatchResult) : JDVerificationStatus :=
  if skillMatches.all fun m => m.canonicalSkillId.isSome then .verified else .partiallyVerified

-- The columns that the request may leave NULL and the table does not allow to be.
structure RequiredColumns where
  title : String
  (minExperienceYears maxExperienceYears : ℚ)
  noticePeriod : ℤ
  educationCriteria : EducationCriteria

def requiredColumns : Except JdError RequiredColumns := do
  let title ← notNull "title" request.title
  let minExperienceYears ← notNull "min_experience_years" request.minExperienceYears
  let maxExperienceYears ← notNull "max_experience_years" request.maxExperienceYears
  let noticePeriod ← notNull "notice_period" request.noticePeriod
  let educationCriteria ← notNull "education_criteria" request.educationCriteria
  return ⟨title, minExperienceYears, maxExperienceYears, noticePeriod, educationCriteria⟩

def persistRow (columns : RequiredColumns) (id : Uuid) : JobDescription where
  id := id
  title := columns.title
  rawText := request.rawText
  extractedJson := request.extraction
  requiredSkills :=
    ⟨request.extraction.requiredSkills, request.extraction.preferredSkills,
      request.extraction.aliases⟩
  minExperienceYears := columns.minExperienceYears
  maxExperienceYears := columns.maxExperienceYears
  noticePeriod := columns.noticePeriod
  educationCriteria := columns.educationCriteria
  sourceFormat := request.sourceFormat
  filePath := request.filePath
  originalFilename := request.originalFilename
  contentHash := request.contentHash
  versionNumber := request.versionNumber
  isActiveVersion := true
  lineageRootId := request.lineageRootId
  parentJdId := request.parentJdId
  closedAt := none
  jurisdiction := request.jurisdiction
  createdBy := request.createdBy
  promptTemplateId := request.promptTemplateId
  isVerified := verification request.skillMatches

def withSkills (db : JdDatabase) (jdId : Uuid) (skillMatches : List SkillMatchResult) :
    JdDatabase :=
  { db with toSkillStore := persistSkills db.toSkillStore jdId skillMatches }

def persistWrites : Except JdError (JdDatabase × Uuid) := do
  let columns ← requiredColumns request
  let (db', id) ← createJobDescription (deactivateExisting db request)
    (persistRow request columns) fun _ => rfl
  return (withSkills db' id request.skillMatches, id)

def persistProcessedJd : Except JdError (JdDatabase × Uuid) := do
  persistChecks db request
  persistWrites db request

theorem persistWrites_eq_ok (result : JdDatabase × Uuid)
    (h : persistWrites db request = .ok result) :
    ∃ columns jobDescriptions,
      (deactivateExisting db request).jobDescriptions.insert (persistRow request columns)
        (fun _ => rfl) = .ok (jobDescriptions, result.2) ∧
      result.1 = withSkills { deactivateExisting db request with
        jobDescriptions := jobDescriptions } result.2 request.skillMatches := by
  simp only [persistWrites, bind_eq_ok] at h
  obtain ⟨columns, -, created, hcreate, hresult⟩ := h
  obtain ⟨jobDescriptions, hinsert, hdb⟩ := createJobDescription_eq_ok _ _ _ _ hcreate
  cases hresult
  exact ⟨columns, jobDescriptions, hinsert, by rw [hdb]⟩

end Persist

section Update

-- `validate_prompt_template_selection` for the task type JD_PARSE.
def validatePromptTemplateSelection (promptTemplateId : Uuid) : Except JdError PromptTemplate :=
  match db.promptTemplates.find? promptTemplateId with
  | none => .error (.unprocessable "Selected Prompt Template does not exist.")
  | some prompt =>
    if !prompt.active then
      .error (.unprocessable "Selected Prompt Template is inactive.")
    else if prompt.taskType ≠ "JD_PARSE" then
      .error (.unprocessable "Selected Prompt Template is not a JD Parsing prompt.")
    else
      .ok prompt

variable (generateHash : String → String)

def given (rawText : Option String) : Option String := rawText.filter (· ≠ "")

def checkDuplicate (request : UpdateJDRequest) (lineageRootId : Uuid) : Except JdError Unit :=
  match given request.rawText with
  | none => .ok ()
  | some rawText =>
    duplicateOf (getDuplicateExcludingLineage db (generateHash rawText) (some lineageRootId))

def reprocessRequired (request : UpdateJDRequest) (updatedBy : String)
    (filePath originalFilename : Option String) (existing : JobDescription)
    (lineageRootId : Uuid) (rawTextChanged : Bool) : JDReprocessRequired where
  existingJdId := existing.id
  versionNumber := existing.versionNumber + 1
  parentJdId := existing.id
  lineageRootId := lineageRootId
  title := request.title
  jurisdiction := request.jurisdiction
  minExperienceYears := request.minExperienceYears
  maxExperienceYears := request.maxExperienceYears
  noticePeriod := request.noticePeriod
  educationCriteria := request.educationCriteria
  rawText := if rawTextChanged then request.rawText else none
  filePath := filePath
  originalFilename := if filePath.isSome then originalFilename else existing.originalFilename
  oldFilePath := existing.filePath
  updatedBy := updatedBy
  promptTemplateId := request.promptTemplateId

-- `update_jd` up to its first write.
def updateJd (jdId : Uuid) (request : UpdateJDRequest) (updatedBy : String)
    (filePath originalFilename : Option String) : Except JdError UpdateOutcome :=
  match getById db jdId with
  | none => Except.error (.notFound s!"Job Description with ID {text jdId} not found.")
  | some existing =>
    if !existing.isActiveVersion then
      Except.error (.badRequest
        s!"Cannot update an inactive version of the Job Description with ID {text jdId}.")
    else if hasActiveCampaign db jdId then
      Except.error (.conflict (s!"Cannot update Job Description with ID {text jdId}: " ++
        "it has an active hiring campaign assigned."))
    else do
      let _ ← validatePromptTemplateSelection db request.promptTemplateId
      checkDuplicate db generateHash request existing.lineage
      let rawTextChanged := (given request.rawText).any (· ≠ existing.rawText)
      if rawTextChanged ∨ filePath.isSome then
        return .reprocess (reprocessRequired request updatedBy filePath originalFilename
          existing existing.lineage rawTextChanged)
      else
        return .metadata existing existing.lineage

theorem updateJd_eq_ok (jdId : Uuid) (request : UpdateJDRequest) (updatedBy : String)
    (filePath originalFilename : Option String) (outcome : UpdateOutcome)
    (h : updateJd db generateHash jdId request updatedBy filePath originalFilename = .ok outcome) :
    ∃ existing, getById db jdId = some existing ∧ existing.isActiveVersion = true ∧
      (outcome = .metadata existing existing.lineage ∨
        ∃ rawTextChanged, outcome = .reprocess (reprocessRequired request updatedBy filePath
          originalFilename existing existing.lineage rawTextChanged)) := by
  rw [updateJd] at h
  cases hfound : getById db jdId with
  | none => simp [hfound] at h
  | some existing =>
    simp only [hfound] at h
    split_ifs at h with hinactive hcampaign hchanged
    · simp only [bind_eq_ok] at h
      obtain ⟨_, -, _, -, h⟩ := h
      exact ⟨existing, rfl, by simpa using hinactive, .inr ⟨_, (Except.ok.inj h).symm⟩⟩
    · simp only [bind_eq_ok] at h
      obtain ⟨_, -, _, -, h⟩ := h
      exact ⟨existing, rfl, by simpa using hinactive, .inl (Except.ok.inj h).symm⟩

-- `_build_job_description` on the metadata-only path.
def nextVersion (request : UpdateJDRequest) (title updatedBy : String)
    (existing : JobDescription) (lineageRootId id : Uuid) : JobDescription where
  id := id
  title := title
  rawText := (given request.rawText).getD existing.rawText
  extractedJson := existing.extractedJson
  requiredSkills := existing.requiredSkills
  minExperienceYears := request.minExperienceYears
  maxExperienceYears := request.maxExperienceYears
  noticePeriod := request.noticePeriod
  educationCriteria := request.educationCriteria
  sourceFormat := existing.sourceFormat
  filePath := existing.filePath
  originalFilename := existing.originalFilename
  contentHash := generateHash ((given request.rawText).getD existing.rawText)
  versionNumber := existing.versionNumber + 1
  isActiveVersion := true
  lineageRootId := some lineageRootId
  parentJdId := some existing.id
  closedAt := none
  jurisdiction := some request.jurisdiction
  createdBy := updatedBy
  promptTemplateId := request.promptTemplateId
  isVerified := existing.isVerified

def metadataWrites (request : UpdateJDRequest) (updatedBy : String) (existing : JobDescription)
    (lineageRootId : Uuid) : Except JdError (JdDatabase × Uuid) := do
  let title ← notNull "title" request.title
  createJobDescription (deactivateVersion db existing)
    (nextVersion generateHash request title updatedBy existing lineageRootId) fun _ => rfl

theorem metadataWrites_eq_ok (request : UpdateJDRequest) (updatedBy : String)
    (existing : JobDescription) (lineageRootId : Uuid) (result : JdDatabase × Uuid)
    (h : metadataWrites db generateHash request updatedBy existing lineageRootId = .ok result) :
    ∃ title jobDescriptions, (deactivateVersion db existing).jobDescriptions.insert
        (nextVersion generateHash request title updatedBy existing lineageRootId)
        (fun _ => rfl) = .ok (jobDescriptions, result.2) ∧
      result.1 = { deactivateVersion db existing with jobDescriptions := jobDescriptions } := by
  simp only [metadataWrites, bind_eq_ok] at h
  obtain ⟨title, -, hcreate⟩ := h
  obtain ⟨jobDescriptions, hinsert, hdb⟩ := createJobDescription_eq_ok _ _ _ _ hcreate
  exact ⟨title, jobDescriptions, hinsert, hdb⟩

end Update

-- `deactivate_jd` up to its first write.
def deactivateJd (jdId : Uuid) : Except JdError JobDescription :=
  match getById db jdId with
  | none => .error (.notFound s!"Job Description with ID {text jdId} not found.")
  | some existing =>
    if !existing.isActiveVersion then
      .error (.badRequest s!"Job Description with ID {text jdId} is already inactive.")
    else if hasActiveCampaign db jdId then
      .error (.conflict (s!"Cannot delete Job Description with ID {text jdId}: " ++
        "it has an active hiring campaign assigned."))
    else
      .ok existing

theorem deactivateJd_eq_ok (jdId : Uuid) (existing : JobDescription)
    (h : deactivateJd db jdId = .ok existing) :
    getById db jdId = some existing ∧ existing.isActiveVersion = true := by
  rw [deactivateJd] at h
  cases hfound : getById db jdId with
  | none => simp [hfound] at h
  | some found =>
    simp only [hfound] at h
    split_ifs at h with hinactive hcampaign
    cases h
    exact ⟨rfl, by simpa using hinactive⟩

def closeWrites (existing : JobDescription) (now : Instant) : JdDatabase :=
  { db with jobDescriptions := db.jobDescriptions.amend (closing existing.id now) }

end JDService

end AiHiring
