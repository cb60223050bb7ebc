import AiHiring.Resume.Model

namespace AiHiring

open Library Transaction ResumeM

namespace CandidateService

def erasureBlocked (candidate : CandidateRow) : Bool :=
  candidate.erasureRequestedAt ≠ none ∨ candidate.isPiiDeleted

def newCandidate (emailHash : String) (id : Uuid) : CandidateRow where
  id := id
  emailHash := emailHash
  erasureRequestedAt := none
  isPiiDeleted := false

-- `get_or_create`; a candidate it creates is committed here already.
def getOrCreate (emailHash : String) : ResumeM CandidateRow := do
  match ← query (CandidateRepository.getByEmailHash · emailHash) with
  | some existing => if erasureBlocked existing then raise .erasureBlocked else pure existing
  | none =>
    let candidate ← call
      (fun db => { db with
        candidates := db.candidates.insert (newCandidate emailHash) fun _ => rfl })
      fun db => pure (newCandidate emailHash db.candidates.next)
    commitAs .candidate
    pure candidate

end CandidateService

namespace ResumeRepository

-- The numbering that the three creators of a version share: an active resume
-- is what tells a resubmission from a candidate's first file.
def nextVersionNumber (candidateId : Uuid) : ResumeM ℕ := do
  match ← query (getActiveByCandidate · candidateId) with
  | none => pure 1
  | some _ =>
    let highest ← query (getMaxVersionNumber · candidateId)
    flush (deactivateActiveVersion · candidateId)
    pure (highest + 1)

structure NewResume where
  candidateId : Uuid
  filePath : String
  fileFormat : FileFormat
  (fileHash uploadedBy : String)
  bulkUploadJobId : Option Uuid
  taskId : Option String

def newVersion (fields : NewResume) (versionNumber : ℕ) (id : Uuid) : ResumeRow where
  id := id
  candidateId := fields.candidateId
  filePath := fields.filePath
  fileFormat := fields.fileFormat
  fileHash := fields.fileHash
  versionNumber := versionNumber
  isActiveVersion := true
  parseStatus := .pending
  parserVersion := none
  uploadedBy := fields.uploadedBy
  bulkUploadJobId := fields.bulkUploadJobId
  taskId := fields.taskId

def createVersion (fields : NewResume) : ResumeM ResumeRow := do
  let versionNumber ← nextVersionNumber fields.candidateId
  insertResume (newVersion fields versionNumber) fun _ => rfl

def setTaskId (resumeId : Uuid) (taskId : String) (db : ResumeDb) : ResumeDb :=
  { db with
    resumes := db.resumes.modify
      (fun r => if r.id = resumeId then { r with taskId := some taskId } else r)
      (fun r => by split_ifs <;> rfl) }

end ResumeRepository

inductive Resolution where
  | useExisting
  | uploadAnyway
  deriving DecidableEq, Repr

structure UploadRequest where
  campaignId : Uuid
  file : UploadedFile
  (emailHash uploadedBy : String)
  actorRole : Option String
  resolution : Option Resolution

structure UploadResumeResult where
  resume : ResumeRow
  (requiresProcessing duplicateFound : Bool)

namespace ResumeUploadService

open ResumeRepository

-- `_create_next_version`
def createNextVersion (candidateId : Uuid) (objectPath : String) (fileFormat : FileFormat)
    (request : UploadRequest) : ResumeM ResumeRow := do
  let resume ← createVersion
    { candidateId, filePath := objectPath, fileFormat, fileHash := request.file.fileHash,
      uploadedBy := request.uploadedBy, bulkUploadJobId := none, taskId := none }
  commitAs .resume
  pure resume

def upload (request : UploadRequest) : ResumeM UploadResumeResult := do
  let fileFormat ← ofExcept request.file.fileFormat
  match ← query (getByFileHashGlobal · request.file.fileHash) with
  | some matchedResume =>
    match request.resolution with
    | none => raise (.duplicateFile matchedResume.id)
    | some .useExisting =>
      pure { resume := matchedResume, requiresProcessing := false, duplicateFound := true }
    | some .uploadAnyway => do
      -- the identity is the matched file's, not the form's
      let objectPath ← ofExcept request.file.objectPath
      let resume ← createNextVersion matchedResume.candidateId objectPath fileFormat request
      pure { resume, requiresProcessing := true, duplicateFound := true }
  | none => do
    let objectPath ← ofExcept request.file.objectPath
    let candidate ← CandidateService.getOrCreate request.emailHash
    let resume ← createNextVersion candidate.id objectPath fileFormat request
    pure { resume, requiresProcessing := true, duplicateFound := false }

def recordTaskId (resumeId : Uuid) (taskId : String) : ResumeM Unit := do
  flush (setTaskId resumeId taskId)
  commitAs .taskId

end ResumeUploadService

-- What `parse_bulk_upload_file` knows of a file once its stages have run.
structure BulkResume where
  jobId : Uuid
  (taskId storagePath : String)
  fileFormat : FileFormat
  (fileHash emailHash uploadedBy : String)

-- The part of `parse_bulk_upload_file` that creates the candidate's next resume.
def createBulkResume (file : BulkResume) : ResumeM ResumeRow := do
  let candidate ← CandidateService.getOrCreate file.emailHash
  let resume ← ResumeRepository.createVersion
    { candidateId := candidate.id, filePath := file.storagePath, fileFormat := file.fileFormat,
      fileHash := file.fileHash, uploadedBy := file.uploadedBy,
      bulkUploadJobId := some file.jobId, taskId := some file.taskId }
  commitAs .resume
  pure resume

namespace CampaignCandidateRepository

-- Everything the earlier resume was judged by, but for `semantic_breakdown`.
def resetForResubmission (cc : CampaignCandidate) (newResumeId : Uuid) : CampaignCandidate :=
  { resetEvaluationDerivedFields cc with resumeId := newResumeId }

end CampaignCandidateRepository

-- `CampaignCandidateAIEvaluationRepository.reset`
def CampaignCandidateAIEvaluation.reset (_ : CampaignCandidateAIEvaluation) :
    CampaignCandidateAIEvaluation where
  aiEvaluationStatus := .pending
  effectiveAiScore := none

namespace CampaignCandidateService

open PipelineTransitionService

structure ResubmissionRequest where
  campaignCandidateId : Uuid
  file : UploadedFile
  actorId : String
  (actorRole reason : Option String)
  newTaskId : String

-- The four exceptions of `transition_stage` that the resubmission wraps.
def resubmissionError : ServiceError → ServiceError
  | .invalidTransition fromStage toStage =>
    .campaign (ServiceError.invalidTransition fromStage toStage).message 409
  | .reasonRequired fromStage toStage =>
    .campaign (ServiceError.reasonRequired fromStage toStage).message 400
  | .forbiddenRole fromStage toStage roles =>
    .campaign (ServiceError.forbiddenRole fromStage toStage roles).message 403
  | .stageConflict expectedStage =>
    .campaign (ServiceError.stageConflict expectedStage).message 409
  | e => e

def updateResumeForResubmission (table : TransitionTable) (request : ResubmissionRequest)
    (now : Instant) : ResumeM Uuid := do
  match ← query fun db =>
      CampaignCandidateRepository.getById db.toDb request.campaignCandidateId with
  | none => raise (.service (.campaign "Campaign candidate not found." 404))
  | some cc =>
    match ← query fun db => transitionStage table db.toDb true cc
        (boardRequest .uploaded request.actorId request.actorRole request.reason) now with
    | .error e => raise (.service (resubmissionError e))
    | .ok (moved, cc) => do
      flush fun db => { db with toDb := moved }
      let fileFormat ← ofExcept request.file.fileFormat
      let objectPath ← ofExcept request.file.objectPath
      let resume ← ResumeRepository.createVersion
        { candidateId := cc.candidateId, filePath := objectPath, fileFormat,
          fileHash := request.file.fileHash, uploadedBy := request.actorId,
          bulkUploadJobId := none, taskId := none }
      flush fun db => { db with
        campaignCandidates := db.campaignCandidates.replace
          { CampaignCandidateRepository.resetForResubmission cc resume.id with
            aiEvaluation := cc.aiEvaluation.map (·.reset) } }
      commitAs .link
      flush (ResumeRepository.setTaskId resume.id request.newTaskId)
      commitAs .taskId
      pure resume.id

end CampaignCandidateService

namespace ResumeCleanupService

-- The rows of other modelled tables that refer to a campaign_candidate and
-- that the cleanup leaves in place; their foreign keys refuse the delete.
def referenced (db : ResumeDb) (campaignCandidateId : Uuid) : Bool :=
  db.transitionLog.any (·.campaignCandidateId = campaignCandidateId) ||
    db.interviewSchedules.rows.any (·.campaignCandidateId = campaignCandidateId)

def removeCampaignCandidate (db : ResumeDb) (campaignCandidateId : Uuid) : ResumeDb :=
  { db with
    stageHistory := db.stageHistory.delete (·.campaignCandidateId = campaignCandidateId)
    taskLogs := db.taskLogs.delete (·.campaignCandidateId = some campaignCandidateId)
    campaignCandidates := db.campaignCandidates.delete (·.id = campaignCandidateId) }

def removeAll (db : ResumeDb) (removed : List CampaignCandidate) : ResumeDb :=
  removed.foldl (fun db cc => removeCampaignCandidate db cc.id) db

def deleteResume (resumeId : Uuid) (actorId : String) (actorRole reason : Option String) :
    ResumeM Unit := do
  match ← query (ResumeRepository.getById · resumeId) with
  | none => raise (.service (.notFound s!"Resume {text resumeId} not found."))
  | some resume => do
    let removed ← query (CampaignCandidateRepository.getByResumeId · resumeId)
    let blocked ← query fun db => removed.any fun cc => referenced db cc.id
    if blocked then raise (.service (.integrity "campaign_candidate_id"))
    else do
      flush (removeAll · removed)
      flush fun db => { db with
        taskLogs := db.taskLogs.delete (·.resumeId = some resumeId) }
      flush (ResumeRepository.delete · resume)
      flush fun db => { db with
        toDb := AuditService.log db.toDb (some actorId) actorRole .resumeDeleted .resume resumeId
          none
          (some [("candidate_id", .str (text resume.candidateId)),
            ("was_active_version", .bool resume.isActiveVersion),
            ("had_bulk_origin", .bool (resume.bulkUploadJobId ≠ none)),
            ("campaign_candidates_removed", .num removed.length),
            ("campaign_ids_affected", .arr (removed.map fun cc => .str (text cc.campaignId))),
            ("reason", .ofString? reason)]) }
      commitAs .deletion

end ResumeCleanupService

end AiHiring
