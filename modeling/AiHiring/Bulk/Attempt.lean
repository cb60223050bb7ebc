import AiHiring.Bulk.Job
import AiHiring.Resume.Persisted
import AiHiring.Resume.Scoring
import Mathlib.Data.List.Infix

namespace AiHiring

open Library

-- One file of a bulk job, with what the stages make of it on every attempt.
-- `identity` is the email hash of the candidate that the extraction names.
structure BulkSubmission where
  (fileId campaignId jobId : Uuid)
  storagePath : String
  fileFormat : FileFormat
  (fileHash uploadedBy : String)
  identity : Option String
  skillMatches : List SkillMatchResult

-- The tables a parse task writes: of the bulk job, of the resumes and the
-- campaign, and of the skills.
structure BulkFileDb where
  bulk : BulkDb
  resume : ResumeDb
  skills : JdDatabase

-- A stage that fails in one attempt, with the task id drawn for the replay if
-- the failure is dead-lettered.
structure StageFailure where
  stage : ProcessingStage
  fault : StageFault
  classification : FailureClassification
  newTaskId : String

inductive AttemptEnd where
  | resolved (db : BulkFileDb)
  | stageFailed (resume : Option ResumeRow) (db : BulkFileDb)

namespace AttemptEnd

def db : AttemptEnd → BulkFileDb
  | resolved db => db
  | stageFailed _ db => db

end AttemptEnd

namespace ResumeRepository

def markParseFailed (db : ResumeDb) (resumeId : Uuid) : ResumeDb :=
  { db with
    resumes := db.resumes.modify
      (fun r => if r.id = resumeId then { r with parseStatus := .failed } else r)
      (fun r => by split_ifs <;> rfl) }

end ResumeRepository

namespace BulkSubmission

open BulkUploadJobRepository BulkUploadJobFileRepository ResumeRepository

variable (s : BulkSubmission)

-- Run before the candidate is known.
def identityStages : List ProcessingStage :=
  [.textExtraction, .textCleaning, .piiDetection, .piiRedaction, .aiExtraction, .jsonValidation]

-- Run by `pipeline.run`, once the resume row is committed.
def resumeStages : List ProcessingStage := [.skillNormalization, .persistence]

def toBulkResume (taskId emailHash : String) : BulkResume where
  jobId := s.jobId
  taskId := taskId
  storagePath := s.storagePath
  fileFormat := s.fileFormat
  fileHash := s.fileHash
  emailHash := emailHash
  uploadedBy := s.uploadedBy

def toResumeRequest (resume : ResumeRow) : ResumeRequest where
  candidateId := resume.candidateId
  resumeId := resume.id
  skillMatches := s.skillMatches

def finalize (bulk : BulkDb) : BulkDb :=
  match maybeFinalizeJob bulk.job with
  | some status => BulkUploadJobRepository.updateStatus bulk status
  | none => bulk

-- The outcome of the file, its counter, and the closing of the job.
def record (db : BulkFileDb) (status : BulkUploadFileStatus) (column : CountColumn) : BulkFileDb :=
  { db with
    bulk := finalize (enter (BulkUploadJobFileRepository.updateStatus db.bulk s.fileId status)
      s.fileId column 1) }

-- `status_code == 409 and "already exists in this campaign" in message`
def isDuplicate : ServiceError → Bool
  | .campaign message statusCode =>
    statusCode = 409 ∧ "already exists in this campaign".toList <:+: message.toList
  | _ => false

-- `except CampaignException`
def recordError (db : BulkFileDb) (e : ServiceError) : BulkFileDb :=
  record s db .failed (if isDuplicate e then .duplicate else .failed)

def createCampaignCandidate (db : BulkFileDb) (candidateId resumeId : Uuid) :
    Except ServiceError BulkFileDb :=
  match CampaignCandidateService.createCampaignCandidate db.resume.toDb s.campaignId candidateId
      resumeId s.uploadedBy none with
  | .ok (linked, _) => .ok { db with resume := { db.resume with toDb := linked } }
  | .error e => .error e

-- The file is known already: its candidate is linked unless it is.
def linkMatched (db : BulkFileDb) (matched : ResumeRow) : BulkFileDb :=
  match CampaignCandidateRepository.getByCampaignAndCandidate db.resume s.campaignId
      matched.candidateId with
  | some _ => record s db .processed .duplicate
  | none =>
    match createCampaignCandidate s db matched.candidateId matched.id with
    | .ok db => record s db .processed .duplicate
    | .error e => recordError s db e

-- SKILL_NORMALIZATION, PERSISTENCE and what follows them. A stage that is left
-- by its last commit has done its work.
def parseResume (failure : Option StageFailure) (db : BulkFileDb) (resume : ResumeRow) :
    AttemptEnd :=
  if failure.any fun f => f.stage = .skillNormalization ∨
      f.stage = .persistence ∧ f.fault ≠ .complete then
    .stageFailed (some resume) db
  else
    match ResumeService.persistProcessedResume (s.toResumeRequest resume) db.skills with
    | .error _ => .stageFailed (some resume) db
    | .ok skills =>
      let db := { db with
        resume := ResumeService.updateParsedResult db.resume resume.id
        skills := skills }
      if failure.any fun f => f.stage = .persistence then .stageFailed (some resume) db
      else
        match createCampaignCandidate s db resume.candidateId resume.id with
        | .ok db => .resolved (record s db .processed .processed)
        | .error e => .resolved (recordError s db e)

-- One run of `parse_bulk_upload_file` from the top, in which at most one stage fails.
def attempt (taskId : String) (failure : Option StageFailure) (db : BulkFileDb) : AttemptEnd :=
  match tryStartProcessing db.bulk s.fileId with
  | (_, false) => .resolved db
  | (bulk, true) =>
    let db := { db with bulk := bulk }
    match getByFileHashGlobal db.resume s.fileHash with
    | some matched => .resolved (linkMatched s db matched)
    | none =>
      if failure.any fun f => f.stage ∈ identityStages then .stageFailed none db
      else
        match s.identity with
        | none => .resolved (record s db .failed .failed)
        | some emailHash =>
          let created := (createBulkResume (s.toBulkResume taskId emailHash)).normal db.resume
          let db := { db with resume := created.committed db.resume }
          match created.result with
          | .error _ => .resolved (record s db .failed .failed)
          | .ok resume => parseResume s failure db resume

-- `handle_failure` gives up: the dead letter, and the failure of the file.
def deadLetter (taskId : String) (resume : Option ResumeRow) (db : BulkFileDb) : BulkFileDb :=
  let marked :=
    match resume with
    | some resume => markParseFailed db.resume resume.id
    | none => db.resume
  record s { db with
    bulk := { db.bulk with deadLetters := db.bulk.deadLetters ++ [taskId] }
    resume := marked } .failed .failed

-- `replay_failed_file` up to its dispatch; `none` when it is refused.
def replay (newTaskId : String) (db : BulkFileDb) : Option BulkFileDb :=
  if db.bulk.job.status ∈ BulkUploadService.nonReplayableJobStatuses then none
  else if !BulkUploadService.replayable db.bulk s.fileId then none
  else
    (BulkUploadService.replayFailedFile db.bulk s.fileId newTaskId db.bulk.job.status).map
      fun bulk => { db with bulk := bulk }

-- The attempts of a file: each failure is retried, or dead-lettered and
-- replayed, and the last attempt has none.
def run (db : BulkFileDb) (attemptNumber : ℕ) (taskId : String) :
    List StageFailure → BulkFileDb
  | [] => (s.attempt taskId none db).db
  | failure :: rest =>
    match s.attempt taskId (some failure) db with
    | .resolved db => db
    | .stageFailed resume db =>
      if RetryDriver.givesUp failure.stage failure.classification attemptNumber then
        match s.replay failure.newTaskId (s.deadLetter taskId resume db) with
        | some db => run db 1 failure.newTaskId rest
        | none => s.deadLetter taskId resume db
      else
        run db (attemptNumber + 1) taskId rest

end BulkSubmission

end AiHiring
