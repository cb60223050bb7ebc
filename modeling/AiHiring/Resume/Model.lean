import Mathlib.Data.List.MinMax
import AiHiring.Tasks.TaskLog

namespace AiHiring

open Library

inductive FileFormat where
  | pdf
  | docx
  | png
  | jpeg
  deriving DecidableEq, Repr

def FileFormat.value : FileFormat → String
  | pdf => "PDF"
  | docx => "DOCX"
  | png => "PNG"
  | jpeg => "JPEG"

-- The identity and erasure columns; the personal data is encrypted.
structure CandidateRow extends Candidate where
  id : Uuid
  emailHash : String
  erasureRequestedAt : Option Instant

structure ResumeRow extends Resume where
  (id candidateId : Uuid)
  filePath : String
  fileFormat : FileFormat
  fileHash : String
  versionNumber : ℕ
  isActiveVersion : Bool
  parserVersion : Option String
  uploadedBy : String
  bulkUploadJobId : Option Uuid
  taskId : Option String

-- The columns of a task log that the resume side writes as well.
structure ResumeTaskLog extends CeleryTaskLog where
  idempotencyKey : Option String
  resumeId : Option Uuid
  dispatchFailed : Bool

-- The tables that a session of the resume services writes.
structure ResumeDb extends Db where
  candidates : Table CandidateRow CandidateRow.id
  resumes : Table ResumeRow ResumeRow.id
  taskLogs : Table ResumeTaskLog fun log => log.id

def ResumeDb.empty : ResumeDb where
  toDb := Db.empty
  candidates := Table.empty
  resumes := Table.empty
  taskLogs := Table.empty

inductive ResumeError where
  | service (e : ServiceError)
  | file (detail : String)
  | storage (detail : String)
  | duplicateFile (duplicateResumeId : Uuid)
  | erasureBlocked

-- Which line of the code asked for a commit.
inductive ResumeCommit where
  | candidate
  | resume
  | link
  | taskId
  | taskLog
  | deletion
  deriving DecidableEq, Repr

abbrev ResumeM := Transaction ResumeCommit ResumeDb ResumeError

-- The bytes of an upload, by what the services compute from them: the MD5 of
-- the content, what the validation says, and the path storage keeps it under.
structure UploadedFile where
  fileHash : String
  fileFormat : Except ResumeError FileFormat
  objectPath : Except ResumeError String

namespace ResumeM

open Transaction

def ofExcept {α : Type} : Except ResumeError α → ResumeM α := done

def insertResume (mk : Uuid → ResumeRow) (hmk : ∀ id, (mk id).id = id) : ResumeM ResumeRow :=
  call (fun db => { db with resumes := db.resumes.insert mk hmk }) fun db =>
    pure (mk (db.resumes.next))

def writeResume (resume : ResumeRow) : ResumeM Unit :=
  flush fun db => { db with resumes := db.resumes.replace resume }

end ResumeM

namespace ResumeRepository

variable (db : ResumeDb)

def getById (resumeId : Uuid) : Option ResumeRow := db.resumes.find? resumeId

def versionsOf (candidateId : Uuid) : List ResumeRow :=
  db.resumes.rows.filter fun r => r.candidateId = candidateId

-- The active row with the highest version number.
def getActiveByCandidate (candidateId : Uuid) : Option ResumeRow :=
  ((versionsOf db candidateId).filter (·.isActiveVersion)).argmax (·.versionNumber)

def getByFileHashGlobal (fileHash : String) : Option ResumeRow :=
  db.resumes.rows.find? fun r => r.fileHash = fileHash

-- `max(version_number)`, with 0 for no row at all.
def getMaxVersionNumber (candidateId : Uuid) : ℕ :=
  ((versionsOf db candidateId).map (·.versionNumber)).foldr max 0

def deactivateActiveVersion (candidateId : Uuid) : ResumeDb :=
  { db with
    resumes := db.resumes.modify (fun r => if r.candidateId = candidateId ∧ r.isActiveVersion then
        { r with isActiveVersion := false } else r)
      (fun r => by split_ifs <;> rfl) }

def delete (resume : ResumeRow) : ResumeDb :=
  { db with resumes := db.resumes.delete fun r => r.id = resume.id }

end ResumeRepository

namespace CandidateRepository

variable (db : ResumeDb)

def getById (candidateId : Uuid) : Option CandidateRow := db.candidates.find? candidateId

def getByEmailHash (emailHash : String) : Option CandidateRow :=
  db.candidates.rows.find? fun c => c.emailHash = emailHash

end CandidateRepository

namespace CampaignCandidateRepository

variable (db : ResumeDb)

def getByResumeId (resumeId : Uuid) : List CampaignCandidate :=
  db.campaignCandidates.rows.filter fun cc => cc.resumeId = resumeId

def getByCampaignAndCandidate (campaignId candidateId : Uuid) : Option CampaignCandidate :=
  db.campaignCandidates.rows.find? fun cc =>
    cc.campaignId = campaignId ∧ cc.candidateId = candidateId

end CampaignCandidateRepository

end AiHiring
