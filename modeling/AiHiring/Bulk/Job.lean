import AiHiring.Jd.Pipeline
import Mathlib.Algebra.Ring.Int.Defs

namespace AiHiring

open Library

inductive BulkUploadStatus where
  | pending
  | extracting
  | processing
  | completed
  | partialFailure
  | failed
  | cancelled
  deriving DecidableEq, Repr

inductive BulkUploadFileStatus where
  | queued
  | running
  | processed
  | failed
  | cancelled
  deriving DecidableEq, Repr

inductive CountColumn where
  | queued
  | processed
  | failed
  | duplicate
  deriving DecidableEq, Repr

structure BulkUploadJob where
  status : BulkUploadStatus
  consentConfirmed : Bool
  (totalFiles queuedCount processedCount failedCount duplicateCount : ℤ)

structure BulkUploadJobFile where
  id : Uuid
  status : BulkUploadFileStatus
  taskId : Option String

-- One job with its files. `deadLetters` holds the task ids of the dead letter
-- queue, and `ledger` for which file each counter has been moved; no function
-- of the program reads the ledger.
structure BulkDb where
  job : BulkUploadJob
  files : Table BulkUploadJobFile BulkUploadJobFile.id
  deadLetters : List String
  campaignStatus : CampaignStatus
  ledger : Uuid → CountColumn → ℤ

def BulkUploadJob.count (job : BulkUploadJob) : CountColumn → ℤ
  | .queued => job.queuedCount
  | .processed => job.processedCount
  | .failed => job.failedCount
  | .duplicate => job.duplicateCount

def BulkUploadJob.resolved (job : BulkUploadJob) : ℤ :=
  job.processedCount + job.failedCount + job.duplicateCount

namespace BulkUploadJobRepository

def updateStatus (db : BulkDb) (status : BulkUploadStatus) : BulkDb :=
  { db with job := { db.job with status := status } }

def setTotalFiles (db : BulkDb) (totalFiles : ℤ) : BulkDb :=
  { db with job := { db.job with totalFiles := totalFiles } }

-- `UPDATE x = x + :by`.
def atomicIncrement (db : BulkDb) (column : CountColumn) (amount : ℤ) : BulkDb :=
  { db with
    job :=
      match column with
      | .queued => { db.job with queuedCount := db.job.queuedCount + amount }
      | .processed => { db.job with processedCount := db.job.processedCount + amount }
      | .failed => { db.job with failedCount := db.job.failedCount + amount }
      | .duplicate => { db.job with duplicateCount := db.job.duplicateCount + amount } }

def incrementQueuedCount (db : BulkDb) (amount : ℤ) : BulkDb := atomicIncrement db .queued amount

-- An increment or a decrement on behalf of a file.
def enter (db : BulkDb) (file : Uuid) (column : CountColumn) (amount : ℤ) : BulkDb :=
  { atomicIncrement db column amount with
    ledger := Function.update db.ledger file
      (Function.update (db.ledger file) column (db.ledger file column + amount)) }

def incrementProcessedCount (db : BulkDb) (file : Uuid) : BulkDb := enter db file .processed 1

def incrementFailedCount (db : BulkDb) (file : Uuid) : BulkDb := enter db file .failed 1

def incrementDuplicateCount (db : BulkDb) (file : Uuid) : BulkDb := enter db file .duplicate 1

def decrementFailedCount (db : BulkDb) (file : Uuid) : BulkDb := enter db file .failed (-1)

def requeueAfterReplay (db : BulkDb) : BulkDb := updateStatus db .processing

end BulkUploadJobRepository

namespace BulkUploadJobFileRepository

def setValues (selected : BulkUploadJobFile → Bool) (status : BulkUploadFileStatus)
    (taskId : Option String) (file : BulkUploadJobFile) : BulkUploadJobFile :=
  if selected file then { file with status := status, taskId := taskId.or file.taskId } else file

theorem setValues_id (selected : BulkUploadJobFile → Bool) (status : BulkUploadFileStatus)
    (taskId : Option String) (file : BulkUploadJobFile) :
    (setValues selected status taskId file).id = file.id := by
  unfold setValues
  split_ifs <;> rfl

-- UPDATE of the selected rows; without a task id that column is left alone.
def update (db : BulkDb) (selected : BulkUploadJobFile → Bool) (status : BulkUploadFileStatus)
    (taskId : Option String) : BulkDb :=
  { db with
    files := db.files.modify (setValues selected status taskId)
      (setValues_id selected status taskId) }

def stagedFile (taskId : String) (id : Uuid) : BulkUploadJobFile := ⟨id, .queued, some taskId⟩

theorem stagedFile_id (taskId : String) (id : Uuid) : (stagedFile taskId id).id = id := rfl

-- The new rows under their keys, in the order of the entries.
def createMany (db : BulkDb) : List String → BulkDb × List BulkUploadJobFile
  | [] => (db, [])
  | taskId :: rest =>
    let created := createMany
      { db with files := db.files.insert (stagedFile taskId) (stagedFile_id taskId) } rest
    (created.1, stagedFile taskId db.files.next :: created.2)

def getById (db : BulkDb) (fileId : Uuid) : Option BulkUploadJobFile := db.files.find? fileId

def updateStatus (db : BulkDb) (fileId : Uuid) (status : BulkUploadFileStatus) : BulkDb :=
  update db (fun file => file.id = fileId) status none

def canStart (fileId : Uuid) (file : BulkUploadJobFile) : Bool :=
  file.id = fileId ∧ (file.status = .queued ∨ file.status = .running)

def tryStartProcessing (db : BulkDb) (fileId : Uuid) : BulkDb × Bool :=
  (update db (canStart fileId) .running none, db.files.rows.any (canStart fileId))

def canRequeue (fileId : Uuid) (file : BulkUploadJobFile) : Bool :=
  file.id = fileId ∧ file.status = .failed

def requeueForReplay (db : BulkDb) (fileId : Uuid) (newTaskId : String) : BulkDb × Bool :=
  (update db (canRequeue fileId) .queued (some newTaskId), db.files.rows.any (canRequeue fileId))

def cancelQueuedFiles (db : BulkDb) : BulkDb :=
  update db (fun file => file.status = .queued) .cancelled none

end BulkUploadJobFileRepository

-- What a resolved job is closed with; `none` leaves it as it is.
def maybeFinalizeJob (job : BulkUploadJob) : Option BulkUploadStatus :=
  if job.status ≠ .processing then none
  else if job.totalFiles = 0 then none
  else if job.resolved < job.totalFiles then none
  else if job.failedCount = 0 then some .completed
  else if job.processedCount > 0 ∨ job.duplicateCount > 0 then some .partialFailure
  else some .failed

-- How the work on a claimed file ends: its outcome is written next, or a stage
-- failed, or the candidate is in the campaign already. Every other exception is
-- a step that raises.
inductive FileOutcome where
  | processed
  | duplicateFile
  | stageFails (stage : ProcessingStage) (classification : FailureClassification)
  | alreadyLinked
  deriving DecidableEq, Repr

-- What `parse_bulk_upload_file` does next. `succeeded` says that the rest still
-- runs inside the `try`.
inductive ParsePoint where
  | sent (attempt : ℕ)
  | claimed (attempt : ℕ)
  | working (attempt : ℕ)
  | handling (attempt : ℕ) (stage : ProcessingStage) (classification : FailureClassification)
  | failing (isDuplicate : Bool)
  | counted (succeeded : Bool)
  | closing (succeeded : Bool) (status : BulkUploadStatus)
  | closed (succeeded : Bool)
  | failingAgain
  deriving DecidableEq, Repr

-- The parse task of a file, or a request to cancel the job or to replay a file.
inductive BulkActivity where
  | parsing (file : Uuid) (taskId : String) (point : ParsePoint)
  | cancelling
  | checkingReplay (file : Uuid) (newTaskId : String) (jobStatus : BulkUploadStatus)
  | replaying (file : Uuid) (newTaskId : String) (jobStatus : BulkUploadStatus)
  | requeued (file : Uuid) (newTaskId : String)
  | done
  deriving DecidableEq, Repr

namespace BulkUploadService

open BulkUploadJobRepository BulkUploadJobFileRepository

def terminalJobStatuses : List BulkUploadStatus :=
  [.completed, .partialFailure, .failed, .cancelled]

def nonReplayableJobStatuses : List BulkUploadStatus := [.pending, .extracting, .cancelled]

-- `cancel_job` after its check.
def cancelJob (db : BulkDb) : BulkDb := updateStatus (cancelQueuedFiles db) .cancelled

-- The checks of `replay_failed_file` after that of the job.
def replayable (db : BulkDb) (fileId : Uuid) : Bool :=
  (getById db fileId).any fun file =>
    file.status = .failed ∧ db.campaignStatus = .active ∧
      file.taskId.any fun taskId => taskId ∈ db.deadLetters

-- Its transaction, on the job status it has read; `none` is rolled back.
def replayFailedFile (db : BulkDb) (fileId : Uuid) (newTaskId : String)
    (jobStatus : BulkUploadStatus) : Option BulkDb :=
  match requeueForReplay db fileId newTaskId with
  | (_, false) => none
  | (db, true) =>
    let db := decrementFailedCount db fileId
    some (if jobStatus ≠ .processing then requeueAfterReplay db else db)

end BulkUploadService

namespace BulkActivity

open BulkUploadJobRepository BulkUploadJobFileRepository BulkUploadService

-- One commit further.
def advance (db : BulkDb) (outcome : FileOutcome) : BulkActivity → BulkDb × BulkActivity
  | parsing file taskId (.sent attempt) =>
    match tryStartProcessing db file with
    | (db, true) => (db, parsing file taskId (.claimed attempt))
    -- skipped: cancelled, or resolved
    | (_, false) => (db, done)
  | parsing file taskId (.claimed attempt) => (db, parsing file taskId (.working attempt))
  | parsing file taskId (.working attempt) =>
    match outcome with
    | .processed =>
      (incrementProcessedCount (updateStatus db file .processed) file,
        parsing file taskId (.counted true))
    | .duplicateFile =>
      (incrementDuplicateCount (updateStatus db file .processed) file,
        parsing file taskId (.counted true))
    | .stageFails stage classification =>
      (db, parsing file taskId (.handling attempt stage classification))
    | .alreadyLinked => (db, parsing file taskId (.failing true))
  | parsing file taskId (.handling attempt stage classification) =>
    if RetryDriver.givesUp stage classification attempt then
      ({ db with deadLetters := db.deadLetters ++ [taskId] }, parsing file taskId (.failing false))
    else
      (db, parsing file taskId (.sent (attempt + 1)))
  | parsing file taskId (.failing isDuplicate) =>
    let failed := updateStatus db file .failed
    (if isDuplicate then incrementDuplicateCount failed file
      else incrementFailedCount failed file,
      parsing file taskId (.counted false))
  | parsing file taskId .failingAgain =>
    (incrementFailedCount (updateStatus db file .failed) file, parsing file taskId (.counted false))
  | parsing file taskId (.counted succeeded) =>
    match maybeFinalizeJob db.job with
    | some status => (db, parsing file taskId (.closing succeeded status))
    | none => (db, parsing file taskId (.closed succeeded))
  | parsing file taskId (.closing succeeded status) =>
    (BulkUploadJobRepository.updateStatus db status, parsing file taskId (.closed succeeded))
  | parsing _ _ (.closed _) => (db, done)
  | cancelling => (cancelJob db, done)
  | checkingReplay file newTaskId jobStatus =>
    if replayable db file then (db, replaying file newTaskId jobStatus) else (db, done)
  | replaying file newTaskId jobStatus =>
    match replayFailedFile db file newTaskId jobStatus with
    | some db => (db, requeued file newTaskId)
    | none => (db, done)
  | requeued file newTaskId => (db, parsing file newTaskId (.sent 1))
  | done => (db, done)

-- The next step raises and is rolled back. Inside the `try` of the parse task
-- the last `except` takes over, once the job is known; what raises in an
-- `except` ends the task.
def raises : BulkActivity → BulkActivity
  | parsing file taskId (.working _) => parsing file taskId (.failing false)
  | parsing file taskId (.counted true) => parsing file taskId .failingAgain
  | parsing file taskId (.closing true _) => parsing file taskId .failingAgain
  | parsing file taskId (.closed true) => parsing file taskId .failingAgain
  | _ => done

end BulkActivity

-- What `extract_bulk_upload_zip` does next. An entry of the ZIP is given by the
-- task id drawn for its file.
inductive ExtractionPoint where
  | sent (entries : List String)
  | opened (entries : List String)
  | staging (entries : List String)
  | totalling (staged : List BulkUploadJobFile)
  | gating (staged : List BulkUploadJobFile)
  | sending (staged : List BulkUploadJobFile)
  | failing
  | done

structure BulkWorld where
  db : BulkDb
  extraction : ExtractionPoint
  crew : List BulkActivity

namespace ExtractionPoint

open BulkUploadJobRepository

def cancelStaged (db : BulkDb) (staged : List BulkUploadJobFile) : BulkDb :=
  staged.foldl (fun db file => BulkUploadJobFileRepository.updateStatus db file.id .cancelled) db

-- One commit, or one message, further.
def advance (db : BulkDb) : ExtractionPoint → BulkDb × ExtractionPoint × Option BulkActivity
  | sent entries => (db, opened entries, none)
  | opened entries =>
    if db.job.consentConfirmed then (updateStatus db .extracting, staging entries, none)
    else (updateStatus db .failed, done, none)
  | staging entries =>
    let created := BulkUploadJobFileRepository.createMany db entries
    (created.1, totalling created.2, none)
  | totalling [] => (updateStatus (setTotalFiles db 0) .failed, gating [], none)
  | totalling staged =>
    let db := setTotalFiles db staged.length
    (incrementQueuedCount (updateStatus db .processing) staged.length, gating staged, none)
  | gating staged =>
    if db.campaignStatus = .paused ∨ db.campaignStatus = .closed then
      (updateStatus (cancelStaged db staged) .failed, done, none)
    else (db, sending staged, none)
  | sending [] => (db, done, none)
  | sending (file :: rest) =>
    (db, sending rest, some (.parsing file.id (file.taskId.getD "") (.sent 1)))
  | failing => (updateStatus db .failed, done, none)
  | done => (db, done, none)

-- A ZIP that is refused, or a step that raises; before the job is read there is
-- nothing to mark as failed.
def raises : ExtractionPoint → ExtractionPoint
  | sent _ => done
  | done => done
  | failing => done
  | _ => failing

end ExtractionPoint

inductive BulkAction where
  | extract
  | extractionRaises
  | cancelJob
  | replayFailedFile (file : Uuid) (newTaskId : String)
  | advance (index : ℕ) (outcome : FileOutcome)
  | raises (index : ℕ)
  deriving DecidableEq, Repr

namespace BulkWorld

open BulkUploadService

-- A request that is refused at once changes nothing and is no step.
def next (w : BulkWorld) : BulkAction → Option BulkWorld
  | .extract =>
    let made := w.extraction.advance w.db
    some ⟨made.1, made.2.1, w.crew ++ made.2.2.toList⟩
  | .extractionRaises => some { w with extraction := w.extraction.raises }
  | .cancelJob =>
    if w.db.job.status ∈ terminalJobStatuses then none
    else some { w with crew := w.crew ++ [.cancelling] }
  | .replayFailedFile file newTaskId =>
    if w.db.job.status ∈ nonReplayableJobStatuses then none
    else some { w with crew := w.crew ++ [.checkingReplay file newTaskId w.db.job.status] }
  | .advance index outcome =>
    match w.crew[index]? with
    | none => none
    | some a => some { w with
        db := (a.advance w.db outcome).1
        crew := w.crew.set index (a.advance w.db outcome).2 }
  | .raises index =>
    match w.crew[index]? with
    | none => none
    | some a => some { w with crew := w.crew.set index a.raises }

def Step (w : BulkWorld) (action : BulkAction) (w' : BulkWorld) : Prop := w.next action = some w'

-- The extraction has committed its files and their number, and is about to send
-- the first message; the job may have been cancelled meanwhile.
structure Extracted (w : BulkWorld) : Prop where
  extraction : w.extraction = .gating w.db.files.rows
  crew : w.crew = []
  total : w.db.job.totalFiles = w.db.files.rows.length
  files : ∀ file ∈ w.db.files.rows, file.status = .queued ∨ file.status = .cancelled
  count : ∀ column, column ≠ .queued → w.db.job.count column = 0
  ledger : ∀ file, w.db.ledger file = 0

-- No task runs and none is queued.
def Quiet (w : BulkWorld) : Prop :=
  w.extraction = .done ∧ ∀ a ∈ w.crew, ∀ file taskId,
    (∀ point, a ≠ .parsing file taskId point) ∧ a ≠ .requeued file taskId

end BulkWorld

end AiHiring
