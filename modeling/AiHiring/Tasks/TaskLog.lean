import AiHiring.Pipeline.Automation
import AiHiring.Tasks.CompositeScore

namespace AiHiring

open Library

structure CeleryTaskLog where
  id : Uuid
  (taskId taskType : String)
  campaignCandidateId : Option Uuid
  status : TaskStatus
  (outputSummary errorMessage : Option String)
  (startedAt completedAt : Option Instant)

abbrev CeleryTaskLogTable := Table CeleryTaskLog CeleryTaskLog.id

-- The stage tables together with the task logs, as one session sees them.
structure TaskDb extends Db where
  taskLogs : CeleryTaskLogTable

-- Who commits the shared session: a `mark_*` of the task log service, or the
-- scoring task itself.
inductive CommitBy where
  | taskLog
  | task
  deriving DecidableEq, Repr

-- The text of an exception.
abbrev SessionM := Transaction CommitBy TaskDb String

namespace SessionM

open Transaction

-- `db.refresh`, or a query whose rows go into no model.
def refresh : SessionM Unit := query fun _ => ()

def queries : ℕ → SessionM Unit
  | 0 => pure ()
  | n + 1 => do
    refresh
    queries n

@[simp] theorem normal_refresh_bind {α : Type} (f : Unit → SessionM α) (w : TaskDb) :
    (refresh >>= f).normal w = (f ()).normal w := rfl

theorem normal_queries (n : ℕ) (w : TaskDb) : (queries n).normal w = ⟨.ok (), w, [], none⟩ := by
  induction n with
  | zero => rfl
  | succ n ih => exact ih

end SessionM

namespace CeleryTaskLogRepository

open Transaction SessionM

def getByTaskId (taskId : String) (w : TaskDb) : Option CeleryTaskLog :=
  w.taskLogs.rows.find? fun log => log.taskId = taskId

def getByCampaignCandidateAndTaskType (campaignCandidateId : Uuid) (taskType : String)
    (w : TaskDb) : List CeleryTaskLog :=
  w.taskLogs.rows.filter fun log =>
    log.campaignCandidateId = some campaignCandidateId ∧ log.taskType = taskType

def create (mk : Uuid → CeleryTaskLog) (hmk : ∀ id, (mk id).id = id) : SessionM CeleryTaskLog := do
  let log ← call (fun w => { w with taskLogs := w.taskLogs.insert mk hmk })
    fun w => pure (mk w.taskLogs.next)
  refresh
  pure log

def update (log : CeleryTaskLog) : SessionM Unit := do
  flush fun w => { w with taskLogs := w.taskLogs.replace log }
  refresh

end CeleryTaskLogRepository

namespace CeleryTaskLogService

open Transaction CeleryTaskLogRepository

def createLog (taskId taskType : String) (campaignCandidateId : Option Uuid) :
    SessionM CeleryTaskLog := do
  let log ← create (fun id =>
    { id, taskId, taskType, campaignCandidateId, status := .queued, outputSummary := none,
      errorMessage := none, startedAt := none, completedAt := none }) fun _ => rfl
  commitAs .taskLog
  pure log

-- Every `mark_*` writes the row and commits the session it shares with its caller.
def mark (log : CeleryTaskLog) : SessionM CeleryTaskLog := do
  update log
  commitAs .taskLog
  pure log

def markRunning (log : CeleryTaskLog) (now : Instant) : SessionM CeleryTaskLog :=
  mark { log with status := .running, startedAt := some (log.startedAt.getD now) }

def markSuccess (log : CeleryTaskLog) (summary : String) (now : Instant) :
    SessionM CeleryTaskLog :=
  mark { log with status := .success, outputSummary := some summary, completedAt := some now }

def markFailure (log : CeleryTaskLog) (error : String) (now : Instant) :
    SessionM CeleryTaskLog :=
  mark { log with status := .failure, errorMessage := some error, completedAt := some now }

def markDead (log : CeleryTaskLog) (errorMessage : String) (now : Instant) :
    SessionM CeleryTaskLog :=
  mark { log with status := .dead, errorMessage := some errorMessage, completedAt := some now }

def marked (w : TaskDb) (log : CeleryTaskLog) : TaskDb :=
  { w with taskLogs := w.taskLogs.replace log }

theorem normal_mark (log : CeleryTaskLog) (w : TaskDb) :
    (mark log).normal w = ⟨.ok log, marked w log, [(.taskLog, marked w log)], none⟩ := rfl

end CeleryTaskLogService

end AiHiring
