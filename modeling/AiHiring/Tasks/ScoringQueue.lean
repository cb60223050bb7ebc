import AiHiring.Library.Crew
import AiHiring.Tasks.DeterministicScore

namespace AiHiring

open Library

-- One campaign: its scoring tasks, their logs and their messages.
namespace ScoringQueue

inductive ScoringTask where
  | deterministicScore
  | semanticScore
  | aiEvaluate
  | compositeScore
  deriving DecidableEq, Repr

-- The idempotency keys; the other two tasks have none.
inductive IdempotencyKey where
  | deterministic (campaignCandidateId resumeId : Uuid)
  | semantic (campaignCandidateId : Uuid)
  deriving DecidableEq

structure ScoringLog where
  id : Uuid
  taskId : ℕ
  taskType : ScoringTask
  idempotencyKey : Option IdempotencyKey
  campaignCandidateId : Uuid
  status : TaskStatus
  errorMessage : Option String
  deriving DecidableEq

abbrev ScoringLogs := Table ScoringLog ScoringLog.id

-- What the layers leave on a candidate.
structure ScoredCandidate where
  id : Uuid
  pipelineStage : PipelineStage
  deterministicScore : Option ℚ
  deterministicPassed : Bool
  semanticScore : Option ℚ
  semanticPassed : Bool
  (aiScore compositeScore : Option ℚ)
  deriving DecidableEq

-- A message of the broker; `tag` tells apart two messages for one task.
structure Message where
  (tag taskId : ℕ)
  taskType : ScoringTask
  campaignCandidateId : Uuid
  retries : ℕ
  deriving DecidableEq

-- Up to the commit that each phase is named after. `log` is the row that the
-- worker's query found.
inductive WorkerPhase where
  | found
  | running
  | scored
  | done
  deriving DecidableEq, Repr

structure Worker where
  message : Message
  log : Option Uuid
  phase : WorkerPhase
  deriving DecidableEq

-- What became of a task that a pause has suspended: whether the campaign has been
-- resumed since, and how often the task has stored a score since.
structure Suspension where
  resumed : Bool
  executed : ℕ
  deriving DecidableEq

-- `nextTask` and `nextTag` stand for fresh identifiers, `scores` counts the scores
-- stored so far.
structure World where
  campaign : CampaignStatus
  candidates : Table ScoredCandidate ScoredCandidate.id
  logs : ScoringLogs
  broker : List Message
  crew : List Worker
  (nextTask nextTag scores : ℕ)
  suspension : ℕ → Option Suspension

-- What a layer has computed.
structure Verdict where
  score : ℚ
  passed : Bool
  pipelineStage : PipelineStage

def campaignClosedMessage : String := "Campaign closed by HR_ADMIN before task could execute."

def scoreableCampaignStatuses : List CampaignStatus := [.active, .paused]

-- Attempts of the layers with a retry policy, the pre-flight check of the semantic
-- layer included.
def maxRetries : ℕ := 3

namespace World

variable (w : World)

variable (m : Message) (selected : ScoringLog → Bool) (cc : Uuid) (dispatched : Bool) (taskId : ℕ)

def getByTaskId : Option ScoringLog := w.logs.rows.find? fun log => log.taskId = taskId

def getByIdempotencyKey (key : IdempotencyKey) : Option ScoringLog :=
  w.logs.rows.find? fun log => log.idempotencyKey = some key

def inFlight (taskType : ScoringTask) : Bool :=
  w.logs.rows.any fun log => log.campaignCandidateId = cc ∧ log.taskType = taskType ∧
    (log.status = .queued ∨ log.status = .running)

def withStatus (status : TaskStatus)
    (errorMessage : Option String) (log : ScoringLog) : ScoringLog :=
  if selected log then
    { log with status := status, errorMessage := errorMessage <|> log.errorMessage }
  else log

theorem withStatus_id (status : TaskStatus) (errorMessage : Option String) (log : ScoringLog) :
    (withStatus selected status errorMessage log).id = log.id := by
  unfold withStatus
  split_ifs <;> rfl

def mark (status : TaskStatus) (errorMessage : Option String) :
    World :=
  { w with
    logs := w.logs.modify (withStatus selected status errorMessage)
      (withStatus_id selected status errorMessage) }

def newLog (taskType : ScoringTask) (key : Option IdempotencyKey) (cc id : Uuid) :
    ScoringLog where
  id := id
  taskId := taskId
  taskType := taskType
  idempotencyKey := key
  campaignCandidateId := cc
  status := .queued
  errorMessage := none

def createLog (taskType : ScoringTask) (key : Option IdempotencyKey) (cc : Uuid) :
    World :=
  { w with logs := w.logs.insert (newLog taskId taskType key cc) fun _ => rfl }

def applyAsync (taskType : ScoringTask) (cc : Uuid) (retries : ℕ) : World :=
  { w with broker := w.broker ++ [⟨w.nextTag, taskId, taskType, cc, retries⟩]
           nextTag := w.nextTag + 1 }

-- A call of `apply_async` that raises is logged and nothing more.
def dispatch (taskType : ScoringTask) (cc : Uuid) : World :=
  if dispatched then w.applyAsync taskId taskType cc 0 else w

def acknowledge : World :=
  { w with broker := w.broker.filter fun x => x.tag ≠ m.tag }

def newTask (taskType : ScoringTask) (key : Option IdempotencyKey) (cc : Uuid)
    (dispatched : Bool) : World :=
  dispatch { w.createLog w.nextTask taskType key cc with nextTask := w.nextTask + 1 } dispatched
    w.nextTask taskType cc

-- `_enqueue_deterministic_scoring` for one candidate of a resume.
def enqueueDeterministic (resumeId : Uuid) (dispatched : Bool) : World :=
  match w.getByIdempotencyKey (.deterministic cc resumeId) with
  | some _ => w
  | none => w.newTask .deterministicScore (some (.deterministic cc resumeId)) cc dispatched

-- `calculate_deterministic_score_task.apply_async` without a log of its own.
def enqueueUnlogged : World :=
  applyAsync { w with nextTask := w.nextTask + 1 } w.nextTask .deterministicScore cc 0

def requeued (log : ScoringLog) : ScoringLog :=
  { log with taskId := taskId, status := .queued }

-- `_enqueue_semantic_scoring` for a candidate whose resume is embedded; a log that
-- has ended, or waits for a retry, is taken over.
def enqueueSemantic : World :=
  match w.getByIdempotencyKey (.semantic cc) with
  | none => w.newTask .semanticScore (some (.semantic cc)) cc dispatched
  | some log =>
    if log.status ∈ [.queued, .running, .success] then w
    else
      dispatch { w with logs := w.logs.replace (requeued w.nextTask log)
                        nextTask := w.nextTask + 1 }
        dispatched w.nextTask .semanticScore cc

-- `_enqueue_ai_evaluation` and `_enqueue_composite_scoring`.
def enqueueUnlessInFlight (taskType : ScoringTask) (cc : Uuid) (dispatched : Bool) : World :=
  if w.inFlight cc taskType then w else w.newTask taskType none cc dispatched

def enqueueAiEvaluation : World :=
  w.enqueueUnlessInFlight .aiEvaluate cc dispatched

def enqueueCompositeScoring : World :=
  w.enqueueUnlessInFlight .compositeScore cc dispatched

def isQueued (log : ScoringLog) : Bool := log.status = .queued

def suspendQueuedTasks : World :=
  { w.mark isQueued .paused none with
    suspension := fun taskId =>
      if w.logs.rows.any fun log => log.taskId = taskId ∧ isQueued log then some ⟨false, 0⟩
      else w.suspension taskId }

def isResubmitted (log : ScoringLog) : Bool :=
  log.status = .paused ∧ log.taskType = .deterministicScore

def resubmit (w : World) (log : ScoringLog) : World :=
  w.applyAsync log.taskId .deterministicScore log.campaignCandidateId 0

-- Only the deterministic tasks are sent again.
def resubmitPausedTasks : World :=
  (w.logs.rows.filter isResubmitted).foldl resubmit (w.mark isResubmitted .queued none)

def killQueuedTasks : World := w.mark isQueued .dead (some campaignClosedMessage)

def isCancelled (log : ScoringLog) : Bool :=
  log.campaignCandidateId = cc ∧ log.taskType = .aiEvaluate ∧ log.status = .queued

def cancelDownstreamAiEvaluation : World :=
  w.mark (isCancelled cc) .dead (some DeterministicScoring.aiEvaluationSkippedErrorMessage)

def setWorker (i : ℕ) (worker : Worker) : World := { w with crew := w.crew.set i worker }

-- The gates that a layer reads off the campaign and the candidate. What it checks
-- beyond these lies outside the tables here.
def gateOpen (taskType : ScoringTask) (cc : Uuid) : Bool :=
  match w.candidates.find? cc with
  | none => false
  | some candidate =>
    w.campaign ∈ scoreableCampaignStatuses &&
    match taskType with
    | .deterministicScore | .compositeScore => true
    | .semanticScore => candidate.deterministicPassed
    | .aiEvaluate => candidate.pipelineStage ≠ .rejected ∧ candidate.semanticPassed

def scored (taskType : ScoringTask) (verdict : Verdict) (candidate : ScoredCandidate) :
    ScoredCandidate :=
  match taskType with
  | .deterministicScore =>
    { candidate with deterministicScore := some verdict.score
                     deterministicPassed := verdict.passed
                     pipelineStage := verdict.pipelineStage }
  | .semanticScore =>
    { candidate with semanticScore := some verdict.score
                     semanticPassed := verdict.passed
                     pipelineStage := verdict.pipelineStage }
  | .aiEvaluate =>
    { candidate with aiScore := some verdict.score
                     pipelineStage := verdict.pipelineStage }
  | .compositeScore => { candidate with compositeScore := some verdict.score }

theorem scored_id (taskType : ScoringTask) (verdict : Verdict) (candidate : ScoredCandidate) :
    (scored taskType verdict candidate).id = candidate.id := by
  cases taskType <;> rfl

def scoreRow (verdict : Verdict) (candidate : ScoredCandidate) : ScoredCandidate :=
  if candidate.id = m.campaignCandidateId then scored m.taskType verdict candidate else candidate

theorem scoreRow_id (verdict : Verdict) (candidate : ScoredCandidate) :
    (scoreRow m verdict candidate).id = candidate.id := by
  unfold scoreRow
  split_ifs
  · exact scored_id m.taskType verdict candidate
  · rfl

-- The commit of a layer's results.
def store (verdict : Verdict) : World :=
  { w with
    candidates := w.candidates.modify (scoreRow m verdict) (scoreRow_id m verdict)
    scores := w.scores + 1
    suspension := Function.update w.suspension m.taskId
      ((w.suspension m.taskId).map fun s => { s with executed := s.executed + 1 }) }

-- The end of a delivery: the log's last status, if it was taken up, and the
-- acknowledgement.
def finish (i : ℕ) (worker : Worker) (status : TaskStatus) (errorMessage : Option String) :
    World :=
  let ended := (w.setWorker i { worker with phase := .done }).acknowledge worker.message
  if worker.phase = .found then ended
  else ended.mark (fun log => some log.id = worker.log) status errorMessage

-- An attempt that is given up; the deterministic layer has no retries.
def failureStatus (taskType : ScoringTask) : TaskStatus :=
  if taskType = .deterministicScore then .failure else .dead

end World

-- The steps at commit granularity; `i` is a worker. A message is delivered as often
-- as the broker likes until it is acknowledged.
inductive Event where
  | enqueueDeterministic (cc resumeId : Uuid) (dispatched : Bool)
  | enqueueUnlogged (cc : Uuid)
  | enqueueSemantic (cc : Uuid) (dispatched : Bool)
  | enqueueAiEvaluation (cc : Uuid) (dispatched : Bool)
  | enqueueCompositeScoring (cc : Uuid) (dispatched : Bool)
  | pause
  | resume
  | close
  | cancelDownstream (i : ℕ)
  | deliver (m : Message)
  | createLog (i : ℕ)
  | markRunning (i : ℕ)
  | skip (i : ℕ)
  | store (i : ℕ) (verdict : Verdict)
  | markSuccess (i : ℕ)
  | fail (i : ℕ) (retried : Bool) (error : String)
  | lost (i : ℕ)

namespace World

variable (w : World)

def resumeAll (s : Option Suspension) : Option Suspension :=
  s.map fun s => { s with resumed := true }

def next? : Event → Option World
  | .enqueueDeterministic cc resumeId dispatched =>
    some (w.enqueueDeterministic cc resumeId dispatched)
  | .enqueueUnlogged cc => some (w.enqueueUnlogged cc)
  | .enqueueSemantic cc dispatched => some (w.enqueueSemantic cc dispatched)
  | .enqueueAiEvaluation cc dispatched => some (w.enqueueAiEvaluation cc dispatched)
  | .enqueueCompositeScoring cc dispatched => some (w.enqueueCompositeScoring cc dispatched)
  | .pause =>
    if w.campaign = .active then some { w.suspendQueuedTasks with campaign := .paused } else none
  | .resume =>
    if w.campaign = .paused then
      some { w.resubmitPausedTasks with
        campaign := .active
        suspension := fun taskId => resumeAll (w.suspension taskId) }
    else none
  | .close =>
    if w.campaign = .closed then none else some { w.killQueuedTasks with campaign := .closed }
  | .cancelDownstream i => do
    let worker ← w.crew[i]?
    if worker.phase = .running ∧
        worker.message.taskType ∈ [.deterministicScore, .semanticScore] then
      some (w.cancelDownstreamAiEvaluation worker.message.campaignCandidateId)
    else none
  | .deliver m =>
    if m ∉ w.broker then none
    else match w.getByTaskId m.taskId with
      | some log =>
        if log.status = .success then some (w.acknowledge m)
        else some { w with crew := w.crew ++ [⟨m, some log.id, .found⟩] }
      | none => some { w with crew := w.crew ++ [⟨m, none, .found⟩] }
  | .createLog i => do
    let worker ← w.crew[i]?
    if worker.phase = .found ∧ worker.log = none then
      let m := worker.message
      some ((w.createLog m.taskId m.taskType none m.campaignCandidateId).setWorker i
        { worker with log := some w.logs.next })
    else none
  | .markRunning i => do
    let worker ← w.crew[i]?
    let id ← worker.log
    if worker.phase = .found then
      some ((w.mark (fun log => log.id = id) .running none).setWorker i
        { worker with phase := .running })
    else none
  | .skip i => do
    let worker ← w.crew[i]?
    -- the semantic layer has more gates: the embeddings and their versions
    if worker.phase = .running ∧
        (w.gateOpen worker.message.taskType worker.message.campaignCandidateId = false ∨
          worker.message.taskType = .semanticScore) then
      some (w.finish i worker .success none)
    else none
  | .store i verdict => do
    let worker ← w.crew[i]?
    if worker.phase = .running ∧
        w.gateOpen worker.message.taskType worker.message.campaignCandidateId = true then
      some ((w.store worker.message verdict).setWorker i { worker with phase := .scored })
    else none
  | .markSuccess i => do
    let worker ← w.crew[i]?
    if worker.phase = .scored then some (w.finish i worker .success none) else none
  | .fail i retried error => do
    let worker ← w.crew[i]?
    let m := worker.message
    if worker.phase = .done then none
    else if retried then
      if m.taskType ≠ .deterministicScore ∧ m.retries < maxRetries then
        some (applyAsync (w.finish i worker .retry none) m.taskId m.taskType
          m.campaignCandidateId (m.retries + 1))
      else none
    else some (w.finish i worker (failureStatus m.taskType) (some error))
  | .lost i => do
    let worker ← w.crew[i]?
    if worker.phase = .done then none
    else some (w.setWorker i { worker with phase := .done })

def Step (w : World) (event : Event) (t : World) : Prop := w.next? event = some t

end World

end ScoringQueue

end AiHiring
