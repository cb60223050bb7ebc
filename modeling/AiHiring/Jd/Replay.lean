import AiHiring.Jd.RetryBudget
import AiHiring.Library.Crew

namespace AiHiring

def TaskStatus.value : TaskStatus → String
  | queued => "QUEUED"
  | running => "RUNNING"
  | success => "SUCCESS"
  | failure => "FAILURE"
  | retry => "RETRY"
  | paused => "PAUSED"
  | dead => "DEAD"

namespace JDRetry

structure JDTaskLog where
  (taskType createdBy : String)
  status : TaskStatus
  retryCount : ℕ
  (errorMessage outputSummary : Option String)
  dispatchFailed : Bool

structure DeadLetterRow where
  finalErrorMessage : String
  replayedBy : Option String

-- The rows of one task.
structure TaskTables where
  log : JDTaskLog
  checkpoint : Option Checkpoint
  failureLog : List RetryDriver.StageFailureLog
  stageExecutions : List ProcessingStage
  deadLetter : Option DeadLetterRow

inductive RetryError where
  | conflict (message : String)
  | forbidden (message : String)
  -- the database or the broker
  | failure

def jdTaskType : String := "JD_DOCUMENT_PROCESSING"

def isReplayable (status : TaskStatus) : Bool := status = .failure ∨ status = .dead

section Reads

variable (casefold : String → String) (taskId : String) (tables : TaskTables)

def loadReplayable (requestedBy : String) : Except RetryError Unit :=
  if tables.log.taskType ≠ jdTaskType then
    .error (.conflict (s!"Task '{taskId}' is a {tables.log.taskType} task; this endpoint " ++
      "only replays JD uploads."))
  else if tables.log.createdBy ≠ requestedBy then
    .error (.forbidden "You can only retry your own uploads.")
  else if !isReplayable tables.log.status then
    .error (.conflict (s!"Task '{taskId}' has not failed (status={tables.log.status.value}); " ++
      "only a failed upload can be retried."))
  else .ok ()

-- What was submitted, without anything that a stage derived.
def buildDispatchKwargs (checkpoint : Checkpoint) : Except RetryError JDSubmission :=
  match ContextSerializer.fromDict casefold checkpoint.contextData with
  | .error exception =>
    .error (.conflict (s!"Task '{taskId}' cannot be replayed: its stored submission could " ++
      s!"not be read back ({exception}). Re-upload the document instead."))
  | .ok context => .ok { context.toJDSubmission with taskId := taskId }

def readCheckpoint : Except RetryError JDSubmission :=
  match tables.checkpoint with
  | none =>
    .error (.conflict (s!"Task '{taskId}' cannot be replayed: no checkpoint of its original " ++
      "submission exists, so its inputs are unknown. Re-upload the document instead."))
  | some checkpoint => buildDispatchKwargs casefold taskId checkpoint

def isReadable : Bool := (readCheckpoint casefold taskId tables).isOk

end Reads

def purgePreviousRun (tables : TaskTables) (requestedBy : String) : TaskTables :=
  { tables with
    checkpoint := none
    failureLog := []
    stageExecutions := []
    deadLetter := tables.deadLetter.map fun entry => { entry with replayedBy := some requestedBy } }

def resetTaskLog (tables : TaskTables) : TaskTables :=
  { tables with
    log := { tables.log with
      status := .queued
      retryCount := 0
      errorMessage := none
      outputSummary := none
      dispatchFailed := false } }

-- How far a call of `retry_from_start` has come.
inductive Progress where
  | started
  | loaded
  | built (kwargs : JDSubmission)
  | purged (kwargs : JDSubmission)
  | reset (kwargs : JDSubmission)
  | returned
  | raised (error : RetryError)

structure Call where
  requestedBy : String
  progress : Progress

-- The rows of a task, its messages at the broker, the runs that hold one, and the
-- calls. What happened since its last failure is kept beside them: whether that
-- left a readable checkpoint, and how many messages were dispatched.
structure World where
  tables : TaskTables
  messages : List JDSubmission
  runs : ℕ
  calls : List Call
  readable : Bool
  dispatched : ℕ

section Steps

variable (casefold : String → String) (taskId : String) (w : World)

def moveTo (i : ℕ) (call : Call) (progress : Progress) : World :=
  { w with calls := w.calls.set i { call with progress := progress } }

-- A call up to its next read, commit or message.
def advance (i : ℕ) (call : Call) : Option World :=
  match call.progress with
  | .started =>
    match loadReplayable taskId w.tables call.requestedBy with
    | .error error => some (moveTo w i call (.raised error))
    | .ok () => some (moveTo w i call .loaded)
  | .loaded =>
    match readCheckpoint casefold taskId w.tables with
    | .error error => some (moveTo w i call (.raised error))
    | .ok kwargs => some (moveTo w i call (.built kwargs))
  | .built kwargs =>
    some (moveTo { w with tables := purgePreviousRun w.tables call.requestedBy } i call
      (.purged kwargs))
  | .purged kwargs =>
    some (moveTo { w with tables := resetTaskLog w.tables } i call (.reset kwargs))
  | .reset kwargs =>
    some (moveTo
      { w with messages := w.messages ++ [kwargs], dispatched := w.dispatched + 1 } i call
      .returned)
  | .returned => none
  | .raised _ => none

-- Any statement, commit or `apply_async` may raise; what is not committed goes.
def fail (i : ℕ) (call : Call) : Option World :=
  match call.progress with
  | .returned => none
  | .raised _ => none
  | _ => some (moveTo w i call (.raised .failure))

-- What the run of a message does to the rows.
inductive RunEvent where
  | takes
  -- a stage fails, and what it had is kept
  | records (checkpoint : Checkpoint) (failure : RetryDriver.StageFailureLog)
  | retries (message : JDSubmission)
  | givesUp (status : TaskStatus) (entry : DeadLetterRow)
  | succeeds

def run (status : TaskStatus) (w : World) : World :=
  { w with tables := { w.tables with log := { w.tables.log with status := status } } }

def runStep : RunEvent → Option World
  | .takes =>
    match w.messages with
    | [] => none
    | _ :: rest => some (run .running { w with messages := rest, runs := w.runs + 1 })
  | .records checkpoint failure =>
    if w.runs = 0 then none
    else some { w with tables := { w.tables with
      checkpoint := some checkpoint
      failureLog := w.tables.failureLog ++ [failure] } }
  | .retries message =>
    if w.runs = 0 then none
    else some (run .retry { w with messages := w.messages ++ [message], runs := w.runs - 1 })
  | .givesUp status entry =>
    if w.runs = 0 ∨ !isReplayable status then none
    else some (run status
      { w with
        tables := { w.tables with deadLetter := some entry }
        runs := w.runs - 1
        readable := isReadable casefold taskId w.tables
        dispatched := 0 })
  | .succeeds =>
    if w.runs = 0 then none
    else some (run .success
      { w with tables := { w.tables with checkpoint := none }, runs := w.runs - 1 })

inductive Event where
  | call (requestedBy : String)
  | advance (i : ℕ)
  | fail (i : ℕ)
  | run (event : RunEvent)

def next : Event → Option World
  | .call requestedBy => some { w with calls := w.calls ++ [⟨requestedBy, .started⟩] }
  | .advance i => w.calls[i]?.bind fun call => advance casefold taskId w i call
  | .fail i => w.calls[i]?.bind fun call => fail w i call
  | .run event => runStep casefold taskId w event

def Step (event : Event) (t : World) : Prop := next casefold taskId w event = some t

end Steps

end JDRetry

end AiHiring
