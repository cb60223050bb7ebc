import AiHiring.Jd.RetryBudget
import AiHiring.Library.Feed

namespace AiHiring

open Library RetryDriver

inductive StageExecutionStatus where
  | pending
  | running
  | success
  | failed
  | skipped
  deriving DecidableEq, Repr

-- A row of one task.
structure StageExecution where
  stage : ProcessingStage
  status : StageExecutionStatus
  attemptNumber : ℕ
  errorMessage : Option String
  durationMs : Option ℕ
  deriving DecidableEq

def StageExecution.completed (execution : StageExecution) : Bool :=
  execution.status ≠ .pending ∧ execution.status ≠ .running

namespace DocumentProcessingRepository

variable (rows : List StageExecution)

def sameTriple (execution : StageExecution) (stage : ProcessingStage) (attemptNumber : ℕ) : Bool :=
  execution.stage = stage ∧ execution.attemptNumber = attemptNumber

def runningRow (stage : ProcessingStage) (attemptNumber : ℕ) : StageExecution where
  stage := stage
  status := .running
  attemptNumber := attemptNumber
  errorMessage := none
  durationMs := none

-- The row of a stage that is entered again is reset.
def startStage (stage : ProcessingStage) (attemptNumber : ℕ) : List StageExecution :=
  if rows.any fun row => sameTriple row stage attemptNumber then
    rows.map fun row =>
      if sameTriple row stage attemptNumber then runningRow stage attemptNumber else row
  else
    rows ++ [runningRow stage attemptNumber]

def completeStage (execution : StageExecution) : List StageExecution :=
  rows.map fun row =>
    if sameTriple row execution.stage execution.attemptNumber then execution else row

end DocumentProcessingRepository

namespace StageSummary

def replaces (incoming current : StageExecution) : Bool :=
  if current.status = .skipped ∧ incoming.status ≠ .skipped then true
  else if incoming.status = .skipped ∧ current.status ≠ .skipped then false
  else current.attemptNumber ≤ incoming.attemptNumber

-- `latest_by_stage`, which has one row for each stage.
def recordLatest (latest : List StageExecution) (execution : StageExecution) :
    List StageExecution :=
  if latest.any fun current => current.stage = execution.stage then
    latest.map fun current =>
      if current.stage = execution.stage ∧ replaces execution current then execution else current
  else
    latest ++ [execution]

def latestByStage (executions : List StageExecution) : List StageExecution :=
  executions.foldl recordLatest []

def collapseToLatestAttempt (executions : List StageExecution) : List StageExecution :=
  (latestByStage executions).insertionSort fun a b =>
    JDProcessingPipeline.stageOrderIndex a.stage ≤ JDProcessingPipeline.stageOrderIndex b.stage

def currentStage (collapsed : List StageExecution) : Option ProcessingStage :=
  collapsed.getLast?.map StageExecution.stage

-- `retry_budget`: the attempts in all, and those that are left.
def retryBudget (status : TaskStatus) (retryCount : ℕ) (collapsed : List StageExecution) : ℕ × ℕ :=
  (getMaxAttempts (currentStage collapsed),
    if status = .success ∨ status = .failure ∨ status = .dead then 0
    else getRetriesRemaining (currentStage collapsed) (retryCount + 1))

def stageRetriesRemaining (execution : StageExecution) : Option ℕ :=
  if execution.status = .failed then
    some (getRetriesRemaining (some execution.stage) execution.attemptNumber)
  else none

end StageSummary

-- The events on the channel of one resume task.
inductive WebSocketEvent where
  | taskLinked (documentId : Uuid)
  | stageCompleted (stage : ProcessingStage) (status : StageExecutionStatus)
      (errorMessage : Option String) (durationMs : Option ℕ) (attemptNumber maxAttempts : ℕ)
      (retriesRemaining : Option ℕ)
  deriving DecidableEq

namespace WebSocketEvent

-- `publish_stage_completed` and the snapshot build the same event of a row.
def ofExecution (execution : StageExecution) : WebSocketEvent :=
  stageCompleted execution.stage execution.status execution.errorMessage execution.durationMs
    execution.attemptNumber (getMaxAttempts (some execution.stage))
    (StageSummary.stageRetriesRemaining execution)

-- What an event says of a stage.
def shows (stage : ProcessingStage) : WebSocketEvent → Option StageExecutionStatus
  | taskLinked _ => none
  | stageCompleted shown status .. => if shown = stage then some status else none

end WebSocketEvent

def ResumeProcessingStatusService.getStatusAsEvents (resumeId : Option Uuid)
    (executions : List StageExecution) : List WebSocketEvent :=
  resumeId.toList.map WebSocketEvent.taskLinked ++
    (StageSummary.collapseToLatestAttempt executions).map WebSocketEvent.ofExecution

-- One resume task, its channel in Redis, and the server with its clients.
namespace LiveProgress

abbrev ClientId := ℕ

inductive Phase where
  -- registered by `manager.connect`
  | connected
  -- `redis_subscriber.subscribe` has returned
  | subscribed
  -- the snapshot is read
  | following
  deriving DecidableEq

structure Session where
  phase : Phase
  -- the client has left, or its token has expired
  gone : Bool
  -- the events of the snapshot that are still to be sent
  (unsent received : List WebSocketEvent)

-- The task of `_listen`: whether `pubsub.subscribe` has completed, the messages that
-- Redis has delivered, the last one taken and the sockets it is still to be sent to.
structure Listener where
  attached : Bool
  buffer : List WebSocketEvent
  taken : Option WebSocketEvent
  targets : List ClientId

structure World where
  rows : List StageExecution
  resumeId : Option Uuid
  -- the stage the worker is in
  running : Option (ProcessingStage × ℕ)
  -- committed and not yet published
  unpublished : Option WebSocketEvent
  connections : List ClientId
  sessions : ClientId → Option Session
  listener : Option Listener

inductive Outcome where
  | success
  | failed (message : String)

inductive Action where
  | start (stage : ProcessingStage) (attemptNumber : ℕ)
  | complete (outcome : Outcome) (durationMs : ℕ)
  | link (documentId : Uuid)
  | publish
  | connect (client : ClientId)
  | subscribe (client : ClientId)
  | read (client : ClientId)
  | send (client : ClientId)
  | leave (client : ClientId)
  | disconnect (client : ClientId)
  | attach
  | take
  | deliver (client : ClientId)
  | fail (client : ClientId)

-- The row that `run_stage` writes at the end of a stage.
def Outcome.execution (outcome : Outcome) (stage : ProcessingStage) (attemptNumber durationMs : ℕ) :
    StageExecution where
  stage := stage
  status := match outcome with
    | success => .success
    | failed _ => .failed
  attemptNumber := attemptNumber
  errorMessage := match outcome with
    | success => none
    | failed message => some message
  durationMs := some durationMs

def freshSession : Session where
  phase := .connected
  gone := false
  unsent := []
  received := []

def freshListener : Listener where
  attached := false
  buffer := []
  taken := none
  targets := []

namespace World

variable (w : World)

variable (client : ClientId)

def setSession (session : Option Session) : World :=
  { w with sessions := Function.update w.sessions client session }

def attached : Bool := w.listener.any Listener.attached

def targets : List ClientId := (w.listener.map Listener.targets).getD []

def buffer : List WebSocketEvent := (w.listener.map Listener.buffer).getD []

def taken : Option WebSocketEvent := w.listener.bind Listener.taken

-- The live events that have not been taken by the listener.
def coming : List WebSocketEvent := w.buffer ++ w.unpublished.toList

-- A worker is in one stage at a time, and the attempts of a task count up.
def canStart (stage : ProcessingStage) (attemptNumber : ℕ) : Bool :=
  w.unpublished.isNone ∧ w.rows.all fun row => row.stage = stage → row.attemptNumber ≤ attemptNumber

def complete (outcome : Outcome) (durationMs : ℕ) : Option World :=
  w.running.map fun (stage, attemptNumber) =>
    let execution := outcome.execution stage attemptNumber durationMs
    { w with
      rows := DocumentProcessingRepository.completeStage w.rows execution
      running := none
      unpublished := some (.ofExecution execution) }

-- Redis keeps nothing for a listener that has not subscribed yet.
def publish (event : WebSocketEvent) : World :=
  { w with
    unpublished := none
    listener := w.listener.map fun listener =>
      if listener.attached then { listener with buffer := listener.buffer ++ [event] }
      else listener }

-- `manager.disconnect`, and `unsubscribe` after the last client.
def disconnect : World :=
  let connections := w.connections.filter (· ≠ client)
  { w.setSession client none with
    connections := connections
    listener := if connections = [] then none else w.listener }

-- The listener has sent the taken event to the socket, or has failed to.
def served : World :=
  { w with
    listener := w.listener.map fun listener =>
      { listener with targets := listener.targets.filter (· ≠ client) } }

@[simp] theorem publish_targets (event : WebSocketEvent) :
    (w.publish event).targets = w.targets := by
  cases h : w.listener with
  | none => simp [publish, targets, h]
  | some listener => by_cases hon : listener.attached <;> simp [publish, targets, h, hon]

@[simp] theorem publish_taken (event : WebSocketEvent) : (w.publish event).taken = w.taken := by
  cases h : w.listener with
  | none => simp [publish, taken, h]
  | some listener => by_cases hon : listener.attached <;> simp [publish, taken, h, hon]

@[simp] theorem publish_attached (event : WebSocketEvent) :
    (w.publish event).attached = w.attached := by
  cases h : w.listener with
  | none => simp [publish, attached, h]
  | some listener => by_cases hon : listener.attached <;> simp [publish, attached, h, hon]

theorem publish_buffer (event : WebSocketEvent) :
    (w.publish event).buffer = if w.attached then w.buffer ++ [event] else w.buffer := by
  cases h : w.listener with
  | none => simp [publish, attached, buffer, h]
  | some listener => by_cases hon : listener.attached <;> simp [publish, attached, buffer, h, hon]

@[simp] theorem served_targets :
    (w.served client).targets = w.targets.filter (· ≠ client) := by
  cases h : w.listener <;> simp [served, targets, h]

@[simp] theorem served_taken : (w.served client).taken = w.taken := by
  cases h : w.listener <;> simp [served, taken, h]

@[simp] theorem served_buffer : (w.served client).buffer = w.buffer := by
  cases h : w.listener <;> simp [served, buffer, h]

@[simp] theorem served_coming : (w.served client).coming = w.coming := by
  rw [coming, served_buffer]
  rfl

@[simp] theorem served_attached : (w.served client).attached = w.attached := by
  cases h : w.listener <;> simp [served, attached, h]

end World

def next? (w : World) : Action → Option World
  | .start stage attemptNumber =>
    if w.canStart stage attemptNumber then
      some { w with
        rows := DocumentProcessingRepository.startStage w.rows stage attemptNumber
        running := some (stage, attemptNumber) }
    else none
  | .complete outcome durationMs => w.complete outcome durationMs
  | .link documentId =>
    if w.running = none ∧ w.unpublished = none then
      some { w with unpublished := some (.taskLinked documentId) }
    else none
  | .publish => w.unpublished.map w.publish
  -- a new socket is none that the listener still holds
  | .connect client =>
    if (w.sessions client).isNone ∧ client ∉ w.targets then
      some { w.setSession client (some freshSession) with
        connections := w.connections ++ [client] }
    else none
  | .subscribe client =>
    match w.sessions client with
    | some session =>
      if session.phase = .connected then
        some { w.setSession client (some { session with phase := .subscribed }) with
          listener := some (w.listener.getD freshListener) }
      else none
    | none => none
  | .read client =>
    match w.sessions client with
    | some session =>
      if session.phase = .subscribed then
        some (w.setSession client (some { session with
          phase := .following
          unsent := ResumeProcessingStatusService.getStatusAsEvents w.resumeId w.rows }))
      else none
    | none => none
  | .send client =>
    match w.sessions client with
    | some session =>
      match session.unsent with
      | event :: rest =>
        some (w.setSession client (some { session with
          unsent := rest, received := session.received ++ [event] }))
      | [] => none
    | none => none
  | .leave client =>
    (w.sessions client).map fun session =>
      w.setSession client (some { session with gone := true })
  | .disconnect client =>
    match w.sessions client with
    | some session => if session.gone then some (w.disconnect client) else none
    | none => none
  | .attach =>
    w.listener.map fun listener => { w with listener := some { listener with attached := true } }
  | .take =>
    match w.listener with
    | some listener =>
      match listener.buffer with
      | event :: rest =>
        if listener.targets = [] then
          some { w with listener := some { listener with
            buffer := rest, taken := some event, targets := w.connections } }
        else none
      | [] => none
    | none => none
  | .deliver client =>
    match w.taken, w.sessions client with
    | some event, some session =>
      if client ∈ w.targets then
        some ((w.served client).setSession client (some { session with
          received := session.received ++ [event] }))
      else none
    | _, _ => none
  -- a socket that is closed makes the send raise, and the manager drops it
  | .fail client =>
    if client ∈ w.targets ∧ (w.sessions client).all Session.gone then
      some { w.served client with connections := w.connections.filter (· ≠ client) }
    else none

def Step (w : World) (action : Action) (w' : World) : Prop := next? w action = some w'

def World.begin (resumeId : Option Uuid) : World where
  rows := []
  resumeId := resumeId
  running := none
  unpublished := none
  connections := []
  sessions _ := none
  listener := none

-- No step of anybody is pending; the worker may be in a stage.
structure Settled (w : World) : Prop where
  published : w.unpublished = none
  sessions : ∀ client session, w.sessions client = some session →
    session.gone = false ∧ session.phase = .following ∧ session.unsent = []
  listener : ∀ listener, w.listener = some listener →
    listener.attached = true ∧ listener.buffer = [] ∧ listener.targets = []

-- The client has received the row's status, and nothing else for the stage after it.
structure Informed (events : List WebSocketEvent) (row : StageExecution) : Prop where
  shown : ∃ event ∈ events, event.shows row.stage = some row.status
  last : lastShown (WebSocketEvent.shows row.stage) events = some row.status

def NothingMissed (w : World) : Prop :=
  Settled w → ∀ client session, w.sessions client = some session →
    ∀ row ∈ StageSummary.collapseToLatestAttempt w.rows, row.completed = true →
      Informed session.received row

end LiveProgress

end AiHiring
