import AiHiring.Interview.Notifications
import AiHiring.Jd.Pipeline
import AiHiring.Library.Stretch
import AiHiring.Tasks.CompositeScore

namespace AiHiring

open Library

-- `send_candidate_email_task` on one notification.
namespace EmailSend

-- What the task does one after the other, each of which may raise. `render` is all
-- that it reads and formats between the notification and the call of SES.
inductive Statement where
  | getByTaskId
  | createLog
  | markRunning
  | getById
  | markAlreadySent
  | render
  | sendEmail
  | update
  | commit
  | markSuccess
  | markRetry
  | createDeadLetter
  | markFailed
  | markDead
  deriving DecidableEq, Repr

-- An exception as `classify` reads it.
structure Failure where
  classification : FailureClassification
  message : String

abbrev Faults := Statement → Option Failure

structure Message where
  (taskId retries : ℕ)

structure DeadLetter where
  originalTaskId : ℕ
  finalErrorMessage : String
  retryCount : ℕ

-- What is committed. `delivered` counts the deliveries, `recorded` says that SENT
-- has been committed, and `unrecorded` counts the commits of SENT that failed.
structure World where
  status : EmailNotificationStatus
  errorReason : Option String
  logs : ℕ → Option TaskStatus
  deadLetterQueue : List DeadLetter
  delivered : ℕ
  recorded : Bool
  unrecorded : ℕ

def maxAttempts : ℕ := 3

def Message.attemptNumber (m : Message) : ℕ := m.retries + 1

section Task

variable (w : World) (m : Message)

def withLog (status : TaskStatus) : World :=
  { w with logs := Function.update w.logs m.taskId (some status) }

def load : List Statement :=
  if w.logs m.taskId = none then [.createLog, .markRunning, .getById] else [.markRunning, .getById]

def send : List Statement :=
  if w.status = .sent then [.markAlreadySent]
  else [.render, .sendEmail, .update, .commit, .markSuccess]

def body : List Statement :=
  .getByTaskId :: if w.logs m.taskId = some .success then [] else load w m ++ send w

def effect : Statement → World → World
  | .createLog, w => withLog w m .queued
  | .markRunning, w => withLog w m .running
  | .sendEmail, w => { w with delivered := w.delivered + 1 }
  | .commit, w => { w with status := .sent, recorded := true }
  | .markAlreadySent, w | .markSuccess, w => withLog w m .success
  | _, w => w

-- `task_log` and `notification` are set once these have returned.
def hasTaskLog (s : Statement) : Bool := s ∉ [.getByTaskId, .createLog, .markRunning]

def hasNotification (s : Statement) : Bool := hasTaskLog s ∧ s ≠ .getById

def givesUp (failure : Failure) : Bool :=
  failure.classification = .permanent ∨ maxAttempts ≤ m.attemptNumber

inductive Outcome where
  | ended
  | retried
  | raised
  deriving DecidableEq, Repr

def retry (s : Statement) : List Statement := if hasTaskLog s then [.markRetry] else []

def giveUp (s : Statement) : List Statement :=
  [.createDeadLetter] ++ (if hasNotification s then [.markFailed] else []) ++
    if hasTaskLog s then [.markDead] else []

def handlerEffect (failure : Failure) : Statement → World → World
  | .markRetry, w => withLog w m .retry
  | .createDeadLetter, w =>
    { w with
      deadLetterQueue := w.deadLetterQueue ++ [⟨m.taskId, failure.message, m.attemptNumber⟩] }
  | .markFailed, w => { w with status := .failed, errorReason := some failure.message }
  | .markDead, w => withLog w m .dead
  | _, w => w

-- The `except` clause; `self.retry` sends the message again.
def handle (f : Faults) (s : Statement) (failure : Failure) : World × Outcome :=
  if givesUp m failure then
    match runStretch (handlerEffect m failure) f (giveUp s) w with
    | (w, none) => (w, .ended)
    | (w, some _) => (w, .raised)
  else
    match runStretch (handlerEffect m failure) f (retry s) w with
    | (w, none) => (w, .retried)
    | (w, some _) => (w, .raised)

def noteUnrecorded (s : Statement) : World :=
  if s = .commit then { w with unrecorded := w.unrecorded + 1 } else w

def sendCandidateEmailTask (f : Faults) : World × Outcome :=
  match runStretch (effect m) f (body w m) w with
  | (w, none) => (w, .ended)
  | (w, some (s, failure)) => handle (noteUnrecorded w s) m f s failure

end Task

structure Delivery where
  message : Message
  faults : Faults

def Step (w : World) (d : Delivery) (t : World) : Prop :=
  (sendCandidateEmailTask w d.message d.faults).1 = t

end EmailSend

end AiHiring
