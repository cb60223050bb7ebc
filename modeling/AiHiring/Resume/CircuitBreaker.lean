import AiHiring.Library.Run
import AiHiring.Pipeline.Model

namespace AiHiring

inductive CBState where
  | closed
  | open
  | halfOpen
  deriving DecidableEq, Repr

structure CircuitBreakerState where
  state : CBState
  (failureCount failureThreshold : ℕ)
  (lastFailureAt openedAt retryAfter : Option Instant)
  deriving DecidableEq

namespace CircuitBreakerRepository

-- Five minutes; an instant counts microseconds.
def openCooldown : ℕ := 5 * 60 * 1000000

def defaultFailureThreshold : ℕ := 10

variable (row : Option CircuitBreakerState)

-- The session's view of the one row before and after a call.
def getOrCreate (failureThreshold : ℕ) : CircuitBreakerState :=
  row.getD ⟨.closed, 0, failureThreshold, none, none, none⟩

def incrementFailure (now openedAt : Instant) :
    CircuitBreakerState :=
  let state := getOrCreate row defaultFailureThreshold
  let state := { state with failureCount := state.failureCount + 1, lastFailureAt := some now }
  if state.state ≠ .open ∧ state.failureThreshold ≤ state.failureCount then
    { state with
      state := .open
      openedAt := some openedAt
      retryAfter := some (openedAt + openCooldown) }
  else state

def isDue (state : CircuitBreakerState) (now : Instant) : Bool :=
  state.state = .open ∧ state.retryAfter.any fun retryAfter => retryAfter ≤ now

def transitionToHalfOpenIfDue (now : Instant) :
    CircuitBreakerState :=
  let state := getOrCreate row defaultFailureThreshold
  if isDue state now then { state with state := .halfOpen } else state

def reset : Option CircuitBreakerState :=
  row.map fun state =>
    { state with state := .closed, failureCount := 0, openedAt := none, retryAfter := none }

end CircuitBreakerRepository

namespace EmbeddingTask

open CircuitBreakerRepository

structure Call where
  (startedAt endedAt : Instant)
  raised : Bool
  deriving DecidableEq

-- What is committed, the time, and the calls made so far, the latest one first.
structure World where
  row : Option CircuitBreakerState
  clock : Instant
  calls : List Call

structure Session where
  (committed flushed : Option CircuitBreakerState)

def Session.begin (committed : Option CircuitBreakerState) : Session := ⟨committed, committed⟩

def Session.flush (s : Session) (row : Option CircuitBreakerState) : Session :=
  { s with flushed := row }

def Session.commit (s : Session) : Session := { s with committed := s.flushed }

def Session.rollback (s : Session) : Session := { s with flushed := s.committed }

-- How long each part of a run takes, and which calls raise.
structure Timing where
  (untilCheck untilCall call untilOpened secondCall : ℕ)
  (firstRaises secondRaises : Bool)

-- A run that is over before it looks at the breaker (a log that is SUCCESS, a resume
-- without text, a vector that is reused), or one that does.
inductive Event where
  | early (elapsed : ℕ)
  | run (timing : Timing)

section Task

variable (threshold : ℕ) (w : World) (timing : Timing)

def checkedAt : Instant := w.clock + timing.untilCheck

def calledAt : Instant := checkedAt w timing + timing.untilCall

def failedAt : Instant := calledAt w timing + timing.call

-- `get_or_create` and `transition_to_half_open_if_due`, neither of them committed.
def checked : Session :=
  let session := Session.begin w.row
  let session := session.flush (some (getOrCreate session.flushed threshold))
  session.flush (some (transitionToHalfOpenIfDue session.flushed (checkedAt w timing)))

def isOpen (session : Session) : Bool :=
  session.flushed.any fun state => state.state = .open

def generateResumeEmbeddingTask : World :=
  let session := checked threshold w timing
  if isOpen session then
    { w with row := session.commit.committed, clock := checkedAt w timing }
  else if timing.firstRaises then
    let openedAt := failedAt w timing + timing.untilOpened
    let session := session.rollback
    let session := session.flush
      (some (incrementFailure session.flushed (failedAt w timing) openedAt))
    { row := session.commit.committed
      clock := openedAt
      calls := ⟨calledAt w timing, failedAt w timing, true⟩ :: w.calls }
  else
    let session := (session.flush (reset session.flushed)).commit
    let secondAt := failedAt w timing + timing.untilOpened
    -- the vector is computed once more, and what it raises goes to the outer handler
    { row := (if timing.secondRaises then session.rollback else session).committed
      clock := secondAt + timing.secondCall
      calls := ⟨secondAt, secondAt + timing.secondCall, timing.secondRaises⟩ ::
        ⟨calledAt w timing, failedAt w timing, false⟩ :: w.calls }

def next : Event → World
  | .early elapsed => { w with clock := w.clock + elapsed }
  | .run timing => generateResumeEmbeddingTask threshold w timing

def Step (w : World) (event : Event) (t : World) : Prop := next threshold w event = t

end Task

-- The calls that have raised since the last one that did not.
def failuresInARow (calls : List Call) : ℕ := (calls.takeWhile Call.raised).length

def failureCount (row : Option CircuitBreakerState) : ℕ :=
  (row.map CircuitBreakerState.failureCount).getD 0

def state (row : Option CircuitBreakerState) : CBState :=
  (row.map CircuitBreakerState.state).getD .closed

-- What the breaker is there for.
structure HoldsBack (threshold : ℕ) (w : World) : Prop where
  counted : failureCount w.row = failuresInARow w.calls
  opened : threshold ≤ failuresInARow w.calls → state w.row = .open
  closed : ∀ call rest, w.calls = call :: rest → call.raised = false →
    state w.row = .closed ∧ failureCount w.row = 0
  spaced : ∀ later after before earlier, w.calls = later ++ after :: before :: earlier →
    threshold ≤ failuresInARow (before :: earlier) → before.endedAt + openCooldown ≤ after.startedAt

-- A run makes a call unless the breaker is open and its cooldown is not over.
def Probes (w : World) (event : Event) (t : World) : Prop :=
  ∀ timing, event = .run timing →
    ((∀ row, w.row = some row → row.state = .open → isDue row (checkedAt w timing) = true) ↔
      t.calls ≠ w.calls)

-- The second call of a run must not raise. A call that raises must find a threshold
-- that is not above the configured one where that one is reached; and nothing calls
-- the service again within five minutes of a failed probe.
def Careful (threshold : ℕ) (w : World) : Event → Prop
  | .early _ => True
  | .run timing =>
    isOpen (checked threshold w timing) = false →
      (threshold ≤ failureCount w.row → ∀ row, w.row = some row →
        ∀ failure, row.lastFailureAt = some failure → failure + openCooldown ≤ calledAt w timing) ∧
      if timing.firstRaises then
        threshold ≤ failureCount w.row + 1 → state w.row = .open ∨
          (getOrCreate w.row defaultFailureThreshold).failureThreshold ≤ failureCount w.row + 1
      else timing.secondRaises = false

end EmbeddingTask

end AiHiring
