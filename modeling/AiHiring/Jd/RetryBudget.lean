import AiHiring.Jd.Resume
import AiHiring.Tasks.CompositeScore

namespace AiHiring

open Library JDProcessingPipeline
open JdLineage (emptyDb)

namespace RetryDriver

-- `get_max_attempts`; without a stage the default policy counts.
def getMaxAttempts : Option ProcessingStage → ℕ
  | some stage => maxAttempts stage
  | none => 3

def getRetriesRemaining (stage : Option ProcessingStage) (attemptNumber : ℕ) : ℕ :=
  getMaxAttempts stage - attemptNumber

structure StageFailureLog where
  stage : ProcessingStage
  attemptNumber : ℕ
  message : String
  classification : FailureClassification

structure DeadLetter where
  finalErrorMessage : String
  inputPayload : Option ContextData
  retryCount : ℕ

-- One task between two of its attempts. `scheduled` says that a message for the next
-- attempt is under way, and `retries` is what that message counts.
structure TaskRun where
  db : JdDatabase
  checkpoint : Option Checkpoint
  scheduled : Bool
  retries : ℕ
  status : TaskStatus
  retryCount : ℕ
  failureLog : List StageFailureLog
  deadLetterQueue : List DeadLetter

def TaskRun.attemptNumber (w : TaskRun) : ℕ := w.retries + 1

structure Attempt where
  fault : Option (ProcessingStage × StageFault)
  classification : FailureClassification
  message : String

def handleFailure (w : TaskRun) (stage : ProcessingStage) (a : Attempt) : TaskRun × Bool :=
  let failure := ⟨stage, w.attemptNumber, a.message, a.classification⟩
  let w := { w with failureLog := w.failureLog ++ [failure] }
  if givesUp stage a.classification w.attemptNumber then
    let entry := ⟨a.message, w.checkpoint.map Checkpoint.contextData, w.attemptNumber⟩
    ({ w with deadLetterQueue := w.deadLetterQueue ++ [entry] }, false)
  else
    ({ w with status := .retry, retryCount := w.retryCount + 1, retries := w.retries + 1,
              scheduled := true }, true)

section Task

variable (external : ExternalStages) (run : JDSubmission)

-- What a stage that fails leaves behind; without the record of the failure the
-- checkpoint stays the one before.
def afterFailure (checkpoint : Option Checkpoint) (stage : ProcessingStage)
    (state : PipelineState) (recorded : Bool) : Option Checkpoint :=
  if recorded then some (storedCheckpoint stage state) else checkpoint

def processJdDocument (w : TaskRun) (a : Attempt) : TaskRun :=
  let w := { w with status := .running, scheduled := false }
  match runAttempt external run w.db a.fault w.checkpoint with
  | .finished state => { w with db := state.db, checkpoint := none, status := .success }
  | .duplicate state => { w with db := state.db, status := .failure }
  | .raised _ => { w with status := .failure }
  | .stageFailed stage state recorded =>
    let w := { w with
      db := state.db
      checkpoint := afterFailure w.checkpoint stage state recorded }
    match handleFailure w stage a with
    | (w, true) => w
    | (w, false) => { w with status := .failure }

def deliver (w : TaskRun) (a : Attempt) : TaskRun :=
  if w.scheduled then processJdDocument external run w a else w

end Task

def submitted (db : JdDatabase) : TaskRun where
  db := db
  checkpoint := none
  scheduled := true
  retries := 0
  status := .queued
  retryCount := 0
  failureLog := []
  deadLetterQueue := []

-- What an attempt starts from.
structure Progress where
  db : JdDatabase
  checkpoint : Option Checkpoint

def TaskRun.progress (w : TaskRun) : Progress := ⟨w.db, w.checkpoint⟩

section Pattern

variable (external : ExternalStages) (run : JDSubmission)

def FailsAt (p : Progress) (failing : Attempt × ProcessingStage) (next : Progress) : Prop :=
  failing.1.classification ≠ .permanent ∧ ∃ state recorded,
    runAttempt external run p.db failing.1.fault p.checkpoint =
        .stageFailed failing.2 state recorded ∧
      next = ⟨state.db, afterFailure p.checkpoint failing.2 state recorded⟩

variable (path : List ((Attempt × ProcessingStage) × Progress))

def stagesOf : List ProcessingStage :=
  path.map fun entry => entry.1.2

def attemptsOf : List Attempt :=
  path.map fun entry => entry.1.1

-- The failure number `n + 1` of the task must find the budget of its stage above
-- that number, whichever stages failed before.
def WithinBudget (n : ℕ) (stages : List ProcessingStage) : Prop :=
  ∀ k stage, stages[k]? = some stage → n + k + 1 < maxAttempts stage

variable {external run} {w : TaskRun} {stage : ProcessingStage} {a : Attempt}

theorem givesUp_iff (hpermanent : a.classification ≠ .permanent) (attemptNumber : ℕ) :
    givesUp stage a.classification attemptNumber = true ↔ maxAttempts stage ≤ attemptNumber := by
  simp [givesUp, hpermanent]

theorem withinBudget_cons (n : ℕ) (stages : List ProcessingStage) :
    WithinBudget n (stage :: stages) ↔ n + 1 < maxAttempts stage ∧ WithinBudget (n + 1) stages := by
  constructor
  · intro h
    refine ⟨h 0 stage rfl, fun k s hk => ?_⟩
    have hlt := h (k + 1) s hk
    omega
  · rintro ⟨hfirst, hrest⟩ k s hk
    cases k with
    | zero =>
      obtain rfl : stage = s := Option.some.inj hk
      exact hfirst
    | succ k =>
      have hlt := hrest k s hk
      omega

theorem deliver_stopped (hstopped : w.scheduled = false) (attempts : List Attempt) :
    attempts.foldl (deliver external run) w = w := by
  induction attempts with
  | nil => rfl
  | cons a rest ih =>
    have hnone : deliver external run w a = w := by simp [deliver, hstopped]
    rw [List.foldl_cons, hnone, ih]

-- One failing attempt: the driver looks at the number of the attempt alone.
theorem deliver_failing (hscheduled : w.scheduled = true) {next : Progress}
    (hfail : FailsAt external run w.progress (a, stage) next) :
    let w' := deliver external run w a
    if w.attemptNumber < maxAttempts stage then
      w'.scheduled = true ∧ w'.retries = w.retries + 1 ∧ w'.progress = next ∧
        w'.deadLetterQueue = w.deadLetterQueue
    else w'.scheduled = false ∧ w'.deadLetterQueue ≠ [] := by
  obtain ⟨hpermanent, state, recorded, hrun, rfl⟩ := hfail
  have hrun' : runAttempt external run w.db a.fault w.checkpoint =
      .stageFailed stage state recorded := hrun
  have hgive : givesUp stage a.classification w.attemptNumber = true ↔
      maxAttempts stage ≤ w.attemptNumber := givesUp_iff hpermanent _
  rw [deliver, if_pos hscheduled, processJdDocument]
  simp only [hrun', handleFailure]
  split_ifs with hlt hgave hgave
  · exact absurd (hgive.mp hgave) (by omega)
  · exact ⟨rfl, rfl, rfl, rfl⟩
  · exact ⟨rfl, by simp⟩
  · exact absurd (hgive.mpr (by omega)) hgave

-- A pattern of failures gets through to the next attempt if and only if each of
-- them is within its budget; otherwise it ends in the dead letter queue.
theorem deliver_pattern
    (hscheduled : w.scheduled = true) (hp : Path (FailsAt external run) w.progress path) :
    let w' := (attemptsOf path).foldl (deliver external run) w
    (WithinBudget w.retries (stagesOf path) → w'.scheduled = true ∧
      w'.progress = final w.progress path ∧ w'.deadLetterQueue = w.deadLetterQueue) ∧
    (¬WithinBudget w.retries (stagesOf path) → w'.scheduled = false ∧ w'.deadLetterQueue ≠ []) := by
  induction path generalizing w with
  | nil =>
    have hnone : WithinBudget w.retries [] := by simp [WithinBudget]
    exact ⟨fun _ => ⟨hscheduled, rfl, rfl⟩, fun h => absurd hnone h⟩
  | cons entry rest ih =>
    obtain ⟨⟨a, stage⟩, next⟩ := entry
    obtain ⟨hfail, hrest⟩ := hp
    have hstep := deliver_failing hscheduled hfail
    have hstages : stagesOf (((a, stage), next) :: rest) = stage :: stagesOf rest := rfl
    have hattempts : attemptsOf (((a, stage), next) :: rest) = a :: attemptsOf rest := rfl
    rw [hstages, hattempts, List.foldl_cons, withinBudget_cons]
    by_cases hlt : w.attemptNumber < maxAttempts stage
    · rw [if_pos hlt] at hstep
      obtain ⟨hsched, hretries, hprogress, hqueue⟩ := hstep
      have hrest' := ih hsched (hprogress ▸ hrest)
      rw [hretries, hprogress, hqueue] at hrest'
      have hfirst : w.retries + 1 < maxAttempts stage := hlt
      simp only [hfirst, true_and]
      exact hrest'
    · rw [if_neg hlt] at hstep
      obtain ⟨hstopped, hqueue⟩ := hstep
      have hfirst : ¬w.retries + 1 < maxAttempts stage := hlt
      rw [deliver_stopped hstopped]
      exact ⟨fun h => absurd h.1 hfirst, fun _ => ⟨hstopped, hqueue⟩⟩

theorem succeeds_iff (db : JdDatabase) (path : List ((Attempt × ProcessingStage) × Progress))
    (hp : Path (FailsAt external run) ⟨db, none⟩ path) (last : Attempt) (state : PipelineState)
    (hlast : runAttempt external run (final ⟨db, none⟩ path).db last.fault
      (final ⟨db, none⟩ path).checkpoint = .finished state) :
    let w := (attemptsOf path ++ [last]).foldl (deliver external run) (submitted db)
    w.deadLetterQueue = [] ∧ w.status = .success ↔ WithinBudget 0 (stagesOf path) := by
  obtain ⟨hwithin, hbeyond⟩ := deliver_pattern (w := submitted db) path rfl hp
  rw [List.foldl_append, List.foldl_cons, List.foldl_nil]
  constructor
  · rintro ⟨hqueue, -⟩
    by_contra hno
    obtain ⟨hstopped, hne⟩ := hbeyond hno
    rw [deliver, hstopped] at hqueue
    exact hne hqueue
  · intro h
    obtain ⟨hscheduled, hprogress, hqueue⟩ := hwithin h
    generalize (attemptsOf path).foldl (deliver external run) (submitted db) = w at *
    have hfinal : final ⟨db, none⟩ path = ⟨w.db, w.checkpoint⟩ := hprogress.symm
    rw [hfinal] at hlast
    rw [deliver, if_pos hscheduled, processJdDocument]
    simp only [hlast]
    exact ⟨hqueue, trivial⟩

def failAgain (stage : ProcessingStage) (a : Attempt) (w : TaskRun) : TaskRun :=
  (handleFailure w stage a).1

theorem handleFailure_retried (hpermanent : a.classification ≠ .permanent) :
    ((handleFailure w stage a).2 = true ↔ w.attemptNumber < maxAttempts stage) ∧
      (failAgain stage a w).attemptNumber =
        if w.attemptNumber < maxAttempts stage then w.attemptNumber + 1 else w.attemptNumber := by
  have hgive : givesUp stage a.classification w.attemptNumber = true ↔
      maxAttempts stage ≤ w.attemptNumber := givesUp_iff hpermanent _
  unfold failAgain handleFailure
  dsimp only
  have hnumber (failures : List StageFailureLog) :
      TaskRun.attemptNumber { w with failureLog := failures } = w.attemptNumber := rfl
  rw [hnumber]
  by_cases hlt : w.attemptNumber < maxAttempts stage
  · have hno : ¬givesUp stage a.classification w.attemptNumber = true := fun h =>
      absurd (hgive.mp h) (by omega)
    rw [if_neg hno, if_pos hlt]
    exact ⟨by simp [hlt], rfl⟩
  · rw [if_pos (hgive.mpr (by omega)), if_neg hlt]
    exact ⟨by simp [hlt], rfl⟩

theorem attemptNumber_failAgain (hpermanent : a.classification ≠ .permanent) (j : ℕ) :
    ((failAgain stage a)^[j] w).attemptNumber =
      max w.attemptNumber (min (w.attemptNumber + j) (maxAttempts stage)) := by
  induction j with
  | zero =>
    rw [Function.iterate_zero_apply]
    omega
  | succ j ih =>
    rw [Function.iterate_succ_apply', (handleFailure_retried hpermanent).2, ih]
    split_ifs <;> omega

theorem retriesRemaining_spec (hpermanent : a.classification ≠ .permanent) (j : ℕ) :
    (handleFailure ((failAgain stage a)^[j] w) stage a).2 = true ↔
      j < getRetriesRemaining (some stage) w.attemptNumber := by
  rw [(handleFailure_retried hpermanent).1, attemptNumber_failAgain hpermanent]
  unfold getRetriesRemaining getMaxAttempts
  dsimp only
  omega

end Pattern

-- A task ends well exactly when each of its failures comes before the budget of its
-- stage, counted over the attempts of the whole task; what remains of the budget of
-- one stage is counted right.
theorem retry_budget_iff (external : ExternalStages) (run : JDSubmission) (db : JdDatabase)
    (path : List ((Attempt × ProcessingStage) × Progress))
    (hp : Path (FailsAt external run) ⟨db, none⟩ path) (last : Attempt) (state : PipelineState)
    (hlast : runAttempt external run (final ⟨db, none⟩ path).db last.fault
      (final ⟨db, none⟩ path).checkpoint = .finished state) :
    (((attemptsOf path ++ [last]).foldl (deliver external run) (submitted db)).deadLetterQueue = []
      ∧ ((attemptsOf path ++ [last]).foldl (deliver external run) (submitted db)).status = .success
      ↔ ∀ k stage, (stagesOf path)[k]? = some stage → k + 1 < maxAttempts stage) ∧
    ∀ (w : TaskRun) (stage : ProcessingStage) (a : Attempt), a.classification ≠ .permanent →
      ∀ j, (handleFailure ((failAgain stage a)^[j] w) stage a).2 = true ↔
        j < getRetriesRemaining (some stage) w.attemptNumber := by
  refine ⟨?_, fun w stage a hpermanent j => retriesRemaining_spec hpermanent j⟩
  refine (succeeds_iff db path hp last state hlast).trans ?_
  simp only [WithinBudget, Nat.zero_add]

section Example

open JDResume (pythonStages engineer)

def timesOutAt (stage : ProcessingStage) : Attempt × ProcessingStage :=
  (⟨some (stage, .function 0), .transient, "timed out"⟩, stage)

def getsThrough : Attempt := ⟨none, .unknown, ""⟩

def nextProgress (p : Progress) (failing : Attempt × ProcessingStage) : Option Progress :=
  if failing.1.classification = .permanent then none
  else match runAttempt pythonStages engineer p.db failing.1.fault p.checkpoint with
    | .stageFailed stage state recorded =>
      if stage = failing.2 then
        some ⟨state.db, afterFailure p.checkpoint stage state recorded⟩
      else none
    | _ => none

theorem nextProgress_failsAt (p : Progress) (failing : Attempt × ProcessingStage)
    (next : Progress) (h : nextProgress p failing = some next) :
    FailsAt pythonStages engineer p failing next := by
  unfold nextProgress at h
  split_ifs at h with hpermanent
  split at h
  · next stage state recorded hrun =>
      split_ifs at h with hstage
      subst hstage
      exact ⟨hpermanent, state, recorded, hrun, (Option.some.inj h).symm⟩
  · simp at h

def timeouts (stages : List ProcessingStage) : List ((Attempt × ProcessingStage) × Progress) :=
  execute nextProgress ⟨emptyDb, none⟩ (stages.map timesOutAt)

theorem timeouts_path (stages : List ProcessingStage) :
    Path (FailsAt pythonStages engineer) ⟨emptyDb, none⟩ (timeouts stages) :=
  execute_path nextProgress nextProgress_failsAt _ _

def isFinished : RunOutcome → Bool
  | .finished _ => true
  | _ => false

theorem finished_of_isFinished (outcome : RunOutcome) (h : isFinished outcome = true) :
    ∃ state, outcome = .finished state := by
  cases outcome with
  | finished state => exact ⟨state, rfl⟩
  | _ => simp [isFinished] at h

def mixed : List ProcessingStage := [.textExtraction, .textCleaning, .aiExtraction, .aiExtraction]

set_option maxRecDepth 4000 in
theorem retry_budget_iff_mixed :
    let w := (attemptsOf (timeouts mixed) ++ [getsThrough]).foldl (deliver pythonStages engineer)
      (submitted emptyDb)
    w.deadLetterQueue = [] ∧ w.status = .success := by
  obtain ⟨state, hlast⟩ := finished_of_isFinished (runAttempt pythonStages engineer
    (final ⟨emptyDb, none⟩ (timeouts mixed)).db getsThrough.fault
    (final ⟨emptyDb, none⟩ (timeouts mixed)).checkpoint) (by decide)
  have hstages : stagesOf (timeouts mixed) = mixed := by decide
  refine (retry_budget_iff pythonStages engineer emptyDb (timeouts mixed)
    (timeouts_path mixed) getsThrough state hlast).1.mpr fun k stage hk => ?_
  rw [hstages] at hk
  obtain ⟨hlt, rfl⟩ := List.getElem?_eq_some_iff.mp hk
  revert k
  decide

def earlyStages : List ProcessingStage := [.textExtraction, .textExtraction, .textCleaning]

set_option maxRecDepth 4000 in
-- TEXT_CLEANING fails for the first time, and is given up: the two failures of
-- TEXT_EXTRACTION have used up its attempts.
theorem first_failure_given_up :
    ¬∀ (external : ExternalStages) (run : JDSubmission) (db : JdDatabase)
      (path : List ((Attempt × ProcessingStage) × Progress)) (last : Attempt)
      (state : PipelineState), Path (FailsAt external run) ⟨db, none⟩ path →
        runAttempt external run (final ⟨db, none⟩ path).db last.fault
          (final ⟨db, none⟩ path).checkpoint = .finished state →
        (∀ stage, (stagesOf path).count stage < maxAttempts stage) →
        ((attemptsOf path ++ [last]).foldl (deliver external run) (submitted db)).deadLetterQueue =
          [] := by
  intro h
  obtain ⟨state, hlast⟩ := finished_of_isFinished (runAttempt pythonStages engineer
    (final ⟨emptyDb, none⟩ (timeouts earlyStages)).db getsThrough.fault
    (final ⟨emptyDb, none⟩ (timeouts earlyStages)).checkpoint) (by decide)
  have hstages : stagesOf (timeouts earlyStages) = earlyStages := by decide
  have hcount (stage : ProcessingStage) :
      (stagesOf (timeouts earlyStages)).count stage < maxAttempts stage := by
    rw [hstages]
    cases stage <;> decide
  have hqueue := h pythonStages engineer emptyDb (timeouts earlyStages) getsThrough state
    (timeouts_path earlyStages) hlast hcount
  have hlength : ((attemptsOf (timeouts earlyStages) ++ [getsThrough]).foldl
      (deliver pythonStages engineer)
      (submitted emptyDb)).deadLetterQueue.length = 1 := by
    decide
  rw [hqueue] at hlength
  exact absurd hlength (by decide)

end Example

end RetryDriver

end AiHiring
