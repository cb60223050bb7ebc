import Mathlib.Data.Rat.Defs
import AiHiring.Library.Table

namespace AiHiring

open Library

abbrev Uuid := ℕ

abbrev Instant := ℕ

inductive PipelineStage where
  | uploaded
  | screening
  | shortlisted
  | hold
  | hmReview
  | interview
  | selected
  | rejected
  | fraudReview
  deriving DecidableEq, Repr

inductive DecisionType where
  | rejected
  | shortlisted
  | selected
  | hold
  | fraudReview
  | reset
  deriving DecidableEq, Repr

inductive DecisionSource where
  | deterministic
  | semantic
  | ai
  | recruiter
  | hiringManager
  | hrAdmin
  | system
  deriving DecidableEq, Repr

inductive TransitionSource where
  | system
  | manual
  | trigger
  | override
  deriving DecidableEq, Repr

inductive AIEvaluationStatus where
  | pending
  | inProgress
  | completed
  | failed
  | manualReview
  | skipped
  deriving DecidableEq, Repr

inductive CampaignStatus where
  | active
  | paused
  | closed
  deriving DecidableEq, Repr

inductive InterviewStatus where
  | pending
  | scheduled
  | rescheduled
  | completed
  | cancelled
  deriving DecidableEq, Repr

inductive InterviewPlatform where
  | teams
  | meet
  | onsite
  | phone
  deriving DecidableEq, Repr

inductive InterviewHistoryEventType where
  | scheduled
  | rescheduled
  | cancelled
  deriving DecidableEq, Repr

inductive ActionType where
  | candidateAdded
  | pipelineStageTransitioned
  | campaignAutoClosed
  | candidateStageOverridden
  | candidateFlaggedForReview
  | interviewScheduled
  | interviewRescheduled
  | interviewCancelled
  | deterministicScoreComputed
  | resumeUploaded
  | resumeDeleted
  | deterministicOverrideApplied
  deriving DecidableEq, Repr

inductive EntityType where
  | campaign
  | campaignCandidate
  | resume
  deriving DecidableEq, Repr

def PipelineStage.value : PipelineStage → String
  | .uploaded => "UPLOADED"
  | .screening => "SCREENING"
  | .shortlisted => "SHORTLISTED"
  | .hold => "HOLD"
  | .hmReview => "HM_REVIEW"
  | .interview => "INTERVIEW"
  | .selected => "SELECTED"
  | .rejected => "REJECTED"
  | .fraudReview => "FRAUD_REVIEW"

def DecisionType.value : DecisionType → String
  | .rejected => "REJECTED"
  | .shortlisted => "SHORTLISTED"
  | .selected => "SELECTED"
  | .hold => "HOLD"
  | .fraudReview => "FRAUD_REVIEW"
  | .reset => "RESET"

def DecisionSource.value : DecisionSource → String
  | .deterministic => "DETERMINISTIC"
  | .semantic => "SEMANTIC"
  | .ai => "AI"
  | .recruiter => "RECRUITER"
  | .hiringManager => "HIRING_MANAGER"
  | .hrAdmin => "HR_ADMIN"
  | .system => "SYSTEM"

def TransitionSource.value : TransitionSource → String
  | .system => "SYSTEM"
  | .manual => "MANUAL"
  | .trigger => "TRIGGER"
  | .override => "OVERRIDE"

def InterviewStatus.value : InterviewStatus → String
  | .pending => "PENDING"
  | .scheduled => "SCHEDULED"
  | .rescheduled => "RESCHEDULED"
  | .completed => "COMPLETED"
  | .cancelled => "CANCELLED"

-- `PipelineStage(value)`; `none` is the ValueError.
def PipelineStage.ofValue? (value : String) : Option PipelineStage :=
  [uploaded, screening, shortlisted, hold, hmReview, interview, selected, rejected,
    fraudReview].find? (fun stage => stage.value = value)

def DecisionType.ofValue? (value : String) : Option DecisionType :=
  [rejected, shortlisted, selected, hold, fraudReview, reset].find? (fun d => d.value = value)

def DecisionSource.ofValue? (value : String) : Option DecisionSource :=
  [deterministic, semantic, ai, recruiter, hiringManager, hrAdmin, system].find?
    (fun d => d.value = value)

@[simp] theorem PipelineStage.ofValue?_value (stage : PipelineStage) :
    PipelineStage.ofValue? stage.value = some stage := by
  cases stage <;> rfl

@[simp] theorem DecisionType.ofValue?_value (d : DecisionType) :
    DecisionType.ofValue? d.value = some d := by
  cases d <;> rfl

@[simp] theorem DecisionSource.ofValue?_value (d : DecisionSource) :
    DecisionSource.ofValue? d.value = some d := by
  cases d <;> rfl

theorem PipelineStage.value_inj (stage other : PipelineStage) :
    stage.value = other.value ↔ stage = other := by
  constructor
  · intro h
    have hsome := PipelineStage.ofValue?_value stage
    rw [h, PipelineStage.ofValue?_value] at hsome
    exact (Option.some.inj hsome).symm
  · rintro rfl
    rfl

theorem DecisionType.value_of_ofValue? (value : String) (d : DecisionType)
    (h : DecisionType.ofValue? value = some d) : d.value = value := by
  simpa using List.find?_some h

-- What a JSONB column holds.
inductive Json where
  | null
  | bool (b : Bool)
  | num (q : ℚ)
  | str (s : String)
  | arr (items : List Json)
  | obj (entries : List (String × Json))

abbrev Dict := List (String × Json)

namespace Json

def truthy : Json → Bool
  | null => false
  | bool b => b
  | num q => q ≠ 0
  | str s => s ≠ ""
  | arr items => !items.isEmpty
  | obj entries => !entries.isEmpty

def asString? : Json → Option String
  | str s => some s
  | _ => none

theorem asString?_eq_some (json : Json) (s : String) : json.asString? = some s ↔ json = str s := by
  cases json <;> simp [asString?]

def ofString? : Option String → Json
  | some s => str s
  | none => null

def ofNum? : Option ℚ → Json
  | some q => num q
  | none => null

def ofDict? : Option Dict → Json
  | some d => obj d
  | none => null

end Json

-- `str(uuid)` and `datetime.isoformat()`.
def text (n : ℕ) : String := toString n

theorem text_toList (n : ℕ) : (text n).toList = Nat.toDigits 10 n := Nat.toList_repr

theorem text_inj {m n : ℕ} : text m = text n ↔ m = n := by
  constructor
  · intro h
    have hread := congrArg (fun s => Nat.ofDigitChars 10 s.toList 0) h
    simpa only [text_toList, Nat.ofDigitChars_ten_toDigits] using hread
  · exact congrArg text

theorem colon_not_mem_text (n : ℕ) : ':' ∉ (text n).toList := by
  intro hmem
  rw [text_toList] at hmem
  exact absurd (Nat.isDigit_of_mem_toDigits (by omega) (by omega) hmem) (by decide)

structure HiringCampaign where
  id : Uuid
  name : String
  status : CampaignStatus
  maxCandidates : Option ℤ
  hiringManagerId : String
  updatedAt : Instant

structure CampaignCandidateAIEvaluation where
  aiEvaluationStatus : AIEvaluationStatus
  effectiveAiScore : Option ℚ

structure CampaignCandidate where
  (id campaignId candidateId resumeId : Uuid)
  pipelineStage : PipelineStage
  previousStage : Option PipelineStage
  screenedAt : Option Instant
  deterministicScore : Option ℚ
  deterministicPassed : Option Bool
  deterministicBreakdown : Option Dict
  semanticScore : Option ℚ
  semanticPassed : Option Bool
  semanticScoreComputedAt : Option Instant
  semanticBreakdown : Option Dict
  compositeScore : Option ℚ
  compositeScoreComputedAt : Option Instant
  fraudFlags : Option Dict
  isFraudFlagged : Bool
  decisionType : Option DecisionType
  decisionSource : Option DecisionSource
  decisionReason : Option String
  decisionDetails : Option Dict
  decisionByUserId : Option String
  (decisionAt updatedAt : Option Instant)
  aiEvaluation : Option CampaignCandidateAIEvaluation

structure CampaignCandidateStageHistory where
  (id campaignCandidateId : Uuid)
  fromStage : Option PipelineStage
  toStage : PipelineStage
  (changedBy changeReason : Option String)
  transitionSource : TransitionSource
  scoresSnapshot : Option Dict
  idempotencyKey : Option String

structure StageTransitionLog where
  campaignCandidateId : Uuid
  previousStage : Option PipelineStage
  (fromStage toStage : PipelineStage)
  roleUsed : String
  (reason performedBy : Option String)

structure InterviewSchedule where
  (id campaignCandidateId : Uuid)
  roundNumber : ℕ
  status : InterviewStatus
  interviewType : Option String
  (startAt endAt : Option Instant)
  timezone : String
  candidateTimezone : Option String
  platform : Option InterviewPlatform
  (meetingLink location notes cancelReason externalCalendarEventId scheduledBy : Option String)
  scheduledByRole : Option String
  updatedAt : Instant

structure InterviewScheduleHistory where
  interviewId : Uuid
  eventType : InterviewHistoryEventType
  (oldStartAt newStartAt : Option Instant)
  (changedBy changedByRole : String)
  reason : Option String

structure AuditLog where
  (actorId actorRole : Option String)
  actionType : ActionType
  entityType : EntityType
  entityId : Uuid
  campaignId : Option Uuid
  detail : Option Dict

-- The committed tables the stage writers and the interview service share.
structure Db where
  campaigns : Table HiringCampaign HiringCampaign.id
  campaignCandidates : Table CampaignCandidate CampaignCandidate.id
  stageHistory : Table CampaignCandidateStageHistory CampaignCandidateStageHistory.id
  transitionLog : List StageTransitionLog
  interviewSchedules : Table InterviewSchedule InterviewSchedule.id
  interviewHistory : List InterviewScheduleHistory
  auditLog : List AuditLog

def Db.empty : Db where
  campaigns := Table.empty
  campaignCandidates := Table.empty
  stageHistory := Table.empty
  transitionLog := []
  interviewSchedules := Table.empty
  interviewHistory := []
  auditLog := []

inductive ServiceError where
  | notFound (detail : String)
  | campaign (message : String) (statusCode : ℕ)
  | invalidTransition (fromStage toStage : PipelineStage)
  | forbiddenRole (fromStage toStage : PipelineStage) (roles : List String)
  | reasonRequired (fromStage toStage : PipelineStage)
  | stageConflict (expectedStage : PipelineStage)
  | integrity (column : String)
  deriving DecidableEq

namespace ServiceError

def showRoles (roles : List String) : String :=
  "[" ++ ", ".intercalate (roles.map fun role => "'" ++ role ++ "'") ++ "]"

def message : ServiceError → String
  | notFound detail => detail
  | campaign message _ => message
  | invalidTransition fromStage toStage =>
    s!"INVALID_TRANSITION: No transition exists from {fromStage.value} to {toStage.value}."
  | forbiddenRole fromStage toStage roles =>
    s!"FORBIDDEN_ROLE: none of {showRoles roles} is permitted to perform this " ++
      s!"transition from {fromStage.value} to {toStage.value}."
  | reasonRequired fromStage toStage =>
    s!"REASON_REQUIRED: A reason is required to move from {fromStage.value} to {toStage.value}."
  | stageConflict expectedStage =>
    s!"STAGE_CONFLICT: Candidate is no longer at {expectedStage.value} — " ++
      "a concurrent update occurred."
  | integrity column => s!"null value in column {column} violates not-null constraint"

def statusCode : ServiceError → ℕ
  | notFound _ => 404
  | campaign _ statusCode => statusCode
  | invalidTransition _ _ => 409
  | forbiddenRole _ _ _ => 403
  | reasonRequired _ _ => 422
  | stageConflict _ => 409
  | integrity _ => 500

end ServiceError

end AiHiring
