import AiHiring.Library.Fallible
import AiHiring.Pipeline.Governance

namespace AiHiring

open Library

namespace Db

def historyOf (db : Db) (campaignCandidateId : Uuid) : List CampaignCandidateStageHistory :=
  db.stageHistory.rows.filter fun h => h.campaignCandidateId = campaignCandidateId

def roundsOf (db : Db) (campaignCandidateId : Uuid) : List InterviewSchedule :=
  db.interviewSchedules.rows.filter fun r => r.campaignCandidateId = campaignCandidateId

end Db

namespace CampaignRepository

def getById (db : Db) (campaignId : Uuid) : Option HiringCampaign := db.campaigns.find? campaignId

def update (db : Db) (campaign : HiringCampaign) : Db :=
  { db with campaigns := db.campaigns.replace campaign }

def getSelectedCount (db : Db) (campaignId : Uuid) : ℕ :=
  db.campaignCandidates.rows.countP fun cc =>
    cc.campaignId = campaignId ∧ cc.pipelineStage = .selected

def getCampaignCandidate (db : Db) (campaignId campaignCandidateId : Uuid) :
    Option CampaignCandidate :=
  db.campaignCandidates.rows.find? fun cc =>
    cc.id = campaignCandidateId ∧ cc.campaignId = campaignId

end CampaignRepository

namespace AuditService

def log (db : Db) (actorId actorRole : Option String) (actionType : ActionType)
    (entityType : EntityType) (entityId : Uuid) (campaignId : Option Uuid)
    (details : Option Dict) : Db :=
  { db with
    auditLog := db.auditLog ++
      [{ actorId, actorRole, actionType, entityType, entityId, campaignId, detail := details }] }

end AuditService

namespace CampaignCandidateRepository

def getById (db : Db) (campaignCandidateId : Uuid) : Option CampaignCandidate :=
  db.campaignCandidates.find? campaignCandidateId

def update (db : Db) (cc : CampaignCandidate) : Db :=
  { db with campaignCandidates := db.campaignCandidates.replace cc }

def updatePipelineStage (db : Db) (cc : CampaignCandidate) (toStage : PipelineStage) :
    Db × CampaignCandidate :=
  let cc := { cc with pipelineStage := toStage }
  (update db cc, cc)

def createStageHistory (db : Db) (campaignCandidateId : Uuid) (toStage : PipelineStage)
    (fromStage : Option PipelineStage) (changedBy changeReason : Option String)
    (transitionSource : TransitionSource) (scoresSnapshot : Option Dict)
    (idempotencyKey : Option String) : Db :=
  { db with
    stageHistory := db.stageHistory.insert (fun id =>
        { id, campaignCandidateId, fromStage, toStage, changedBy, changeReason,
          transitionSource, scoresSnapshot, idempotencyKey })
      (fun _ => rfl) }

def getStageHistoryByIdempotencyKey (db : Db) (idempotencyKey : String) :
    Option CampaignCandidateStageHistory :=
  db.stageHistory.rows.find? fun h => h.idempotencyKey = some idempotencyKey

-- The partial unique index only sees keys that are not NULL; the loser of the
-- insert gets the row that holds its key.
def createStageHistoryIdempotent (db : Db) (campaignCandidateId : Uuid) (toStage : PipelineStage)
    (fromStage : Option PipelineStage) (changedBy changeReason : Option String)
    (transitionSource : TransitionSource) (scoresSnapshot : Option Dict)
    (idempotencyKey : Option String) : Db × Uuid × Bool :=
  match idempotencyKey.bind (getStageHistoryByIdempotencyKey db) with
  | some existing => (db, existing.id, false)
  | none =>
    (createStageHistory db campaignCandidateId toStage fromStage changedBy changeReason
      transitionSource scoresSnapshot idempotencyKey, db.stageHistory.next, true)

def createTransitionLog (db : Db) (campaignCandidateId : Uuid)
    (fromStage toStage : PipelineStage) (roleUsed : String)
    (previousStage : Option PipelineStage) (reason performedBy : Option String) : Db :=
  { db with
    transitionLog := db.transitionLog ++
      [{ campaignCandidateId, previousStage, fromStage, toStage, roleUsed, reason, performedBy }] }

def resetEvaluationDerivedFields (cc : CampaignCandidate) : CampaignCandidate :=
  { cc with
    screenedAt := none
    deterministicScore := none
    deterministicPassed := none
    deterministicBreakdown := none
    semanticScore := none
    semanticPassed := none
    compositeScore := none
    compositeScoreComputedAt := none
    fraudFlags := none
    isFraudFlagged := false
    decisionType := none
    decisionSource := none
    decisionReason := none
    decisionDetails := none
    decisionByUserId := none
    decisionAt := none }

def resetForRescore (cc : CampaignCandidate) : CampaignCandidate :=
  { resetEvaluationDerivedFields cc with
    semanticBreakdown := none
    semanticScoreComputedAt := none }

end CampaignCandidateRepository

namespace CampaignCandidateAIEvaluationRepository

def getOrCreate (cc : CampaignCandidate) : CampaignCandidateAIEvaluation :=
  cc.aiEvaluation.getD { aiEvaluationStatus := .pending, effectiveAiScore := none }

def reset (evaluation : CampaignCandidateAIEvaluation) : CampaignCandidateAIEvaluation :=
  { evaluation with aiEvaluationStatus := .pending, effectiveAiScore := none }

end CampaignCandidateAIEvaluationRepository

namespace InterviewStatus

-- `_ACTIVE_STATUSES`
def active (status : InterviewStatus) : Bool := status ∈ [pending, scheduled, rescheduled]

end InterviewStatus

abbrev Rounds := Table InterviewSchedule InterviewSchedule.id

namespace InterviewScheduleRepository

def getAllByCampaignCandidateId (db : Db) (campaignCandidateId : Uuid) : List InterviewSchedule :=
  (db.roundsOf campaignCandidateId).insertionSort fun r s => r.roundNumber ≤ s.roundNumber

def getByCampaignCandidateId (db : Db) (campaignCandidateId : Uuid) : Option InterviewSchedule :=
  (getAllByCampaignCandidateId db campaignCandidateId).head?

def getLatestByCampaignCandidateId (db : Db) (campaignCandidateId : Uuid) :
    Option InterviewSchedule :=
  ((db.roundsOf campaignCandidateId).insertionSort fun r s => s.roundNumber ≤ r.roundNumber).head?

def getById (db : Db) (interviewId : Uuid) : Option InterviewSchedule :=
  db.interviewSchedules.find? interviewId

def update (db : Db) (schedule : InterviewSchedule) : Db :=
  { db with interviewSchedules := db.interviewSchedules.replace schedule }

-- changed_by and changed_by_role are NOT NULL columns.
def addHistory (db : Db) (interviewId : Uuid) (eventType : InterviewHistoryEventType)
    (oldStartAt newStartAt : Option Instant) (changedBy changedByRole reason : Option String) :
    Except ServiceError Db :=
  match changedBy, changedByRole with
  | some changedBy, some changedByRole =>
    .ok { db with
      interviewHistory := db.interviewHistory ++
        [{ interviewId, eventType, oldStartAt, newStartAt, changedBy, changedByRole, reason }] }
  | none, _ => .error (.integrity "changed_by")
  | _, none => .error (.integrity "changed_by_role")

-- A fresh row with the column defaults.
def newRound (campaignCandidateId : Uuid) (roundNumber : ℕ) (now : Instant) (id : Uuid) :
    InterviewSchedule where
  id := id
  campaignCandidateId := campaignCandidateId
  roundNumber := roundNumber
  status := .pending
  interviewType := none
  startAt := none
  endAt := none
  timezone := "UTC"
  candidateTimezone := none
  platform := none
  meetingLink := none
  location := none
  notes := none
  cancelReason := none
  externalCalendarEventId := none
  scheduledBy := none
  scheduledByRole := none
  updatedAt := now

def addRound (rounds : Rounds) (campaignCandidateId : Uuid) (roundNumber : ℕ) (now : Instant) :
    Rounds :=
  rounds.insert (newRound campaignCandidateId roundNumber now) fun _ => rfl

def getOrCreatePending (db : Db) (campaignCandidateId : Uuid) (now : Instant) : Db :=
  match getByCampaignCandidateId db campaignCandidateId with
  | some _ => db
  | none =>
    { db with interviewSchedules := addRound db.interviewSchedules campaignCandidateId 1 now }

def cancelled (reason : String) (now : Instant) (schedule : InterviewSchedule) :
    InterviewSchedule :=
  { schedule with status := .cancelled, cancelReason := some reason, updatedAt := now }

def cancelRound (reason : String) (changedBy changedByRole : Option String) (now : Instant)
    (db : Db) (schedule : InterviewSchedule) : Except ServiceError Db :=
  if schedule.status.active then
    addHistory (update db (cancelled reason now schedule)) schedule.id .cancelled
      schedule.startAt none changedBy changedByRole (some reason)
  else
    .ok db

def cancelActiveRounds (db : Db) (campaignCandidateId : Uuid) (reason : String)
    (changedBy changedByRole : Option String) (now : Instant) : Except ServiceError Db :=
  (getAllByCampaignCandidateId db campaignCandidateId).foldlM
    (cancelRound reason changedBy changedByRole now) db

section Cancelled

def cancelledIn (campaignCandidateId : Uuid) (reason : String) (now : Instant)
    (schedule : InterviewSchedule) : InterviewSchedule :=
  if schedule.campaignCandidateId = campaignCandidateId ∧ schedule.status.active then
    cancelled reason now schedule
  else
    schedule

theorem cancelledIn_id (campaignCandidateId : Uuid) (reason : String) (now : Instant)
    (schedule : InterviewSchedule) :
    (cancelledIn campaignCandidateId reason now schedule).id = schedule.id := by
  rw [cancelledIn]
  split_ifs <;> rfl

variable (campaignCandidateId : Uuid) (reason : String) (changedBy changedByRole : Option String)
variable (now : Instant)

section Columns

variable (schedule : InterviewSchedule)

@[simp] theorem cancelledIn_campaignCandidateId :
    (cancelledIn campaignCandidateId reason now schedule).campaignCandidateId =
      schedule.campaignCandidateId := by
  rw [cancelledIn]
  split_ifs <;> rfl

@[simp] theorem cancelledIn_roundNumber :
    (cancelledIn campaignCandidateId reason now schedule).roundNumber =
      schedule.roundNumber := by
  rw [cancelledIn]
  split_ifs <;> rfl

@[simp] theorem cancelledIn_platform :
    (cancelledIn campaignCandidateId reason now schedule).platform = schedule.platform := by
  rw [cancelledIn]
  split_ifs <;> rfl

@[simp] theorem cancelledIn_externalCalendarEventId :
    (cancelledIn campaignCandidateId reason now schedule).externalCalendarEventId =
      schedule.externalCalendarEventId := by
  rw [cancelledIn]
  split_ifs <;> rfl

theorem cancelledIn_status :
    (cancelledIn campaignCandidateId reason now schedule).status = schedule.status ∨
      (cancelledIn campaignCandidateId reason now schedule).status = .cancelled := by
  rw [cancelledIn]
  split_ifs
  · exact .inr rfl
  · exact .inl rfl

end Columns

def cancelRow (rounds : Rounds) (schedule : InterviewSchedule) : Rounds :=
  if schedule.status.active then rounds.replace (cancelled reason now schedule) else rounds

theorem addHistory_ok (db db' : Db) (interviewId : Uuid) (eventType : InterviewHistoryEventType)
    (oldStartAt newStartAt : Option Instant) (note : Option String)
    (h : addHistory db interviewId eventType oldStartAt newStartAt changedBy changedByRole note =
      .ok db') :
    db' = { db with interviewHistory := db'.interviewHistory } := by
  cases changedBy with
  | none => simp [addHistory] at h
  | some changedBy =>
    cases changedByRole with
    | none => simp [addHistory] at h
    | some changedByRole =>
      rw [← Except.ok.inj h]

theorem cancelRound_ok (db db' : Db) (schedule : InterviewSchedule)
    (h : cancelRound reason changedBy changedByRole now db schedule = .ok db') :
    db' = { db with
      interviewSchedules := cancelRow reason now db.interviewSchedules schedule
      interviewHistory := db'.interviewHistory } := by
  by_cases hactive : schedule.status.active = true
  · rw [cancelRound, if_pos hactive] at h
    rw [addHistory_ok _ _ _ _ _ _ _ _ _ h, cancelRow, if_pos hactive]
    rfl
  · rw [cancelRound, if_neg hactive] at h
    rw [← Except.ok.inj h, cancelRow, if_neg hactive]

theorem foldlM_cancelRound_ok (batch : List InterviewSchedule) (db db' : Db)
    (h : batch.foldlM (cancelRound reason changedBy changedByRole now) db = .ok db') :
    db' = { db with
      interviewSchedules := batch.foldl (cancelRow reason now) db.interviewSchedules
      interviewHistory := db'.interviewHistory } := by
  induction batch generalizing db with
  | nil =>
    rw [← (foldlM_nil_eq_ok _ _ _).mp h]
    rfl
  | cons first rest ih =>
    obtain ⟨mid, hfirst, hrest⟩ := (foldlM_cons_eq_ok _ _ _ _ _).mp h
    have hmid := cancelRound_ok _ _ _ _ _ _ _ hfirst
    rw [ih mid hrest, hmid]
    rfl

theorem mem_getAll (db : Db) (schedule : InterviewSchedule) :
    schedule ∈ getAllByCampaignCandidateId db campaignCandidateId ↔
      schedule ∈ db.interviewSchedules.rows ∧
        schedule.campaignCandidateId = campaignCandidateId := by
  rw [getAllByCampaignCandidateId, (List.perm_insertionSort _ _).mem_iff, Db.roundsOf,
    List.mem_filter, decide_eq_true_iff]

theorem nodup_getAll (db : Db) :
    ((getAllByCampaignCandidateId db campaignCandidateId).map InterviewSchedule.id).Nodup := by
  have hperm := (List.perm_insertionSort (fun r s : InterviewSchedule =>
    r.roundNumber ≤ s.roundNumber) (db.roundsOf campaignCandidateId)).map InterviewSchedule.id
  rw [getAllByCampaignCandidateId, hperm.nodup_iff]
  exact db.interviewSchedules.nodup.sublist (List.filter_sublist.map _)

theorem foldl_cancelRow_getAll (db : Db) :
    (getAllByCampaignCandidateId db campaignCandidateId).foldl (cancelRow reason now)
        db.interviewSchedules =
      db.interviewSchedules.modify (cancelledIn campaignCandidateId reason now)
        (cancelledIn_id campaignCandidateId reason now) := by
  have hsub : ∀ r ∈ getAllByCampaignCandidateId db campaignCandidateId,
      r ∈ db.interviewSchedules.rows := fun r hr => ((mem_getAll _ _ _).mp hr).1
  have hfold := db.interviewSchedules.foldl_replace (fun r => r.status.active)
    (cancelled reason now) (fun _ => rfl) _ (nodup_getAll campaignCandidateId db) hsub
  refine Eq.trans ?_ (hfold.trans ?_)
  · rfl
  · ext1
    · rw [Table.rows_modify, Table.rows_modify]
      apply List.map_congr_left
      intro r hr
      have hmem : r.id ∈ (getAllByCampaignCandidateId db campaignCandidateId).map
          InterviewSchedule.id ↔ r.campaignCandidateId = campaignCandidateId := by
        constructor
        · intro hin
          obtain ⟨s, hs, hid⟩ := List.mem_map.mp hin
          obtain ⟨hsrow, hsc⟩ := (mem_getAll _ _ _).mp hs
          rwa [← db.interviewSchedules.eq_of_key_eq hsrow hr hid]
        · intro hc
          exact List.mem_map.mpr ⟨r, (mem_getAll _ _ _).mpr ⟨hr, hc⟩, rfl⟩
      simp only [hmem, cancelledIn]
    · rfl

theorem cancelActiveRounds_ok (db db' : Db)
    (h : cancelActiveRounds db campaignCandidateId reason changedBy changedByRole now = .ok db') :
    db' = { db with
      interviewSchedules :=
        db.interviewSchedules.modify (cancelledIn campaignCandidateId reason now)
          (cancelledIn_id campaignCandidateId reason now)
      interviewHistory := db'.interviewHistory } := by
  have hfold := foldlM_cancelRound_ok _ _ _ _ _ _ _ h
  rwa [foldl_cancelRow_getAll] at hfold

-- An attributed cancellation never fails.
theorem cancelActiveRounds_attributed (db : Db) (by_ role : String) :
    ∃ db', cancelActiveRounds db campaignCandidateId reason (some by_) (some role) now =
      .ok db' := by
  refine foldlM_total _ _ _ fun mid schedule => ?_
  by_cases hactive : schedule.status.active = true <;> simp [cancelRound, hactive, addHistory]

end Cancelled

end InterviewScheduleRepository

end AiHiring
