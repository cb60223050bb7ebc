import AiHiring.Pipeline.Seed
import AiHiring.Pipeline.StageTransition

namespace AiHiring

open Library

namespace CampaignCandidateService

def newCandidate (campaignId candidateId resumeId id : Uuid) : CampaignCandidate where
  id := id
  campaignId := campaignId
  candidateId := candidateId
  resumeId := resumeId
  pipelineStage := .uploaded
  previousStage := none
  screenedAt := none
  deterministicScore := none
  deterministicPassed := none
  deterministicBreakdown := none
  semanticScore := none
  semanticPassed := none
  semanticScoreComputedAt := none
  semanticBreakdown := none
  compositeScore := none
  compositeScoreComputedAt := none
  fraudFlags := none
  isFraudFlagged := false
  decisionType := none
  decisionSource := none
  decisionReason := none
  decisionDetails := none
  decisionByUserId := none
  decisionAt := none
  updatedAt := none
  aiEvaluation := none

def addCandidate (db : Db) (campaignId candidateId resumeId : Uuid) (actorId : String)
    (actorRole : Option String) : Db × Uuid :=
  let id := db.campaignCandidates.next
  let db := { db with
    campaignCandidates :=
      db.campaignCandidates.insert (newCandidate campaignId candidateId resumeId) fun _ => rfl }
  let db := CampaignCandidateRepository.createStageHistory db id .uploaded none none none .system
    none none
  let db := AuditService.log db (some actorId) actorRole .candidateAdded .campaignCandidate id
    (some campaignId)
    (some [("candidate_id", .str (text candidateId)), ("resume_id", .str (text resumeId)),
      ("pipeline_stage", .str PipelineStage.uploaded.value)])
  (db, id)

-- The intake key is a hash of the three ids, so the only row it can collide
-- with is one the duplicate check has already refused.
def createCampaignCandidate (db : Db) (campaignId candidateId resumeId : Uuid)
    (actorId : String) (actorRole : Option String) : Except ServiceError (Db × Uuid) :=
  match CampaignRepository.getById db campaignId with
  | none => .error (.campaign "Campaign not found." 404)
  | some campaign =>
    if db.campaignCandidates.rows.any
        fun cc => cc.campaignId = campaignId ∧ cc.candidateId = candidateId then
      .error (.campaign "Candidate already exists in this campaign." 409)
    else if campaign.status = .paused then
      .error (.campaign "This campaign is currently paused — uploads are not accepted." 409)
    else if campaign.status ≠ .active then
      .error (.campaign "This campaign is closed and no longer accepting applications." 403)
    else
      .ok (addCandidate db campaignId candidateId resumeId actorId actorRole)

end CampaignCandidateService

structure Created (db : Db) (id : Uuid) : Prop where
  row : ∃ cc, db.campaignCandidates.find? id = some cc ∧ cc.pipelineStage = .uploaded ∧
    cc.previousStage = none
  history : ∃ first, db.historyOf id = [first] ∧ first.fromStage = none ∧
    first.toStage = .uploaded

theorem created_of_createCampaignCandidate (db db' : Db) (campaignId candidateId resumeId : Uuid)
    (actorId : String) (actorRole : Option String) (id : Uuid)
    (hkeys : ∀ row ∈ db.stageHistory.rows, row.campaignCandidateId < db.campaignCandidates.next)
    (h : CampaignCandidateService.createCampaignCandidate db campaignId candidateId resumeId
      actorId actorRole = .ok (db', id)) : Created db' id := by
  rw [CampaignCandidateService.createCampaignCandidate] at h
  cases hcampaign : CampaignRepository.getById db campaignId with
  | none => rw [hcampaign] at h; exact absurd h (by simp)
  | some campaign =>
    simp only [hcampaign, raise_eq_ok] at h
    obtain ⟨-, -, -, hdone⟩ := h
    cases hdone
    constructor
    · refine ⟨CampaignCandidateService.newCandidate campaignId candidateId resumeId
        db.campaignCandidates.next, ?_, rfl, rfl⟩
      exact (db.campaignCandidates.find?_insert _ (fun _ => rfl) _).trans (if_pos rfl)
    · -- no earlier history row refers to the new key
      have hnone : db.historyOf db.campaignCandidates.next = [] := by
        rw [Db.historyOf, List.filter_eq_nil_iff]
        intro row hrow
        have hlt := hkeys row hrow
        exact fun heq => Nat.ne_of_lt hlt (of_decide_eq_true heq)
      refine ⟨{ id := db.stageHistory.next, campaignCandidateId := db.campaignCandidates.next,
                fromStage := none, toStage := .uploaded, changedBy := none,
                changeReason := none, transitionSource := .system, scoresSnapshot := none,
                idempotencyKey := none }, ?_, rfl, rfl⟩
      change List.filter _ (db.stageHistory.rows ++ [_]) = _
      rw [List.filter_append]
      change db.historyOf db.campaignCandidates.next ++ _ = _
      rw [hnone]
      simp

def openCampaign (id : Uuid) : HiringCampaign where
  id := id
  name := "Backend engineer"
  status := .active
  maxCandidates := some 1
  hiringManagerId := "manager"
  updatedAt := 0

def freshDb : Db :=
  (CampaignCandidateService.addCandidate
    { Db.empty with campaigns := Table.empty.insert openCampaign fun _ => rfl } 0 0 0 "admin"
    (some "HR_ADMIN")).1

theorem freshDb_created : Created freshDb 0 :=
  created_of_createCampaignCandidate
    { Db.empty with campaigns := Table.empty.insert openCampaign fun _ => rfl } freshDb 0 0 0
    "admin" (some "HR_ADMIN") 0 (by simp [Db.empty, Table.empty]) rfl

def screenedDb : Db :=
  (StageTransitionService.transitionToScreening seededTransitions freshDb
    (CampaignCandidateService.newCandidate 0 0 0 0) 1).1

def recruiter : Actor where
  roles := ["RECRUITER"]
  id := some "recruiter"

def idle : RescoreEnv where
  candidate := none
  resume := none
  fault := none

end AiHiring
