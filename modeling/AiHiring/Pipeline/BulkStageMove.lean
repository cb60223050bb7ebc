import AiHiring.Pipeline.PipelineTransition

namespace AiHiring

namespace BulkStageMoveService

open PipelineTransitionService

-- `_STAGE_TO_DECISION.get(to_stage)`
def stageToDecision : PipelineStage → Option DecisionType
  | .shortlisted => some .shortlisted
  | .selected => some .selected
  | .rejected => some .rejected
  | .hold => some .hold
  | .fraudReview => some .fraudReview
  | _ => none

def manualRequest (toStage : PipelineStage) (actorId : String) (actorRole reason : Option String) :
    StageRequest where
  toStage := toStage
  changedBy := some actorId
  actorRole := actorRole
  reason := reason
  source := .manual
  decisionType := stageToDecision toStage
  decisionSource := some .hrAdmin
  decisionDetails := none

variable (table : TransitionTable)

def parseStage (targetStage : String) : Except ServiceError PipelineStage :=
  match PipelineStage.ofValue? targetStage with
  | none => .error (.campaign s!"Unknown pipeline stage '{targetStage}'." 422)
  | some toStage => .ok toStage

def loadInCampaign (db : Db) (campaignId campaignCandidateId : Uuid) :
    Except ServiceError CampaignCandidate :=
  match CampaignCandidateRepository.getById db campaignCandidateId with
  | none => .error (.campaign "Candidate not found in this campaign." 404)
  | some cc =>
    if cc.campaignId ≠ campaignId then
      .error (.campaign "Candidate not found in this campaign." 404)
    else
      .ok cc

structure SingleStageMoveResult where
  campaignCandidateId : Uuid
  (fromStage toStage detail : String)

def moveOne (db : Db) (campaignId campaignCandidateId : Uuid) (targetStage : String)
    (reason : Option String) (actorId : String) (actorRole : Option String) (env : RescoreEnv)
    (now : Instant) : Except ServiceError (Db × SingleStageMoveResult) := do
  let toStage ← parseStage targetStage
  let cc ← loadInCampaign db campaignId campaignCandidateId
  let fromStage := cc.pipelineStage
  if fromStage = toStage then
    .error (.campaign "Candidate is already in that stage." 409)
  else
    let (db, _) ← transitionStage table db true cc
      (manualRequest toStage actorId actorRole reason) now
    let db := AuditService.log db (some actorId) actorRole .candidateStageOverridden
      .campaignCandidate campaignCandidateId (some campaignId)
      (some [("title", .str s!"Candidate moved {fromStage.value} → {toStage.value}"),
        ("bulk", .bool false), ("from_stage", .str fromStage.value),
        ("to_stage", .str toStage.value), ("reason", .ofString? reason)])
    .ok (rescoreAfter db campaignCandidateId fromStage toStage env,
      { campaignCandidateId
        fromStage := fromStage.value
        toStage := toStage.value
        detail := s!"Moved candidate from {fromStage.value} to {toStage.value}." })

def rejectOne (db : Db) (campaignId campaignCandidateId : Uuid) (reason actorId : String)
    (actorRole : Option String) (env : RescoreEnv) (now : Instant) :
    Except ServiceError (Db × SingleStageMoveResult) := do
  let cc ← loadInCampaign db campaignId campaignCandidateId
  if cc.pipelineStage = .rejected then
    .error (.campaign "Candidate is already rejected." 409)
  else
    moveOne table db campaignId campaignCandidateId PipelineStage.rejected.value (some reason)
      actorId actorRole env now

structure AllowedTransitionResponse where
  toStage : String
  requiresReason : Bool
  notes : Option String
  deriving DecidableEq

structure CandidateAllowedTransitions where
  campaignCandidateId : Uuid
  currentStage : String
  previousStage : Option String
  allowedTransitions : List AllowedTransitionResponse

def AllowedTransitionResponse.ofRow (row : AllowedTransition) : AllowedTransitionResponse where
  toStage := row.toStage.value
  requiresReason := row.requiresReason
  notes := row.notes

def getAllowedTransitions (db : Db) (campaignId campaignCandidateId : Uuid)
    (actorRole : Option String) : Except ServiceError CandidateAllowedTransitions := do
  let cc ← loadInCampaign db campaignId campaignCandidateId
  let rows := AllowedTransitionRepository.listEligible table cc.pipelineStage cc.previousStage
  let allowed := rows.filter fun row =>
    match actorRole with
    | none => false
    | some role => role ∈ row.allowedRoles
  .ok
    { campaignCandidateId := cc.id
      currentStage := cc.pipelineStage.value
      previousStage := cc.previousStage.map PipelineStage.value
      allowedTransitions := (allowed.map AllowedTransitionResponse.ofRow).insertionSort
        fun r s => r.toStage ≤ s.toStage }

end BulkStageMoveService

end AiHiring
