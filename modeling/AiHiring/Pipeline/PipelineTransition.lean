import AiHiring.Pipeline.StageTransition

namespace AiHiring

-- `not campaign.max_candidates`
def HiringCampaign.unlimited (campaign : HiringCampaign) : Bool :=
  campaign.maxCandidates = none || campaign.maxCandidates = some 0

def HiringCampaign.positionsFilled (campaign : HiringCampaign) (selectedCount : ℕ) : Bool :=
  match campaign.maxCandidates with
  | none => true
  | some maxCandidates => maxCandidates ≤ selectedCount

def ofInt? : Option ℤ → Json
  | some n => .num n
  | none => .null

namespace PipelineTransitionService

open AllowedTransitionRepository CampaignCandidateRepository

-- The same hook as CampaignService's own copy. `withRepo` is whether the
-- service was built with a campaign repository.
def closeIfAllPositionsFilled (db : Db) (withRepo : Bool) (campaignId : Uuid)
    (changedBy actorRole : Option String) (now : Instant) : Db :=
  if !withRepo then db
  else
    match CampaignRepository.getById db campaignId with
    | none => db
    | some campaign =>
      if campaign.unlimited then db
      else if campaign.status = .closed then db
      else if !campaign.positionsFilled (CampaignRepository.getSelectedCount db campaign.id) then
        db
      else
        let db := CampaignRepository.update db
          { campaign with status := .closed, updatedAt := now }
        if changedBy = none then db
        else
          AuditService.log db changedBy actorRole .campaignAutoClosed .campaign campaign.id
            (some campaign.id)
            (some [("title", .str s!"Campaign '{campaign.name}' auto-closed"),
              ("reason", .str "ALL_POSITIONS_FILLED"),
              ("max_candidates", ofInt? campaign.maxCandidates),
              ("selected_count", ofInt? campaign.maxCandidates)])

-- What a caller of `transition_stage` supplies.
structure StageRequest where
  toStage : PipelineStage
  (changedBy actorRole reason : Option String)
  source : TransitionSource
  decisionType : Option DecisionType
  decisionSource : Option DecisionSource
  decisionDetails : Option Dict

-- `actor_role or source.value`
def effectiveRole (request : StageRequest) : String :=
  match request.actorRole with
  | none => request.source.value
  | some role => if role = "" then request.source.value else role

-- `not reason`
def reasonMissing (reason : Option String) : Bool := reason = none || reason = some ""

variable (table : TransitionTable)

def permit (cc : CampaignCandidate) (request : StageRequest) :
    Except ServiceError AllowedTransition :=
  let fromStage := cc.pipelineStage
  match get table fromStage request.toStage cc.previousStage with
  | none => .error (.invalidTransition fromStage request.toStage)
  | some row =>
    if effectiveRole request ∉ row.allowedRoles then
      .error (.forbiddenRole fromStage request.toStage [effectiveRole request])
    else if row.requiresReason ∧ reasonMissing request.reason then
      .error (.reasonRequired fromStage request.toStage)
    else
      .ok row

def decided (cc : CampaignCandidate) (request : StageRequest) (now : Instant) :
    CampaignCandidate :=
  match request.decisionType with
  | none => cc
  | some decisionType =>
    cc.withDecision decisionType request.decisionSource request.reason request.decisionDetails
      request.changedBy now

-- The tail of `transition_stage`, once the hooks have run: the decision, the
-- openings cap, the history row and the audit entry.
def recordStage (db : Db) (withRepo : Bool) (fromStage : PipelineStage) (cc : CampaignCandidate)
    (request : StageRequest) (now : Instant) : Db :=
  let toStage := request.toStage
  let db := update db cc
  let scoresSnapshot := request.decisionType.map fun decisionType =>
    decisionSnapshot none decisionType request.decisionSource request.reason request.decisionDetails
  let db :=
    if toStage = .selected then
      closeIfAllPositionsFilled db withRepo cc.campaignId request.changedBy request.actorRole now
    else db
  let db := createStageHistory db cc.id toStage (some fromStage) request.changedBy request.reason
    request.source scoresSnapshot none
  if request.changedBy = none then db
  else
    AuditService.log db request.changedBy request.actorRole .pipelineStageTransitioned
      .campaignCandidate cc.id none
      (some [("from_stage", .str fromStage.value), ("to_stage", .str toStage.value),
        ("reason", .ofString? request.reason)])

def transitionStage (db : Db) (withRepo : Bool) (cc : CampaignCandidate)
    (request : StageRequest) (now : Instant) : Except ServiceError (Db × CampaignCandidate) := do
  let fromStage := cc.pipelineStage
  let toStage := request.toStage
  let _ ← permit table cc request
  let (db, cc) := updatePipelineStage db { cc with previousStage := some fromStage } toStage
  let db ← interviewHooks db cc.id fromStage toStage request.changedBy
    (some (effectiveRole request)) now
  let cc := decided cc request now
  .ok (recordStage db withRepo fromStage cc request now, cc)

end PipelineTransitionService

namespace CampaignCandidateService

open PipelineTransitionService

variable (table : TransitionTable)

def boardRequest (toStage : PipelineStage) (actorId : String) (actorRole reason : Option String) :
    StageRequest where
  toStage := toStage
  changedBy := some actorId
  actorRole := actorRole
  reason := reason
  source := .manual
  decisionType := none
  decisionSource := none
  decisionDetails := none

-- The two exceptions that are wrapped on the way out.
def wrapped : ServiceError → ServiceError
  | .invalidTransition fromStage toStage =>
    .campaign (ServiceError.invalidTransition fromStage toStage).message 409
  | .reasonRequired fromStage toStage =>
    .campaign (ServiceError.reasonRequired fromStage toStage).message 400
  | e => e

def movePipelineStage (db : Db) (campaignCandidateId : Uuid) (toStage : PipelineStage)
    (actorId : String) (actorRole reason : Option String) (env : RescoreEnv) (now : Instant) :
    Except ServiceError Db :=
  match CampaignCandidateRepository.getById db campaignCandidateId with
  | none => .error (.campaign "Campaign candidate not found." 404)
  | some cc =>
    match transitionStage table db true cc (boardRequest toStage actorId actorRole reason)
        now with
    | .error e => .error (wrapped e)
    | .ok (db, _) => .ok (rescoreAfter db cc.id cc.pipelineStage toStage env)

end CampaignCandidateService

end AiHiring
