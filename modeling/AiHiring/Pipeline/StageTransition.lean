import AiHiring.Library.Transaction
import AiHiring.Library.Text
import AiHiring.Pipeline.Hooks

namespace AiHiring

open Library

structure Actor where
  roles : List String
  id : Option String

def Actor.system : Actor where
  roles := ["SYSTEM"]
  id := none

def CampaignCandidate.movedTo (cc : CampaignCandidate) (toStage : PipelineStage) :
    CampaignCandidate :=
  { cc with previousStage := some cc.pipelineStage, pipelineStage := toStage }

-- The unified decision model: the six decision_* columns are written together.
def CampaignCandidate.withDecision (cc : CampaignCandidate) (decisionType : DecisionType)
    (decisionSource : Option DecisionSource) (decisionReason : Option String)
    (decisionDetails : Option Dict) (decisionByUserId : Option String) (now : Instant) :
    CampaignCandidate :=
  { cc with
    decisionType := some decisionType
    decisionSource := decisionSource
    decisionReason := decisionReason
    decisionDetails := decisionDetails
    decisionByUserId := decisionByUserId
    decisionAt := some now }

-- `{**(scores_snapshot or {}), "decision_type": ..., ...}`
def decisionSnapshot (scoresSnapshot : Option Dict) (decisionType : DecisionType)
    (decisionSource : Option DecisionSource) (decisionReason : Option String)
    (decisionDetails : Option Dict) : Dict :=
  let snapshot := scoresSnapshot.getD []
  let snapshot := assign snapshot "decision_type" (.str decisionType.value)
  let snapshot := assign snapshot "decision_source"
    (.ofString? (decisionSource.map DecisionSource.value))
  let snapshot := assign snapshot "decision_reason" (.ofString? decisionReason)
  assign snapshot "decision_details" (.ofDict? decisionDetails)

namespace StageTransitionService

open AllowedTransitionRepository CampaignCandidateRepository

variable (table : TransitionTable)

def transitionToScreening (db : Db) (cc : CampaignCandidate) (now : Instant) : Db × Bool :=
  let fromStage := cc.pipelineStage
  let toStage := .screening
  let previousStage := cc.previousStage
  if fromStage ≠ .uploaded then
    (db, false)
  else if !isTransitionAllowed table fromStage toStage previousStage then
    (db, false)
  else
    let db := update db { cc.movedTo toStage with updatedAt := some now }
    let db := createStageHistory db cc.id toStage (some fromStage) none
      (some "Automated screening started") .system none none
    let db := createTransitionLog db cc.id fromStage toStage "SYSTEM" previousStage none none
    (db, true)

def transitionOnAiSuccess (db : Db) (cc : CampaignCandidate) (toStage : PipelineStage)
    (decisionType : DecisionType) (changeReason : String) (scoresSnapshot : Option Dict)
    (decisionReason : Option String) (decisionDetails : Option Dict) (now : Instant) :
    Db × Bool :=
  let fromStage := cc.pipelineStage
  let previousStage := cc.previousStage
  if !isTransitionAllowed table fromStage toStage previousStage then
    (db, false)
  else
    let effectiveDecisionReason := decisionReason.getD changeReason
    let db := update db ((cc.movedTo toStage).withDecision decisionType (some .ai)
      (some effectiveDecisionReason) decisionDetails none now)
    let db := createStageHistory db cc.id toStage (some fromStage) none (some changeReason)
      .system (some (decisionSnapshot scoresSnapshot decisionType (some .ai)
        (some effectiveDecisionReason) decisionDetails)) none
    let db := createTransitionLog db cc.id fromStage toStage "SYSTEM" previousStage none none
    (db, true)

def transitionToRejected (db : Db) (cc : CampaignCandidate) (changeReason : String)
    (scoresSnapshot : Option Dict) (decisionSource : DecisionSource)
    (decisionReason : Option String) (decisionDetails : Option Dict)
    (decisionByUserId : Option String) (now : Instant) : Db × Bool :=
  let fromStage := cc.pipelineStage
  let toStage := .rejected
  let previousStage := cc.previousStage
  if !isTransitionAllowed table fromStage toStage previousStage then
    (db, false)
  else
    let effectiveDecisionReason := decisionReason.getD changeReason
    let db := update db ((cc.movedTo toStage).withDecision .rejected (some decisionSource)
      (some effectiveDecisionReason) decisionDetails decisionByUserId now)
    let transitionSource : TransitionSource :=
      if decisionByUserId = none then .system else .manual
    let db := createStageHistory db cc.id toStage (some fromStage) decisionByUserId
      (some changeReason) transitionSource
      (some (decisionSnapshot scoresSnapshot .rejected (some decisionSource)
        (some effectiveDecisionReason) decisionDetails)) none
    let db := createTransitionLog db cc.id fromStage toStage decisionSource.value previousStage
      (some effectiveDecisionReason) decisionByUserId
    (db, true)

-- The decision an override replaces, as it is stashed in decision_details.
def overriddenDecision (cc : CampaignCandidate) : Dict :=
  [("overridden_decision_type", .ofString? (cc.decisionType.map DecisionType.value)),
   ("overridden_decision_source", .ofString? (cc.decisionSource.map DecisionSource.value)),
   ("overridden_decision_reason", .ofString? cc.decisionReason),
   ("overridden_decision_at", .ofString? (cc.decisionAt.map text))]

def applyHrOverride (db : Db) (cc : CampaignCandidate) (changedBy changeReason : String)
    (decisionReason : Option String) (now : Instant) : Db × Bool :=
  let fromStage := cc.pipelineStage
  let toStage := .screening
  let previousStage := cc.previousStage
  if !isTransitionAllowed table fromStage toStage previousStage then
    (db, false)
  else
    let effectiveDecisionReason := decisionReason.getD changeReason
    let decisionDetails := overriddenDecision cc
    let db := update db ((cc.movedTo toStage).withDecision .reset (some .recruiter)
      (some effectiveDecisionReason) (some decisionDetails) (some changedBy) now)
    let db := createStageHistory db cc.id toStage (some fromStage) (some changedBy)
      (some changeReason) .manual
      (some (decisionSnapshot none .reset (some .recruiter) (some effectiveDecisionReason)
        (some decisionDetails))) none
    let db := createTransitionLog db cc.id fromStage toStage DecisionSource.recruiter.value
      previousStage (some effectiveDecisionReason) (some changedBy)
    (db, true)

-- `reason and reason.strip()`
def reasonGiven (reason : Option String) : Bool :=
  match reason with
  | none => false
  | some reason => reason ≠ "" && strip reason ≠ ""

-- Steps 1 to 3 of `transition`: the row, the first of the actor's roles that
-- the row lists, and the reason.
def permit (candidate : CampaignCandidate) (toStage : PipelineStage) (actor : Actor)
    (reason : Option String) : Except ServiceError (AllowedTransition × String) :=
  let fromStage := candidate.pipelineStage
  match get table fromStage toStage candidate.previousStage with
  | none => .error (.invalidTransition fromStage toStage)
  | some row =>
    match actor.roles.find? (fun r => r ∈ row.allowedRoles) with
    | none => .error (.forbiddenRole fromStage toStage actor.roles)
    | some role =>
      if row.requiresReason ∧ !reasonGiven reason then
        .error (.reasonRequired fromStage toStage)
      else
        .ok (row, role)

def getByIdForUpdate (db : Db) (loaded : CampaignCandidate) : CampaignCandidate :=
  refetch false loaded ((getById db loaded.id).getD loaded)

-- Steps 5 and 6, up to the commit: `written` is the row the flush of the
-- locked candidate leaves in the table.
def recordMove (db : Db) (candidate written : CampaignCandidate) (role : String)
    (toStage : PipelineStage) (actor : Actor) (reason idempotencyKey : Option String)
    (now : Instant) : Except ServiceError (Db × Bool) := do
  let fromStage := candidate.pipelineStage
  let isSystem : Bool := "SYSTEM" ∈ actor.roles
  let changedBy := if isSystem then none else actor.id
  let transitionSource : TransitionSource := if isSystem then .system else .manual
  let (db, historyId, wasCreated) :=
    createStageHistoryIdempotent db candidate.id toStage (some fromStage) changedBy reason
      transitionSource none idempotencyKey
  if !wasCreated then
    .ok (db, false)
  else
    let db := update db written
    let db ← interviewHooks db candidate.id fromStage toStage changedBy (some role) now
    let db := AuditService.log db changedBy (some role) .pipelineStageTransitioned
      .campaignCandidate candidate.id (some candidate.campaignId)
      (some [("from_stage", .str fromStage.value), ("to_stage", .str toStage.value),
        ("reason", .ofString? reason), ("stage_history_id", .str (text historyId))])
    let db := createTransitionLog db candidate.id fromStage toStage role
      candidate.previousStage reason changedBy
    .ok (db, true)

def transition (db : Db) (campaignCandidateId : Uuid) (toStage : PipelineStage) (actor : Actor)
    (reason idempotencyKey : Option String) (env : RescoreEnv) (now : Instant) :
    Except ServiceError (Db × Bool) :=
  match getById db campaignCandidateId with
  | none => .error (.notFound "Campaign candidate not found.")
  | some candidate => do
    let fromStage := candidate.pipelineStage
    let (_, role) ← permit table candidate toStage actor reason
    let locked := getByIdForUpdate db candidate
    if locked.pipelineStage ≠ fromStage then
      .error (.stageConflict fromStage)
    else
      let (db, wasCreated) ← recordMove db candidate (locked.movedTo toStage) role toStage
        actor reason idempotencyKey now
      if wasCreated then
        .ok (rescoreAfter db campaignCandidateId fromStage toStage env, true)
      else
        .ok (db, false)

end StageTransitionService

end AiHiring
