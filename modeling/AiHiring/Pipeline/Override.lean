import AiHiring.Pipeline.PipelineTransition

namespace AiHiring

namespace OverrideRevertService

open CampaignCandidateRepository

-- `details.get(key)`
def detail (details : Dict) (key : String) : Json := (details.lookup key).getD .null

def restoredDetails (details : Dict) (reason : String) (overrideReason : Option String)
    (restoredType : DecisionType) (restoredSource : DecisionSource) (now : Instant) : Dict :=
  [("override_cleared", .bool true), ("override_cleared_reason", .str reason),
   ("override_cleared_at", .str (text now)),
   ("cleared_override_reason", .ofString? overrideReason),
   ("restored_decision_type", .str restoredType.value),
   ("restored_decision_source", .str restoredSource.value),
   ("restored_decision_reason", detail details "overridden_decision_reason"),
   ("originally_decided_at", detail details "overridden_decision_at")]

-- The decision stored under the `overridden_*` keys, or why it cannot be used.
def storedDecision (details : Dict) : Except ServiceError (DecisionType × DecisionSource) :=
  let originalType := detail details "overridden_decision_type"
  let originalSource := detail details "overridden_decision_source"
  if !originalType.truthy ∨ !originalSource.truthy then
    .error (.campaign ("The decision this override replaced was not recorded, so it cannot " ++
      "be restored automatically. Reject the candidate manually with a reason instead.") 409)
  else
    match originalType.asString?.bind DecisionType.ofValue?,
        originalSource.asString?.bind DecisionSource.ofValue? with
    | some restoredType, some restoredSource => .ok (restoredType, restoredSource)
    | _, _ =>
      .error (.campaign ("Stored decision '" ++ originalType.asString?.getD "" ++ "/" ++
        originalSource.asString?.getD "" ++ "' is not recognised.") 409)

def skipAiEvaluation (cc : CampaignCandidate) : CampaignCandidate :=
  let evaluation := CampaignCandidateAIEvaluationRepository.getOrCreate cc
  if evaluation.aiEvaluationStatus ∈ [.pending, .inProgress] then
    { cc with aiEvaluation := some { evaluation with aiEvaluationStatus := .skipped } }
  else
    { cc with aiEvaluation := some evaluation }

def reverted (cc : CampaignCandidate) (details : Dict) (reason actorId : String)
    (restoredType : DecisionType) (restoredSource : DecisionSource) (now : Instant) :
    CampaignCandidate :=
  { cc with
    pipelineStage := .rejected
    decisionType := some restoredType
    decisionSource := some restoredSource
    decisionReason := (detail details "overridden_decision_reason").asString?
    decisionAt := some now
    decisionByUserId := some actorId
    decisionDetails :=
      some (restoredDetails details reason cc.decisionReason restoredType restoredSource now)
    deterministicPassed :=
      if restoredSource = .deterministic then some false else cc.deterministicPassed }

-- `withAiRepo` is whether the service was built with an AI evaluation repository.
def revertOverride (db : Db) (withAiRepo : Bool) (campaignCandidateId : Uuid)
    (reason actorId : String) (actorRole : Option String) (now : Instant) :
    Except ServiceError Db :=
  match getById db campaignCandidateId with
  | none => .error (.campaign "Campaign candidate not found." 404)
  | some cc =>
    if cc.decisionType ≠ some .reset then
      .error (.campaign "This candidate has no active HR override to clear." 409)
    else if cc.pipelineStage ≠ .screening then
      .error (.campaign ("This override can no longer be cleared — the candidate has already " ++
        s!"progressed to {cc.pipelineStage.value}. Move them manually instead so the change " ++
        "is recorded as a decision.") 409)
    else do
      let details := cc.decisionDetails.getD []
      let (restoredType, restoredSource) ← storedDecision details
      let overrideReason := cc.decisionReason
      let cc := reverted cc details reason actorId restoredType restoredSource now
      let cc := if withAiRepo then skipAiEvaluation cc else cc
      let db := update db cc
      let db := createStageHistory db cc.id .rejected (some .screening) (some actorId)
        (some reason) .override none none
      let db := AuditService.log db (some actorId) actorRole .candidateStageOverridden
        .campaignCandidate cc.id (some cc.campaignId)
        (some [("title", .str "HR override cleared — automated decision restored"),
          ("override_cleared", .bool true), ("clear_reason", .str reason),
          ("cleared_override_reason", .ofString? overrideReason),
          ("restored_decision_type", .str restoredType.value),
          ("restored_decision_source", .str restoredSource.value)])
      .ok db

end OverrideRevertService

namespace CampaignRepository

def scoresSnapshot (cc : CampaignCandidate) : Dict :=
  [("composite_score", .ofNum? cc.compositeScore),
   ("deterministic_score", .ofNum? cc.deterministicScore),
   ("semantic_score", .ofNum? cc.semanticScore),
   ("ai_ats_score", .ofNum? (cc.aiEvaluation.bind CampaignCandidateAIEvaluation.effectiveAiScore)),
   ("decision_type", .ofString? (cc.decisionType.map DecisionType.value)),
   ("decision_source", .ofString? (cc.decisionSource.map DecisionSource.value)),
   ("decision_reason", .ofString? cc.decisionReason),
   ("decision_details", .ofDict? cc.decisionDetails)]

-- Writes pipeline_stage and its history row; previous_stage is not assigned.
def transitionCandidateStage (db : Db) (cc : CampaignCandidate) (toStage : PipelineStage)
    (changedBy changeReason : String) (transitionSource : TransitionSource)
    (setFraudFlag : Bool) : Db × CampaignCandidate :=
  let fromStage := cc.pipelineStage
  let cc := { cc with
    pipelineStage := toStage
    isFraudFlagged := if setFraudFlag then true else cc.isFraudFlagged }
  let db := CampaignCandidateRepository.update db cc
  let db := CampaignCandidateRepository.createStageHistory db cc.id toStage (some fromStage)
    (some changedBy) (some changeReason) transitionSource (some (scoresSnapshot cc)) none
  (db, cc)

end CampaignRepository

namespace CampaignService

open PipelineTransitionService

-- `_STAGE_OVERRIDE_NEXT.get(from_stage)`
def stageOverrideNext : PipelineStage → Option PipelineStage
  | .uploaded => some .screening
  | .screening => some .shortlisted
  | .shortlisted => some .hmReview
  | .hmReview => some .interview
  | .interview => some .selected
  | .hold => some .hmReview
  | _ => none

-- `_OVERRIDE_FORBIDDEN_TARGETS`
def overrideForbiddenTargets : List PipelineStage := [.rejected, .fraudReview, .uploaded]

def getStalledCandidateOrRaise (db : Db) (campaignId campaignCandidateId : Uuid) :
    Except ServiceError CampaignCandidate :=
  match CampaignRepository.getById db campaignId with
  | none => .error (.campaign s!"Campaign '{text campaignId}' not found" 404)
  | some _ =>
    match CampaignRepository.getCampaignCandidate db campaignId campaignCandidateId with
    | none =>
      .error (.campaign s!"Candidate '{text campaignCandidateId}' not found in this campaign." 404)
    | some cc => .ok cc

-- The target of an override: the named stage, or the natural next one.
def overrideTarget (fromStage : PipelineStage) (targetStage : Option String) :
    Except ServiceError PipelineStage :=
  match targetStage.filter (· ≠ "") with
  | some named =>
    match PipelineStage.ofValue? named with
    | none => .error (.campaign s!"Unknown pipeline stage '{named}'." 422)
    | some target =>
      if target ∈ overrideForbiddenTargets then
        .error (.campaign (s!"Stage '{target.value}' cannot be set via override — " ++
          "use the dedicated flow.") 422)
      else if target = fromStage then
        .error (.campaign "Candidate is already in that stage." 409)
      else
        .ok target
  | none =>
    match stageOverrideNext fromStage with
    | none =>
      .error (.campaign (s!"No natural next stage from {fromStage.value} — " ++
        "pass target_stage explicitly.") 409)
    | some target => .ok target

def overrideCandidateStage (db : Db) (campaignId campaignCandidateId : Uuid)
    (targetStage : Option String) (reason actorId : String) (actorRole : Option String)
    (env : RescoreEnv) (now : Instant) : Except ServiceError Db := do
  let cc ← getStalledCandidateOrRaise db campaignId campaignCandidateId
  let fromStage := cc.pipelineStage
  let target ← overrideTarget fromStage targetStage
  let (db, cc) :=
    CampaignRepository.transitionCandidateStage db cc target actorId reason .override false
  let db ← interviewHooks db cc.id fromStage target (some actorId) actorRole now
  let db := AuditService.log db (some actorId) actorRole .candidateStageOverridden
    .campaignCandidate cc.id (some campaignId)
    (some [("title", .str "Pipeline stage manually overridden"),
      ("from_stage", .str fromStage.value), ("to_stage", .str target.value),
      ("reason", .str reason)])
  let db :=
    if target = .selected then
      closeIfAllPositionsFilled db true campaignId (some actorId) actorRole now
    else db
  .ok (rescoreAfter db cc.id fromStage target env)

def flagCandidateForReview (db : Db) (campaignId campaignCandidateId : Uuid)
    (reason actorId : String) (actorRole : Option String) : Except ServiceError Db := do
  let cc ← getStalledCandidateOrRaise db campaignId campaignCandidateId
  let fromStage := cc.pipelineStage
  if fromStage = .fraudReview then
    .error (.campaign "Candidate is already in FRAUD_REVIEW." 409)
  else
    let (db, cc) := CampaignRepository.transitionCandidateStage db cc .fraudReview actorId reason
      .manual true
    let db := AuditService.log db (some actorId) actorRole .candidateFlaggedForReview
      .campaignCandidate cc.id (some campaignId)
      (some [("title", .str "Candidate flagged for manual review"),
        ("from_stage", .str fromStage.value), ("reason", .str reason)])
    .ok db

end CampaignService

end AiHiring
