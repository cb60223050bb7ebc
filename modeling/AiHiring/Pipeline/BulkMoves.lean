import AiHiring.Pipeline.BulkStageMove
import AiHiring.Pipeline.Intake
import AiHiring.Pipeline.Writers

namespace AiHiring

open Library Transaction PipelineTransitionService

namespace BulkStageMoveService

structure SkippedCandidate where
  (campaignCandidateId reason : String)

structure BulkStageMoveResult where
  movedCount : ℕ
  (fromStage toStage : String)
  skipped : List SkippedCandidate
  detail : String

-- What the re-score of one candidate reads, and whether its dispatch goes through.
structure RescoreData where
  candidate : Option Candidate
  resume : Option Resume
  dispatched : Bool

def RescoreData.env (data : RescoreData) : RescoreEnv where
  candidate := data.candidate
  resume := data.resume
  fault := if data.dispatched then none else some .atDispatch

def inCampaign (db : Db) (campaignId ccId : Uuid) : Option CampaignCandidate :=
  (CampaignCandidateRepository.getById db ccId).filter fun cc => cc.campaignId = campaignId

def skippedIds (db : Db) (campaignId : Uuid) (ccIds : List Uuid) : List SkippedCandidate :=
  (ccIds.filter fun ccId => (inCampaign db campaignId ccId).isNone).map fun ccId =>
    ⟨text ccId, "Not found in this campaign."⟩

-- `{c.pipeline_stage for c in candidates}`
def sourceStages (candidates : List CampaignCandidate) : List PipelineStage :=
  (candidates.map CampaignCandidate.pipelineStage).dedup

-- What the checks before the first write settle.
structure Moves where
  candidates : List CampaignCandidate
  skipped : List SkippedCandidate
  (fromStage toStage : PipelineStage)

def Moves.result (moves : Moves) : BulkStageMoveResult where
  movedCount := moves.candidates.length
  fromStage := moves.fromStage.value
  toStage := moves.toStage.value
  skipped := moves.skipped
  detail := s!"Moved {moves.candidates.length} candidate(s) from {moves.fromStage.value} to " ++
    s!"{moves.toStage.value}."

def selection (campaignId : Uuid) (ccIds : List Uuid) (targetStage : String) (db : Db) :
    Except ServiceError Moves := do
  let toStage ← parseStage targetStage
  let candidates := ccIds.filterMap (inCampaign db campaignId)
  match sourceStages candidates with
  | [] => .error (.campaign "None of the selected candidates belong to this campaign." 404)
  | [fromStage] =>
    if fromStage = toStage then
      .error (.campaign "Candidates are already in that stage." 409)
    else
      .ok ⟨candidates, skippedIds db campaignId ccIds, fromStage, toStage⟩
  | stages =>
    .error (.campaign ("All selected candidates must currently be in the same stage. " ++
      "Selection spans: " ++ ", ".intercalate
        ((stages.map PipelineStage.value).insertionSort fun r s => r ≤ s) ++ ".") 409)

def logBatch (db : Db) (campaignId : Uuid) (moves : Moves) (reason actorId : String)
    (actorRole : Option String) : Db :=
  AuditService.log db (some actorId) actorRole .candidateStageOverridden .campaign campaignId
    (some campaignId)
    (some [("title", .str (s!"{moves.candidates.length} candidate(s) moved " ++
        s!"{moves.fromStage.value} → {moves.toStage.value}")),
      ("bulk", .bool true), ("moved_count", .num moves.candidates.length),
      ("from_stage", .str moves.fromStage.value), ("to_stage", .str moves.toStage.value),
      ("reason", .str reason), ("skipped_count", .num moves.skipped.length)])

section Service

variable (table : TransitionTable)

def moveCandidate (request : StageRequest) (now : Uuid → Instant) (db : Db)
    (cc : CampaignCandidate) : Except ServiceError Db :=
  (transitionStage table db true cc request (now cc.id)).map Prod.fst

def transitionAll (request : StageRequest) (now : Uuid → Instant) :
    List CampaignCandidate → Transaction Unit Db ServiceError Unit
  | [] => pure ()
  | cc :: rest => do
    let db ← query id
    match moveCandidate table request now db cc with
    | .error e => raise e
    | .ok db' => do
      flush fun _ => db'
      transitionAll request now rest

variable (db : Db) (campaignId : Uuid) (ccIds : List Uuid) (targetStage reason actorId : String)
  (actorRole : Option String) (rescores : Uuid → RescoreData) (now : Uuid → Instant)

-- Every candidate goes through the engine before the one commit.
def moveAll : Transaction Unit Db ServiceError Moves := do
  let selected ← query (selection campaignId ccIds targetStage)
  match selected with
  | .error e => raise e
  | .ok moves => do
    transitionAll table (manualRequest moves.toStage actorId actorRole (some reason)) now
      moves.candidates
    flush fun db => logBatch db campaignId moves reason actorId actorRole
    commitAs ()
    pure moves

-- The re-scores follow the commit and raise nothing. `failIn` is the database call
-- that fails, if one does.
def bulkMove (failIn : Option ℕ) : Except (Raised ServiceError) BulkStageMoveResult × Db :=
  let run := (moveAll table campaignId ccIds targetStage reason actorId actorRole now).run failIn db
  match run.result with
  | .error e => (.error e, run.committed db)
  | .ok moves => (.ok moves.result, moves.candidates.foldl (fun db cc =>
    rescoreAfter db cc.id moves.fromStage moves.toStage (rescores cc.id).env) (run.committed db))

-- The single moves, one after another.
def moveEach : Except ServiceError Db :=
  ccIds.foldlM (fun db ccId => (moveOne table db campaignId ccId targetStage (some reason) actorId
    actorRole (rescores ccId).env (now ccId)).map Prod.fst) db

end Service

end BulkStageMoveService

end AiHiring
