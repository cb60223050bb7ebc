import AiHiring.Campaign.Resumption
import AiHiring.Library.CacheAside

namespace AiHiring

open Library

structure CampaignScoringDefaults where
  (weightDeterministic weightSemantic weightAi semanticThreshold aiThreshold : ℚ)
  deriving DecidableEq

structure ScoringLayerExplanation where
  layer : String
  (weight threshold : ℚ)
  description : String
  deriving DecidableEq

structure CampaignScoringConfiguration where
  (weightDeterministic weightSemantic weightAi semanticThreshold aiThreshold : ℚ)
  (deterministicThreshold totalWeight : ℚ)
  formula : String
  layers : List ScoringLayerExplanation
  defaults : CampaignScoringDefaults
  warning : Option String
  deriving DecidableEq

-- The rows of platform_config with a number for a value.
abbrev PlatformConfigRows := List (String × ℚ)

-- What a reopening or a creation reads of a job description.
structure LinkedJd where
  title : String
  isActiveVersion : Bool
  closedAt : Option Instant
  (mandatoryUnverified unresolvedUnknown : ℕ)

structure ScoringDb where
  db : CampaignDb
  -- the column jd_id of hiring_campaigns
  jdOf : Uuid → Uuid
  jds : Uuid → Option LinkedJd
  configs : PlatformConfigRows

-- The keys of the two views; the other keys share none of their entries.
inductive ScoringKey where
  | campaignScoring (campaignId : Uuid)
  | campaignPlatformDefaults
  deriving DecidableEq

def ScoringKey.View : ScoringKey → Type
  | campaignScoring _ => CampaignScoringConfiguration
  | campaignPlatformDefaults => CampaignScoringDefaults

abbrev CachedScoring := Cached ScoringDb ScoringKey.View

structure CampaignCreateRequest where
  name : String
  jdId : Uuid
  maxCandidates : Option ℤ
  deadline : Option Instant
  (weightDeterministic weightSemantic weightAi semanticThreshold aiThreshold : ℚ)
  deterministicThreshold : ℚ
  hiringManagerId : String
  (promptTemplateId aiEvaluatePromptId : Uuid)

structure CampaignScoringUpdateRequest where
  (weightDeterministic weightSemantic weightAi semanticThreshold aiThreshold : ℚ)
  deterministicThreshold : ℚ

structure PlatformDefaultWeightsUpdateRequest where
  (weightDeterministic weightSemantic weightAi semanticThreshold aiThreshold : ℚ)

namespace CampaignService

open CampaignDb

section Views

variable (configs : PlatformConfigRows)

def loadPlatformScoringDefaults : CampaignScoringDefaults where
  weightDeterministic := (configs.lookup "CAMPAIGN_WEIGHT_DETERMINISTIC").getD 30
  weightSemantic := (configs.lookup "CAMPAIGN_WEIGHT_SEMANTIC").getD 40
  weightAi := (configs.lookup "CAMPAIGN_WEIGHT_AI").getD 30
  semanticThreshold := (configs.lookup "SEMANTIC_PASS_THRESHOLD").getD (13 / 20)
  aiThreshold := (configs.lookup "AI_PASS_THRESHOLD").getD 50

def layersOf (campaign : CampaignRow) : List ScoringLayerExplanation :=
  [⟨"Deterministic", campaign.weightDeterministic, campaign.deterministicThreshold,
     "Mandatory skill, experience and education validation."⟩,
   ⟨"Semantic", campaign.weightSemantic, campaign.semanticThreshold,
     "Contextual similarity between Job Description and Resume."⟩,
   ⟨"AI Evaluation", campaign.weightAi, campaign.aiThreshold,
     "LLM generated ATS evaluation score."⟩]

-- The view of a campaign; its defaults are read from the same rows as above.
def scoringView (campaign : CampaignRow) : CampaignScoringConfiguration where
  weightDeterministic := campaign.weightDeterministic
  weightSemantic := campaign.weightSemantic
  weightAi := campaign.weightAi
  semanticThreshold := campaign.semanticThreshold
  aiThreshold := campaign.aiThreshold
  deterministicThreshold := campaign.deterministicThreshold
  totalWeight := campaign.weightDeterministic + campaign.weightSemantic + campaign.weightAi
  formula := "((det × w_det) + (sem × 100 × w_sem) + (eff_ai × w_ai)) / 100"
  layers := layersOf campaign
  defaults := loadPlatformScoringDefaults configs
  warning := none

end Views

def loadScoringConfiguration (s : ScoringDb) (campaignId : Uuid) :
    Except CampaignException CampaignScoringConfiguration :=
  match s.db.campaigns.find? campaignId with
  | none => .error ⟨s!"Campaign with ID '{text campaignId}' not found", 404⟩
  | some campaign => .ok (scoringView s.configs campaign)

def loadView (s : ScoringDb) : ∀ key : ScoringKey, Except CampaignException key.View
  | .campaignScoring campaignId => loadScoringConfiguration s campaignId
  | .campaignPlatformDefaults => .ok (loadPlatformScoringDefaults s.configs)

section Reads

variable (w : CachedScoring) (stores : Bool)

def getScoringConfiguration (campaignId : Uuid) :
    Except CampaignException CampaignScoringConfiguration × CachedScoring :=
  w.getOrSet loadView (.campaignScoring campaignId) stores

def getPlatformScoringDefaults :
    Except CampaignException CampaignScoringDefaults × CachedScoring :=
  w.getOrSet loadView .campaignPlatformDefaults stores

end Reads

-- What a call that writes leaves behind.
inductive WriteError where
  | campaign (e : CampaignException)
  -- the request does not fit its schema
  | validation
  -- a key that a dictionary lacks
  | keyError (key : String)
  -- the calls inside `update_campaign`
  | update (e : UpdateError)
  -- the database, before the commit
  | failure

section Writes

variable (w : CachedScoring)

-- The commit of a change of a campaign, and what `CacheInvalidator.campaign`
-- deletes for it: without an id only lists.
def commitCampaign (source : ScoringDb) (campaignId : Option Uuid) : CachedScoring :=
  w.write source (campaignId.toList.map ScoringKey.campaignScoring)

def checkJd : Option LinkedJd → Checked Unit
  | none => .error ⟨"Invalid job description: Job description not found", 422⟩
  | some jd =>
    if !jd.isActiveVersion then
      .error ⟨"Invalid job description: Job description is not the active version", 422⟩
    else if jd.closedAt.isSome then
      .error ⟨"Invalid job description: Job description is closed", 422⟩
    else .ok ()

variable (lower : String → String) (campaignId : Uuid)

def checkName (db : CampaignDb) (orgId : Uuid) (name : String) :
    Checked Unit :=
  match getByName db lower (some orgId) name with
  | none => .ok ()
  | some existing =>
    .error ⟨s!"Campaign name '{existing.name}' already exists in this organization", 409⟩

-- The two prompt templates of a campaign that may be created.
def checkCreate (s : ScoringDb) (request : CampaignCreateRequest)
    (orgId : Uuid) (now : Instant) : Checked (PromptTemplate × PromptTemplate) :=
  if request.weightDeterministic + request.weightSemantic + request.weightAi ≠ 100 then
    .error ⟨"Scoring weights must sum to 100.00", 422⟩
  else do
    checkJd (s.jds request.jdId)
    checkName lower s.db orgId request.name
    if request.deadline.any fun deadline => deadline ≤ now then
      .error ⟨"Campaign deadline must be a future date", 422⟩
    else
      let prompt ← validatePromptTemplateSelection s.db request.promptTemplateId "RESUME_PARSE"
        "Resume Parsing"
      let aiEvaluatePrompt ← validatePromptTemplateSelection s.db request.aiEvaluatePromptId
        "AI_EVALUATE" "AI Evaluation"
      return (prompt, aiEvaluatePrompt)

def newCampaign (request : CampaignCreateRequest) (orgId : Uuid) (now : Instant)
    (prompts : PromptTemplate × PromptTemplate) (id : Uuid) : CampaignRow where
  id := id
  name := request.name
  status := .active
  maxCandidates := request.maxCandidates
  hiringManagerId := request.hiringManagerId
  updatedAt := now
  orgId := some orgId
  deadline := request.deadline
  promptTemplateId := prompts.1.id
  aiEvaluatePromptId := some prompts.2.id
  weightDeterministic := request.weightDeterministic
  weightSemantic := request.weightSemantic
  weightAi := request.weightAi
  semanticThreshold := request.semanticThreshold
  aiThreshold := request.aiThreshold
  deterministicThreshold := request.deterministicThreshold

theorem newCampaign_id (request : CampaignCreateRequest) (orgId : Uuid) (now : Instant)
    (prompts : PromptTemplate × PromptTemplate) (id : Uuid) :
    (newCampaign request orgId now prompts id).id = id := rfl

def createCampaign (request : CampaignCreateRequest) (orgId : Uuid)
    (now : Instant) (fault : Bool) : Except WriteError Uuid × CachedScoring :=
  let db := w.source.db
  match checkCreate lower w.source request orgId now with
  | .error e => (.error (.campaign e), w)
  | .ok prompts =>
    if fault then (.error .failure, w)
    else (.ok db.campaigns.next, commitCampaign w
        { w.source with
          db := { db with
            campaigns := db.campaigns.insert (newCampaign request orgId now prompts)
              (newCampaign_id request orgId now prompts) }
          jdOf := Function.update w.source.jdOf db.campaigns.next request.jdId }
        none)

-- `update_campaign` with its invalidation: it has committed exactly if it would
-- have returned, had nothing failed after its commit.
def updateCampaignViews (request : CampaignUpdateRequest) (now : Instant) (faults : Faults)
    (newTaskId : Uuid → String) : Except WriteError CampaignRow × CachedScoring :=
  let outcome := updateCampaign lower w.source.db now request faults newTaskId campaignId
  let committed := (updateCampaign lower w.source.db now request { faults with respond := false }
    newTaskId campaignId).result.isOk
  (outcome.result.mapError .update,
    if committed then commitCampaign w { w.source with db := outcome.db } (some campaignId) else w)

def withScoringConfiguration (request : CampaignScoringUpdateRequest) (now : Instant)
    (campaign : CampaignRow) : CampaignRow where
  toHiringCampaign := { campaign.toHiringCampaign with updatedAt := now }
  orgId := campaign.orgId
  deadline := campaign.deadline
  promptTemplateId := campaign.promptTemplateId
  aiEvaluatePromptId := campaign.aiEvaluatePromptId
  weightDeterministic := request.weightDeterministic
  weightSemantic := request.weightSemantic
  weightAi := request.weightAi
  semanticThreshold := request.semanticThreshold
  aiThreshold := request.aiThreshold
  deterministicThreshold := request.deterministicThreshold

def getCandidateCount (db : CampaignDb) (campaignId : Uuid) : ℕ :=
  db.campaignCandidates.rows.countP fun cc => cc.campaignId = campaignId

def alreadyProcessedWarning (candidateCount : ℕ) : Option String :=
  if candidateCount ≤ 0 then none
  else some (s!"{candidateCount} candidate(s) were already processed with " ++
    "the previous configuration. Their scores will not be automatically recalculated.")

-- The response of an edit is the view as it is read back, with a warning.
def warned (candidateCount : ℕ) (view : Except CampaignException CampaignScoringConfiguration) :
    Except WriteError CampaignScoringConfiguration :=
  match view with
  | .error e => .error (.campaign e)
  | .ok view => .ok { view with warning := alreadyProcessedWarning candidateCount }

def updateScoringConfiguration (request : CampaignScoringUpdateRequest)
    (now : Instant) (fault stores : Bool) :
    Except WriteError CampaignScoringConfiguration × CachedScoring :=
  let db := w.source.db
  match db.campaigns.find? campaignId with
  | none =>
    (.error (.campaign ⟨s!"Campaign with ID '{text campaignId}' not found", 404⟩), w)
  | some campaign =>
    match validateScoringWeights db
        [request.weightDeterministic, request.weightSemantic, request.weightAi] with
    | .error e => (.error (.campaign e), w)
    | .ok () =>
      if fault then (.error .failure, w)
      else
        let committed := commitCampaign w
          { w.source with
            db := { db with
              campaigns := db.campaigns.replace (withScoringConfiguration request now campaign) } }
          (some campaignId)
        let read := getScoringConfiguration committed stores campaignId
        (warned (getCandidateCount db campaignId) read.1, read.2)

-- The bounds of a field of the request's schema.
def fits (value top : ℚ) (decimalPlaces : ℕ) : Bool :=
  0 ≤ value ∧ value ≤ top ∧ (value * 10 ^ decimalPlaces).den = 1

def CampaignScoringUpdateRequest.isValid (request : CampaignScoringUpdateRequest) : Bool :=
  fits request.weightDeterministic 100 2 && fits request.weightSemantic 100 2 &&
    fits request.weightAi 100 2 && fits request.semanticThreshold 1 4 &&
    fits request.aiThreshold 100 2 && fits request.deterministicThreshold 100 2

def defaultsRequest (configs : PlatformConfigRows) (campaign : CampaignRow) :
    CampaignScoringUpdateRequest :=
  let defaults := loadPlatformScoringDefaults configs
  { weightDeterministic := defaults.weightDeterministic
    weightSemantic := defaults.weightSemantic
    weightAi := defaults.weightAi
    semanticThreshold := defaults.semanticThreshold
    aiThreshold := defaults.aiThreshold
    deterministicThreshold := campaign.deterministicThreshold }

def resetScoringToDefaults (now : Instant) (fault stores : Bool) :
    Except WriteError CampaignScoringConfiguration × CachedScoring :=
  match w.source.db.campaigns.find? campaignId with
  | none => (.error (.campaign ⟨s!"Campaign '{text campaignId}' not found", 404⟩), w)
  | some campaign =>
    let request := defaultsRequest w.source.configs campaign
    if !CampaignScoringUpdateRequest.isValid request then (.error .validation, w)
    else updateScoringConfiguration w campaignId request now fault stores

def platformUpdates (request : PlatformDefaultWeightsUpdateRequest) : PlatformConfigRows :=
  [("CAMPAIGN_WEIGHT_DETERMINISTIC", request.weightDeterministic),
   ("CAMPAIGN_WEIGHT_SEMANTIC", request.weightSemantic),
   ("CAMPAIGN_WEIGHT_AI", request.weightAi),
   ("SEMANTIC_PASS_THRESHOLD", request.semanticThreshold),
   ("AI_PASS_THRESHOLD", request.aiThreshold)]

-- Rows that exist are written, and none is added.
def updateConfigs (configs updates : PlatformConfigRows) : PlatformConfigRows :=
  configs.map fun row => (row.1, (updates.lookup row.1).getD row.2)

def item (configs : PlatformConfigRows) (key : String) : Except WriteError ℚ :=
  match configs.lookup key with
  | none => .error (.keyError key)
  | some value => .ok value

def platformResponse (updated : PlatformConfigRows) :
    Except WriteError CampaignScoringDefaults := do
  return { weightDeterministic := ← item updated "CAMPAIGN_WEIGHT_DETERMINISTIC"
           weightSemantic := ← item updated "CAMPAIGN_WEIGHT_SEMANTIC"
           weightAi := ← item updated "CAMPAIGN_WEIGHT_AI"
           semanticThreshold := ← item updated "SEMANTIC_PASS_THRESHOLD"
           aiThreshold := ← item updated "AI_PASS_THRESHOLD" }

def updatePlatformDefaultWeights (request : PlatformDefaultWeightsUpdateRequest) (fault : Bool) :
    Except WriteError CampaignScoringDefaults × CachedScoring :=
  match validateScoringWeights w.source.db
      [request.weightDeterministic, request.weightSemantic, request.weightAi] with
  | .error e => (.error (.campaign e), w)
  | .ok () =>
    if fault then (.error .failure, w)
    else
      let configs := updateConfigs w.source.configs (platformUpdates request)
      (platformResponse configs,
        w.write { w.source with configs := configs } [.campaignPlatformDefaults])

def closed (now : Instant) (campaign : CampaignRow) : CampaignRow :=
  { campaign with toHiringCampaign := { campaign.toHiringCampaign with
      status := .closed, updatedAt := now } }

def closeCampaign (now : Instant) (fault : Bool) :
    Except WriteError Unit × CachedScoring :=
  let db := w.source.db
  match db.campaigns.find? campaignId with
  | none => (.error (.campaign ⟨s!"Campaign '{text campaignId}' not found", 404⟩), w)
  | some campaign =>
    if campaign.status ≠ .active ∧ campaign.status ≠ .paused then
      (.error (.campaign ⟨"Only an active or paused campaign can be closed.", 409⟩), w)
    else if fault then (.error .failure, w)
    else
      let killed := setStatus db (isQueued db campaignId) .dead
      (.ok (), commitCampaign w
        { w.source with
          db := { killed with
            campaigns := killed.campaigns.replace (closed now campaign) } }
        (some campaignId))

-- The messages of the issues that keep a campaign closed.
def reopenIssues : Option LinkedJd → List String
  | none => ["The linked job description could not be found."]
  | some jd =>
    (if !jd.isActiveVersion then
      [s!"'{jd.title}' is no longer the active version. Update this campaign to an active " ++
        "JD version before reopening."] else []) ++
    (if jd.closedAt.isSome then
      [s!"'{jd.title}' has been closed. Update this campaign to an active, open JD before " ++
        "reopening."] else []) ++
    (if 0 < jd.mandatoryUnverified then
      [s!"{jd.mandatoryUnverified} mandatory skill(s) on '{jd.title}' are still pending " ++
        "verification."] else []) ++
    (if 0 < jd.unresolvedUnknown then
      [s!"{jd.unresolvedUnknown} skill(s) extracted from '{jd.title}' are still " ++
        "unresolved."] else [])

def reopened (now : Instant) (campaign : CampaignRow) : CampaignRow :=
  { campaign with
    toHiringCampaign := { campaign.toHiringCampaign with status := .active, updatedAt := now }
    deadline := campaign.deadline.filter fun deadline => now < deadline }

def reopenCampaign (now : Instant) (fault : Bool) :
    Except WriteError Unit × CachedScoring :=
  let db := w.source.db
  match db.campaigns.find? campaignId with
  | none => (.error (.campaign ⟨s!"Campaign '{text campaignId}' not found", 404⟩), w)
  | some campaign =>
    if campaign.status ≠ .closed then
      (.error (.campaign ⟨"Only a closed campaign can be reopened.", 409⟩), w)
    else
      let issues := reopenIssues (w.source.jds (w.source.jdOf campaignId))
      if issues ≠ [] then
        (.error (.campaign ⟨"Campaign is not ready to reopen: " ++ "; ".intercalate issues,
          422⟩), w)
      else if fault then (.error .failure, w)
      else (.ok (), commitCampaign w
        { w.source with
          db := { db with campaigns := db.campaigns.replace (reopened now campaign) } }
        (some campaignId))

end Writes

end CampaignService

end AiHiring
