import AiHiring.Tasks.TaskLog

namespace AiHiring

open Library Transaction

namespace DeterministicScoring

inductive MandatorySkillMatchType where
  | exact
  | child
  | grandchild
  | sibling
  | semantic
  | missing
  deriving DecidableEq, Repr

def MandatorySkillMatchType.value : MandatorySkillMatchType → String
  | exact => "EXACT"
  | child => "CHILD"
  | grandchild => "GRANDCHILD"
  | sibling => "SIBLING"
  | semantic => "SEMANTIC"
  | missing => "MISSING"

-- One entry of `breakdown["mandatory_skills"]`; `details` holds its other keys.
structure MandatorySkill where
  matchType : MandatorySkillMatchType
  details : Dict

def MandatorySkill.toDict (skill : MandatorySkill) : Dict :=
  ("match_type", .str skill.matchType.value) :: skill.details

-- What the scoring service returns: the keys the task reads, and the others.
structure ScoreBreakdown where
  mandatorySkills : List MandatorySkill
  mandatoryCoveragePct : ℚ
  (missingCoreSkillCount maxMissingCoreSkills : ℕ)
  skillQualificationPassed : Bool
  deterministicScore : ℚ
  deterministicPassed : Bool
  details : Dict

def ScoreBreakdown.toDict (breakdown : ScoreBreakdown) : Dict :=
  [("mandatory_skills", .arr (breakdown.mandatorySkills.map fun skill => .obj skill.toDict)),
    ("mandatory_coverage_pct", .num breakdown.mandatoryCoveragePct),
    ("missing_core_skill_count", .num breakdown.missingCoreSkillCount),
    ("max_missing_core_skills", .num breakdown.maxMissingCoreSkills),
    ("skill_qualification_passed", .bool breakdown.skillQualificationPassed),
    ("deterministic_score", .num breakdown.deterministicScore),
    ("deterministic_passed", .bool breakdown.deterministicPassed)] ++ breakdown.details

-- One delivery of the task with everything it reads outside the session's
-- tables: the rows behind the score (`jdId` is the campaign's column), how many queries the scoring makes and
-- what it returns or raises, and the clock at each write.
structure ScoringRun where
  taskId : String
  campaignCandidateId : Uuid
  resume : Uuid → Option Resume
  jdId : Uuid → Uuid
  jobDescriptionFound : Uuid → Bool
  reads : ℕ
  breakdown : Except String ScoreBreakdown
  rejectionReason : String
  dumps : Dict → String
  (startedAt screeningAt scoredAt rejectedAt : Instant)
  cancelledAt : CeleryTaskLog → Instant
  finishedAt : Instant

def taskType : String := "DETERMINISTIC_SCORE"

def aiEvaluateTaskType : String := "AI_EVALUATE"

def aiEvaluationSkippedErrorMessage : String :=
  "Candidate rejected at DETERMINISTIC layer — AI evaluation skipped."

section Writes

open SessionM CampaignCandidateRepository AllowedTransitionRepository

variable (table : TransitionTable)

-- `db.add` or a change of loaded attributes, then `flush` and `refresh`.
def store (write : Db → Db) : SessionM Unit := do
  flush fun w => { w with toDb := write w.toDb }
  refresh

def isTransitionAllowed (fromStage toStage : PipelineStage)
    (previousStage : Option PipelineStage) : SessionM Bool :=
  match previousStage with
  | none => query fun _ => (wildcard table fromStage toStage).isSome
  | some previous => do
    let row ← query fun _ => exact table fromStage toStage previous
    if row.isSome then
      pure true
    else
      query fun _ => (wildcard table fromStage toStage).isSome

variable (cc : CampaignCandidate)

-- The writers of the stage transition service, call by call; they give back
-- the candidate as they leave it.
def transitionToScreening (now : Instant) :
    SessionM CampaignCandidate := do
  if cc.pipelineStage ≠ .uploaded then
    pure cc
  else
    let allowed ← isTransitionAllowed table cc.pipelineStage .screening cc.previousStage
    if !allowed then
      pure cc
    else
      let moved := { cc.movedTo .screening with updatedAt := some now }
      store fun db => update db moved
      store fun db => createStageHistory db cc.id .screening (some cc.pipelineStage) none
        (some "Automated screening started") .system none none
      store fun db => createTransitionLog db cc.id cc.pipelineStage .screening "SYSTEM"
        cc.previousStage none none
      pure moved

def transitionToRejected (changeReason : String)
    (scoresSnapshot : Option Dict) (decisionSource : DecisionSource) (decisionReason : String)
    (decisionDetails : Option Dict) (now : Instant) : SessionM (CampaignCandidate × Bool) := do
  let allowed ← isTransitionAllowed table cc.pipelineStage .rejected cc.previousStage
  if !allowed then
    pure (cc, false)
  else
    let moved := (cc.movedTo .rejected).withDecision .rejected (some decisionSource)
      (some decisionReason) decisionDetails none now
    store fun db => update db moved
    store fun db => createStageHistory db cc.id .rejected (some cc.pipelineStage) none
      (some changeReason) .system (some (decisionSnapshot scoresSnapshot .rejected
        (some decisionSource) (some decisionReason) decisionDetails)) none
    store fun db => createTransitionLog db cc.id cc.pipelineStage .rejected decisionSource.value
      cc.previousStage (some decisionReason) none
    pure (moved, true)

def withScore (breakdown : ScoreBreakdown) : CampaignCandidate :=
  { cc with
    deterministicBreakdown := some breakdown.toDict
    deterministicScore := some breakdown.deterministicScore
    deterministicPassed := some breakdown.deterministicPassed }

def withScreenedAt (now : Instant) : CampaignCandidate :=
  { cc with screenedAt := some now, updatedAt := some now }

def skipAiEvaluation : CampaignCandidate :=
  { cc with
    aiEvaluation := some { CampaignCandidateAIEvaluationRepository.getOrCreate cc with
      aiEvaluationStatus := .skipped } }

end Writes

section Task

open SessionM CampaignCandidateRepository CeleryTaskLogRepository CeleryTaskLogService

variable (table : TransitionTable) (run : ScoringRun)

def calculateAndStoreScoreBreakdown (cc : CampaignCandidate) :
    SessionM (ScoreBreakdown × CampaignCandidate) := do
  queries run.reads
  match run.breakdown with
  | .error error => raise error
  | .ok breakdown =>
    store fun db => update db (withScore cc breakdown)
    pure (breakdown, withScore cc breakdown)

def isQueuedAiEvaluate (campaignCandidateId : Uuid) (log : CeleryTaskLog) : Prop :=
  log.campaignCandidateId = some campaignCandidateId ∧ log.taskType = aiEvaluateTaskType ∧
    log.status = .queued

instance (campaignCandidateId : Uuid) (log : CeleryTaskLog) :
    Decidable (isQueuedAiEvaluate campaignCandidateId log) :=
  inferInstanceAs (Decidable (_ ∧ _))

def queuedAiEvaluateLogs (campaignCandidateId : Uuid) (w : TaskDb) : List CeleryTaskLog :=
  (getByCampaignCandidateAndTaskType campaignCandidateId aiEvaluateTaskType w).filter
    fun log => log.status = .queued

def cancelQueued : List CeleryTaskLog → SessionM Unit
  | [] => pure ()
  | log :: rest => do
    let _ ← markDead log aiEvaluationSkippedErrorMessage (run.cancelledAt log)
    refresh
    cancelQueued rest

def cancelDownstreamAiEvaluation (cc : CampaignCandidate) : SessionM Unit := do
  let logs ← query (queuedAiEvaluateLogs cc.id)
  cancelQueued run logs
  refresh
  if cc.aiEvaluation.isNone then
    store fun db => update db { cc with
      aiEvaluation := some (CampaignCandidateAIEvaluationRepository.getOrCreate cc) }
  store fun db => update db (skipAiEvaluation cc)

def rejectFailed (cc : CampaignCandidate) (breakdown : ScoreBreakdown) : SessionM Unit := do
  if breakdown.deterministicPassed then
    pure ()
  else
    let (cc, _) ← transitionToRejected table cc "Deterministic filter rejection"
      (some breakdown.toDict) .deterministic run.rejectionReason (some breakdown.toDict)
      run.rejectedAt
    cancelDownstreamAiEvaluation run cc

def summaryPayload (breakdown : ScoreBreakdown) : Dict :=
  let missing := breakdown.mandatorySkills.countP fun skill => skill.matchType = .missing
  let matched := breakdown.mandatorySkills.length - missing
  let reason := if breakdown.deterministicPassed then none else some run.rejectionReason
  [("mandatory_skills_checked", .num breakdown.mandatorySkills.length), ("matched", .num matched),
    ("missing", .num missing),
    ("mandatory_coverage_pct", .num breakdown.mandatoryCoveragePct),
    ("missing_core_skill_count", .num breakdown.missingCoreSkillCount),
    ("max_missing_core_skills", .num breakdown.maxMissingCoreSkills),
    ("skill_qualification_passed", .bool breakdown.skillQualificationPassed),
    ("deterministic_score", .num breakdown.deterministicScore),
    ("deterministic_passed", .bool breakdown.deterministicPassed),
    ("rejection_reason", .ofString? reason),
    ("score_breakdown", .obj breakdown.toDict)]

variable (taskLog : CeleryTaskLog) (campaign : HiringCampaign)

def logScore (cc : CampaignCandidate) (breakdown : ScoreBreakdown) (db : Db) : Db :=
  AuditService.log db none (some "SYSTEM") .deterministicScoreComputed .campaignCandidate cc.id
    (some campaign.id) (some (summaryPayload run breakdown))

-- The audit row, the task's own commit and the SUCCESS mark.
def recordScore (cc : CampaignCandidate) (breakdown : ScoreBreakdown) : SessionM Unit := do
  store (logScore run campaign cc breakdown)
  commitAs .task
  let _ ← markSuccess taskLog (run.dumps (summaryPayload run breakdown)) run.finishedAt
  pure ()

def scoreCandidate (cc : CampaignCandidate) : SessionM Unit := do
  let cc ← transitionToScreening table cc run.screeningAt
  if cc.pipelineStage = .uploaded then
    raise (s!"transition_to_screening did not advance campaign_candidate {text cc.id} " ++
      "past UPLOADED - deterministic scoring cannot safely proceed. Check " ++
      "allowed_transitions for an UPLOADED -> SCREENING row.")
  else
    let (breakdown, cc) ← calculateAndStoreScoreBreakdown run cc
    store fun db => update db (withScreenedAt cc run.scoredAt)
    rejectFailed table run (withScreenedAt cc run.scoredAt) breakdown
    recordScore run taskLog campaign cc breakdown

def skip (reason : String) : SessionM Unit := do
  let _ ← markSuccess taskLog
    (run.dumps [("skipped", .bool true), ("reason", .str reason)]) run.finishedAt
  pure ()

def evaluateCandidate (loaded : Option CampaignCandidate) :
    SessionM Unit := do
  match loaded with
  | none =>
    skip run taskLog s!"campaign_candidate_id {text run.campaignCandidateId} no longer exists."
  | some cc =>
    refresh
    match ← query fun w => CampaignRepository.getById w.toDb cc.campaignId with
    | none => raise s!"Campaign '{text cc.campaignId}' not found."
    | some campaign =>
      if campaign.status ∉ scoreableCampaignStatuses then
        skip run taskLog s!"Campaign status is {campaign.status.value}."
      else
        refresh
        if (run.resume cc.resumeId).map Resume.parseStatus ≠ some .parsed then
          raise (s!"Resume '{text cc.resumeId}' has not completed parsing/skill " ++
            "normalization yet - deterministic scoring cannot run.")
        else
          refresh
          if !run.jobDescriptionFound (run.jdId campaign.id) then
            raise s!"Job description '{text (run.jdId campaign.id)}' not found."
          else
            scoreCandidate table run taskLog campaign cc

-- Up to the RUNNING mark; a log that is already SUCCESS stops a redelivery.
def startTask : SessionM (Option (CeleryTaskLog × Option CampaignCandidate)) := do
  let loaded ← query fun w => getById w.toDb run.campaignCandidateId
  match ← query (getByTaskId run.taskId) with
  | some existing =>
    if existing.status = .success then
      pure none
    else
      let taskLog ← markRunning existing run.startedAt
      pure (some (taskLog, loaded))
  | none =>
    let created ← createLog run.taskId taskType (loaded.map CampaignCandidate.id)
    let taskLog ← markRunning created run.startedAt
    pure (some (taskLog, loaded))

-- The message of a failed database call is the driver's.
def errorText : Raised String → String
  | .database => "database error"
  | .error message => message

def recordFailure (raised : Raised String) : SessionM Unit := do
  let _ ← markFailure taskLog (errorText raised) run.finishedAt
  pure ()

def calculateDeterministicScoreTask (failIn : Option ℕ) (w : TaskDb) :
    Finished CommitBy TaskDb String Unit :=
  let started := (startTask run).run failIn w
  match started.result with
  | .error raised => ⟨.error raised, w, started.commits, started.failIn⟩
  | .ok none => ⟨.ok (), started.working, started.commits, started.failIn⟩
  | .ok (some (taskLog, loaded)) =>
    (tryExcept (evaluateCandidate table run taskLog loaded) (recordFailure run taskLog)
      started.failIn started.working).after started.commits

end Task

end DeterministicScoring

end AiHiring
