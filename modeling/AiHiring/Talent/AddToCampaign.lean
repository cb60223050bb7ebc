import AiHiring.Scoring.Selection

namespace AiHiring

open Library ResumeSelectionService

def embedResumeTaskType : String := "EMBED_RESUME"

def embeddingKey (resumeId : Uuid) : String :=
  s!"{embedResumeTaskType}:{text resumeId}"

def SelectionMethod.value : SelectionMethod → String
  | .direct => "DIRECT"
  | .compared => "COMPARED"

-- A message for a worker, with the task id it runs under.
inductive EvaluationMessage where
  | processResumeDocument (resumeId promptTemplateId : Uuid) (taskId : String)
  | generateResumeEmbedding (resumeId : Uuid) (taskId : String)
  deriving DecidableEq, Repr

-- What queueing an evaluation writes: the task logs, the task ids of the resumes, and
-- the messages that the broker has taken.
structure EvaluationQueue where
  taskLogs : Table ResumeTaskLog fun log => log.id
  resumeTaskIds : Uuid → Option String
  sent : List EvaluationMessage

-- The committed rows that adding candidates reads and writes.
structure PoolDb where
  campaignCandidates : List CampaignCandidate
  stageHistory : Table CampaignCandidateStageHistory CampaignCandidateStageHistory.id
  auditLog : List AuditLog
  queue : EvaluationQueue

-- What a request works with. The rows of the pool stay as they are; `newId` and
-- `newTaskId` are the uuid4 drawn for a candidate and for its tasks, and `broker` tells
-- which call of `apply_async` raises.
structure PoolRequest (V : Type) extends TalentPoolService.AddRequest where
  db : SelectionDb V
  readers : TextReaders
  fresh : ResumeRow → Bool
  campaigns : Table ScoredCampaign fun c => c.id
  newId : Uuid → Uuid
  newTaskId : Uuid → String → String
  broker : String → Option DispatchFailure

inductive AddError where
  | notFound (detail : String)
  | unprocessable (error : UnprocessableError)
  | campaign (error : CampaignException)

def AddError.ofSelection : SelectionError → AddError
  | .unprocessable error => .unprocessable error
  | .campaign error => .campaign error

structure AddCandidateToCampaignResponse where
  (campaignCandidateId campaignId candidateId resumeId : Uuid)
  pipelineStage : PipelineStage
  queuedTaskTypes : List String

-- A new campaign_candidate with what it was made from.
structure NewLink where
  candidateId : Uuid
  campaignCandidate : CampaignCandidate
  selection : ResumeSelectionResult

def NewLink.resume (link : NewLink) : ResumeRow := link.selection.selectedResume

namespace EvaluationQueue

def getByIdempotencyKey (queue : EvaluationQueue) (key : String) : Option ResumeTaskLog :=
  queue.taskLogs.rows.find? fun log => log.idempotencyKey = some key

def createLog (queue : EvaluationQueue) (taskId taskType : String)
    (idempotencyKey : Option String) (resumeId campaignCandidateId : Option Uuid) :
    EvaluationQueue :=
  { queue with
    taskLogs := queue.taskLogs.insert
      (ResumeTaskLogRepository.newLog taskId taskType idempotencyKey resumeId campaignCandidateId)
      (ResumeTaskLogRepository.newLog_id taskId taskType idempotencyKey resumeId
        campaignCandidateId) }

-- The flag says whether the key was new.
def createIfNewIdempotencyKey (queue : EvaluationQueue) (taskId taskType key : String)
    (resumeId : Uuid) : EvaluationQueue × ResumeTaskLog × Bool :=
  match queue.getByIdempotencyKey key with
  | some existing => (queue, existing, false)
  | none =>
    (queue.createLog taskId taskType (some key) (some resumeId) none,
      ResumeTaskLogRepository.newLog taskId taskType (some key) (some resumeId) none
        queue.taskLogs.next, true)

def setTaskId (queue : EvaluationQueue) (resumeId : Uuid) (taskId : String) : EvaluationQueue :=
  { queue with
    resumeTaskIds := fun id => if id = resumeId then some taskId else queue.resumeTaskIds id }

def send (queue : EvaluationQueue) (message : EvaluationMessage) : EvaluationQueue :=
  { queue with sent := queue.sent ++ [message] }

def markDispatchFailed (queue : EvaluationQueue) (log : ResumeTaskLog)
    (failure : DispatchFailure) : EvaluationQueue :=
  { queue with
    taskLogs := queue.taskLogs.replace
      { log with dispatchFailed := true, errorMessage := some failure.message,
                 outputSummary := some failure.summary } }

end EvaluationQueue

namespace PoolDb

variable (s : PoolDb)

-- Rows that other requests have committed.
def land (rows : List CampaignCandidate) : PoolDb :=
  { s with campaignCandidates := s.campaignCandidates ++ rows }

-- `get_by_campaign_and_candidate`
def isLinked (campaignId candidateId : Uuid) : Bool :=
  s.campaignCandidates.any fun cc => cc.campaignId = campaignId ∧ cc.candidateId = candidateId

-- The key is a hash of these three ids, which a second unique constraint covers as they
-- are.
def idempotencyKey (cc : CampaignCandidate) : Uuid × Uuid × Uuid :=
  (cc.campaignId, cc.candidateId, cc.resumeId)

def getByIdempotencyKey (key : Uuid × Uuid × Uuid) : Option CampaignCandidate :=
  s.campaignCandidates.find? fun cc => idempotencyKey cc = key

def createIdempotent (cc : CampaignCandidate) : PoolDb × CampaignCandidate × Bool :=
  match s.getByIdempotencyKey (idempotencyKey cc) with
  | some existing => (s, existing, false)
  | none => ({ s with campaignCandidates := s.campaignCandidates ++ [cc] }, cc, true)

end PoolDb

def addStageHistory (history : Table CampaignCandidateStageHistory CampaignCandidateStageHistory.id)
    (link : NewLink) : Table CampaignCandidateStageHistory CampaignCandidateStageHistory.id :=
  history.insert (fun id =>
      { id, campaignCandidateId := link.campaignCandidate.id, fromStage := none,
        toStage := .uploaded, changedBy := none, changeReason := none,
        transitionSource := .system, scoresSnapshot := none, idempotencyKey := none })
    fun _ => rfl

namespace TalentPoolService

def alreadyInCampaignMessage : String := "Candidate already exists in this campaign."

variable {V : Type} (request : PoolRequest V)

def lockCampaign : Except AddError ScoredCampaign :=
  match request.campaigns.find? request.campaignId with
  | none => .error (.campaign ⟨"Campaign not found.", 404⟩)
  | some campaign =>
    if campaign.status = .paused then
      .error (.campaign ⟨"This campaign is currently paused — uploads are not accepted.", 409⟩)
    else if campaign.status ≠ .active then
      .error (.campaign
        ⟨"This campaign is closed and no longer accepting applications.", 403⟩)
    else .ok campaign

def newLink (candidateId : Uuid) (selection : ResumeSelectionResult) : NewLink where
  candidateId := candidateId
  campaignCandidate := CampaignCandidateService.newCandidate request.campaignId candidateId
    selection.selectedResume.id (request.newId candidateId)
  selection := selection

def auditEntry (campaignId : Uuid) (link : NewLink) : AuditLog where
  actorId := some request.actorId
  actorRole := request.actorRole
  actionType := .candidateAdded
  entityType := .campaignCandidate
  entityId := link.campaignCandidate.id
  campaignId := some campaignId
  detail := some [("candidate_id", .str (text link.candidateId)),
    ("resume_id", .str (text link.resume.id)),
    ("pipeline_stage", .str link.campaignCandidate.pipelineStage.value),
    ("source", .str "TALENT_POOL"),
    ("selection_method", .str link.selection.selectionMethod.value),
    ("selected_resume_id", .str (text link.resume.id)),
    ("eligible_resume_count", .num link.selection.evaluatedResumes.length)]

def enqueueResumeReparse (campaign : ScoredCampaign) (queue : EvaluationQueue)
    (link : NewLink) : EvaluationQueue :=
  let taskId := request.newTaskId link.candidateId resumeDocumentProcessingTaskType
  let queue := queue.setTaskId link.resume.id taskId
  match queue.createIfNewIdempotencyKey taskId resumeDocumentProcessingTaskType
      (processingKey link.resume.id) link.resume.id with
  | (queue, _, false) => queue
  | (queue, log, true) =>
    match request.broker taskId with
    | none => queue.send (.processResumeDocument link.resume.id campaign.promptTemplateId taskId)
    | some failure => queue.markDispatchFailed log failure

def enqueueResumeEmbedding (queue : EvaluationQueue) (link : NewLink) : EvaluationQueue :=
  let key := embeddingKey link.resume.id
  match queue.getByIdempotencyKey key with
  | some _ => queue
  | none =>
    let taskId := request.newTaskId link.candidateId embedResumeTaskType
    match queue.createIfNewIdempotencyKey taskId embedResumeTaskType key link.resume.id with
    | (queue, _, false) => queue
    | (queue, _, true) =>
      match request.broker taskId with
      | none => queue.send (.generateResumeEmbedding link.resume.id taskId)
      | some _ => queue

def queueEvaluationTasks (campaign : ScoredCampaign) (queue : EvaluationQueue)
    (link : NewLink) : EvaluationQueue × List String :=
  if isOutdated link.resume then
    (enqueueResumeReparse request campaign queue link, [resumeDocumentProcessingTaskType])
  else
    let queue := queue.createLog (request.newTaskId link.candidateId skillNormalizeTaskType)
      skillNormalizeTaskType none none (some link.campaignCandidate.id)
    (enqueueResumeEmbedding request queue link, [skillNormalizeTaskType, embedResumeTaskType])

def toResponse (cc : CampaignCandidate) (queuedTaskTypes : List String) :
    AddCandidateToCampaignResponse where
  campaignCandidateId := cc.id
  campaignId := cc.campaignId
  candidateId := cc.candidateId
  resumeId := cc.resumeId
  pipelineStage := cc.pipelineStage
  queuedTaskTypes := queuedTaskTypes

-- `meanwhile` is what other requests commit between the duplicate check and the insert;
-- it stays when the call raises.
def addCandidateToCampaign (s : PoolDb) (candidateId : Uuid) (meanwhile : List CampaignCandidate) :
    PoolDb × Except AddError AddCandidateToCampaignResponse :=
  let landed := s.land meanwhile
  match request.db.candidates.find? candidateId with
  | none => (landed, .error (.notFound s!"Candidate {text candidateId} not found."))
  | some _ =>
  match lockCampaign request with
  | .error e => (landed, .error e)
  | .ok campaign =>
  if s.isLinked request.campaignId candidateId then
    (landed, .error (.campaign ⟨alreadyInCampaignMessage, 409⟩))
  else
  match selectResumeForCampaign request.db request.readers request.fresh candidateId campaign with
  | .error e => (landed, .error (.ofSelection e))
  | .ok selection =>
    let link := newLink request candidateId selection
    match landed.createIdempotent link.campaignCandidate with
    | (s, existing, false) => (s, .ok (toResponse existing []))
    | (s, created, true) =>
      let (queue, queuedTaskTypes) := queueEvaluationTasks request campaign s.queue link
      ({ s with
          stageHistory := addStageHistory s.stageHistory link
          auditLog := s.auditLog ++ [auditEntry request request.campaignId link]
          queue }, .ok (toResponse created queuedTaskTypes))

def chosen (campaign : ScoredCampaign) (candidateId : Uuid) : Option NewLink :=
  match request.db.candidates.find? candidateId with
  | none => none
  | some _ =>
    match selectResumeForCampaign request.db request.readers request.fresh candidateId
      campaign with
    | .error _ => none
    | .ok selection => some (newLink request candidateId selection)

-- What becomes of a candidate by what its duplicate check found and what came after it.
def admitted (campaign : ScoredCampaign) (linked : Bool) (meanwhile : List CampaignCandidate)
    (candidateId : Uuid) : Option NewLink :=
  if linked then none
  else (chosen request campaign candidateId).filter fun link =>
    !meanwhile.any fun row => row.resumeId = link.resume.id

def create (campaign : ScoredCampaign) (s : PoolDb) (link : NewLink) : PoolDb where
  campaignCandidates := s.campaignCandidates ++ [link.campaignCandidate]
  stageHistory := addStageHistory s.stageHistory link
  auditLog := s.auditLog ++ [auditEntry request request.campaignId link]
  queue := (queueEvaluationTasks request campaign s.queue link).1

def OwnRows (candidateId : Uuid) (rows : List CampaignCandidate) : Prop :=
  ∀ row ∈ rows, row.campaignId = request.campaignId ∧ row.candidateId = candidateId

variable {request} {campaign : ScoredCampaign} {s : PoolDb} {candidateId : Uuid}
  {meanwhile : List CampaignCandidate}

theorem chosen_eq_some {link : NewLink} (h : chosen request campaign candidateId = some link) :
    ∃ selection, link = newLink request candidateId selection := by
  unfold chosen at h
  split at h
  · simp at h
  · split at h
    · simp at h
    · next selection _ => exact ⟨selection, (Option.some.inj h).symm⟩

theorem admitted_eq_some {linked : Bool} {link : NewLink} :
    admitted request campaign linked meanwhile candidateId = some link ↔
      linked = false ∧ chosen request campaign candidateId = some link ∧
        ∀ row ∈ meanwhile, row.resumeId ≠ link.resume.id := by
  cases linked <;> simp [admitted, Option.filter_eq_some_iff]

theorem getByIdempotencyKey_land (hlinked : s.isLinked request.campaignId candidateId = false)
    (selection : ResumeSelectionResult) :
    ((s.land meanwhile).getByIdempotencyKey (PoolDb.idempotencyKey
        (newLink request candidateId selection).campaignCandidate)).isSome ↔
      ∃ row ∈ meanwhile, row.campaignId = request.campaignId ∧ row.candidateId = candidateId ∧
        row.resumeId = selection.selectedResume.id := by
  have hkey (row : CampaignCandidate) : decide (PoolDb.idempotencyKey row = PoolDb.idempotencyKey
        (newLink request candidateId selection).campaignCandidate) = true ↔
      row.campaignId = request.campaignId ∧ row.candidateId = candidateId ∧
        row.resumeId = selection.selectedResume.id := by
    simp [PoolDb.idempotencyKey, newLink, CampaignCandidateService.newCandidate]
  simp only [PoolDb.getByIdempotencyKey, List.find?_isSome, hkey]
  constructor
  · rintro ⟨row, hrow, hcampaign, hcandidate, hresume⟩
    obtain hold | hnew := List.mem_append.mp hrow
    · have hnone := List.any_eq_false.mp hlinked row hold
      exact absurd (decide_eq_true ⟨hcampaign, hcandidate⟩) hnone
    · exact ⟨row, hnew, hcampaign, hcandidate, hresume⟩
  · rintro ⟨row, hrow, hsame⟩
    exact ⟨row, List.mem_append_right _ hrow, hsame⟩

theorem addCandidateToCampaign_error {e : AddError} (hlock : lockCampaign request = .error e) :
    (addCandidateToCampaign request s candidateId meanwhile).1 = s.land meanwhile := by
  unfold addCandidateToCampaign
  cases request.db.candidates.find? candidateId with
  | none => rfl
  | some candidate => simp only [hlock]

theorem addCandidateToCampaign_spec (hlock : lockCampaign request = .ok campaign)
    (hown : OwnRows request candidateId meanwhile) :
    (addCandidateToCampaign request s candidateId meanwhile).1 =
      (admitted request campaign (s.isLinked request.campaignId candidateId) meanwhile
        candidateId).elim (s.land meanwhile) (create request campaign (s.land meanwhile)) ∧
    (addCandidateToCampaign request s candidateId meanwhile).2.isOk =
      (!s.isLinked request.campaignId candidateId &&
        (chosen request campaign candidateId).isSome) := by
  unfold addCandidateToCampaign
  cases hfind : request.db.candidates.find? candidateId with
  | none => simp [admitted, chosen, hfind, Except.isOk, Except.toBool]
  | some candidate =>
  cases hlinked : s.isLinked request.campaignId candidateId with
  | true => simp [admitted, hlock, Except.isOk, Except.toBool]
  | false =>
  cases hselect : selectResumeForCampaign request.db request.readers request.fresh candidateId
    campaign with
  | error e => simp [admitted, chosen, hfind, hlock, hselect, Except.isOk, Except.toBool]
  | ok selection =>
    have hchosen : chosen request campaign candidateId =
        some (newLink request candidateId selection) := by simp [chosen, hfind, hselect]
    have hconflict :=
      @getByIdempotencyKey_land _ request s candidateId meanwhile hlinked selection
    simp only [hlock, hselect, Bool.false_eq_true, if_false, PoolDb.createIdempotent, hchosen]
    cases hkey : (s.land meanwhile).getByIdempotencyKey (PoolDb.idempotencyKey
        (newLink request candidateId selection).campaignCandidate) with
    | some existing =>
      obtain ⟨row, hrow, -, -, hresume⟩ := hconflict.mp (by rw [hkey]; rfl)
      have hnone : admitted request campaign false meanwhile candidateId = none := by
        rw [Option.eq_none_iff_forall_ne_some]
        intro link hlink
        obtain ⟨-, hsame, hfree⟩ := admitted_eq_some.mp hlink
        cases hchosen.symm.trans hsame
        exact hfree row hrow hresume
      exact ⟨by rw [hnone]; rfl, rfl⟩
    | none =>
      have hsome : admitted request campaign false meanwhile candidateId =
          some (newLink request candidateId selection) := by
        refine admitted_eq_some.mpr ⟨rfl, hchosen, fun row hrow hresume => ?_⟩
        obtain ⟨hcampaign, hcandidate⟩ := hown row hrow
        have hkept := hconflict.mpr ⟨row, hrow, hcampaign, hcandidate, hresume⟩
        rw [hkey] at hkept
        simp at hkept
      exact ⟨by rw [hsome]; rfl, rfl⟩

end TalentPoolService

end AiHiring
