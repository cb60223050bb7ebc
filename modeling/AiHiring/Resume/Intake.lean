import AiHiring.Resume.Versions

namespace AiHiring

open Library Transaction ResumeM ResumeRepository
open CandidateRepository (getByEmailHash)
open CampaignCandidateRepository (getByCampaignAndCandidate)
open ResumeUploadService (recordTaskId createNextVersion)

-- What `mark_dispatch_failed` keeps of an exception of `apply_async`: its text
-- and the JSON summary made of it.
structure DispatchFailure where
  (message summary : String)

structure IntakeRequest extends UploadRequest where
  newTaskId : String
  dispatch : Option DispatchFailure

structure IntakeResult where
  resume : ResumeRow
  campaignCandidateId : Uuid
  taskId : Option String
  queued : Bool

namespace ResumeTaskLogRepository

def getByIdempotencyKey (db : ResumeDb) (key : String) : Option ResumeTaskLog :=
  db.taskLogs.rows.find? fun log => log.idempotencyKey = some key

-- The row of a new task, as every creator of the resume side fills it.
def newLog (taskId taskType : String) (idempotencyKey : Option String) (resumeId campaignCandidateId : Option Uuid) (id : Uuid) : ResumeTaskLog where
  id := id
  taskId := taskId
  taskType := taskType
  campaignCandidateId := campaignCandidateId
  status := .queued
  outputSummary := none
  errorMessage := none
  startedAt := none
  completedAt := none
  idempotencyKey := idempotencyKey
  resumeId := resumeId
  dispatchFailed := false

theorem newLog_id (taskId taskType : String) (idempotencyKey : Option String)
    (resumeId campaignCandidateId : Option Uuid) (id : Uuid) :
    (newLog taskId taskType idempotencyKey resumeId campaignCandidateId id).id = id := rfl

-- The loser of the unique index gets the winner's row; the flag says who won.
def createIfNewIdempotencyKey (taskId taskType key : String) (resumeId : Uuid) :
    ResumeM (ResumeTaskLog × Bool) := do
  match ← query (getByIdempotencyKey · key) with
  | some existing => pure (existing, false)
  | none =>
    let mk := newLog taskId taskType (some key) (some resumeId) none
    call (fun db => { db with taskLogs := db.taskLogs.insert mk fun _ => rfl }) fun db =>
      pure (mk db.taskLogs.next, true)

end ResumeTaskLogRepository

def resumeDocumentProcessingTaskType : String := "RESUME_DOCUMENT_PROCESSING"

namespace ResumeIntakeService

open ResumeTaskLogRepository

def precheckCampaignEligibility (campaignId : Uuid) : ResumeM Unit := do
  match ← query fun db => CampaignRepository.getById db.toDb campaignId with
  | none => raise (.service (.campaign "Campaign not found." 404))
  | some campaign =>
    if campaign.status = .paused then
      raise (.service (.campaign
        "This campaign is currently paused — uploads are not accepted." 409))
    else if campaign.status ≠ .active then
      raise (.service (.campaign
        "This campaign is closed and no longer accepting applications." 403))
    else pure ()

def checkNoExistingCampaignMembership (campaignId : Uuid) (emailHash : String) :
    ResumeM Unit := do
  match ← query (getByEmailHash · emailHash) with
  | none => pure ()
  | some candidate =>
    match ← query fun db =>
        getByCampaignAndCandidate db campaignId candidate.id with
    | none => pure ()
    | some _ => raise (.service (.campaign "Candidate already exists in this campaign." 409))

-- `create_campaign_candidate` in the caller's session: it flushes and leaves
-- the commit to the caller.
def createCampaignCandidate (campaignId candidateId resumeId : Uuid) (actorId : String)
    (actorRole : Option String) : ResumeM Uuid := do
  match ← query fun db => CampaignCandidateService.createCampaignCandidate db.toDb campaignId
      candidateId resumeId actorId actorRole with
  | .error e => raise (.service e)
  | .ok (linked, id) => do
    flush fun db => { db with toDb := linked }
    pure id

def logUploaded (request : IntakeRequest) (resume : ResumeRow) (db : ResumeDb) : ResumeDb :=
  { db with
    toDb := AuditService.log db.toDb (some request.uploadedBy) none .resumeUploaded .resume
      resume.id (some request.campaignId)
      (some [("candidate_id", .str (text resume.candidateId)),
        ("file_format", .str resume.fileFormat.value)]) }

def markDispatchFailed (log : ResumeTaskLog) (failure : DispatchFailure) : ResumeM Unit := do
  flush fun db => { db with
    taskLogs := db.taskLogs.replace
      { log with dispatchFailed := true, errorMessage := some failure.message,
                 outputSummary := some failure.summary } }
  commitAs .taskLog

-- What follows the commit of a link: the task id on the resume, the task log,
-- and the dispatch.
def queueProcessing (request : IntakeRequest) (resume : ResumeRow) : ResumeM String := do
  recordTaskId resume.id request.newTaskId
  let (log, wasCreated) ← createIfNewIdempotencyKey request.newTaskId
    resumeDocumentProcessingTaskType s!"{resumeDocumentProcessingTaskType}:{text resume.id}"
    resume.id
  commitAs .taskLog
  if !wasCreated then
    recordTaskId resume.id log.taskId
    pure log.taskId
  else
    match request.dispatch with
    | none => pure request.newTaskId
    | some failure => do
      markDispatchFailed log failure
      pure request.newTaskId

def uploadResume (request : IntakeRequest) : ResumeM IntakeResult := do
  precheckCampaignEligibility request.campaignId
  checkNoExistingCampaignMembership request.campaignId request.emailHash
  let result ← ResumeUploadService.upload request.toUploadRequest
  let resume := result.resume
  let campaignCandidateId ← createCampaignCandidate request.campaignId resume.candidateId
    resume.id request.uploadedBy request.actorRole
  if !result.requiresProcessing then
    -- nothing was uploaded: no audit event, no task, and the early return
    pure { resume, campaignCandidateId, taskId := resume.taskId, queued := false }
  else
    flush (logUploaded request resume)
    commitAs .link
    let taskId ← queueProcessing request resume
    pure { resume, campaignCandidateId, taskId := some taskId, queued := true }

end ResumeIntakeService

-- The campaign_candidate that a call returns, with the history and audit rows
-- written beside it, as another session reads them.
structure Durable (request : IntakeRequest) (r : IntakeResult) (db : Db) : Prop where
  link : ∃ cc, db.campaignCandidates.find? r.campaignCandidateId = some cc ∧
    cc.campaignId = request.campaignId ∧ cc.candidateId = r.resume.candidateId ∧
    cc.resumeId = r.resume.id
  history : ∃ row ∈ db.historyOf r.campaignCandidateId, row.fromStage = none ∧
    row.toStage = .uploaded
  audit : ∃ entry ∈ db.auditLog, entry.actionType = .candidateAdded ∧
    entry.entityId = r.campaignCandidateId

-- A commit of the link is among those made.
def LinkCommitted (commits : List (ResumeCommit × ResumeDb)) : Prop :=
  ∃ c ∈ commits, c.1 = .link

-- What holds of an upload, whichever of its database calls fails.
structure DurableUpload (request : IntakeRequest) (db : ResumeDb) : Prop where
  returned : ∀ failIn r,
    ((ResumeIntakeService.uploadResume request).run failIn db).result = .ok r → Durable request r
        (((ResumeIntakeService.uploadResume request).run failIn db).committed db).toDb
  raised : ∀ failIn raised,
    ((ResumeIntakeService.uploadResume request).run failIn db).result = .error raised →
      ¬LinkCommitted ((ResumeIntakeService.uploadResume request).run failIn db).commits →
        (((ResumeIntakeService.uploadResume request).run failIn db).committed
          db).campaignCandidates = db.campaignCandidates

-- The upload resolves a duplicate by linking the resume that is already there,
-- and every check lets it.
structure LinksExisting (request : IntakeRequest) (db : ResumeDb) : Prop where
  resolution : request.resolution = some .useExisting
  validated : ∃ fileFormat, request.file.fileFormat = .ok fileFormat
  active : ∃ campaign, CampaignRepository.getById db.toDb request.campaignId = some campaign ∧
    campaign.status = .active
  applicant : ∀ candidate, getByEmailHash db request.emailHash = some candidate →
      getByCampaignAndCandidate db request.campaignId candidate.id = none
  duplicate : ∃ matchedResume, getByFileHashGlobal db request.file.fileHash = some matchedResume ∧
    getByCampaignAndCandidate db request.campaignId
      matchedResume.candidateId = none

section Rules

variable {db : ResumeDb} {commits : List (ResumeCommit × ResumeDb)}
  {failed : List (ResumeCommit × ResumeDb) → Prop}

theorem ends_precheck (campaignId : Uuid)
    {post : Except ResumeError Unit → ResumeDb → List (ResumeCommit × ResumeDb) → Prop}
    (hfailed : failed commits) (herror : ∀ e, post (.error e) db commits)
    (hok : (∃ campaign, CampaignRepository.getById db.toDb campaignId = some campaign ∧
      campaign.status = .active) → post (.ok ()) db commits) :
    Ends post failed (ResumeIntakeService.precheckCampaignEligibility campaignId) db commits := by
  rw [ResumeIntakeService.precheckCampaignEligibility, ends_query_bind]
  refine ⟨hfailed, ?_⟩
  cases hcampaign : CampaignRepository.getById db.toDb campaignId with
  | none => exact herror _
  | some campaign =>
    dsimp only
    split_ifs with hpaused hactive
    · exact herror _
    · exact herror _
    · exact hok ⟨campaign, hcampaign, not_not.mp hactive⟩

theorem ends_checkNoExistingCampaignMembership (campaignId : Uuid) (emailHash : String)
    {post : Except ResumeError Unit → ResumeDb → List (ResumeCommit × ResumeDb) → Prop}
    (hfailed : failed commits) (herror : ∀ e, post (.error e) db commits)
    (hok : (∀ candidate, getByEmailHash db emailHash = some candidate →
        getByCampaignAndCandidate db campaignId candidate.id = none) →
      post (.ok ()) db commits) :
    Ends post failed
      (ResumeIntakeService.checkNoExistingCampaignMembership campaignId emailHash) db commits := by
  rw [ResumeIntakeService.checkNoExistingCampaignMembership, ends_query_bind]
  refine ⟨hfailed, ?_⟩
  cases hcandidate : getByEmailHash db emailHash with
  | none => exact hok fun _ h => nomatch hcandidate ▸ h
  | some candidate =>
    rw [ends_query_bind]
    refine ⟨hfailed, ?_⟩
    cases hmember : getByCampaignAndCandidate db campaignId
        candidate.id with
    | some _ => exact herror _
    | none =>
      apply hok
      intro other hother
      obtain rfl : candidate = other := Option.some.inj (hcandidate.symm.trans hother)
      exact hmember

theorem ends_createCampaignCandidate (campaignId candidateId resumeId : Uuid) (actorId : String)
    (actorRole : Option String)
    {post : Except ResumeError Uuid → ResumeDb → List (ResumeCommit × ResumeDb) → Prop}
    (hfailed : failed commits) (herror : ∀ e, post (.error e) db commits)
    (hok : ∀ linked id, CampaignCandidateService.createCampaignCandidate db.toDb campaignId
        candidateId resumeId actorId actorRole = .ok (linked, id) →
      post (.ok id) { db with toDb := linked } commits) :
    Ends post failed (ResumeIntakeService.createCampaignCandidate campaignId candidateId resumeId
      actorId actorRole) db commits := by
  rw [ResumeIntakeService.createCampaignCandidate, ends_query_bind]
  refine ⟨hfailed, ?_⟩
  cases hlink : CampaignCandidateService.createCampaignCandidate db.toDb campaignId candidateId
      resumeId actorId actorRole with
  | error e => exact herror _
  | ok made => exact ⟨hfailed, hok made.1 made.2 hlink⟩

end Rules

-- No link is committed yet, and every commit leaves the links alone.
def Unlinked (start : ResumeDb) (commits : List (ResumeCommit × ResumeDb)) : Prop :=
  ∀ c ∈ commits, c.1 ≠ .link ∧ c.2.campaignCandidates = start.campaignCandidates

-- What is committed by the time of a call that fails.
def Quiet (start : ResumeDb) (commits : List (ResumeCommit × ResumeDb)) : Prop :=
  ¬LinkCommitted commits →
    (lastCommitted start commits).campaignCandidates = start.campaignCandidates

theorem Unlinked.quiet {start : ResumeDb} {commits : List (ResumeCommit × ResumeDb)}
    (h : Unlinked start commits) : Quiet start commits := by
  intro _
  rw [lastCommitted]
  cases hlast : commits.getLast? with
  | none => rw [List.getLast?_eq_none_iff.mp hlast]; rfl
  | some c =>
    obtain ⟨before, rfl⟩ := List.getLast?_eq_some_iff.mp hlast
    have hc := (h c (by simp)).2
    simpa using hc

theorem Unlinked.snoc {start db : ResumeDb} {commits : List (ResumeCommit × ResumeDb)}
    (h : Unlinked start commits) (tag : ResumeCommit) (htag : tag ≠ .link)
    (hdb : db.campaignCandidates = start.campaignCandidates) :
    Unlinked start (commits ++ [(tag, db)]) := by
  intro c hc
  rcases List.mem_append.mp hc with hc | hc
  · exact h c hc
  · rw [List.mem_singleton] at hc
    subst hc
    exact ⟨htag, hdb⟩

section Upload

variable {start db : ResumeDb} {commits : List (ResumeCommit × ResumeDb)}

theorem toDb_withNextVersion (fields : NewResume) : (withNextVersion db fields).toDb = db.toDb := by
  have hbefore : (beforeInsert db fields.candidateId).toDb = db.toDb := by
    rw [beforeInsert]
    split <;> rfl
  exact hbefore

theorem ends_upload (request : UploadRequest) (hdb : db.toDb = start.toDb)
    (hcommits : Unlinked start commits) :
    Ends (fun result db' commits => Unlinked start commits ∧ ∀ r, result = .ok r →
        db'.toDb = start.toDb ∧ (r.requiresProcessing = false →
          request.resolution = some .useExisting ∧
            (∃ fileFormat, request.file.fileFormat = .ok fileFormat) ∧
            getByFileHashGlobal db request.file.fileHash = some r.resume))
      (Quiet start) (ResumeUploadService.upload request) db commits := by
  have hlinks : db.campaignCandidates = start.campaignCandidates :=
    congrArg Db.campaignCandidates hdb
  -- a version of either kind: one commit, links untouched
  have hcreate (candidateId : Uuid) (objectPath : String) (fileFormat : FileFormat)
      (duplicateFound : Bool) {db' : ResumeDb} {commits : List (ResumeCommit × ResumeDb)}
      (hdb' : db'.toDb = start.toDb) (hcommits : Unlinked start commits) :
      Ends (fun result db' commits => Unlinked start commits ∧ ∀ r, result = .ok r →
          db'.toDb = start.toDb ∧ (r.requiresProcessing = false →
            request.resolution = some .useExisting ∧
              (∃ fileFormat, request.file.fileFormat = .ok fileFormat) ∧
              getByFileHashGlobal db request.file.fileHash = some r.resume))
        (Quiet start) (do
          let resume ← createNextVersion candidateId objectPath fileFormat
            request
          pure (UploadResumeResult.mk resume true duplicateFound)) db' commits := by
    rw [ends_bind, createNextVersion, ends_bind]
    apply ends_createVersion _ hcommits.quiet
    have htoDb (fields : NewResume) : (withNextVersion db' fields).toDb = start.toDb :=
      (toDb_withNextVersion fields).trans hdb'
    refine ⟨hcommits.quiet, hcommits.snoc .resume (by decide) ?_, ?_⟩
    · exact congrArg Db.campaignCandidates (htoDb _)
    · intro r hr
      refine ⟨htoDb _, fun hprocessing => ?_⟩
      rw [← Except.ok.inj hr] at hprocessing
      simp at hprocessing
  have herror (e : ResumeError) : Unlinked start commits ∧ ∀ r : UploadResumeResult,
      Except.error e = Except.ok r → db.toDb = start.toDb ∧ (r.requiresProcessing = false →
        request.resolution = some .useExisting ∧
          (∃ fileFormat, request.file.fileFormat = .ok fileFormat) ∧
          getByFileHashGlobal db request.file.fileHash = some r.resume) :=
    ⟨hcommits, fun _ h => nomatch h⟩
  rw [ResumeUploadService.upload]
  apply ends_ofExcept_bind _ _ herror
  intro fileFormat hformat
  rw [ends_query_bind]
  refine ⟨hcommits.quiet, ?_⟩
  cases hmatched : getByFileHashGlobal db request.file.fileHash with
  | some matchedResume =>
    cases hresolution : request.resolution with
    | none => exact ⟨hcommits, fun _ h => nomatch h⟩
    | some resolution =>
      cases resolution with
      | useExisting =>
        refine ⟨hcommits, fun r hr =>
          ⟨hdb, fun _ => ⟨rfl, ⟨fileFormat, hformat⟩, ?_⟩⟩⟩
        rw [← Except.ok.inj hr]
      | uploadAnyway =>
        rw [hresolution, hmatched] at hcreate
        apply ends_ofExcept_bind
        · exact fun e => ⟨hcommits, fun _ h => nomatch h⟩
        · intro objectPath _
          exact hcreate _ objectPath fileFormat true hdb hcommits
  | none =>
    rw [hmatched] at hcreate
    apply ends_ofExcept_bind
    · exact fun e => ⟨hcommits, fun _ h => nomatch h⟩
    · intro objectPath _
      rw [ends_bind]
      apply ends_getOrCreate _ hcommits.quiet
      · intro existing _ _
        exact hcreate _ objectPath fileFormat false hdb hcommits
      · exact ⟨hcommits, fun _ h => nomatch h⟩
      · rintro db' rfl
        exact hcreate _ objectPath fileFormat false hdb
          (hcommits.snoc .candidate (by decide) hlinks)

end Upload

section Link

variable {db linked : Db} {campaignId candidateId resumeId id : Uuid} {actorId : String}
  {actorRole : Option String}

theorem createCampaignCandidate_eq_ok :
    CampaignCandidateService.createCampaignCandidate db campaignId candidateId resumeId actorId
        actorRole = .ok (linked, id) ↔
      (∃ campaign, CampaignRepository.getById db campaignId = some campaign ∧
        campaign.status = .active) ∧
      (db.campaignCandidates.rows.find? fun cc =>
        cc.campaignId = campaignId ∧ cc.candidateId = candidateId) = none ∧
      CampaignCandidateService.addCandidate db campaignId candidateId resumeId actorId actorRole =
        (linked, id) := by
  rw [CampaignCandidateService.createCampaignCandidate]
  cases hcampaign : CampaignRepository.getById db campaignId with
  | none => simp
  | some campaign =>
    have hnone : (¬(db.campaignCandidates.rows.any fun cc =>
          cc.campaignId = campaignId ∧ cc.candidateId = candidateId) = true) ↔
        (db.campaignCandidates.rows.find? fun cc =>
          cc.campaignId = campaignId ∧ cc.candidateId = candidateId) = none := by
      rw [List.find?_eq_none, Bool.not_eq_true, List.any_eq_false]
    have hstatus : (¬campaign.status = .paused ∧ ¬campaign.status ≠ .active) ↔
        campaign.status = .active := by
      cases campaign.status <;> decide
    simp only [raise_eq_ok, Except.ok.injEq, hnone, Option.some.injEq, exists_eq_left']
    rw [← hstatus]
    tauto

theorem addCandidate_rows (h : CampaignCandidateService.addCandidate db campaignId candidateId
      resumeId actorId actorRole = (linked, id)) :
    linked.campaignCandidates.find? id =
        some (CampaignCandidateService.newCandidate campaignId candidateId resumeId id) ∧
      (∃ row ∈ linked.historyOf id, row.fromStage = none ∧ row.toStage = .uploaded) ∧
      ∃ entry ∈ linked.auditLog, entry.actionType = .candidateAdded ∧ entry.entityId = id := by
  cases h
  refine ⟨?_, ?_, ?_⟩
  · exact (db.campaignCandidates.find?_insert _ (fun _ => rfl) _).trans (if_pos rfl)
  · refine ⟨CampaignCandidateStageHistory.mk db.stageHistory.next db.campaignCandidates.next none
      .uploaded none none .system none none, ?_, rfl, rfl⟩
    exact List.mem_filter.mpr ⟨List.mem_append_right _ (List.mem_singleton.mpr rfl), by simp⟩
  · exact ⟨_, List.mem_append_right _ (List.mem_singleton.mpr rfl), rfl, rfl⟩

theorem durable_logUploaded {start : ResumeDb} (request : IntakeRequest) (resume : ResumeRow)
    (taskId : Option String) (queued : Bool)
    (h : CampaignCandidateService.addCandidate db request.campaignId resume.candidateId resume.id
      actorId actorRole = (linked, id)) :
    Durable request ⟨resume, id, taskId, queued⟩
      (ResumeIntakeService.logUploaded request resume { start with toDb := linked }).toDb := by
  obtain ⟨hrow, hhistory, entry, hentry, haudit⟩ := addCandidate_rows h
  exact ⟨⟨_, hrow, rfl, rfl, rfl⟩, hhistory, entry, List.mem_append_left _ hentry, haudit⟩

end Link

section Queue

variable {start db : ResumeDb} {linked : Db}

-- From the commit of the link on, every commit holds it.
structure LinkedBy (start : ResumeDb) (linked : Db) (db : ResumeDb)
    (commits : List (ResumeCommit × ResumeDb)) : Prop where
  committed : LinkCommitted commits
  last : (lastCommitted start commits).toDb = linked
  working : db.toDb = linked

variable {commits : List (ResumeCommit × ResumeDb)}

theorem LinkedBy.quiet (h : LinkedBy start linked db commits) : Quiet start commits :=
  fun hno => absurd h.committed hno

theorem LinkedBy.snoc (h : LinkedBy start linked db commits) (tag : ResumeCommit) :
    LinkedBy start linked db (commits ++ [(tag, db)]) := by
  obtain ⟨c, hc, htag⟩ := h.committed
  refine ⟨⟨c, List.mem_append_left _ hc, htag⟩, ?_, h.working⟩
  rw [lastCommitted_snoc]
  exact h.working

theorem LinkedBy.write (h : LinkedBy start linked db commits) {db' : ResumeDb}
    (hdb : db'.toDb = db.toDb) : LinkedBy start linked db' commits :=
  ⟨h.committed, h.last, hdb.trans h.working⟩

theorem ends_recordTaskId (resumeId : Uuid) (taskId : String)
    (h : LinkedBy start linked db commits) :
    Ends (fun result db commits => LinkedBy start linked db commits ∧ result = .ok ())
      (Quiet start) (recordTaskId resumeId taskId) db commits := by
  rw [recordTaskId, ends_flush_bind]
  have hwritten : LinkedBy start linked (setTaskId resumeId taskId db) commits := h.write rfl
  exact ⟨h.quiet, hwritten.quiet, hwritten.snoc _, rfl⟩

theorem ends_createIfNewIdempotencyKey (taskId taskType key : String) (resumeId : Uuid)
    (h : LinkedBy start linked db commits) :
    Ends (fun result db commits => LinkedBy start linked db commits ∧ ∃ made, result = .ok made)
      (Quiet start)
      (ResumeTaskLogRepository.createIfNewIdempotencyKey taskId taskType key resumeId) db
      commits := by
  rw [ResumeTaskLogRepository.createIfNewIdempotencyKey, ends_query_bind]
  refine ⟨h.quiet, ?_⟩
  cases ResumeTaskLogRepository.getByIdempotencyKey db key with
  | some existing => exact ⟨h, _, rfl⟩
  | none => exact ⟨h.quiet, h.write rfl, _, rfl⟩

theorem ends_markDispatchFailed (log : ResumeTaskLog) (failure : DispatchFailure)
    (h : LinkedBy start linked db commits) :
    Ends (fun result db commits => LinkedBy start linked db commits ∧ result = .ok ())
      (Quiet start) (ResumeIntakeService.markDispatchFailed log failure) db commits := by
  rw [ResumeIntakeService.markDispatchFailed, ends_flush_bind]
  have hwritten : LinkedBy start linked { db with
      taskLogs := db.taskLogs.replace
        { log with dispatchFailed := true, errorMessage := some failure.message,
                   outputSummary := some failure.summary } } commits := h.write rfl
  exact ⟨h.quiet, hwritten.quiet, hwritten.snoc _, rfl⟩

theorem ends_queueProcessing (request : IntakeRequest) (resume : ResumeRow)
    (h : LinkedBy start linked db commits) :
    Ends (fun result db commits => LinkedBy start linked db commits ∧ ∃ taskId, result = .ok taskId)
      (Quiet start) (ResumeIntakeService.queueProcessing request resume) db commits := by
  rw [ResumeIntakeService.queueProcessing, ends_bind]
  apply (ends_recordTaskId resume.id request.newTaskId h).imp
  rintro _ db commits ⟨h, rfl⟩
  rw [ends_bind]
  apply (ends_createIfNewIdempotencyKey _ _ _ resume.id h).imp
  rintro _ db commits ⟨h, ⟨log, wasCreated⟩, rfl⟩
  dsimp only
  rw [ends_commitAs_bind]
  refine ⟨h.quiet, ?_⟩
  have hlogged := h.snoc .taskLog
  cases wasCreated with
  | false =>
    rw [Bool.not_false, if_pos rfl, ends_bind]
    apply (ends_recordTaskId resume.id log.taskId hlogged).imp
    rintro _ db commits ⟨h, rfl⟩
    exact ⟨h, _, rfl⟩
  | true =>
    rw [if_neg (by simp)]
    cases request.dispatch with
    | none => exact ⟨hlogged, _, rfl⟩
    | some failure =>
      rw [ends_bind]
      apply (ends_markDispatchFailed log failure hlogged).imp
      rintro _ db commits ⟨h, rfl⟩
      exact ⟨h, _, rfl⟩

end Queue

-- Every way an upload may end: what it returns is committed unless it linked an
-- existing resume, and nothing is visible before the link is committed.
theorem ends_uploadResume (request : IntakeRequest) (start : ResumeDb) :
    Ends (fun result _ commits => Quiet start commits ∧ ∀ r, result = .ok r →
        LinksExisting request start ∨ Durable request r (lastCommitted start commits).toDb)
      (Quiet start) (ResumeIntakeService.uploadResume request) start [] := by
  have hunlinked : Unlinked start [] := fun _ h => absurd h List.not_mem_nil
  have hnone (e : ResumeError) (commits : List (ResumeCommit × ResumeDb))
      (hquiet : Quiet start commits) : Quiet start commits ∧ ∀ r : IntakeResult,
        Except.error e = Except.ok r →
          LinksExisting request start ∨ Durable request r (lastCommitted start commits).toDb :=
    ⟨hquiet, fun _ h => nomatch h⟩
  rw [ResumeIntakeService.uploadResume, ends_bind]
  apply ends_precheck _ hunlinked.quiet (fun e => hnone e [] hunlinked.quiet)
  intro hactive
  rw [ends_bind]
  apply ends_checkNoExistingCampaignMembership _ _ hunlinked.quiet
    (fun e => hnone e [] hunlinked.quiet)
  intro happlicant
  rw [ends_bind]
  apply (ends_upload request.toUploadRequest rfl hunlinked).imp
  rintro result db commits ⟨hcommits, hresult⟩
  cases result with
  | error e => exact hnone e commits hcommits.quiet
  | ok r =>
    obtain ⟨hdb, hexisting⟩ := hresult r rfl
    dsimp only
    rw [ends_bind]
    apply ends_createCampaignCandidate _ _ _ _ _ hcommits.quiet
      (fun e => hnone e commits hcommits.quiet)
    intro linked id hlink
    rw [hdb] at hlink
    obtain ⟨-, hunlisted, hadded⟩ := createCampaignCandidate_eq_ok.mp hlink
    dsimp only
    cases hprocessing : r.requiresProcessing with
    | false =>
      obtain ⟨hresolution, hvalid, hmatched⟩ := hexisting hprocessing
      refine ⟨hcommits.quiet, fun _ _ => .inl ?_⟩
      exact ⟨hresolution, hvalid, hactive, happlicant, r.resume, hmatched, hunlisted⟩
    | true =>
      rw [if_neg (by simp), ends_flush_bind, ends_commitAs_bind]
      refine ⟨hcommits.quiet, hcommits.quiet, ?_⟩
      rw [ends_bind]
      have hlinked : LinkedBy start
          (ResumeIntakeService.logUploaded request r.resume { db with toDb := linked }).toDb
          (ResumeIntakeService.logUploaded request r.resume { db with toDb := linked })
          (commits ++ [(.link,
            ResumeIntakeService.logUploaded request r.resume { db with toDb := linked })]) :=
        ⟨⟨_, List.mem_append_right _ (List.mem_singleton.mpr rfl), rfl⟩,
          by rw [lastCommitted_snoc], rfl⟩
      apply (ends_queueProcessing request r.resume hlinked).imp
      rintro _ db' commits' ⟨h, taskId, rfl⟩
      refine ⟨h.quiet, fun returned hreturned => .inr ?_⟩
      rw [h.last, ← Except.ok.inj hreturned]
      exact durable_logUploaded request r.resume (some taskId) true hadded

theorem normal_createCampaignCandidate {db : ResumeDb} {linked : Db}
    {campaignId candidateId resumeId id : Uuid} {actorId : String} {actorRole : Option String}
    (h : CampaignCandidateService.createCampaignCandidate db.toDb campaignId candidateId resumeId
      actorId actorRole = .ok (linked, id)) :
    (ResumeIntakeService.createCampaignCandidate campaignId candidateId resumeId actorId
      actorRole).normal db = ⟨.ok id, { db with toDb := linked }, [], none⟩ := by
  rw [ResumeIntakeService.createCampaignCandidate, normal_query_bind, h]
  rfl

theorem normal_uploadResume_existing {request : IntakeRequest} {db : ResumeDb}
    (h : LinksExisting request db) :
    ∃ r, ((ResumeIntakeService.uploadResume request).normal db).result = .ok r ∧
      r.campaignCandidateId = db.campaignCandidates.next ∧
      ((ResumeIntakeService.uploadResume request).normal db).commits = [] := by
  obtain ⟨hresolution, ⟨fileFormat, hformat⟩, ⟨campaign, hcampaign, hactive⟩, happlicant,
    matchedResume, hmatched, hunlisted⟩ := h
  have hprecheck : (ResumeIntakeService.precheckCampaignEligibility request.campaignId).normal db =
      ⟨.ok (), db, [], none⟩ := by
    simp [ResumeIntakeService.precheckCampaignEligibility, hcampaign, hactive]
  have hmember : (ResumeIntakeService.checkNoExistingCampaignMembership request.campaignId
      request.emailHash).normal db = ⟨.ok (), db, [], none⟩ := by
    cases hcandidate : getByEmailHash db request.emailHash with
    | none => simp [ResumeIntakeService.checkNoExistingCampaignMembership, hcandidate]
    | some candidate =>
      simp [ResumeIntakeService.checkNoExistingCampaignMembership, hcandidate,
        happlicant candidate hcandidate]
  have hvalidated : (ofExcept request.file.fileFormat).normal db =
      ⟨.ok fileFormat, db, [], none⟩ := by
    rw [hformat]
    rfl
  have hupload : (ResumeUploadService.upload request.toUploadRequest).normal db =
      ⟨.ok ⟨matchedResume, false, true⟩, db, [], none⟩ := by
    rw [ResumeUploadService.upload, normal_bind _ _ _ _ _ _ hvalidated, Finished.after_nil,
      normal_query_bind, hmatched, hresolution]
    rfl
  obtain ⟨linked, hadded⟩ : ∃ linked, CampaignCandidateService.addCandidate db.toDb
      request.campaignId matchedResume.candidateId matchedResume.id request.uploadedBy
      request.actorRole = (linked, db.campaignCandidates.next) := ⟨_, rfl⟩
  have hlink := normal_createCampaignCandidate
    (createCampaignCandidate_eq_ok.mpr ⟨⟨campaign, hcampaign, hactive⟩, hunlisted, hadded⟩)
  have hrun : (ResumeIntakeService.uploadResume request).normal db =
      ⟨.ok ⟨matchedResume, db.campaignCandidates.next, matchedResume.taskId, false⟩,
        { db with toDb := linked }, [], none⟩ := by
    rw [ResumeIntakeService.uploadResume, normal_bind _ _ _ _ _ _ hprecheck, Finished.after_nil,
      normal_bind _ _ _ _ _ _ hmember, Finished.after_nil, normal_bind _ _ _ _ _ _ hupload,
      Finished.after_nil, normal_bind _ _ _ _ _ _ hlink]
    rfl
  rw [hrun]
  exact ⟨_, rfl, rfl, rfl⟩

theorem LinksExisting.not_durable {request : IntakeRequest} {db : ResumeDb}
    (h : LinksExisting request db) : ¬DurableUpload request db := by
  intro hdurable
  obtain ⟨r, hresult, hid, hcommits⟩ := normal_uploadResume_existing h
  obtain ⟨cc, hcc, -⟩ := (hdurable.returned none r hresult).link
  change (Finished.committed db (normal _ db)).campaignCandidates.find? _ = _ at hcc
  rw [Finished.committed, hcommits, hid] at hcc
  obtain ⟨hmem, hkey⟩ := (db.campaignCandidates.find?_eq_some _ _).mp hcc
  have := db.campaignCandidates.below cc hmem
  omega

-- An upload is durable exactly when it does not link an existing resume.
theorem upload_durable_iff (request : IntakeRequest) (db : ResumeDb) :
    DurableUpload request db ↔ ¬LinksExisting request db := by
  constructor
  · exact fun hdurable hexisting => hexisting.not_durable hdurable
  · intro hnew
    have hends := ends_uploadResume request db
    constructor
    · intro failIn r hresult
      have hrun := hends.run failIn
      rw [hresult] at hrun
      cases hrun.2 r rfl with
      | inl hexisting => exact absurd hexisting hnew
      | inr hdurable => exact hdurable
    · intro failIn raised hresult hunlinked
      have hrun := hends.run failIn
      rw [hresult] at hrun
      cases raised with
      | database => exact hrun hunlinked
      | error e => exact hrun.1 hunlinked

theorem openCampaign_id (id : Uuid) : (openCampaign id).id = id := rfl

def uploadedDb : ResumeDb where
  toDb := { Db.empty with campaigns := Table.empty.insert openCampaign openCampaign_id }
  candidates := Table.empty.insert (CandidateService.newCandidate "candidate") fun _ => rfl
  resumes := Table.empty.insert (newVersion
      { candidateId := 0, filePath := "resume/first", fileFormat := .pdf, fileHash := "first",
        uploadedBy := "recruiter", bulkUploadJobId := none, taskId := some "first" } 1)
    fun _ => rfl
  taskLogs := Table.empty

def reuseRequest : IntakeRequest where
  campaignId := 0
  file := { fileHash := "first", fileFormat := .ok .pdf, objectPath := .ok "resume/second" }
  emailHash := "candidate"
  uploadedBy := "recruiter"
  actorRole := some "RECRUITER"
  resolution := some .useExisting
  newTaskId := "second"
  dispatch := none

theorem existing_resume_link_lost : ¬DurableUpload reuseRequest uploadedDb :=
  LinksExisting.not_durable
    { resolution := rfl
      validated := ⟨.pdf, rfl⟩
      active := ⟨openCampaign 0, rfl, rfl⟩
      applicant := fun _ _ => rfl
      duplicate := ⟨_, rfl, rfl⟩ }

end AiHiring
