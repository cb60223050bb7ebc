import AiHiring.Bulk.Attempt
import AiHiring.Bulk.Counters

namespace AiHiring

open Library Transaction BulkUploadJobRepository BulkUploadJobFileRepository ResumeRepository
open CandidateService (newCandidate erasureBlocked)
open CandidateRepository (getByEmailHash)
open ResumeService (extractedSkills updateParsedResult persistProcessedResume)

namespace BulkSubmission

section File

variable {s : BulkSubmission} {bulk : BulkDb} {db : BulkFileDb} {file : BulkUploadJobFile}

variable {status : BulkUploadFileStatus} {column : CountColumn}

theorem getById_updateStatus {id : Uuid} (h : getById bulk id = some file) :
    getById (BulkUploadJobFileRepository.updateStatus bulk id status) id =
      some { file with status := status } := by
  obtain ⟨-, hid⟩ := (bulk.files.find?_eq_some _ _).mp h
  have hset : setValues (fun other => other.id = id) status none file =
      { file with status := status } := by
    simp [setValues, hid]
  exact getById_update.trans (by rw [h, Option.map_some, hset])

theorem finalize_eq (bulk : BulkDb) :
    ∃ status, finalize bulk = BulkUploadJobRepository.updateStatus bulk status ∧
      (bulk.job.status = .processing → status ∉ BulkUploadService.nonReplayableJobStatuses) := by
  unfold finalize
  cases hdecided : maybeFinalizeJob bulk.job with
  | none =>
    refine ⟨bulk.job.status, rfl, fun hprocessing => ?_⟩
    rw [hprocessing]
    decide
  | some status =>
    refine ⟨status, rfl, fun _ => ?_⟩
    unfold maybeFinalizeJob at hdecided
    split_ifs at hdecided <;> obtain rfl := Option.some.inj hdecided <;> decide

theorem finalize_job (a b : BulkDb) (h : a.job = b.job) : (finalize a).job = (finalize b).job := by
  unfold finalize
  rw [h]
  cases maybeFinalizeJob b.job with
  | none => exact h
  | some status =>
    change { a.job with status := status } = { b.job with status := status }
    rw [h]

theorem getById_finalize (id : Uuid) : getById (finalize bulk) id = getById bulk id := by
  obtain ⟨status, heq, -⟩ := finalize_eq bulk
  rw [heq]
  rfl

theorem count_finalize (column : CountColumn) :
    (finalize bulk).job.count column = bulk.job.count column := by
  obtain ⟨status, heq, -⟩ := finalize_eq bulk
  rw [heq]
  cases column <;> rfl

theorem getById_record (h : getById db.bulk s.fileId = some file) :
    getById (s.record db status column).bulk s.fileId = some { file with status := status } :=
  (getById_finalize _).trans (getById_updateStatus h)

theorem count_record (c : CountColumn) :
    (s.record db status column).bulk.job.count c =
      db.bulk.job.count c + if c = column then 1 else 0 :=
  (count_finalize c).trans (count_atomicIncrement column c 1)

theorem job_record {other : BulkFileDb} (h : db.bulk.job = other.bulk.job) :
    (s.record db status column).bulk.job = (s.record other status column).bulk.job := by
  apply finalize_job
  have hjob (bulk : BulkDb) : (enter (BulkUploadJobFileRepository.updateStatus bulk s.fileId status)
      s.fileId column 1).job = (atomicIncrement bulk column 1).job := rfl
  rw [hjob, hjob]
  cases column <;> simp [atomicIncrement, h]

end File

-- The candidate that an email hash stands for, added if it is new.
section Resolved

variable (db : ResumeDb) (emailHash : String)

theorem newCandidate_id (id : Uuid) : (newCandidate emailHash id).id = id := rfl

def candidateOf : CandidateRow :=
  (getByEmailHash db emailHash).getD (newCandidate emailHash db.candidates.next)

def withCandidate : ResumeDb :=
  match getByEmailHash db emailHash with
  | some _ => db
  | none => { db with
      candidates := db.candidates.insert (newCandidate emailHash) (newCandidate_id emailHash) }

theorem toDb_withCandidate : (withCandidate db emailHash).toDb = db.toDb := by
  unfold withCandidate
  cases getByEmailHash db emailHash <;> rfl

def newResume (file : BulkResume) : NewResume where
  candidateId := (candidateOf db file.emailHash).id
  filePath := file.storagePath
  fileFormat := file.fileFormat
  fileHash := file.fileHash
  uploadedBy := file.uploadedBy
  bulkUploadJobId := some file.jobId
  taskId := some file.taskId

-- The resume that a file gets, and the tables with it.
def storedResume (file : BulkResume) : ResumeRow :=
  nextResume (withCandidate db file.emailHash) (newResume db file)

def withStored (file : BulkResume) : ResumeDb :=
  withNextVersion (withCandidate db file.emailHash) (newResume db file)

theorem toDb_withStored (file : BulkResume) : (withStored db file).toDb = db.toDb :=
  (toDb_withNextVersion _).trans (toDb_withCandidate db file.emailHash)

-- How the creation ends: an erased candidate gets nothing, every other one the
-- stored resume.
def Creates (file : BulkResume) (result : Except ResumeError ResumeRow)
    (commits : List (ResumeCommit × ResumeDb)) : Prop :=
  (erasureBlocked (candidateOf db file.emailHash) = true →
    (∃ e, result = .error e) ∧ lastCommitted db commits = db) ∧
  (erasureBlocked (candidateOf db file.emailHash) = false →
    result = .ok (storedResume db file) ∧ lastCommitted db commits = withStored db file)

theorem createVersion_creates {db' : ResumeDb} {commits : List (ResumeCommit × ResumeDb)}
    (file : BulkResume) (candidate : CandidateRow)
    (hcandidate : candidateOf db file.emailHash = candidate)
    (hdb : withCandidate db file.emailHash = db')
    (hfree : erasureBlocked candidate = false) :
    Ends (fun result _ commits => Creates db file result commits) (fun _ => True) (do
        let resume ← createVersion
          { candidateId := candidate.id, filePath := file.storagePath,
            fileFormat := file.fileFormat, fileHash := file.fileHash,
            uploadedBy := file.uploadedBy, bulkUploadJobId := some file.jobId,
            taskId := some file.taskId }
        commitAs .resume
        pure resume) db' commits := by
  rw [ends_bind]
  apply ends_createVersion _ trivial
  refine ⟨trivial, fun hblocked => ?_, fun _ => ?_⟩
  · rw [hcandidate, hfree] at hblocked
    exact nomatch hblocked
  · rw [lastCommitted_snoc, storedResume, withStored, newResume, hcandidate, hdb]
    exact ⟨rfl, rfl⟩

theorem createBulkResume_ends (file : BulkResume) :
    Ends (fun result _ commits => Creates db file result commits) (fun _ => True)
      (createBulkResume file) db [] := by
  rw [createBulkResume, ends_bind, CandidateService.getOrCreate, ends_query_bind]
  refine ⟨trivial, ?_⟩
  cases hexisting : getByEmailHash db file.emailHash with
  | none =>
    refine ⟨trivial, trivial, ?_⟩
    apply createVersion_creates db file
    · rw [candidateOf, hexisting, Option.getD_none]
    · rw [withCandidate, hexisting]
    · simp [erasureBlocked, newCandidate]
  | some existing =>
    have hcandidate : candidateOf db file.emailHash = existing := by
      rw [candidateOf, hexisting, Option.getD_some]
    dsimp only
    by_cases hblocked : erasureBlocked existing = true
    · rw [if_pos hblocked]
      refine ⟨fun _ => ⟨⟨_, rfl⟩, rfl⟩, fun hfree => ?_⟩
      rw [hcandidate, hblocked] at hfree
      simp at hfree
    · rw [if_neg hblocked]
      apply createVersion_creates db file existing hcandidate
      · rw [withCandidate, hexisting]
      · exact eq_false_of_ne_true hblocked

theorem createBulkResume_blocked (file : BulkResume)
    (h : erasureBlocked (candidateOf db file.emailHash) = true) :
    (∃ raised, ((createBulkResume file).normal db).result = .error raised) ∧
      ((createBulkResume file).normal db).committed db = db := by
  rcases (createBulkResume_ends db file).normal with ⟨a, hresult, hends⟩ | ⟨e, hresult, hends⟩
  · obtain ⟨⟨e, herror⟩, -⟩ := hends.1 h
    exact nomatch herror
  · exact ⟨⟨_, hresult⟩, (hends.1 h).2⟩

theorem createBulkResume_free (file : BulkResume)
    (h : erasureBlocked (candidateOf db file.emailHash) = false) :
    ((createBulkResume file).normal db).result = .ok (storedResume db file) ∧
      ((createBulkResume file).normal db).committed db = withStored db file := by
  rcases (createBulkResume_ends db file).normal with ⟨a, hresult, hends⟩ | ⟨e, hresult, hends⟩
  · obtain ⟨hok, hcommitted⟩ := hends.2 h
    cases hok
    exact ⟨hresult, hcommitted⟩
  · exact nomatch (hends.2 h).1

end Resolved

-- The file waits for an attempt of its task, and the job is as it was.
structure Live (s : BulkSubmission) (start : BulkDb) (taskId : String) (bulk : BulkDb) : Prop where
  job : bulk.job = start.job
  campaign : bulk.campaignStatus = start.campaignStatus
  file : ∃ file, getById bulk s.fileId = some file ∧
    (file.status = .queued ∨ file.status = .running) ∧ file.taskId = some taskId

def claim (s : BulkSubmission) (bulk : BulkDb) : BulkDb := (tryStartProcessing bulk s.fileId).1

section Live

variable {s : BulkSubmission} {start bulk : BulkDb} {taskId : String} {db : BulkFileDb}

theorem any_of_getById {selected : BulkUploadJobFile → Bool} {id : Uuid}
    {file : BulkUploadJobFile} (h : getById bulk id = some file) (hselected : selected file = true) :
    bulk.files.rows.any selected = true :=
  List.any_eq_true.mpr ⟨file, ((bulk.files.find?_eq_some _ _).mp h).1, hselected⟩

theorem Live.claim (h : Live s start taskId bulk) :
    tryStartProcessing bulk s.fileId = (s.claim bulk, true) ∧
      Live s start taskId (s.claim bulk) := by
  obtain ⟨file, hfile, hstatus, htask⟩ := h.file
  obtain ⟨-, hid⟩ := (bulk.files.find?_eq_some _ _).mp hfile
  have hcan : canStart s.fileId file = true := decide_eq_true ⟨hid, hstatus⟩
  refine ⟨Prod.ext rfl (any_of_getById hfile hcan), h.job, h.campaign, ?_⟩
  refine ⟨{ file with status := .running }, ?_, .inr rfl, htask⟩
  refine getById_update.trans ?_
  rw [hfile, Option.map_some, setValues, if_pos hcan]
  rfl

-- What `handle_failure` leaves when it gives up.
theorem Live.deadLetter (h : Live s start taskId db.bulk) (hprocessing : start.job.status = .processing)
    (resume : Option ResumeRow) :
    ∃ status, status ∉ BulkUploadService.nonReplayableJobStatuses ∧
      (s.deadLetter taskId resume db).bulk.job =
        { start.job with status := status, failedCount := start.job.failedCount + 1 } ∧
      (s.deadLetter taskId resume db).bulk.campaignStatus = start.campaignStatus ∧
      taskId ∈ (s.deadLetter taskId resume db).bulk.deadLetters ∧
      ∃ file, getById (s.deadLetter taskId resume db).bulk s.fileId = some file ∧
        file.status = .failed ∧ file.taskId = some taskId := by
  obtain ⟨file, hfile, -, htask⟩ := h.file
  have hrow := @getById_record s { db with
    bulk := { db.bulk with deadLetters := db.bulk.deadLetters ++ [taskId] } } file .failed .failed
    hfile
  obtain ⟨status, heq, hstatus⟩ := finalize_eq (enter (BulkUploadJobFileRepository.updateStatus
      { db.bulk with deadLetters := db.bulk.deadLetters ++ [taskId] } s.fileId .failed)
    s.fileId .failed 1)
  have hbulk : (s.deadLetter taskId resume db).bulk = BulkUploadJobRepository.updateStatus (enter
    (BulkUploadJobFileRepository.updateStatus
      { db.bulk with deadLetters := db.bulk.deadLetters ++ [taskId] } s.fileId .failed)
    s.fileId .failed 1) status := heq
  have hjob : db.bulk.job.status = .processing := by rw [h.job, hprocessing]
  refine ⟨status, hstatus hjob, ?_, ?_, ?_, _, hrow, rfl, htask⟩
  · rw [hbulk, ← h.job]
    rfl
  · rw [hbulk, ← h.campaign]
    rfl
  · rw [hbulk]
    exact List.mem_append_right _ (List.mem_singleton.mpr rfl)

theorem Live.replay (h : Live s start taskId db.bulk) (hprocessing : start.job.status = .processing)
    (hactive : start.campaignStatus = .active) (resume : Option ResumeRow) (newTaskId : String) :
    ∃ bulk, s.replay newTaskId (s.deadLetter taskId resume db) =
        some { s.deadLetter taskId resume db with bulk := bulk } ∧
      Live s start newTaskId bulk := by
  obtain ⟨status, hstatus, hjob, hcampaign, hdead, file, hfile, hfailed, htask⟩ :=
    h.deadLetter hprocessing resume
  obtain ⟨dead, hdb⟩ : ∃ dead, s.deadLetter taskId resume db = dead := ⟨_, rfl⟩
  rw [hdb] at hjob hcampaign hdead hfile ⊢
  obtain ⟨-, hid⟩ := (dead.bulk.files.find?_eq_some _ _).mp hfile
  have hreplayable : BulkUploadService.replayable dead.bulk s.fileId = true := by
    rw [BulkUploadService.replayable, hfile]
    simp [hfailed, hcampaign, hactive, htask, hdead]
  have hcan : canRequeue s.fileId file = true := decide_eq_true ⟨hid, hfailed⟩
  obtain ⟨bulk, hbulk⟩ : ∃ bulk, BulkUploadService.replayFailedFile dead.bulk s.fileId newTaskId
      dead.bulk.job.status = some bulk := by
    rw [BulkUploadService.replayFailedFile, requeueForReplay, any_of_getById hfile hcan]
    exact ⟨_, rfl⟩
  refine ⟨bulk, ?_, ?_⟩
  · have hjobStatus : dead.bulk.job.status = status := by rw [hjob]
    rw [BulkSubmission.replay, if_neg (hjobStatus ▸ hstatus), hreplayable, hbulk]
    rfl
  · obtain ⟨-, status', rfl, hnot, hsame⟩ := replayFailedFile_eq_some hbulk
    have hprocessing' : status' = .processing := by
      by_cases hp : dead.bulk.job.status = .processing
      · rw [hsame hp]
        exact hp
      · exact hnot hp
    refine ⟨?_, hcampaign, { file with status := .queued, taskId := some newTaskId }, ?_,
      .inl rfl, rfl⟩
    · change { dead.bulk.job with
        status := status', failedCount := dead.bulk.job.failedCount + -1 } = start.job
      rw [hjob, hprocessing', ← hprocessing]
      simp
    · refine getById_update.trans ?_
      rw [hfile, Option.map_some, setValues, if_pos hcan]
      rfl

theorem Live.replay_refused (h : Live s start taskId db.bulk)
    (hprocessing : start.job.status = .processing) (hinactive : start.campaignStatus ≠ .active)
    (resume : Option ResumeRow) (newTaskId : String) :
    s.replay newTaskId (s.deadLetter taskId resume db) = none ∧
      ∃ file, getById (s.deadLetter taskId resume db).bulk s.fileId = some file ∧
        file.status = .failed := by
  obtain ⟨status, hstatus, hjob, hcampaign, -, file, hfile, hfailed, -⟩ :=
    h.deadLetter hprocessing resume
  refine ⟨?_, file, hfile, hfailed⟩
  have hreplayable :
      BulkUploadService.replayable (s.deadLetter taskId resume db).bulk s.fileId = false := by
    rw [BulkUploadService.replayable, hfile]
    simp [hcampaign, hinactive]
  rw [BulkSubmission.replay, hjob, if_neg hstatus, hreplayable]
  rfl

end Live

section Known

variable {s : BulkSubmission} {start : BulkDb} {taskId : String} {db db' : BulkFileDb}

theorem createCampaignCandidate_bulk {candidateId resumeId : Uuid}
    (h : s.createCampaignCandidate db candidateId resumeId = .ok db') : db'.bulk = db.bulk := by
  unfold createCampaignCandidate at h
  split at h
  · rw [← Except.ok.inj h]
  · exact nomatch h

-- A file that is known is never counted as processed.
theorem count_linkMatched (matched : ResumeRow) :
    (s.linkMatched db matched).bulk.job.count .processed = db.bulk.job.count .processed := by
  have hrecord (db : BulkFileDb) (status : BulkUploadFileStatus) (column : CountColumn)
      (hcolumn : column ≠ .processed) :
      (s.record db status column).bulk.job.count .processed = db.bulk.job.count .processed := by
    rw [count_record, if_neg (Ne.symm hcolumn), add_zero]
  unfold linkMatched
  split
  · exact hrecord db _ _ (by decide)
  · split
    · next linked hlinked =>
      rw [hrecord linked _ _ (by decide), createCampaignCandidate_bulk hlinked]
    · apply hrecord
      split_ifs <;> decide

theorem known_run (h : Live s start taskId db.bulk)
    (hknown : getByFileHashGlobal db.resume s.fileHash ≠ none) (attemptNumber : ℕ)
    (failures : List StageFailure) :
    (s.run db attemptNumber taskId failures).bulk.job.count .processed =
      start.job.count .processed := by
  obtain ⟨hclaim, hlive⟩ := h.claim
  obtain ⟨matched, hmatched⟩ := Option.ne_none_iff_exists'.mp hknown
  have hattempt (failure : Option StageFailure) : s.attempt taskId failure db =
      .resolved (s.linkMatched { db with bulk := s.claim db.bulk } matched) := by
    simp only [attempt, hclaim, hmatched]
  have hrun : s.run db attemptNumber taskId failures =
      s.linkMatched { db with bulk := s.claim db.bulk } matched := by
    cases failures with
    | nil => rw [run, hattempt]; rfl
    | cons failure rest => simp only [run, hattempt]
  rw [hrun, count_linkMatched, ← hlive.job]

end Known

-- A queued file of a job that is being processed, with a hash that no resume
-- has; the keys of the rows refer to rows that exist.
structure Waiting (s : BulkSubmission) (taskId : String) (start : BulkFileDb) : Prop where
  file : ∃ file, getById start.bulk s.fileId = some file ∧ file.status = .queued ∧
    file.taskId = some taskId
  job : start.bulk.job.status = .processing
  unknown : getByFileHashGlobal start.resume s.fileHash = none
  campaign : ∃ campaign, CampaignRepository.getById start.resume.toDb s.campaignId =
    some campaign ∧ campaign.status = start.bulk.campaignStatus
  links : ∀ cc ∈ start.resume.campaignCandidates.rows,
    ∃ c ∈ start.resume.candidates.rows, c.id = cc.candidateId
  skills : ∀ c ∈ start.skills.candidateSkills.rows,
    ∃ resume ∈ start.resume.resumes.rows, resume.id = c.resumeId

-- The file names a candidate, whom the campaign can take.
def Admissible (s : BulkSubmission) (start : BulkFileDb) : Prop :=
  start.bulk.campaignStatus = .active ∧ ∃ emailHash, s.identity = some emailHash ∧
    ∀ candidate, getByEmailHash start.resume emailHash = some candidate →
      erasureBlocked candidate = false ∧
      CampaignCandidateRepository.getByCampaignAndCandidate start.resume s.campaignId
        candidate.id = none

-- The file has its resume, with its skills and a place in the campaign, and is
-- counted once.
structure Parsed (s : BulkSubmission) (start final : BulkFileDb) : Prop where
  file : ∃ file, getById final.bulk s.fileId = some file ∧ file.status = .processed
  counts : ∀ column, final.bulk.job.count column =
    start.bulk.job.count column + if column = .processed then 1 else 0
  resume : ∃ resume ∈ final.resume.resumes.rows, resume.fileHash = s.fileHash ∧
    resume.parseStatus = .parsed ∧
    final.skills.skillsOf resume.id = extractedSkills s.skillMatches ∧
    ∃ cc ∈ final.resume.campaignCandidates.rows, cc.campaignId = s.campaignId ∧
      cc.candidateId = resume.candidateId ∧ cc.resumeId = resume.id

-- Two final states that differ in task ids and dead letters only.
structure SameOutcome (s : BulkSubmission) (final other : BulkFileDb) : Prop where
  job : final.bulk.job = other.bulk.job
  file : (getById final.bulk s.fileId).map (·.status) = (getById other.bulk s.fileId).map (·.status)
  db : final.resume.toDb = other.resume.toDb
  candidates : final.resume.candidates = other.resume.candidates
  resumes : final.resume.resumes.rows.map (fun r => { r with taskId := none }) =
    other.resume.resumes.rows.map (fun r => { r with taskId := none })
  taskLogs : final.resume.taskLogs = other.resume.taskLogs
  skills : final.skills = other.skills

-- Between the attempts, as long as no attempt has got to the resume.
structure Ready (s : BulkSubmission) (start : BulkFileDb) (taskId : String) (db : BulkFileDb) :
    Prop where
  live : Live s start.bulk taskId db.bulk
  resume : db.resume = start.resume
  skills : db.skills = start.skills

section Attempt

variable {s : BulkSubmission} {start db : BulkFileDb} {taskId emailHash : String}
  {failure : Option StageFailure}

theorem Waiting.ready (h : Waiting s taskId start) : Ready s start taskId start := by
  obtain ⟨file, hfile, hstatus, htask⟩ := h.file
  exact ⟨⟨rfl, rfl, file, hfile, .inl hstatus, htask⟩, rfl, rfl⟩

theorem Ready.attempt_early (h : Ready s start taskId db)
    (hunknown : getByFileHashGlobal start.resume s.fileHash = none)
    (hfailure : (failure.any fun f => decide (f.stage ∈ identityStages)) = true) :
    s.attempt taskId failure db = .stageFailed none { db with bulk := s.claim db.bulk } ∧
      Ready s start taskId { db with bulk := s.claim db.bulk } := by
  obtain ⟨hclaim, hlive⟩ := h.live.claim
  rw [← h.resume] at hunknown
  refine ⟨?_, hlive, h.resume, h.skills⟩
  simp only [attempt, hclaim, hunknown]
  exact if_pos hfailure

-- The claimed file with the tables of the resume as given.
def claimed (s : BulkSubmission) (db : BulkFileDb) (resume : ResumeDb) : BulkFileDb :=
  { db with bulk := s.claim db.bulk, resume := resume }

theorem Ready.attempt_identified (h : Ready s start taskId db)
    (hunknown : getByFileHashGlobal start.resume s.fileHash = none)
    (hfailure : (failure.any fun f => decide (f.stage ∈ identityStages)) = false) :
    (s.identity = none → s.attempt taskId failure db =
      .resolved (s.record (s.claimed db start.resume) .failed .failed)) ∧
    ∀ emailHash, s.identity = some emailHash →
      (erasureBlocked (candidateOf start.resume emailHash) = true → s.attempt taskId failure db =
          .resolved (s.record (s.claimed db start.resume) .failed .failed)) ∧
      (erasureBlocked (candidateOf start.resume emailHash) = false →
        s.attempt taskId failure db = s.parseResume failure
            (s.claimed db (withStored start.resume (s.toBulkResume taskId emailHash)))
            (storedResume start.resume (s.toBulkResume taskId emailHash))) := by
  obtain ⟨hclaim, hlive⟩ := h.live.claim
  have hresume := h.resume
  rw [← hresume] at hunknown
  have hskip : ¬((failure.any fun f => decide (f.stage ∈ identityStages)) = true) := by
    rw [hfailure]
    exact Bool.false_ne_true
  refine ⟨fun hnone => ?_, fun emailHash hsome => ⟨fun hblocked => ?_, fun hfree => ?_⟩⟩
  · simp only [attempt, hclaim, hunknown, hnone]
    rw [if_neg hskip, ← hresume]
    rfl
  · obtain ⟨⟨raised, hraised⟩, hcommitted⟩ :=
      createBulkResume_blocked start.resume (s.toBulkResume taskId emailHash) hblocked
    rw [← hresume] at hraised hcommitted ⊢
    simp only [attempt, hclaim, hunknown, hsome]
    rw [if_neg hskip]
    rw [hraised, hcommitted]
    rfl
  · obtain ⟨hok, hcommitted⟩ :=
      createBulkResume_free start.resume (s.toBulkResume taskId emailHash) hfree
    rw [← hresume] at hok hcommitted ⊢
    simp only [attempt, hclaim, hunknown, hsome]
    rw [if_neg hskip]
    rw [hok, hcommitted]
    rfl

end Attempt

section Parse

variable {s : BulkSubmission} {start db : BulkFileDb} {taskId emailHash : String}

theorem candidates_withCandidate_resumes (resume : ResumeDb) :
    (withCandidate resume emailHash).resumes = resume.resumes := by
  unfold withCandidate
  cases getByEmailHash resume emailHash <;> rfl

theorem rows_withStored (resume : ResumeDb) (file : BulkResume) :
    storedResume resume file ∈ (withStored resume file).resumes.rows := by
  have hnext : (beforeInsert (withCandidate resume file.emailHash)
      (newResume resume file).candidateId).resumes.next =
        (withCandidate resume file.emailHash).resumes.next := by
    unfold beforeInsert
    cases getActiveByCandidate (withCandidate resume file.emailHash)
      (newResume resume file).candidateId <;> rfl
  refine List.mem_append_right _ (List.mem_singleton.mpr ?_)
  rw [hnext]
  rfl

theorem storedResume_id (resume : ResumeDb) (file : BulkResume) :
    (storedResume resume file).id = resume.resumes.next :=
  congrArg Table.next (candidates_withCandidate_resumes resume)

theorem parseResume_late {failure : StageFailure} (hlate : failure.stage ∈ resumeStages)
    (resume : ResumeRow) :
    ∃ db', s.parseResume (some failure) db resume = .stageFailed (some resume) db' ∧
      db'.bulk = db.bulk ∧
      db'.resume.resumes.rows.map (·.fileHash) = db.resume.resumes.rows.map (·.fileHash) := by
  have hparsed : (updateParsedResult db.resume resume.id).resumes.rows.map
      (·.fileHash) = db.resume.resumes.rows.map (·.fileHash) := by
    change (db.resume.resumes.rows.map _).map _ = _
    rw [List.map_map]
    apply List.map_congr_left
    intro r _
    rw [Function.comp_apply]
    split_ifs <;> rfl
  unfold parseResume
  split_ifs with hfirst hlast
  · exact ⟨db, rfl, rfl, rfl⟩
  · cases persistProcessedResume (s.toResumeRequest resume) db.skills with
    | error e => exact ⟨db, rfl, rfl, rfl⟩
    | ok skills => exact ⟨_, rfl, rfl, hparsed⟩
  · -- one of the two stages it is
    exfalso
    simp only [resumeStages, List.mem_cons, List.not_mem_nil, or_false] at hlate
    rcases hlate with hskill | hpersist
    · exact hfirst (by simp [hskill])
    · exact hlast (by simp [hpersist])

theorem getByFileHashGlobal_ne_none {resume : ResumeDb} {row : ResumeRow}
    (hrow : row.fileHash ∈ resume.resumes.rows.map (·.fileHash)) :
    getByFileHashGlobal resume row.fileHash ≠ none := by
  obtain ⟨r, hr, hhash⟩ := List.mem_map.mp hrow
  intro hnone
  exact List.find?_eq_none.mp hnone r hr (decide_eq_true hhash)

theorem recordError_failed {e : ServiceError} {file : BulkUploadJobFile}
    (h : getById db.bulk s.fileId = some file) :
    getById (s.recordError db e).bulk s.fileId = some { file with status := .failed } :=
  getById_record h

-- No row refers to the resume yet, so nothing stands in the way of its skills.
theorem Waiting.persist (h : Waiting s taskId start) (resume : ResumeRow)
    (hid : resume.id = start.resume.resumes.next) :
    ∃ skills, persistProcessedResume (s.toResumeRequest resume) start.skills = .ok skills ∧
      skills.skillsOf resume.id = extractedSkills s.skillMatches := by
  have hnone : start.skills.skillsOf resume.id = [] := by
    rw [SkillStore.skillsOf, List.map_eq_nil_iff, List.filter_eq_nil_iff]
    intro c hc hresume
    obtain ⟨row, hrow, hrowId⟩ := h.skills c hc
    have hbelow := start.resume.resumes.below row hrow
    rw [hrowId, of_decide_eq_true hresume, hid] at hbelow
    exact absurd hbelow (lt_irrefl _)
  obtain ⟨skills, hskills⟩ := (ResumeService.persist_ok_iff (s.toResumeRequest resume)).mpr
    (fun k _ htaken => by
      have hempty : start.skills.skillsOf (s.toResumeRequest resume).resumeId = [] := hnone
      rw [hempty] at htaken
      exact absurd htaken List.not_mem_nil)
  refine ⟨skills, hskills, ?_⟩
  have hrows := ResumeService.skillsOf_persist (s.toResumeRequest resume) resume.id hskills
  rw [hrows, hnone, List.nil_append]
  exact if_pos rfl

theorem Admissible.unlinked (hstart : Waiting s taskId start)
    (h : ∀ candidate, getByEmailHash start.resume emailHash = some candidate →
      erasureBlocked candidate = false ∧
      CampaignCandidateRepository.getByCampaignAndCandidate start.resume s.campaignId
        candidate.id = none) :
    erasureBlocked (candidateOf start.resume emailHash) = false ∧
      CampaignCandidateRepository.getByCampaignAndCandidate start.resume s.campaignId
        (candidateOf start.resume emailHash).id = none := by
  unfold candidateOf
  cases hexisting : getByEmailHash start.resume emailHash with
  | some candidate => exact h candidate hexisting
  | none =>
    refine ⟨by simp [erasureBlocked, newCandidate], ?_⟩
    apply List.find?_eq_none.mpr
    intro cc hcc htaken
    obtain ⟨-, hcandidate⟩ := of_decide_eq_true htaken
    obtain ⟨c, hc, hid⟩ := hstart.links cc hcc
    have hbelow := start.resume.candidates.below c hc
    rw [hid, hcandidate] at hbelow
    exact absurd hbelow (lt_irrefl _)

end Parse

section Clean

variable {s : BulkSubmission} {start db other : BulkFileDb} {taskId emailHash : String}

-- What an attempt without a failure commits, but for the bulk job.
def cleanResume (s : BulkSubmission) (start : ResumeDb) (taskId emailHash : String) (linked : Db) :
    ResumeDb :=
  { updateParsedResult (withStored start (s.toBulkResume taskId emailHash))
      start.resumes.next with toDb := linked }

def clean (s : BulkSubmission) (start db : BulkFileDb) (taskId emailHash : String) (linked : Db)
    (skills : JdDatabase) : BulkFileDb :=
  s.record { bulk := s.claim db.bulk, resume := cleanResume s start.resume taskId emailHash linked,
             skills := skills } .processed .processed

theorem Waiting.clean (hstart : Waiting s taskId start) (h : Admissible s start) :
    ∃ emailHash linked skills,
      skills.skillsOf start.resume.resumes.next = extractedSkills s.skillMatches ∧
      (∃ cc ∈ linked.campaignCandidates.rows, cc.campaignId = s.campaignId ∧
        cc.candidateId = (candidateOf start.resume emailHash).id ∧
        cc.resumeId = start.resume.resumes.next) ∧
      ∀ taskId db, Ready s start taskId db → (s.attempt taskId none db).db =
        BulkSubmission.clean s start db taskId emailHash linked skills := by
  obtain ⟨hactive, emailHash, hidentity, hcandidate⟩ := h
  obtain ⟨hfree, hunlinked⟩ := Admissible.unlinked hstart hcandidate
  obtain ⟨campaign, hcampaign, hstatus⟩ := hstart.campaign
  obtain ⟨linked, id, hadded⟩ : ∃ linked id, CampaignCandidateService.addCandidate
      start.resume.toDb s.campaignId (candidateOf start.resume emailHash).id
      start.resume.resumes.next s.uploadedBy none = (linked, id) := ⟨_, _, rfl⟩
  have hcreate := createCampaignCandidate_eq_ok.mpr
    ⟨⟨campaign, hcampaign, hstatus.trans hactive⟩, hunlinked, hadded⟩
  -- the skills do not depend on the task id
  obtain ⟨skills, hskills, hextracted⟩ := hstart.persist
    (storedResume start.resume (s.toBulkResume taskId emailHash)) (storedResume_id _ _)
  rw [storedResume_id] at hextracted
  obtain ⟨hrow, -, -⟩ := addCandidate_rows hadded
  obtain ⟨hmem, -⟩ := (linked.campaignCandidates.find?_eq_some _ _).mp hrow
  refine ⟨emailHash, linked, skills, hextracted, ⟨_, hmem, rfl, rfl, rfl⟩, ?_⟩
  intro taskId' db hready
  obtain ⟨-, hattempt⟩ := @Ready.attempt_identified s start db taskId' none hready hstart.unknown
    rfl
  have hid := storedResume_id start.resume (s.toBulkResume taskId' emailHash)
  have hpersist : persistProcessedResume (s.toResumeRequest
      (storedResume start.resume (s.toBulkResume taskId' emailHash))) start.skills = .ok skills :=
    hskills
  have hcreated (db : BulkFileDb) (hdb : db.resume.toDb = start.resume.toDb) :
      s.createCampaignCandidate db (candidateOf start.resume emailHash).id
        start.resume.resumes.next =
        .ok { db with resume := { db.resume with toDb := linked } } := by
    rw [createCampaignCandidate, hdb, hcreate]
  rw [(hattempt emailHash hidentity).2 hfree]
  have hparse : s.parseResume none
      (s.claimed db (withStored start.resume (s.toBulkResume taskId' emailHash)))
      (storedResume start.resume (s.toBulkResume taskId' emailHash)) =
      .resolved (BulkSubmission.clean s start db taskId' emailHash linked skills) := by
    have hkept : (s.claimed db
        (withStored start.resume (s.toBulkResume taskId' emailHash))).skills = start.skills :=
      hready.skills
    simp only [parseResume, Option.any_none, Bool.false_eq_true, if_false, hkept, hpersist]
    rw [hid]
    have hcandidateId : (storedResume start.resume (s.toBulkResume taskId' emailHash)).candidateId =
          (candidateOf start.resume emailHash).id := rfl
    rw [hcandidateId]
    have hdb : (withStored start.resume (s.toBulkResume taskId' emailHash)).toDb =
        start.resume.toDb := toDb_withStored _ _
    rw [hcreated _ hdb]
    rfl
  rw [hparse]
  rfl

theorem Ready.getById_clean (h : Ready s start taskId db) (linked : Db) (skills : JdDatabase) :
    ∃ file, getById (s.clean start db taskId emailHash linked skills).bulk s.fileId = some file ∧
      file.status = .processed := by
  obtain ⟨-, hlive⟩ := h.live.claim
  obtain ⟨file, hfile, -, -⟩ := hlive.file
  exact ⟨_, getById_record hfile, rfl⟩

theorem Ready.parsed (h : Ready s start taskId db) {linked : Db} {skills : JdDatabase}
    (hskills : skills.skillsOf start.resume.resumes.next = extractedSkills s.skillMatches)
    (hlinked : ∃ cc ∈ linked.campaignCandidates.rows, cc.campaignId = s.campaignId ∧
      cc.candidateId = (candidateOf start.resume emailHash).id ∧
      cc.resumeId = start.resume.resumes.next) :
    Parsed s start (s.clean start db taskId emailHash linked skills) := by
  obtain ⟨-, hlive⟩ := h.live.claim
  have hid := storedResume_id start.resume (s.toBulkResume taskId emailHash)
  refine ⟨h.getById_clean linked skills, fun column => ?_, ?_⟩
  · rw [BulkSubmission.clean, count_record, ← hlive.job]
  · refine ⟨{ storedResume start.resume (s.toBulkResume taskId emailHash) with
      parseStatus := .parsed, parserVersion := some ResumeService.parserVersion }, ?_, rfl, rfl,
      ?_, ?_⟩
    · exact List.mem_map.mpr ⟨_, rows_withStored _ _, if_pos hid⟩
    · change skills.skillsOf (storedResume _ _).id = _
      rw [hid, hskills]
    · obtain ⟨cc, hcc, hcampaign, hcandidate, hresume⟩ := hlinked
      exact ⟨cc, hcc, hcampaign, hcandidate, hresume.trans hid.symm⟩

theorem Ready.sameOutcome {taskId' : String} (h : Ready s start taskId db)
    (hother : Ready s start taskId' other) (linked : Db) (skills : JdDatabase) :
    SameOutcome s (s.clean start db taskId emailHash linked skills)
      (s.clean start other taskId' emailHash linked skills) := by
  obtain ⟨-, hlive⟩ := h.live.claim
  obtain ⟨-, hlive'⟩ := hother.live.claim
  obtain ⟨file, hfile, hprocessed⟩ := @Ready.getById_clean s start db taskId emailHash h linked
    skills
  obtain ⟨file', hfile', hprocessed'⟩ := @Ready.getById_clean s start other taskId' emailHash
    hother linked skills
  constructor
  · exact job_record (hlive.job.trans hlive'.job.symm)
  · rw [hfile, hfile', Option.map_some, Option.map_some, hprocessed, hprocessed']
  · rfl
  · rfl
  · have hparsed (resume : ResumeDb) : (updateParsedResult resume
        start.resume.resumes.next).resumes.rows.map (fun r => { r with taskId := none }) =
      (resume.resumes.rows.map (fun r => { r with taskId := none })).map fun r =>
        if r.id = start.resume.resumes.next then
          { r with parseStatus := .parsed, parserVersion := some ResumeService.parserVersion }
        else r := by
      change (resume.resumes.rows.map _).map _ = _
      rw [List.map_map, List.map_map]
      apply List.map_congr_left
      intro r _
      rw [Function.comp_apply, Function.comp_apply]
      split_ifs <;> rfl
    have hstored : (withStored start.resume (s.toBulkResume taskId emailHash)).resumes.rows.map
          (fun r => { r with taskId := none }) =
        (withStored start.resume (s.toBulkResume taskId' emailHash)).resumes.rows.map
          (fun r => { r with taskId := none }) := by
      change (_ ++ [_]).map _ = (_ ++ [_]).map _
      rw [List.map_append, List.map_append]
      rfl
    change (updateParsedResult _ _).resumes.rows.map _ = (updateParsedResult _ _).resumes.rows.map _
    rw [hparsed, hparsed, hstored]
  · rfl
  · rfl

theorem Ready.not_parsed (hstart : Waiting s taskId start) {taskId' : String}
    (h : Ready s start taskId' db) (hnot : ¬Admissible s start) :
    ¬Parsed s start (s.attempt taskId' none db).db := by
  obtain ⟨-, hlive⟩ := h.live.claim
  obtain ⟨file, hfile, -, -⟩ := hlive.file
  have hfailed {final : BulkFileDb} (hfinal : getById final.bulk s.fileId =
      some { file with status := .failed }) : ¬Parsed s start final := by
    intro hparsed
    obtain ⟨row, hrow, hprocessed⟩ := hparsed.file
    rw [hfinal] at hrow
    rw [← Option.some.inj hrow] at hprocessed
    exact nomatch hprocessed
  obtain ⟨hunidentified, hattempt⟩ := @Ready.attempt_identified s start db taskId' none h
    hstart.unknown rfl
  cases hidentity : s.identity with
  | none =>
    rw [hunidentified hidentity]
    exact hfailed (getById_record hfile)
  | some emailHash =>
    obtain ⟨hblocked, hfree⟩ := hattempt emailHash hidentity
    by_cases herased : erasureBlocked (candidateOf start.resume emailHash) = true
    · rw [hblocked herased]
      exact hfailed (getById_record hfile)
    · rw [hfree (eq_false_of_ne_true herased)]
      obtain ⟨skills, hskills, -⟩ := hstart.persist
        (storedResume start.resume (s.toBulkResume taskId' emailHash)) (storedResume_id _ _)
      have hkept : (s.claimed db
          (withStored start.resume (s.toBulkResume taskId' emailHash))).skills = start.skills :=
        h.skills
      simp only [parseResume, Option.any_none, Bool.false_eq_true, if_false, hkept, hskills]
      unfold createCampaignCandidate
      have hdb : (withStored start.resume (s.toBulkResume taskId' emailHash)).toDb =
          start.resume.toDb := toDb_withStored _ _
      split
      · next hcreated =>
        split at hcreated
        · next linked id hlinked =>
          change CampaignCandidateService.createCampaignCandidate (withStored start.resume
            (s.toBulkResume taskId' emailHash)).toDb _ _ _ _ _ = _ at hlinked
          rw [hdb] at hlinked
          obtain ⟨⟨campaign, hcampaign, hactive⟩, hunlinked, -⟩ :=
            createCampaignCandidate_eq_ok.mp hlinked
          exfalso
          apply hnot
          obtain ⟨row, hrow, hstatus⟩ := hstart.campaign
          have heq := Option.some.inj (hrow.symm.trans hcampaign)
          refine ⟨by rw [← hstatus, heq, hactive], emailHash, hidentity, fun candidate hc => ?_⟩
          have hcandidate : candidateOf start.resume emailHash = candidate := by
            rw [candidateOf, hc, Option.getD_some]
          refine ⟨?_, ?_⟩
          · rw [← hcandidate]
            exact eq_false_of_ne_true herased
          · rw [← hcandidate]
            exact hunlinked
        · exact nomatch hcreated
      · exact hfailed (recordError_failed hfile)

theorem not_parsed_of_failed {final : BulkFileDb}
    (h : ∃ file, getById final.bulk s.fileId = some file ∧ file.status = .failed) :
    ¬Parsed s start final := by
  intro hparsed
  obtain ⟨file, hfile, hfailed⟩ := h
  obtain ⟨row, hrow, hprocessed⟩ := hparsed.file
  rw [hfile] at hrow
  rw [← Option.some.inj hrow, hfailed] at hprocessed
  exact nomatch hprocessed

theorem not_parsed_of_count {final : BulkFileDb}
    (h : final.bulk.job.count .processed = start.bulk.job.count .processed) :
    ¬Parsed s start final := by
  intro hparsed
  have hcount := hparsed.counts .processed
  rw [if_pos rfl] at hcount
  omega

theorem Ready.run_early (hstart : Waiting s taskId start) {failure : StageFailure}
    (hearly : failure.stage ∈ identityStages) {attemptNumber : ℕ} {taskId' : String}
    (h : Ready s start taskId' db) (rest : List StageFailure) :
    (∃ nextNumber nextId next, Ready s start nextId next ∧
      s.run db attemptNumber taskId' (failure :: rest) = s.run next nextNumber nextId rest) ∨
    (start.bulk.campaignStatus ≠ .active ∧
      ¬Parsed s start (s.run db attemptNumber taskId' (failure :: rest))) := by
  obtain ⟨hattempt, hready⟩ := @Ready.attempt_early s start db taskId' (some failure) h
    hstart.unknown (by simpa using hearly)
  obtain ⟨failed, hfailed⟩ : ∃ failed, { db with bulk := s.claim db.bulk } = failed := ⟨_, rfl⟩
  rw [hfailed] at hattempt hready
  by_cases hgivesUp : RetryDriver.givesUp failure.stage failure.classification attemptNumber = true
  · by_cases hactive : start.bulk.campaignStatus = .active
    · left
      obtain ⟨bulk, hreplay, hlive⟩ := hready.live.replay hstart.job hactive none failure.newTaskId
      refine ⟨1, failure.newTaskId, { s.deadLetter taskId' none failed with bulk := bulk },
        ⟨hlive, hready.resume, hready.skills⟩, ?_⟩
      simp only [run, hattempt, hgivesUp, if_true, hreplay]
    · right
      obtain ⟨hreplay, hdead⟩ := hready.live.replay_refused hstart.job hactive none
        failure.newTaskId
      refine ⟨hactive, ?_⟩
      have hrun : s.run db attemptNumber taskId' (failure :: rest) =
          s.deadLetter taskId' none failed := by
        simp only [run, hattempt, hgivesUp, if_true, hreplay]
      rw [hrun]
      exact not_parsed_of_failed hdead
  · left
    refine ⟨attemptNumber + 1, taskId', failed, hready, ?_⟩
    simp only [run, hattempt]
    rw [if_neg hgivesUp]

theorem fileHash_deadLetter (resume : ResumeRow) (db : BulkFileDb) :
    (s.deadLetter taskId (some resume) db).resume.resumes.rows.map (·.fileHash) =
      db.resume.resumes.rows.map (·.fileHash) := by
  change (db.resume.resumes.rows.map _).map _ = _
  rw [List.map_map]
  apply List.map_congr_left
  intro r _
  rw [Function.comp_apply]
  split_ifs <;> rfl

theorem Ready.run_late (hstart : Waiting s taskId start) {failure : StageFailure}
    (hlate : failure.stage ∈ resumeStages) {attemptNumber : ℕ} {taskId' : String}
    (h : Ready s start taskId' db) (rest : List StageFailure) :
    ¬Parsed s start (s.run db attemptNumber taskId' (failure :: rest)) := by
  obtain ⟨-, hlive⟩ := h.live.claim
  obtain ⟨file, hfile, -, -⟩ := hlive.file
  have hnotEarly : ((some failure).any fun f => decide (f.stage ∈ identityStages)) = false := by
    simp only [resumeStages, List.mem_cons, List.not_mem_nil, or_false] at hlate
    rcases hlate with hskill | hpersist
    · simp [identityStages, hskill]
    · simp [identityStages, hpersist]
  obtain ⟨hunidentified, hattempt⟩ := h.attempt_identified hstart.unknown hnotEarly
  have hresolved (hend : s.attempt taskId' (some failure) db =
      .resolved (s.record (s.claimed db start.resume) .failed .failed)) :
      ¬Parsed s start (s.run db attemptNumber taskId' (failure :: rest)) := by
    simp only [run, hend]
    exact not_parsed_of_failed ⟨_, getById_record hfile, rfl⟩
  cases hidentity : s.identity with
  | none => exact hresolved (hunidentified hidentity)
  | some emailHash =>
    obtain ⟨hblocked, hfree⟩ := hattempt emailHash hidentity
    by_cases herased : erasureBlocked (candidateOf start.resume emailHash) = true
    · exact hresolved (hblocked herased)
    · obtain ⟨resume, hresume⟩ : ∃ resume,
          storedResume start.resume (s.toBulkResume taskId' emailHash) = resume := ⟨_, rfl⟩
      obtain ⟨failed, hparse, hbulk, hrows⟩ := @parseResume_late s
        (s.claimed db (withStored start.resume (s.toBulkResume taskId' emailHash))) failure hlate
        resume
      have hend := hfree (eq_false_of_ne_true herased)
      rw [hresume, hparse] at hend
      have hhash : resume.fileHash = s.fileHash := by rw [← hresume]; rfl
      have hknown : s.fileHash ∈ failed.resume.resumes.rows.map (·.fileHash) := by
        rw [hrows]
        refine List.mem_map.mpr ⟨resume, ?_, hhash⟩
        rw [← hresume]
        exact rows_withStored _ _
      have hlive' : Live s start.bulk taskId' failed.bulk := hbulk ▸ hlive
      by_cases hgivesUp :
          RetryDriver.givesUp failure.stage failure.classification attemptNumber = true
      · by_cases hactive : start.bulk.campaignStatus = .active
        · obtain ⟨bulk, hreplay, hnext⟩ := hlive'.replay hstart.job hactive (some resume)
            failure.newTaskId
          simp only [run, hend, hgivesUp, if_true, hreplay]
          apply not_parsed_of_count
          apply known_run hnext
          rw [← hhash]
          apply getByFileHashGlobal_ne_none
          rw [fileHash_deadLetter, hhash]
          exact hknown
        · obtain ⟨hreplay, hdead⟩ := hlive'.replay_refused hstart.job hactive (some resume)
            failure.newTaskId
          simp only [run, hend, hgivesUp, if_true, hreplay]
          exact not_parsed_of_failed hdead
      · simp only [run, hend]
        rw [if_neg hgivesUp]
        apply not_parsed_of_count
        apply known_run hlive'
        rw [← hhash] at hknown ⊢
        exact getByFileHashGlobal_ne_none hknown

end Clean

section Runs

variable {s : BulkSubmission} {start db : BulkFileDb} {taskId : String}
  {failures : List StageFailure}

theorem Ready.run_iff (hstart : Waiting s taskId start) {attemptNumber : ℕ} {taskId' : String}
    (h : Ready s start taskId' db)
    (hstages : ∀ f ∈ failures, f.stage ∈ identityStages ∨ f.stage ∈ resumeStages) :
    (Parsed s start (s.run db attemptNumber taskId' failures) ∧
      SameOutcome s (s.run db attemptNumber taskId' failures) (s.run start 1 taskId [])) ↔
    (∀ f ∈ failures, f.stage ∉ resumeStages) ∧ Admissible s start := by
  induction failures generalizing attemptNumber taskId' db with
  | nil =>
    constructor
    · intro hparsed
      refine ⟨by simp, ?_⟩
      by_contra hnot
      exact h.not_parsed hstart hnot hparsed.1
    · rintro ⟨-, hadmissible⟩
      obtain ⟨emailHash, linked, skills, hskills, hlinked, hclean⟩ := hstart.clean hadmissible
      rw [run, run, hclean taskId' db h, hclean taskId start hstart.ready]
      exact ⟨h.parsed hskills hlinked, h.sameOutcome hstart.ready linked skills⟩
  | cons failure rest ih =>
    have hrest : ∀ f ∈ rest, f.stage ∈ identityStages ∨ f.stage ∈ resumeStages :=
      fun f hf => hstages f (List.mem_cons_of_mem _ hf)
    by_cases hlate : failure.stage ∈ resumeStages
    · constructor
      · intro hparsed
        exact absurd hparsed.1 (h.run_late hstart hlate rest)
      · intro hcondition
        exact absurd hlate (hcondition.1 failure List.mem_cons_self)
    · have hearly := (hstages failure List.mem_cons_self).resolve_right hlate
      have hcondition : ((∀ f ∈ failure :: rest, f.stage ∉ resumeStages) ∧ Admissible s start) ↔
          (∀ f ∈ rest, f.stage ∉ resumeStages) ∧ Admissible s start := by
        rw [List.forall_mem_cons]
        simp [hlate]
      rw [hcondition]
      rcases @Ready.run_early s start db taskId hstart failure hearly attemptNumber taskId' h
        rest with ⟨nextNumber, nextId, next, hnext, hrun⟩ | ⟨hinactive, hnot⟩
      · rw [hrun]
        exact ih hnext hrest
      · constructor
        · exact fun hparsed => absurd hparsed.1 hnot
        · exact fun hadmissible => absurd hadmissible.2.1 hinactive

-- The failures of a file leave no trace if and only if none of them comes after
-- the commit of its resume, and the campaign can take the candidate.
theorem bulk_file_outcome (hstart : Waiting s taskId start)
    (hstages : ∀ f ∈ failures, f.stage ∈ identityStages ∨ f.stage ∈ resumeStages) :
    (Parsed s start (s.run start 1 taskId failures) ∧
      SameOutcome s (s.run start 1 taskId failures) (s.run start 1 taskId [])) ↔
    (∀ f ∈ failures, f.stage ∉ resumeStages) ∧ Admissible s start :=
  hstart.ready.run_iff hstart hstages

def cvFile : BulkSubmission where
  fileId := 0
  campaignId := 0
  jobId := 0
  storagePath := "bulk/cv.pdf"
  fileFormat := .pdf
  fileHash := "cv"
  uploadedBy := "recruiter"
  identity := some "candidate"
  skillMatches := [⟨"python", false, some 0, .exact, none, "python", none, []⟩]

def queuedFile : BulkFileDb where
  bulk :=
    { job := ⟨.processing, true, 1, 1, 0, 0, 0⟩
      files := Table.empty.insert (stagedFile "first") (stagedFile_id "first")
      deadLetters := []
      campaignStatus := .active
      ledger := fun _ => 0 }
  resume := { ResumeDb.empty with
    campaigns := Table.empty.insert openCampaign openCampaign_id }
  skills :=
    { ontology := SkillOntologyTable.empty
      unknownSkills := Table.empty
      jdSkills := Table.empty
      jdUnknownSkills := Table.empty
      candidateSkills := Table.empty
      jobDescriptions := JobDescriptionTable.empty
      promptTemplates := Table.empty
      activeCampaigns := fun _ => true }

theorem queuedFile_waiting : Waiting cvFile "first" queuedFile where
  file := ⟨⟨0, .queued, some "first"⟩, rfl, rfl, rfl⟩
  job := rfl
  unknown := rfl
  campaign := ⟨openCampaign 0, rfl, rfl⟩
  links := fun _ hcc => absurd hcc List.not_mem_nil
  skills := fun _ hc => absurd hc List.not_mem_nil

theorem queuedFile_admissible : Admissible cvFile queuedFile :=
  ⟨rfl, "candidate", rfl, fun _ hcandidate => nomatch hcandidate⟩

def earlyFailures : List StageFailure :=
  [⟨.aiExtraction, .function 0, .transient, "second"⟩,
    ⟨.textExtraction, .start, .permanent, "second"⟩]

theorem bulk_file_outcome_early :
    (Parsed cvFile queuedFile (cvFile.run queuedFile 1 "first" earlyFailures) ∧
      SameOutcome cvFile (cvFile.run queuedFile 1 "first" earlyFailures)
        (cvFile.run queuedFile 1 "first" [])) := by
  refine (bulk_file_outcome queuedFile_waiting ?_).mpr ⟨?_, queuedFile_admissible⟩
  · intro f hf
    simp only [earlyFailures, List.mem_cons, List.not_mem_nil, or_false] at hf
    rcases hf with rfl | rfl
    · exact .inl (by decide)
    · exact .inl (by decide)
  · intro f hf
    simp only [earlyFailures, List.mem_cons, List.not_mem_nil, or_false] at hf
    rcases hf with rfl | rfl <;> decide

-- The retry after a failed PERSISTENCE takes the file for its own duplicate.
theorem bulk_file_retry_duplicate :
    ¬∀ (s : BulkSubmission) (taskId : String) (start : BulkFileDb) (failures : List StageFailure),
      Waiting s taskId start → Admissible s start →
        (∀ f ∈ failures, f.stage ∈ identityStages ∨ f.stage ∈ resumeStages) →
          Parsed s start (s.run start 1 taskId failures) := by
  intro hall
  have hparsed := hall cvFile "first" queuedFile [⟨.persistence, .function 0, .transient, "second"⟩]
    queuedFile_waiting queuedFile_admissible (by
      intro f hf
      rw [List.mem_singleton.mp hf]
      exact .inr (by decide))
  exact queuedFile_waiting.ready.run_late queuedFile_waiting (by decide) [] hparsed

end Runs

end BulkSubmission

end AiHiring
