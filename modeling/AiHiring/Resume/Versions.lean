import AiHiring.Resume.Upload

namespace AiHiring

open Library Transaction
open CampaignCandidateRepository (getByResumeId)

-- One candidate's versions, each by its number and whether it is the active one.
abbrev VersionHistory := List (ℕ × Bool)

variable (deleted : Uuid) (h : VersionHistory)

namespace VersionHistory

def WellFormed : Prop :=
  (h ≠ [] → h.countP (·.2) = 1) ∧ (h.map (·.1)).Nodup

def highest : ℕ := (h.map (·.1)).foldr max 0

def extend : VersionHistory :=
  if h.any (·.2) then h.map (fun v => (v.1, false)) ++ [(h.highest + 1, true)]
  else h ++ [(1, true)]

theorem le_highest (v : ℕ × Bool) (hv : v ∈ h) : v.1 ≤ h.highest := by
  induction h with
  | nil => simp at hv
  | cons first rest ih =>
    have hhighest : highest (first :: rest) = max first.1 (highest rest) := rfl
    rcases List.mem_cons.mp hv with rfl | hv
    · omega
    · have := ih hv
      omega

theorem WellFormed.extend {h : VersionHistory} (hw : h.WellFormed) : h.extend.WellFormed := by
  obtain ⟨hactive, hnodup⟩ := hw
  by_cases hany : h.any (·.2)
  · have hextend : h.extend = h.map (fun v => (v.1, false)) ++ [(h.highest + 1, true)] :=
      if_pos hany
    have hnone : (h.map fun v => (v.1, false)).countP (·.2) = 0 := by simp [List.countP_eq_zero]
    have hnumbers : (h.map fun v => (v.1, false)).map (·.1) = h.map (·.1) := by simp
    have hnew : h.highest + 1 ∉ h.map (·.1) := by
      intro hmem
      obtain ⟨v, hv, hnumber⟩ := List.mem_map.mp hmem
      have := h.le_highest v hv
      omega
    rw [hextend]
    refine ⟨fun _ => ?_, ?_⟩
    · rw [List.countP_append, hnone]
      simp
    · rw [List.map_append, hnumbers]
      refine List.nodup_append.mpr ⟨hnodup, by simp, ?_⟩
      intro a ha b hb
      simp only [List.map_cons, List.map_nil, List.mem_singleton] at hb
      exact fun hab => hnew (hb ▸ hab ▸ ha)
  · -- without an active version there is no version at all
    have hempty : h = [] := by
      by_contra hne
      have hone := hactive hne
      have hzero : h.countP (·.2) = 0 := by simpa [List.countP_eq_zero] using hany
      omega
    have hextend : h.extend = [(1, true)] := by simp [hempty, VersionHistory.extend]
    rw [hextend]
    exact ⟨fun _ => rfl, by simp⟩

end VersionHistory

namespace ResumeDb

def versionOf (r : ResumeRow) : ℕ × Bool := (r.versionNumber, r.isActiveVersion)

def history (rows : List ResumeRow) (candidateId : Uuid) : VersionHistory :=
  (rows.filter fun r => r.candidateId = candidateId).map versionOf

-- Exactly one active version for each candidate that has one, and no number twice.
def WellVersioned (db : ResumeDb) : Prop :=
  ∀ candidateId, (history db.resumes.rows candidateId).WellFormed

end ResumeDb

open ResumeDb ResumeRepository

namespace ResumeRepository

variable (db : ResumeDb)

variable (candidateId : Uuid)

theorem getActiveByCandidate_isSome :
    (getActiveByCandidate db candidateId).isSome =
      (history db.resumes.rows candidateId).any (·.2) := by
  have hany : (history db.resumes.rows candidateId).any (·.2) =
      (versionsOf db candidateId).any (·.isActiveVersion) := by
    rw [history, List.any_map]
    rfl
  rw [hany, getActiveByCandidate, Bool.eq_iff_iff, Option.isSome_iff_ne_none, Ne,
    List.argmax_eq_none, List.any_eq_true]
  constructor
  · intro hne
    obtain ⟨r, hr⟩ := List.exists_mem_of_ne_nil _ hne
    obtain ⟨hmem, hactive⟩ := List.mem_filter.mp hr
    exact ⟨r, hmem, hactive⟩
  · rintro ⟨r, hmem, hactive⟩
    exact List.ne_nil_of_mem (List.mem_filter.mpr ⟨hmem, hactive⟩)

theorem getMaxVersionNumber_eq :
    getMaxVersionNumber db candidateId = (history db.resumes.rows candidateId).highest := by
  rw [getMaxVersionNumber, VersionHistory.highest, history, List.map_map]
  rfl

theorem history_deactivateActiveVersion (c : Uuid) :
    history (deactivateActiveVersion db candidateId).resumes.rows c =
      if c = candidateId then (history db.resumes.rows c).map (fun v => (v.1, false))
      else history db.resumes.rows c := by
  have hrows : (deactivateActiveVersion db candidateId).resumes.rows =
      db.resumes.rows.map (fun r => if r.candidateId = candidateId ∧ r.isActiveVersion then
        { r with isActiveVersion := false } else r) := rfl
  have hcandidate : (fun r : ResumeRow => decide (r.candidateId = c)) ∘
      (fun r => if r.candidateId = candidateId ∧ r.isActiveVersion then
        { r with isActiveVersion := false } else r) = fun r => decide (r.candidateId = c) := by
    funext r
    rw [Function.comp_apply]
    split_ifs <;> rfl
  rw [history, hrows, List.filter_map, hcandidate, List.map_map, history]
  by_cases hc : c = candidateId
  · rw [if_pos hc, List.map_map]
    apply List.map_congr_left
    intro r hr
    have hr : r.candidateId = c := by simpa using (List.mem_filter.mp hr).2
    by_cases hactive : r.isActiveVersion <;> simp [versionOf, hr, hc, hactive]
  · rw [if_neg hc]
    apply List.map_congr_left
    intro r hr
    have hr : r.candidateId = c := by simpa using (List.mem_filter.mp hr).2
    simp [hr, hc]

-- What `createVersion` returns and leaves, as one function of the database.
def nextVersion : ℕ :=
  match getActiveByCandidate db candidateId with
  | none => 1
  | some _ => getMaxVersionNumber db candidateId + 1

def beforeInsert : ResumeDb :=
  match getActiveByCandidate db candidateId with
  | none => db
  | some _ => deactivateActiveVersion db candidateId

def withNextVersion (fields : NewResume) : ResumeDb :=
  { beforeInsert db fields.candidateId with
    resumes := (beforeInsert db fields.candidateId).resumes.insert
      (newVersion fields (nextVersion db fields.candidateId)) fun _ => rfl }

def nextResume (fields : NewResume) : ResumeRow :=
  newVersion fields (nextVersion db fields.candidateId) db.resumes.next

theorem history_append (rows : List ResumeRow) (row : ResumeRow) (c : Uuid) :
    history (rows ++ [row]) c =
      if row.candidateId = c then history rows c ++ [versionOf row] else history rows c := by
  rw [history, List.filter_append, List.map_append, ← history]
  split_ifs with hc <;> simp [hc]

theorem history_withNextVersion (fields : NewResume) (c : Uuid) :
    history (withNextVersion db fields).resumes.rows c =
      if fields.candidateId = c then (history db.resumes.rows c).extend
      else history db.resumes.rows c := by
  have hrows : (withNextVersion db fields).resumes.rows =
      (beforeInsert db fields.candidateId).resumes.rows ++
        [newVersion fields (nextVersion db fields.candidateId)
          (beforeInsert db fields.candidateId).resumes.next] := rfl
  have hsome := getActiveByCandidate_isSome db fields.candidateId
  have hnew (id : Uuid) (n : ℕ) : (newVersion fields n id).candidateId = fields.candidateId := rfl
  rw [hrows, history_append, hnew, beforeInsert, nextVersion]
  cases hactive : getActiveByCandidate db fields.candidateId with
  | none =>
    rw [hactive] at hsome
    split_ifs with hc
    · subst hc
      exact (if_neg (by simp [← hsome])).symm
    · rfl
  | some active =>
    rw [hactive] at hsome
    rw [history_deactivateActiveVersion, getMaxVersionNumber_eq]
    split_ifs with hc hother hother
    · subst hc
      exact (if_pos hsome.symm).symm
    · exact absurd hc.symm hother
    · exact absurd hother.symm hc
    · rfl

theorem wellVersioned_withNextVersion (fields : NewResume) (h : WellVersioned db) :
    WellVersioned (withNextVersion db fields) := by
  intro c
  rw [history_withNextVersion]
  split_ifs
  · exact (h c).extend
  · exact h c

end ResumeRepository

section Rules

variable {α : Type} {failed : List (ResumeCommit × ResumeDb) → Prop} {db : ResumeDb}
  {commits : List (ResumeCommit × ResumeDb)}

theorem ends_createVersion (fields : NewResume)
    {post : Except ResumeError ResumeRow → ResumeDb → List (ResumeCommit × ResumeDb) → Prop}
    (hfailed : failed commits)
    (hpost : post (.ok (nextResume db fields)) (withNextVersion db fields) commits) :
    Ends post failed (createVersion fields) db commits := by
  rw [createVersion, ends_bind, nextVersionNumber, ends_query_bind]
  refine ⟨hfailed, ?_⟩
  cases hactive : getActiveByCandidate db fields.candidateId with
  | none =>
    rw [withNextVersion, nextResume, beforeInsert, nextVersion, hactive] at hpost
    exact ⟨hfailed, hpost⟩
  | some active =>
    rw [withNextVersion, nextResume, beforeInsert, nextVersion, hactive] at hpost
    exact ⟨hfailed, hfailed, hfailed, hpost⟩

theorem ends_getOrCreate (emailHash : String)
    {post : Except ResumeError CandidateRow → ResumeDb → List (ResumeCommit × ResumeDb) → Prop}
    (hfailed : failed commits)
    (hfound : ∀ existing, CandidateRepository.getByEmailHash db emailHash = some existing →
      CandidateService.erasureBlocked existing = false → post (.ok existing) db commits)
    (hblocked : post (.error .erasureBlocked) db commits)
    (hcreated : ∀ db' : ResumeDb, db' = { db with
        candidates := db.candidates.insert (CandidateService.newCandidate emailHash)
          fun _ => rfl } →
      post (.ok (CandidateService.newCandidate emailHash db.candidates.next)) db'
        (commits ++ [(.candidate, db')])) :
    Ends post failed (CandidateService.getOrCreate emailHash) db commits := by
  rw [CandidateService.getOrCreate, ends_query_bind]
  refine ⟨hfailed, ?_⟩
  cases hexisting : CandidateRepository.getByEmailHash db emailHash with
  | none => exact ⟨hfailed, hfailed, hcreated _ rfl⟩
  | some existing =>
    dsimp only
    split_ifs with herased
    · exact hblocked
    · exact hfound existing hexisting (by simpa using herased)

end Rules

-- The operations on versions; each is one transaction of its own.
inductive VersionOp where
  | upload (request : UploadRequest)
  | bulkParsed (file : BulkResume)
  | resubmission (request : CampaignCandidateService.ResubmissionRequest) (now : Instant)
  | deleteResume (resumeId : Uuid) (actorId : String) (actorRole reason : Option String)

namespace VersionOp

-- A bulk file gets a resume only when no resume has its hash already.
def bulkResume (file : BulkResume) : ResumeM Unit := do
  match ← query (getByFileHashGlobal · file.fileHash) with
  | some _ => pure ()
  | none =>
    let _ ← createBulkResume file
    pure ()

def program (table : TransitionTable) : VersionOp → ResumeM Unit
  | upload request => do
    let _ ← ResumeUploadService.upload request
    pure ()
  | bulkParsed file => bulkResume file
  | resubmission request now => do
    let _ ← CampaignCandidateService.updateResumeForResubmission table request now
    pure ()
  | deleteResume resumeId actorId actorRole reason =>
    ResumeCleanupService.deleteResume resumeId actorId actorRole reason

end VersionOp

-- One operation with the database call of it that fails, if one does.
structure VersionAction where
  op : VersionOp
  failIn : Option ℕ

namespace VersionAction

variable (table : TransitionTable)

def next (db : ResumeDb) (a : VersionAction) : ResumeDb :=
  ((a.op.program table).run a.failIn db).committed db

def step (db : ResumeDb) (a : VersionAction) (db' : ResumeDb) : Prop := db' = next table db a

end VersionAction

-- The committed state of a run that ends within `commits`.
def lastCommitted (start : ResumeDb) (commits : List (ResumeCommit × ResumeDb)) : ResumeDb :=
  (commits.map Prod.snd).getLastD start

@[simp] theorem lastCommitted_snoc (start db : ResumeDb) (tag : ResumeCommit)
    (commits : List (ResumeCommit × ResumeDb)) :
    lastCommitted start (commits ++ [(tag, db)]) = db := by
  simp [lastCommitted]

section Programs

variable {db : ResumeDb} {α : Type}

theorem ends_ofExcept_bind {β : Type} (given : Except ResumeError β) (f : β → ResumeM α)
    {post : Except ResumeError α → ResumeDb → List (ResumeCommit × ResumeDb) → Prop}
    {failed : List (ResumeCommit × ResumeDb) → Prop} {commits : List (ResumeCommit × ResumeDb)}
    (herror : ∀ e, post (.error e) db commits)
    (hok : ∀ b, given = .ok b → Ends post failed (f b) db commits) :
    Ends post failed (ResumeM.ofExcept given >>= f) db commits := by
  cases given with
  | error e => exact herror e
  | ok b => exact hok b rfl

-- Whichever call fails, what is committed last is well versioned.
def KeepsVersions (start : ResumeDb) (p : ResumeM α) (db : ResumeDb)
    (commits : List (ResumeCommit × ResumeDb)) : Prop :=
  Ends (fun _ _ commits => WellVersioned (lastCommitted start commits))
    (fun commits => WellVersioned (lastCommitted start commits)) p db commits

variable {start : ResumeDb} {commits : List (ResumeCommit × ResumeDb)}

theorem KeepsVersions.bind {β : Type} {p : ResumeM β} (f : β → ResumeM α)
    (h : Ends (fun result db commits => WellVersioned (lastCommitted start commits) ∧
        ∀ b, result = .ok b → KeepsVersions start (f b) db commits)
      (fun commits => WellVersioned (lastCommitted start commits)) p db commits) :
    KeepsVersions start (p >>= f) db commits := by
  rw [KeepsVersions, ends_bind]
  apply h.imp
  intro result db commits hresult
  cases result with
  | ok b => exact hresult.2 b rfl
  | error e => exact hresult.1

theorem keepsVersions_discard (p : ResumeM α) (h : KeepsVersions start p db commits) :
    KeepsVersions start (do let _ ← p; pure ()) db commits := by
  apply KeepsVersions.bind
  apply h.imp
  intro result db commits hresult
  exact ⟨hresult, fun _ _ => hresult⟩

theorem keepsVersions_createNextVersion (candidateId : Uuid) (objectPath : String)
    (fileFormat : FileFormat) (request : UploadRequest) (hdb : WellVersioned db)
    (hcommits : WellVersioned (lastCommitted start commits)) :
    KeepsVersions start
      (ResumeUploadService.createNextVersion candidateId objectPath fileFormat request) db
      commits := by
  apply KeepsVersions.bind
  apply ends_createVersion _ hcommits
  refine ⟨hcommits, fun b _ => ⟨hcommits, ?_⟩⟩
  change WellVersioned (lastCommitted start (commits ++ [(_, _)]))
  rw [lastCommitted_snoc]
  exact wellVersioned_withNextVersion db _ hdb

theorem keepsVersions_upload (request : UploadRequest) (hdb : WellVersioned db)
    (hcommits : WellVersioned (lastCommitted start commits)) :
    KeepsVersions start (ResumeUploadService.upload request) db commits := by
  apply ends_ofExcept_bind _ _ (fun _ => hcommits)
  intro fileFormat _
  rw [ends_query_bind]
  refine ⟨hcommits, ?_⟩
  cases getByFileHashGlobal db request.file.fileHash with
  | some matchedResume =>
    cases request.resolution with
    | none => exact hcommits
    | some resolution =>
      cases resolution with
      | useExisting => exact hcommits
      | uploadAnyway =>
        apply ends_ofExcept_bind _ _ (fun _ => hcommits)
        intro objectPath _
        apply KeepsVersions.bind
        apply (keepsVersions_createNextVersion _ objectPath fileFormat request hdb hcommits).imp
        intro result db commits hresult
        exact ⟨hresult, fun _ _ => hresult⟩
  | none =>
    apply ends_ofExcept_bind _ _ (fun _ => hcommits)
    intro objectPath _
    apply KeepsVersions.bind
    have hcreate (candidate : CandidateRow) {db : ResumeDb}
        {commits : List (ResumeCommit × ResumeDb)} (hdb : WellVersioned db)
        (hcommits : WellVersioned (lastCommitted start commits)) :
        KeepsVersions start (do
          let resume ← ResumeUploadService.createNextVersion candidate.id objectPath fileFormat
            request
          pure (UploadResumeResult.mk resume true false)) db commits := by
      apply KeepsVersions.bind
      apply (keepsVersions_createNextVersion _ objectPath fileFormat request hdb hcommits).imp
      intro result db commits hresult
      exact ⟨hresult, fun _ _ => hresult⟩
    apply ends_getOrCreate _ hcommits
    · intro existing _ _
      exact ⟨hcommits, fun candidate _ => hcreate candidate hdb hcommits⟩
    · exact ⟨hcommits, fun _ h => nomatch h⟩
    · rintro db' rfl
      rw [lastCommitted_snoc]
      refine ⟨hdb, fun candidate _ => hcreate candidate hdb ?_⟩
      rw [lastCommitted_snoc]
      exact hdb

theorem keepsVersions_bulkResume (file : BulkResume) (hdb : WellVersioned db)
    (hcommits : WellVersioned (lastCommitted start commits)) :
    KeepsVersions start (VersionOp.bulkResume file) db commits := by
  rw [KeepsVersions, VersionOp.bulkResume, ends_query_bind]
  refine ⟨hcommits, ?_⟩
  cases getByFileHashGlobal db file.fileHash with
  | some _ => exact hcommits
  | none =>
    apply keepsVersions_discard
    have hcreate (candidate : CandidateRow) {db : ResumeDb}
        {commits : List (ResumeCommit × ResumeDb)} (hdb : WellVersioned db)
        (hcommits : WellVersioned (lastCommitted start commits)) :
        KeepsVersions start (do
          let resume ← createVersion
            { candidateId := candidate.id, filePath := file.storagePath,
              fileFormat := file.fileFormat, fileHash := file.fileHash,
              uploadedBy := file.uploadedBy, bulkUploadJobId := some file.jobId,
              taskId := some file.taskId }
          commitAs .resume
          pure resume) db commits := by
      apply KeepsVersions.bind
      apply ends_createVersion _ hcommits
      refine ⟨hcommits, fun b _ => ⟨hcommits, ?_⟩⟩
      change WellVersioned (lastCommitted start (commits ++ [(_, _)]))
      rw [lastCommitted_snoc]
      exact wellVersioned_withNextVersion db _ hdb
    apply KeepsVersions.bind
    apply ends_getOrCreate _ hcommits
    · intro existing _ _
      exact ⟨hcommits, fun candidate _ => hcreate candidate hdb hcommits⟩
    · exact ⟨hcommits, fun _ h => nomatch h⟩
    · rintro db' rfl
      rw [lastCommitted_snoc]
      refine ⟨hdb, fun candidate _ => hcreate candidate hdb ?_⟩
      rw [lastCommitted_snoc]
      exact hdb

theorem history_setTaskId (resumeId : Uuid) (taskId : String) (db : ResumeDb) (c : Uuid) :
    history (setTaskId resumeId taskId db).resumes.rows c = history db.resumes.rows c := by
  have hrows : (setTaskId resumeId taskId db).resumes.rows =
      db.resumes.rows.map (fun r => if r.id = resumeId then { r with taskId := some taskId }
        else r) := rfl
  have hcandidate : (fun r : ResumeRow => decide (r.candidateId = c)) ∘
      (fun r => if r.id = resumeId then { r with taskId := some taskId } else r) =
        fun r => decide (r.candidateId = c) := by
    funext r
    rw [Function.comp_apply]
    split_ifs <;> rfl
  rw [history, hrows, List.filter_map, hcandidate, List.map_map, history]
  apply List.map_congr_left
  intro r _
  rw [Function.comp_apply]
  split_ifs <;> rfl

theorem keepsVersions_resubmission (table : TransitionTable)
    (request : CampaignCandidateService.ResubmissionRequest) (now : Instant)
    (hdb : WellVersioned db) (hcommits : WellVersioned (lastCommitted start commits)) :
    KeepsVersions start
      (CampaignCandidateService.updateResumeForResubmission table request now) db commits := by
  rw [KeepsVersions, CampaignCandidateService.updateResumeForResubmission, ends_query_bind]
  refine ⟨hcommits, ?_⟩
  cases CampaignCandidateRepository.getById db.toDb request.campaignCandidateId with
  | none => exact hcommits
  | some cc =>
    rw [ends_query_bind]
    refine ⟨hcommits, ?_⟩
    split
    · exact hcommits
    · next moved cc _ =>
      rw [ends_flush_bind]
      refine ⟨hcommits, ?_⟩
      apply ends_ofExcept_bind _ _ (fun _ => hcommits)
      intro fileFormat _
      apply ends_ofExcept_bind _ _ (fun _ => hcommits)
      intro objectPath _
      rw [ends_bind]
      apply ends_createVersion _ hcommits
      have hversioned := fun fields =>
        wellVersioned_withNextVersion { db with toDb := moved } fields hdb
      refine ⟨hcommits, hcommits, ?_, ?_, ?_⟩
      · change WellVersioned (lastCommitted start (_ ++ [(_, _)]))
        rw [lastCommitted_snoc]
        exact hversioned _
      · change WellVersioned (lastCommitted start (_ ++ [(_, _)]))
        rw [lastCommitted_snoc]
        exact hversioned _
      · change WellVersioned (lastCommitted start (_ ++ [(_, _)]))
        rw [lastCommitted_snoc]
        intro c
        rw [history_setTaskId]
        exact hversioned _ c

end Programs

namespace ResumeCleanupService

theorem resumes_removeAll (db : ResumeDb) (removed : List CampaignCandidate) :
    (removeAll db removed).resumes = db.resumes := by
  induction removed generalizing db with
  | nil => rfl
  | cons cc rest ih => exact ih (removeCampaignCandidate db cc.id)

-- The deletion goes through: the resume is there, nothing that the cleanup
-- leaves in place refers to its links, and none of its eight calls fails.
structure Deletes (db : ResumeDb) (resumeId : Uuid) (failIn : Option ℕ) (resume : ResumeRow) :
    Prop where
  found : ResumeRepository.getById db resumeId = some resume
  unreferenced : (getByResumeId db resumeId).any (fun cc => referenced db cc.id) = false
  uninterrupted : ∀ n < 8, failIn ≠ some n

variable (db : ResumeDb) (resumeId : Uuid) (actorId : String) (actorRole reason : Option String)

theorem run_interrupted (n : ℕ) (hn : n < 8) :
    ((deleteResume resumeId actorId actorRole reason).run (some n) db).commits = [] := by
  cases hfound : ResumeRepository.getById db resumeId with
  | none =>
    cases n with
    | zero => rfl
    | succ n => simp [deleteResume, run_query_bind, hfound, raise, run]
  | some resume =>
    cases hblocked : (getByResumeId db resumeId).any
        fun cc => referenced db cc.id with
    | true =>
      rcases n with _ | _ | _ | n <;>
        simp [deleteResume, run_query_bind, hfound, hblocked, raise, run]
    | false =>
      rcases n with _ | _ | _ | _ | _ | _ | _ | _ | n <;>
        simp [deleteResume, run_query_bind, run_flush_bind, run_commitAs, hfound, hblocked]
      omega

theorem run_uninterrupted (failIn : Option ℕ) (hfail : ∀ n < 8, failIn ≠ some n) :
    ((deleteResume resumeId actorId actorRole reason).run failIn db).commits =
      ((deleteResume resumeId actorId actorRole reason).normal db).commits := by
  cases failIn with
  | none => rfl
  | some n =>
    obtain ⟨k, rfl⟩ : ∃ k, n = k + 8 := ⟨n - 8, by
      have : ¬n < 8 := fun hlt => hfail n hlt rfl
      omega⟩
    cases hfound : ResumeRepository.getById db resumeId with
    | none => simp [deleteResume, run_query_bind, hfound, raise, run, normal]
    | some resume =>
      cases hblocked : (getByResumeId db resumeId).any
          fun cc => referenced db cc.id with
      | true => simp [deleteResume, run_query_bind, hfound, hblocked, raise, run, normal]
      | false =>
        simp [deleteResume, run_query_bind, run_flush_bind, run_commitAs, hfound, hblocked]

variable (table : TransitionTable) {failIn : Option ℕ}

theorem next_refused (h : ∀ resume, ¬Deletes db resumeId failIn resume) :
    (VersionAction.next table db
      ⟨.deleteResume resumeId actorId actorRole reason, failIn⟩).resumes = db.resumes := by
  have hcommits :
      ((deleteResume resumeId actorId actorRole reason).run failIn db).commits = [] := by
    by_cases hfail : ∀ n < 8, failIn ≠ some n
    · rw [run_uninterrupted db resumeId actorId actorRole reason failIn hfail]
      cases hfound : ResumeRepository.getById db resumeId with
      | none => simp [deleteResume, normal, run_query_bind, hfound, raise, run]
      | some resume =>
        cases hblocked : (getByResumeId db resumeId).any
            fun cc => referenced db cc.id with
        | true => simp [deleteResume, normal, run_query_bind, hfound, hblocked, raise, run]
        | false => exact absurd ⟨hfound, hblocked, hfail⟩ (h resume)
    · push Not at hfail
      obtain ⟨n, hn, rfl⟩ := hfail
      exact run_interrupted db resumeId actorId actorRole reason n hn
  change (Finished.committed db _).resumes = _
  rw [Finished.committed, VersionOp.program, hcommits]
  rfl

theorem next_deletes {resume : ResumeRow} (h : Deletes db resumeId failIn resume) :
    (VersionAction.next table db
      ⟨.deleteResume resumeId actorId actorRole reason, failIn⟩).resumes =
        db.resumes.delete fun r => r.id = resume.id := by
  change (Finished.committed db _).resumes = _
  rw [Finished.committed, VersionOp.program,
    run_uninterrupted db resumeId actorId actorRole reason failIn h.uninterrupted]
  have hblocked := h.unreferenced
  simp only [deleteResume, normal, run_query_bind, h.found, hblocked]
  exact congrArg (Table.delete · fun r => decide (r.id = resume.id)) (resumes_removeAll db _)

end ResumeCleanupService

section Deletion

variable {db : ResumeDb} {resume : ResumeRow}

theorem history_delete_other (c : Uuid) (hresume : resume ∈ db.resumes.rows)
    (hc : c ≠ resume.candidateId) :
    history (db.resumes.delete fun r => r.id = resume.id).rows c = history db.resumes.rows c := by
  rw [history, Table.rows_delete, List.filter_filter, history]
  congr 1
  apply List.filter_congr
  intro r hr
  by_cases hcandidate : r.candidateId = c
  · have hne : r.id ≠ resume.id := by
      intro hid
      have := db.resumes.eq_of_key_eq hr hresume hid
      exact hc (hcandidate ▸ this ▸ rfl)
    simp [hcandidate, hne]
  · simp [hcandidate]

theorem countP_history_delete (hresume : resume ∈ db.resumes.rows) :
    (history db.resumes.rows resume.candidateId).countP (·.2) =
      (history (db.resumes.delete fun r => r.id = resume.id).rows
        resume.candidateId).countP (·.2) + if resume.isActiveVersion then 1 else 0 := by
  have hcount (rows : List ResumeRow) (c : Uuid) : (history rows c).countP (·.2) =
      rows.countP fun r => r.isActiveVersion && decide (r.candidateId = c) := by
    rw [history, List.countP_map, List.countP_filter]
    rfl
  have hone : db.resumes.rows.filter (fun r => r.id = resume.id) = [resume] :=
    db.resumes.filter_key hresume
  rw [hcount, hcount, List.countP_eq_countP_filter_add _ _ fun r => decide (r.id = resume.id), hone]
  have hflag : [resume].countP (fun r =>
      r.isActiveVersion && decide (r.candidateId = resume.candidateId)) =
        if resume.isActiveVersion then 1 else 0 := by
    rw [List.countP_singleton]
    simp
  rw [hflag, Nat.add_comm]
  rfl

theorem wellVersioned_delete_iff (hdb : WellVersioned db) (hresume : resume ∈ db.resumes.rows) :
    (∀ c, (history (db.resumes.delete fun r => r.id = resume.id).rows c).WellFormed) ↔
      (resume.isActiveVersion = true →
        history (db.resumes.delete fun r => r.id = resume.id).rows resume.candidateId = []) := by
  have hcount := countP_history_delete hresume
  have hbefore : (history db.resumes.rows resume.candidateId).countP (·.2) = 1 := by
    apply (hdb resume.candidateId).1
    have hmem : resume ∈ db.resumes.rows.filter fun r => r.candidateId = resume.candidateId :=
      List.mem_filter.mpr ⟨hresume, by simp⟩
    exact List.ne_nil_of_mem (List.mem_map.mpr ⟨resume, hmem, rfl⟩)
  constructor
  · intro h hactive
    by_contra hne
    have hone := (h resume.candidateId).1 hne
    rw [if_pos hactive] at hcount
    omega
  · intro h c
    by_cases hc : c = resume.candidateId
    · subst hc
      refine ⟨fun hne => ?_, ?_⟩
      · have hinactive : ¬resume.isActiveVersion = true := fun hactive => hne (h hactive)
        rw [if_neg hinactive] at hcount
        omega
      · -- the numbers that are left were distinct before
        have hsub : (history (db.resumes.delete fun r => r.id = resume.id).rows
            resume.candidateId).Sublist (history db.resumes.rows resume.candidateId) :=
          (List.Sublist.filter _ List.filter_sublist).map _
        exact (hdb resume.candidateId).2.sublist (hsub.map _)
    · rw [history_delete_other c hresume hc]
      exact hdb c

end Deletion

namespace VersionAction

-- A deletion that goes through and takes the active version away from others.
def StrandsVersions (db : ResumeDb) (a : VersionAction) : Prop :=
  match a.op with
  | .deleteResume resumeId _ _ _ =>
    ∃ resume, ResumeCleanupService.Deletes db resumeId a.failIn resume ∧
      resume.isActiveVersion = true ∧
      ∃ other ∈ versionsOf db resume.candidateId, other.id ≠ resume.id
  | _ => False

end VersionAction

theorem keepsVersions_committed {db : ResumeDb} {p : ResumeM Unit} (h : KeepsVersions db p db [])
    (failIn : Option ℕ) : WellVersioned ((p.run failIn db).committed db) :=
  Ends.committed db h failIn

theorem history_delete_eq_nil {db : ResumeDb} {resume : ResumeRow} :
    history (db.resumes.delete fun r => r.id = resume.id).rows resume.candidateId = [] ↔
      ¬∃ other ∈ versionsOf db resume.candidateId, other.id ≠ resume.id := by
  rw [history, List.map_eq_nil_iff, Table.rows_delete, List.filter_filter, List.filter_eq_nil_iff]
  constructor
  · rintro h ⟨other, hother, hne⟩
    obtain ⟨hmem, hcandidate⟩ := List.mem_filter.mp hother
    exact h other hmem (by simpa [hne] using hcandidate)
  · intro h r hr hboth
    apply h
    simp only [Bool.and_eq_true, decide_eq_true_eq, Bool.not_eq_true', decide_eq_false_iff_not]
      at hboth
    exact ⟨r, List.mem_filter.mpr ⟨hr, by simpa using hboth.1⟩, hboth.2⟩

theorem wellVersioned_step_iff (table : TransitionTable) (db db' : ResumeDb) (a : VersionAction)
    (hdb : WellVersioned db) (hstep : VersionAction.step table db a db') :
    WellVersioned db' ↔ ¬a.StrandsVersions db := by
  obtain ⟨op, failIn⟩ := a
  rw [hstep]
  cases op with
  | upload request =>
    exact iff_of_true (keepsVersions_committed
      (keepsVersions_discard _ (keepsVersions_upload request hdb hdb)) failIn) not_false
  | bulkParsed file =>
    exact iff_of_true (keepsVersions_committed (keepsVersions_bulkResume file hdb hdb) failIn)
      not_false
  | resubmission request now =>
    exact iff_of_true (keepsVersions_committed
      (keepsVersions_discard _ (keepsVersions_resubmission table request now hdb hdb)) failIn)
      not_false
  | deleteResume resumeId actorId actorRole reason =>
    by_cases hdeletes : ∃ resume, ResumeCleanupService.Deletes db resumeId failIn resume
    · obtain ⟨resume, hdeletes⟩ := hdeletes
      have hresume := ((db.resumes.find?_eq_some _ _).mp hdeletes.found).1
      have honly (other : ResumeRow)
          (hother : ResumeCleanupService.Deletes db resumeId failIn other) : other = resume :=
        Option.some.inj (hother.found.symm.trans hdeletes.found)
      rw [WellVersioned, ResumeCleanupService.next_deletes db resumeId actorId actorRole reason
        table hdeletes, wellVersioned_delete_iff hdb hresume, history_delete_eq_nil]
      constructor
      · rintro h ⟨other, hother, hactive, hmore⟩
        rw [honly other hother] at hactive hmore
        exact h hactive hmore
      · intro h hactive hmore
        exact h ⟨resume, hdeletes, hactive, hmore⟩
    · rw [WellVersioned, ResumeCleanupService.next_refused db resumeId actorId actorRole reason
        table (fun resume hresume => hdeletes ⟨resume, hresume⟩)]
      refine iff_of_true hdb ?_
      rintro ⟨resume, hresume, -⟩
      exact hdeletes ⟨resume, hresume⟩

-- From any well-versioned database, a run keeps the version structure exactly
-- when no deletion in it takes the active version away from older ones.
theorem wellVersioned_throughout_iff (table : TransitionTable) (start : ResumeDb)
    (path : List (VersionAction × ResumeDb)) (hstart : WellVersioned start)
    (hpath : Path (VersionAction.step table) start path) :
    (∀ db ∈ visited start path, WellVersioned db) ↔
      EveryStep (fun db a _ => ¬a.StrandsVersions db) start path := by
  have hany : (fun _ : ResumeDb => True) start := trivial
  apply hpath.visited_iff_everyStep hany (fun _ _ _ _ _ => trivial) hstart
  intro db a db' _ hdb hstep
  exact wellVersioned_step_iff table db db' a hdb hstep

def twoUploads : List VersionAction :=
  let request (fileHash : String) : UploadRequest := {
    campaignId := 0
    file := { fileHash, fileFormat := .ok .pdf, objectPath := .ok ("resume/" ++ fileHash) }
    emailHash := "candidate"
    uploadedBy := "recruiter"
    actorRole := some "RECRUITER"
    resolution := none }
  [⟨.upload (request "first"), none⟩, ⟨.upload (request "second"), none⟩,
    ⟨.deleteResume deleted "recruiter" (some "HR_ADMIN") none, none⟩]

def versionRun : List (VersionAction × ResumeDb) :=
  execute (fun db a => some (VersionAction.next seededTransitions db a)) ResumeDb.empty
    (twoUploads deleted)

theorem versionRun_path :
    Path (VersionAction.step seededTransitions) ResumeDb.empty (versionRun deleted) :=
  execute_path _ (fun _ _ _ h => (Option.some.inj h).symm) _ _

theorem wellVersioned_empty : WellVersioned ResumeDb.empty :=
  fun _ => ⟨fun h => absurd rfl h, List.nodup_nil⟩

-- Deleting the older of two versions keeps the structure.
theorem wellVersioned_throughout_iff_older : WellVersioned ResumeDb.empty ∧
      ∀ db ∈ visited ResumeDb.empty (versionRun 0), WellVersioned db := by
  refine ⟨wellVersioned_empty, (wellVersioned_throughout_iff seededTransitions ResumeDb.empty
    (versionRun 0) wellVersioned_empty (versionRun_path 0)).mpr ?_⟩
  refine ⟨not_false, not_false, ?_, trivial⟩
  rintro ⟨resume, hdeletes, hactive, -⟩
  have hfound := congrArg (Option.map (·.isActiveVersion)) hdeletes.found
  rw [Option.map_some, hactive] at hfound
  exact absurd hfound (by decide)

-- Deleting the active one leaves the candidate without an active version.
theorem not_wellVersioned_after_deletion :
    ¬∀ db ∈ visited ResumeDb.empty (versionRun 1), WellVersioned db := by
  intro h
  have hlast := (h _ (final_mem_visited _ _) 0).1
  revert hlast
  decide

end AiHiring
