import AiHiring.Resume.Scoring

namespace AiHiring

open Library Transaction ResumeRepository

theorem processingKey_toList (r : Uuid) :
    (processingKey r).toList = "RESUME_DOCUMENT_PROCESSING:".toList ++ (text r).toList := by
  have hkey : processingKey r = "RESUME_DOCUMENT_PROCESSING" ++ ":" ++ text r := rfl
  rw [hkey, String.toList_append, String.toList_append]
  rfl

theorem scoringKey_toList (cc r : Uuid) : (scoringKey cc r).toList =
    "DETERMINISTIC_SCORE:".toList ++ ((text cc).toList ++ ':' :: (text r).toList) := by
  have hkey : scoringKey cc r =
      "DETERMINISTIC_SCORE" ++ ":" ++ text cc ++ ":" ++ text r := rfl
  have hcolon : ":".toList = [':'] := rfl
  simp only [hkey, String.toList_append, hcolon, List.append_assoc]
  rfl

theorem processingKey_inj {r r' : Uuid} : processingKey r = processingKey r' ↔ r = r' := by
  rw [← text_inj, ← String.toList_inj, processingKey_toList, processingKey_toList,
    List.append_cancel_left_eq, String.toList_inj]

theorem scoringKey_inj {cc cc' r r' : Uuid} :
    scoringKey cc r = scoringKey cc' r' ↔ cc = cc' ∧ r = r' := by
  rw [← String.toList_inj, scoringKey_toList, scoringKey_toList, List.append_cancel_left_eq,
    List.append_cons_inj_of_notMem (colon_not_mem_text cc) (colon_not_mem_text r)]
  simp only [String.toList_inj, text_inj, true_and]

theorem scoringKey_ne_processingKey (cc r r' : Uuid) : scoringKey cc r ≠ processingKey r' := by
  intro h
  have hlists := congrArg String.toList h
  rw [scoringKey_toList, processingKey_toList] at hlists
  exact absurd (List.cons.inj hlists).1 (by decide)

-- What the scoring of linked candidates depends on: the active campaigns, the
-- campaign and resume of each link, the parse of each resume, the keys in use,
-- and the scoring tasks there are.
@[ext]
structure ScoringBoard where
  active : Uuid → Prop
  links : Uuid → Option (Uuid × Uuid)
  resumes : Uuid → Option (ParseStatus × Option String)
  keys : String → Prop
  scored : Uuid → Uuid → Prop

namespace ScoringBoard

variable (b : ScoringBoard)

def Parsed (r : Uuid) : Prop := ∃ version, b.resumes r = some (.parsed, version)

def Outdated (r : Uuid) : Prop :=
  ∃ version, b.resumes r = some (.parsed, version) ∧ version ≠ some ResumeService.parserVersion

def link (cc campaign r : Uuid) : ScoringBoard :=
  { b with links := Function.update b.links cc (some (campaign, r)) }

def store (r : Uuid) : ScoringBoard :=
  { b with resumes := Function.update b.resumes r (some (.pending, none)) }

def parse (r : Uuid) : ScoringBoard :=
  { b with
    resumes := Function.update b.resumes r
      ((b.resumes r).map fun _ => (.parsed, some ResumeService.parserVersion)) }

def take (key : String) : ScoringBoard := { b with keys := fun k => b.keys k ∨ k = key }

def score (cc r : Uuid) : ScoringBoard :=
  { b with
    keys := fun k => b.keys k ∨ k = scoringKey cc r
    scored := fun cc' r' => b.scored cc' r' ∨ cc' = cc ∧ r' = r }

end ScoringBoard

namespace ResumeDb

def observe (db : ResumeDb) : ScoringBoard where
  active campaignId := ∃ campaign, CampaignRepository.getById db.toDb campaignId = some campaign ∧
    campaign.status = .active
  links cc := (db.campaignCandidates.find? cc).map fun cc => (cc.campaignId, cc.resumeId)
  resumes r := (getById db r).map fun r => (r.parseStatus, r.parserVersion)
  keys key := ∃ log ∈ db.taskLogs.rows, log.idempotencyKey = some key
  scored cc r := ∃ log ∈ db.taskLogs.rows, log.taskType = deterministicScoreTaskType ∧
    log.campaignCandidateId = some cc ∧ log.resumeId = some r

end ResumeDb

section Observed

open ResumeDb

variable (db : ResumeDb)

theorem map_find?_of_rows {α : Type} {t t' : Table ResumeRow ResumeRow.id}
    {f : ResumeRow → ResumeRow} (hrows : t'.rows = t.rows.map f) (hf : ∀ r, (f r).id = r.id)
    (seen : ResumeRow → α) (x : Uuid) :
    (t'.find? x).map seen = (t.find? x).map fun r => seen (f r) := by
  have hfind : t'.find? x = (t.modify f hf).find? x := by
    rw [Table.find?, Table.find?, hrows]
    rfl
  rw [hfind, Table.find?_modify, Option.map_map]
  rfl

theorem observe_updateParsedResult (r : Uuid) :
    observe (ResumeService.updateParsedResult db r) = (observe db).parse r := by
  have hresumes : (observe (ResumeService.updateParsedResult db r)).resumes =
      ((observe db).parse r).resumes := by
    funext x
    have hparse : ((observe db).parse r).resumes x =
        if x = r then ((observe db).resumes r).map fun _ =>
          (.parsed, some ResumeService.parserVersion)
        else (observe db).resumes x := Function.update_apply _ _ _ _
    rw [hparse]
    refine (map_find?_of_rows rfl (fun r => by split_ifs <;> rfl) _ x).trans ?_
    cases hrow : db.resumes.find? x with
    | none =>
      have hnone : (observe db).resumes x = none := by simp [observe, getById, hrow]
      split_ifs with hx
      · rw [← hx, hnone]
        rfl
      · exact hnone.symm
    | some row =>
      have hid := ((db.resumes.find?_eq_some _ _).mp hrow).2
      have hsome : (observe db).resumes x = some (row.parseStatus, row.parserVersion) := by
        simp [observe, getById, hrow]
      split_ifs with hx
      · rw [← hx, hsome]
        simp [hid]
      · have hne : row.id ≠ r := hid ▸ hx
        rw [hsome]
        simp [hne]
  exact ScoringBoard.ext rfl rfl hresumes rfl rfl

theorem observe_setTaskId (r : Uuid) (taskId : String) :
    observe (setTaskId r taskId db) = observe db := by
  have hresumes : (observe (setTaskId r taskId db)).resumes = (observe db).resumes := by
    funext x
    refine (map_find?_of_rows rfl (fun r => by split_ifs <;> rfl) _ x).trans ?_
    apply congrArg (fun f => (db.resumes.find? x).map f)
    funext row
    split_ifs <;> rfl
  exact ScoringBoard.ext rfl rfl hresumes rfl rfl

theorem observe_withNextVersion (fields : NewResume) :
    observe (withNextVersion db fields) = (observe db).store db.resumes.next := by
  have hbefore (c x : Uuid) : ((beforeInsert db c).resumes.find? x).map
      (fun r => (r.parseStatus, r.parserVersion)) = (observe db).resumes x := by
    rw [beforeInsert]
    cases getActiveByCandidate db c with
    | none => rfl
    | some _ =>
      refine (map_find?_of_rows rfl (fun r => by split_ifs <;> rfl) _ x).trans ?_
      apply congrArg (fun f => (db.resumes.find? x).map f)
      funext row
      split_ifs <;> rfl
  have hnext (c : Uuid) : (beforeInsert db c).resumes.next = db.resumes.next := by
    rw [beforeInsert]
    split <;> rfl
  have hrest (c : Uuid) : (beforeInsert db c).toDb = db.toDb ∧
      (beforeInsert db c).taskLogs = db.taskLogs := by
    rw [beforeInsert]
    split <;> exact ⟨rfl, rfl⟩
  obtain ⟨hdb, hlogs⟩ := hrest fields.candidateId
  apply ScoringBoard.ext
  · change (fun c => ∃ campaign, CampaignRepository.getById (beforeInsert db _).toDb c = _ ∧ _) = _
    rw [hdb]
    rfl
  · change (fun cc => ((beforeInsert db _).campaignCandidates.find? cc).map _) = _
    rw [hdb]
    rfl
  · funext x
    have hstore : ((observe db).store db.resumes.next).resumes x =
        if x = db.resumes.next then some (.pending, none) else (observe db).resumes x :=
      Function.update_apply _ _ _ _
    rw [hstore]
    refine (congrArg (Option.map _) (Table.find?_insert _ _ (fun _ => rfl) x)).trans ?_
    rw [hnext]
    by_cases hx : x = db.resumes.next
    · rw [if_pos hx, if_pos hx]
      rfl
    · rw [if_neg hx, if_neg hx]
      exact hbefore _ x
  · change (fun key => ∃ log ∈ (beforeInsert db _).taskLogs.rows, _) = _
    rw [hlogs]
    rfl
  · change (fun cc r => ∃ log ∈ (beforeInsert db _).taskLogs.rows, _) = _
    rw [hlogs]
    rfl

theorem observe_next : (observe db).resumes db.resumes.next = none := by
  change (db.resumes.find? db.resumes.next).map _ = none
  rw [Table.find?_next]
  rfl

open ResumeTaskLogRepository

theorem getByIdempotencyKey_isSome (key : String) :
    (getByIdempotencyKey db key).isSome = true ↔ (observe db).keys key := by
  rw [getByIdempotencyKey, List.find?_isSome]
  simp only [decide_eq_true_eq]
  rfl

theorem observe_createLog_scoring (taskId : String) (cc r : Uuid) :
    observe (createLog db taskId deterministicScoreTaskType (some (scoringKey cc r)) (some r)
      (some cc)) = (observe db).score cc r := by
  refine ScoringBoard.ext rfl rfl rfl ?_ ?_
  · funext key
    change (∃ log ∈ db.taskLogs.rows ++ [_], _) = _
    simp only [List.mem_append, List.mem_singleton, or_and_right, exists_or, exists_eq_left]
    exact congrArg (_ ∨ ·) (by simp [newLog, eq_comm])
  · funext cc' r'
    change (∃ log ∈ db.taskLogs.rows ++ [_], _) = _
    simp only [List.mem_append, List.mem_singleton, or_and_right, exists_or, exists_eq_left]
    exact congrArg (_ ∨ ·) (by simp [newLog, eq_comm])

theorem observe_createLog_other (taskId taskType : String)
    (htype : taskType ≠ deterministicScoreTaskType) (key : Option String)
    (r cc : Option Uuid) :
    observe (createLog db taskId taskType key r cc) =
      { observe db with keys := fun k => (observe db).keys k ∨ key = some k } := by
  refine ScoringBoard.ext rfl rfl rfl ?_ ?_
  · funext k
    change (∃ log ∈ db.taskLogs.rows ++ [_], _) = _
    simp only [List.mem_append, List.mem_singleton, or_and_right, exists_or, exists_eq_left]
    rfl
  · funext cc' r'
    change (∃ log ∈ db.taskLogs.rows ++ [_], _) = _
    simp only [List.mem_append, List.mem_singleton, or_and_right, exists_or, exists_eq_left]
    have hnone : ¬(newLog taskId taskType key r cc db.taskLogs.next).taskType =
        deterministicScoreTaskType := htype
    simp only [hnone, false_and, or_false]
    rfl

theorem observe_createLog_unkeyed (taskId taskType : String)
    (htype : taskType ≠ deterministicScoreTaskType) (r cc : Option Uuid) :
    observe (createLog db taskId taskType none r cc) = observe db := by
  rw [observe_createLog_other db taskId taskType htype]
  simp

theorem observe_createLog_processing (taskId : String) (r : Uuid) :
    observe (createLog db taskId resumeDocumentProcessingTaskType (some (processingKey r)) (some r)
      none) = (observe db).take (processingKey r) := by
  rw [observe_createLog_other db taskId _ (by decide)]
  simp only [Option.some.injEq, eq_comm]
  rfl

theorem observe_linked (linked : Db) (cc : CampaignCandidate)
    (hcampaigns : linked.campaigns = db.campaigns)
    (hlinks : linked.campaignCandidates.rows = db.campaignCandidates.rows ++ [cc])
    (hid : cc.id = db.campaignCandidates.next) :
    observe { db with toDb := linked } = (observe db).link cc.id cc.campaignId cc.resumeId := by
  have hfind (x : Uuid) : linked.campaignCandidates.find? x =
      if x = cc.id then some cc else db.campaignCandidates.find? x := by
    rw [Table.find?, hlinks, List.find?_append]
    by_cases hx : x = cc.id
    · rw [if_pos hx, hx, hid]
      have hnone : db.campaignCandidates.rows.find?
          (fun r => decide (r.id = db.campaignCandidates.next)) = none :=
        db.campaignCandidates.find?_next
      rw [hnone]
      simp [hid]
    · have hne : ¬cc.id = x := fun h => hx h.symm
      rw [if_neg hx]
      simp [hne, Table.find?]
  apply ScoringBoard.ext
  · change (fun c => ∃ campaign, linked.campaigns.find? c = _ ∧ _) = _
    rw [hcampaigns]
    rfl
  · funext x
    have hlink : ((observe db).link cc.id cc.campaignId cc.resumeId).links x =
        if x = cc.id then some (cc.campaignId, cc.resumeId) else (observe db).links x :=
      Function.update_apply _ _ _ _
    rw [hlink]
    refine (congrArg (Option.map _) (hfind x)).trans ?_
    split_ifs <;> rfl
  · rfl
  · rfl
  · rfl

theorem observe_createCampaignCandidate {linked : Db} {campaignId candidateId resumeId id : Uuid}
    {actorId : String} {actorRole : Option String}
    (h : CampaignCandidateService.createCampaignCandidate db.toDb campaignId candidateId resumeId
      actorId actorRole = .ok (linked, id)) :
    id = db.campaignCandidates.next ∧
      observe { db with toDb := linked } = (observe db).link id campaignId resumeId := by
  obtain ⟨-, -, hadded⟩ := createCampaignCandidate_eq_ok.mp h
  cases hadded
  exact ⟨rfl, observe_linked db _
    (CampaignCandidateService.newCandidate campaignId candidateId resumeId _) rfl rfl rfl⟩

theorem transitionToScreening_frame (table : TransitionTable) (now : Instant) (db db' : Db)
    (cc : CampaignCandidate)
    (h : (StageTransitionService.transitionToScreening table db cc now).1 = db') :
    db' = db ∨ db'.campaigns = db.campaigns ∧ ∃ after : CampaignCandidate,
      after.id = cc.id ∧ after.campaignId = cc.campaignId ∧ after.resumeId = cc.resumeId ∧
        db'.campaignCandidates = db.campaignCandidates.replace after := by
  rw [StageTransitionService.transitionToScreening] at h
  split_ifs at h
  · exact .inl h.symm
  · exact .inl h.symm
  · subst h
    exact .inr ⟨rfl, { cc.movedTo .screening with updatedAt := some now }, rfl, rfl, rfl, rfl⟩

theorem observe_moveToScreening (table : TransitionTable) (now : Instant) (cc : Uuid) :
    observe (Activity.moveToScreening table now db cc) = observe db := by
  rw [Activity.moveToScreening]
  cases hrow : CampaignCandidateRepository.getById db.toDb cc with
  | none => rfl
  | some row =>
    dsimp only
    cases CampaignRepository.getById db.toDb row.campaignId with
    | none => rfl
    | some campaign =>
      dsimp only
      by_cases hstatus : campaign.status ∈ scoreableCampaignStatuses
      · rw [if_neg (not_not.mpr hstatus)]
        obtain ⟨moved, hmove⟩ :
            ∃ moved, (StageTransitionService.transitionToScreening table db.toDb row now).1 =
              moved := ⟨_, rfl⟩
        rw [hmove]
        rcases transitionToScreening_frame table now _ _ row hmove with
          rfl | ⟨hcampaigns, after, hid, hcampaign, hresume, hreplaced⟩
        · rfl
        · have hcc : row.id = cc := ((db.campaignCandidates.find?_eq_some _ _).mp hrow).2
          have hfound : db.campaignCandidates.find? after.id = some row := by
            rw [hid, hcc]
            exact hrow
          refine ScoringBoard.ext ?_ ?_ rfl rfl rfl
          · simp only [observe, CampaignRepository.getById, hcampaigns]
          · funext x
            simp only [observe, hreplaced]
            by_cases hx : x = after.id
            · rw [hx, db.campaignCandidates.find?_replace_self after row hfound, hfound]
              exact congrArg some (Prod.ext hcampaign hresume)
            · rw [db.campaignCandidates.find?_replace_ne after x hx]
      · rw [if_pos hstatus]

end Observed

section Programs

open ResumeDb

variable {start db : ResumeDb} {commits : List (ResumeCommit × ResumeDb)}

-- What a program leaves on the board, if it returns and if it raises.
def Leaves {α : Type} (start : ResumeDb) (ok : α → ScoringBoard → Prop)
    (error : ScoringBoard → Prop) (p : ResumeM α) (db : ResumeDb)
    (commits : List (ResumeCommit × ResumeDb)) : Prop :=
  Ends (fun result _ commits =>
      match result with
      | .ok a => ok a (observe (lastCommitted start commits))
      | .error _ => error (observe (lastCommitted start commits)))
    (fun _ => True) p db commits

variable {error : ScoringBoard → Prop}

theorem leaves_query_bind {α β : Type} {ok : α → ScoringBoard → Prop}
    (read : ResumeDb → β) (f : β → ResumeM α) :
    Leaves start ok error (query read >>= f) db commits ↔
      Leaves start ok error (f (read db)) db commits := by
  rw [Leaves, ends_query_bind]
  exact and_iff_right trivial

theorem leaves_commitAs_bind {α : Type} {ok : α → ScoringBoard → Prop}
    (tag : ResumeCommit) (f : Unit → ResumeM α) :
    Leaves start ok error (commitAs tag >>= f) db commits ↔
      Leaves start ok error (f ()) db (commits ++ [(tag, db)]) := by
  rw [Leaves, ends_commitAs_bind]
  exact and_iff_right trivial

theorem leaves_ofExcept_bind {α β : Type} {ok : α → ScoringBoard → Prop}
    (given : Except ResumeError β) (f : β → ResumeM α)
    (herror : error (observe (lastCommitted start commits)))
    (hok : ∀ b, Leaves start ok error (f b) db commits) :
    Leaves start ok error (ResumeM.ofExcept given >>= f) db commits :=
  ends_ofExcept_bind given f (fun _ => herror) fun b _ => hok b

theorem leaves_precheck {α : Type} {ok : α → ScoringBoard → Prop}
    (campaignId : Uuid) (f : Unit → ResumeM α)
    (herror : error (observe (lastCommitted start commits)))
    (hok : Leaves start ok error (f ()) db commits) :
    Leaves start ok error
      (ResumeIntakeService.precheckCampaignEligibility campaignId >>= f) db commits := by
  rw [Leaves, ends_bind]
  exact ends_precheck campaignId trivial (fun _ => herror) fun _ => hok

theorem leaves_checkMembership {α : Type} {ok : α → ScoringBoard → Prop}
    (campaignId : Uuid) (emailHash : String) (f : Unit → ResumeM α)
    (herror : error (observe (lastCommitted start commits)))
    (hok : Leaves start ok error (f ()) db commits) :
    Leaves start ok error
      (ResumeIntakeService.checkNoExistingCampaignMembership campaignId emailHash >>= f) db
      commits := by
  rw [Leaves, ends_bind]
  exact ends_checkNoExistingCampaignMembership campaignId emailHash trivial (fun _ => herror)
    fun _ => hok

theorem leaves_createCampaignCandidate {α : Type} {ok : α → ScoringBoard → Prop}
    (campaignId candidateId resumeId : Uuid) (actorId : String)
    (actorRole : Option String) (f : Uuid → ResumeM α)
    (herror : error (observe (lastCommitted start commits)))
    (hok : ∀ linked id, id = db.campaignCandidates.next →
      observe { db with toDb := linked } = (observe db).link id campaignId resumeId →
        Leaves start ok error (f id) { db with toDb := linked } commits) :
    Leaves start ok error
      (ResumeIntakeService.createCampaignCandidate campaignId candidateId resumeId actorId
        actorRole >>= f) db commits := by
  rw [Leaves, ends_bind]
  apply ends_createCampaignCandidate _ _ _ _ _ trivial (fun _ => herror)
  intro linked id hlink
  obtain ⟨hid, hobserve⟩ := observe_createCampaignCandidate db hlink
  exact hok linked id hid hobserve

theorem leaves_createVersion {α : Type} {ok : α → ScoringBoard → Prop}
    (fields : NewResume) (f : ResumeRow → ResumeM α)
    (hok : ∀ resume, resume.id = db.resumes.next → ∀ stored : ResumeDb,
      observe stored = (observe db).store resume.id →
        Leaves start ok error (f resume) stored (commits ++ [(.resume, stored)])) :
    Leaves start ok error
      ((do let resume ← createVersion fields
           commitAs .resume
           pure resume) >>= f) db commits := by
  rw [Leaves, ends_bind, ends_bind]
  apply ends_createVersion _ trivial
  refine ⟨trivial, ?_⟩
  exact hok (nextResume db fields) rfl (withNextVersion db fields) (observe_withNextVersion db fields)

theorem leaves_getOrCreate {α : Type} {ok : α → ScoringBoard → Prop}
    (emailHash : String) (f : CandidateRow → ResumeM α)
    (herror : error (observe (lastCommitted start commits)))
    (hfound : ∀ candidate, Leaves start ok error (f candidate) db commits)
    (hcreated : ∀ candidate db', observe db' = observe db → db'.resumes = db.resumes →
      Leaves start ok error (f candidate) db' (commits ++ [(.candidate, db')])) :
    Leaves start ok error (CandidateService.getOrCreate emailHash >>= f) db commits := by
  rw [Leaves, ends_bind]
  apply ends_getOrCreate _ trivial
  · intro existing _ _
    exact hfound existing
  · exact herror
  · rintro db' rfl
    exact hcreated _ _ rfl rfl

open Activity

theorem Leaves.ofRequest {ok : Activity → ScoringBoard → Prop}
    {p : ResumeM Activity} (h : Leaves db ok error p db []) :
    (ok (ofRequest db p).next (observe (ofRequest db p).db) ∨
      (ofRequest db p).next = .done ∧ error (observe (ofRequest db p).db)) ∧
      (ofRequest db p).sent = none := by
  rw [Activity.ofRequest]
  rcases Ends.normal h with ⟨a, hresult, hpost⟩ | ⟨e, hresult, hpost⟩
  · rw [hresult]
    exact ⟨.inl hpost, rfl⟩
  · rw [hresult]
    exact ⟨.inr ⟨rfl, hpost⟩, rfl⟩

theorem Leaves.ofTask {ok : Activity → ScoringBoard → Prop}
    {p : ResumeM Activity} {made : Advance} (h : Leaves db ok error p db [])
    (hmade : ofTask db p = some made) :
    ok made.next (observe made.db) ∧ made.sent = none := by
  rw [Activity.ofTask] at hmade
  rcases Ends.normal h with ⟨a, hresult, hpost⟩ | ⟨e, hresult, -⟩
  · rw [hresult] at hmade
    cases hmade
    exact ⟨hpost, rfl⟩
  · rw [hresult] at hmade
    simp at hmade

def Stores (db : ResumeDb) (resume : ResumeRow) (b : ScoringBoard) : Prop :=
  (observe db).resumes resume.id = none ∧ b = (observe db).store resume.id

theorem leaves_extract (file : BulkFile) :
    Leaves db (fun a b => ∃ resume, a = parsing file resume ∧ Stores db resume b)
      (fun b => b = observe db) (extract file) db [] := by
  have hstore (candidate : CandidateRow) (db' : ResumeDb) (commits : List (ResumeCommit × ResumeDb))
      (hobserve : observe db' = observe db) (hresumes : db'.resumes = db.resumes) :
      Leaves db (fun a b => ∃ resume, a = parsing file resume ∧ Stores db resume b)
        (fun b => b = observe db)
        ((do let resume ← createVersion
               { candidateId := candidate.id, filePath := file.storagePath,
                 fileFormat := file.fileFormat, fileHash := file.fileHash,
                 uploadedBy := file.uploadedBy, bulkUploadJobId := some file.jobId,
                 taskId := some file.taskId }
             commitAs .resume
             pure resume) >>= fun resume => pure (parsing file resume)) db' commits := by
    apply leaves_createVersion
    intro resume hid stored hstored
    refine ⟨resume, rfl, ?_, ?_⟩
    · rw [hid, hresumes]
      exact observe_next db
    · rw [lastCommitted_snoc, hstored, hobserve]
  rw [extract, createBulkResume, bind_bind]
  apply leaves_getOrCreate
  · rfl
  · intro candidate
    exact hstore candidate db [] rfl rfl
  · intro candidate db' hobserve hresumes
    exact hstore candidate db' _ hobserve hresumes

theorem leaves_storeResume (request : IntakeRequest) (fileFormat : FileFormat)
    (matched : Option Uuid) :
    Leaves db (fun a b => ∃ resume, a = linkingUpload request resume ∧ Stores db resume b)
      (fun b => b = observe db)
      (storeResume request fileFormat matched >>= fun resume =>
        pure (linkingUpload request resume)) db [] := by
  have hstore (candidateId : Uuid) (objectPath : String) (db' : ResumeDb)
      (commits : List (ResumeCommit × ResumeDb))
      (hobserve : observe db' = observe db) (hresumes : db'.resumes = db.resumes) :
      Leaves db (fun a b => ∃ resume, a = linkingUpload request resume ∧ Stores db resume b)
        (fun b => b = observe db)
        (ResumeUploadService.createNextVersion candidateId objectPath fileFormat
          request.toUploadRequest >>= fun resume => pure (linkingUpload request resume))
        db' commits := by
    apply leaves_createVersion
    intro resume hid stored hstored
    refine ⟨resume, rfl, ?_, ?_⟩
    · rw [hid, hresumes]
      exact observe_next db
    · rw [lastCommitted_snoc, hstored, hobserve]
  rw [storeResume, bind_bind]
  refine leaves_ofExcept_bind _ _ rfl fun objectPath => ?_
  rw [bind_bind]
  cases matched with
  | some candidateId => exact hstore candidateId objectPath db [] rfl rfl
  | none =>
    rw [resolveCandidate, bind_bind]
    apply leaves_getOrCreate
    · rfl
    · intro candidate
      exact hstore candidate.id objectPath db [] rfl rfl
    · intro candidate db' hobserve hresumes
      exact hstore candidate.id objectPath db' _ hobserve hresumes

theorem leaves_checkUpload (request : IntakeRequest) :
    Leaves db (fun a b => (a = .done ∨ ∃ fileFormat matched, a = storing request fileFormat matched) ∧
        b = observe db)
      (fun b => b = observe db) (checkUpload request) db [] := by
  refine leaves_precheck _ _ rfl ?_
  refine leaves_checkMembership _ _ _ rfl ?_
  refine leaves_ofExcept_bind _ _ rfl fun fileFormat => ?_
  rw [leaves_query_bind]
  cases getByFileHashGlobal db request.file.fileHash with
  | none => exact ⟨.inr ⟨fileFormat, none, rfl⟩, rfl⟩
  | some matched =>
    cases request.resolution with
    | none => exact rfl
    | some resolution =>
      cases resolution with
      | uploadAnyway => exact ⟨.inr ⟨fileFormat, some matched.candidateId, rfl⟩, rfl⟩
      | useExisting =>
        refine leaves_createCampaignCandidate _ _ _ _ _ _ rfl ?_
        intro linked id _ _
        exact ⟨.inl rfl, rfl⟩

theorem leaves_linkUpload (request : IntakeRequest) (resume : ResumeRow) :
    Leaves db
      (fun a b => a = queueing request resume ∧
        b = (observe db).link db.campaignCandidates.next request.campaignId resume.id)
      (fun b => b = observe db) (linkUpload request resume) db [] := by
  refine leaves_createCampaignCandidate _ _ _ _ _ _ rfl ?_
  rintro linked _ rfl hobserve
  refine ⟨trivial, trivial, rfl, ?_⟩
  exact hobserve

theorem leaves_linkParsed (file : BulkFile) (resume : ResumeRow) :
    Leaves db
      (fun a b => a = parsed resume.id ∧
        b = (observe db).link db.campaignCandidates.next file.campaignId resume.id)
      (fun b => b = observe db) (linkParsed file resume) db [] := by
  refine leaves_createCampaignCandidate _ _ _ _ _ _ rfl ?_
  rintro linked _ rfl hobserve
  refine ⟨trivial, rfl, ?_⟩
  exact hobserve

theorem leaves_linkDuplicate (file : BulkFile) (matched : ResumeRow) :
    Leaves db
      (fun a b => a = .done ∧ (b = observe db ∨
        CampaignCandidateRepository.getByCampaignAndCandidate db file.campaignId
            matched.candidateId = none ∧
          b = (observe db).link db.campaignCandidates.next file.campaignId matched.id))
      (fun b => b = observe db) (linkDuplicate file matched) db [] := by
  rw [linkDuplicate, leaves_query_bind]
  cases hmember : CampaignCandidateRepository.getByCampaignAndCandidate db file.campaignId
      matched.candidateId with
  | some _ => exact ⟨rfl, .inl rfl⟩
  | none =>
    refine leaves_createCampaignCandidate _ _ _ _ _ _ rfl ?_
    rintro linked _ rfl hobserve
    exact ⟨trivial, rfl, .inr ⟨rfl, hobserve⟩⟩

theorem leaves_recordTaskId {α : Type} {ok : α → ScoringBoard → Prop}
    (resumeId : Uuid) (taskId : String) (f : Unit → ResumeM α)
    (hok : ∀ db', observe db' = observe db →
      Leaves start ok error (f ()) db' (commits ++ [(.taskId, db')])) :
    Leaves start ok error (ResumeUploadService.recordTaskId resumeId taskId >>= f) db commits :=
  ⟨trivial, trivial, hok _ (observe_setTaskId db resumeId taskId)⟩

theorem leaves_createIfNew {α : Type} {ok : α → ScoringBoard → Prop}
    (taskId : String) (resumeId : Uuid)
    (f : ResumeTaskLog × Bool → ResumeM α)
    (hexisting : ∀ log, (observe db).keys (processingKey resumeId) →
      Leaves start ok error (f (log, false)) db commits)
    (hcreated : ∀ log db', ¬(observe db).keys (processingKey resumeId) →
      observe db' = (observe db).take (processingKey resumeId) →
        Leaves start ok error (f (log, true)) db' commits) :
    Leaves start ok error
      (ResumeTaskLogRepository.createIfNewIdempotencyKey taskId resumeDocumentProcessingTaskType
        (processingKey resumeId) resumeId >>= f) db commits := by
  have hkey := getByIdempotencyKey_isSome db (processingKey resumeId)
  rw [ResumeTaskLogRepository.createIfNewIdempotencyKey, bind_bind, leaves_query_bind]
  cases hlog : ResumeTaskLogRepository.getByIdempotencyKey db (processingKey resumeId) with
  | some existing =>
    rw [hlog] at hkey
    exact hexisting existing (hkey.mp rfl)
  | none =>
    rw [hlog] at hkey
    refine ⟨trivial, hcreated _ _ (fun h => by simpa using hkey.mpr h) ?_⟩
    exact observe_createLog_processing db taskId resumeId

-- The task's key is taken and its message sent, unless somebody has taken it.
theorem observe_queueUpload (request : IntakeRequest) (resume : ResumeRow) :
    (queueUpload db request resume).next = .done ∧
      ((observe db).keys (processingKey resume.id) ∧
          observe (queueUpload db request resume).db = observe db ∧
          (queueUpload db request resume).sent = none ∨
        ¬(observe db).keys (processingKey resume.id) ∧
          observe (queueUpload db request resume).db = (observe db).take (processingKey resume.id) ∧
          (queueUpload db request resume).sent = some (processing resume.id)) := by
  have hleaves : Leaves db
      (fun _ b => (observe db).keys (processingKey resume.id) ∧ b = observe db ∨
        ¬(observe db).keys (processingKey resume.id) ∧
          b = (observe db).take (processingKey resume.id))
      (fun _ => False)
      (ResumeIntakeService.queueProcessing { request with dispatch := none } resume) db [] := by
    apply leaves_recordTaskId
    intro db' hdb'
    apply leaves_createIfNew
    · intro log hkey
      rw [leaves_commitAs_bind, Bool.not_false, if_pos rfl]
      apply leaves_recordTaskId
      intro db'' hdb''
      refine .inl ⟨hdb' ▸ hkey, ?_⟩
      rw [lastCommitted_snoc, hdb'', hdb']
    · intro log db'' hkey hdb''
      refine ⟨trivial, .inr ⟨hdb' ▸ hkey, ?_⟩⟩
      rw [lastCommitted_snoc, hdb'', hdb']
  refine ⟨rfl, ?_⟩
  have hsent := getByIdempotencyKey_isSome db (processingKey resume.id)
  rw [queueUpload]
  rcases Ends.normal hleaves with ⟨_, _, hpost⟩ | ⟨_, _, hfalse⟩
  · rcases hpost with ⟨hkey, hdb⟩ | ⟨hkey, hdb⟩
    · refine .inl ⟨hkey, hdb, if_neg ?_⟩
      rw [Option.isNone_iff_eq_none]
      intro hnone
      simp [hnone, hkey] at hsent
    · refine .inr ⟨hkey, hdb, if_pos ?_⟩
      rw [Option.isNone_iff_eq_none, ← Option.not_isSome_iff_eq_none]
      exact fun hsome => hkey (hsent.mp hsome)
  · exact hfalse.elim

end Programs

end AiHiring
