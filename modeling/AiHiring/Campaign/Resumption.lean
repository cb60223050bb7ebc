import AiHiring.Campaign.Update

namespace AiHiring

open Library CampaignDb CampaignService

-- The rows that a failed update must leave alone.
structure Unchanged (db db' : CampaignDb) : Prop where
  campaigns : db'.campaigns = db.campaigns
  taskLogs : db'.taskLogs = db.taskLogs
  resumes : db'.resumes = db.resumes

-- All suspended work is back: no row is PAUSED any more, and each of them and
-- each PENDING resume has one message.
structure Restored (db db' : CampaignDb) (newTaskId : Uuid → String) (campaignId : Uuid)
    (sent : List Message) : Prop where
  resumed : getPausedTasks db' campaignId = []
  messages : (sent.map (·.taskId)).Perm ((getPausedTasks db campaignId).map (·.taskId) ++
    (getPendingResumes db campaignId).map fun r => newTaskId r.id)

section Update

variable (lower : String → String) (db : CampaignDb) (now : Instant)
  (request : CampaignUpdateRequest) (faults : Faults) (newTaskId : Uuid → String)
  (campaignId : Uuid)

def Accepted (campaign updated : CampaignRow) : Prop :=
  findCampaign db campaignId = .ok campaign ∧
    checkUpdate lower db now request campaign = .ok updated

structure KeepsPromise : Prop where
  restores : faults = Faults.none → ∀ campaign updated,
    Accepted lower db now request campaignId campaign updated → resumedNow request campaign →
      let outcome := updateCampaign lower db now request faults newTaskId campaignId
      outcome.result = .ok updated ∧ Restored db outcome.db newTaskId campaignId outcome.sent
  raises : ∀ e,
    (updateCampaign lower db now request faults newTaskId campaignId).result = .error e →
      Unchanged db (updateCampaign lower db now request faults newTaskId campaignId).db ∧
        (updateCampaign lower db now request faults newTaskId campaignId).sent = []

-- The suspended tasks that a resume sends again.
def resubmitted : List CeleryTaskLog :=
  (getPausedTasks db campaignId).filter fun task => task.taskType = deterministicScoreTaskType

def resubmissionMessage (task : CeleryTaskLog) : Message :=
  ⟨calculateDeterministicScoreTask.name, resubmission task, task.taskId⟩

-- A resume that cannot send all it has to.
def Stuck (campaign : CampaignRow) : Prop :=
  resumedNow request campaign ∧ (getPendingResumes db campaignId ≠ [] ∨
    ∃ task ∈ resubmitted db campaignId, faults.refuses (resubmissionMessage task))

-- Something raises after the messages have begun to go out, and before the commit.
def RaisesLate (campaign : CampaignRow) : Prop :=
  faults.record ∨ Stuck db request faults campaignId campaign

-- No message is out by then: there is none to send, or the broker refuses the first.
def Unsent (campaign : CampaignRow) : Prop :=
  resumedNow request campaign → ∀ task, (resubmitted db campaignId).head? = some task →
    faults.refuses (resubmissionMessage task)

-- All suspended work is of the one kind that a resume can bring back.
def Resubmittable : Prop :=
  getPendingResumes db campaignId = [] ∧
    ∀ task ∈ getPausedTasks db campaignId, task.taskType = deterministicScoreTaskType

-- The condition under which an update keeps its promise.
def Delivers : Prop :=
  ∀ campaign updated, Accepted lower db now request campaignId campaign updated →
    (faults.prepare = false → (RaisesLate db request faults campaignId campaign →
        Unsent db request faults campaignId campaign) ∧
      (¬RaisesLate db request faults campaignId campaign → faults.respond = false)) ∧
    (faults = Faults.none → resumedNow request campaign → Resubmittable db campaignId)

end Update

section Loops

variable {db : CampaignDb} {faults : Faults} {campaignId : Uuid} {newTaskId : Uuid → String}

theorem binds_resubmission (task : CeleryTaskLog) :
    calculateDeterministicScoreTask.binds (resubmission task) = true := by
  simp [CeleryTask.binds, calculateDeterministicScoreTask, resubmission]

theorem not_binds_parse (resumeId : Uuid) :
    processResumeDocument.binds [("resume_id", text resumeId)] = false := by
  simp [CeleryTask.binds, processResumeDocument]

def resend (faults : Faults) (task : CeleryTaskLog) : Sending Message UpdateError Unit :=
  if task.taskType ≠ deterministicScoreTaskType then pure ()
  else applyAsync faults calculateDeterministicScoreTask (resubmission task) task.taskId

def resent (task : CeleryTaskLog) : List Message :=
  if task.taskType ≠ deterministicScoreTaskType then [] else [resubmissionMessage task]

def isRefused (faults : Faults) (task : CeleryTaskLog) : Bool :=
  task.taskType = deterministicScoreTaskType ∧ faults.refuses (resubmissionMessage task)

theorem resend_refused {task : CeleryTaskLog} (h : isRefused faults task) :
    resend faults task = ⟨[], .error .failure⟩ := by
  simp only [isRefused, decide_eq_true_eq] at h
  have hrefuses : faults.refuses ⟨calculateDeterministicScoreTask.name, resubmission task,
      task.taskId⟩ = true := h.2
  rw [resend, if_neg (not_not_intro h.1), applyAsync, binds_resubmission, if_neg (by simp),
    if_pos hrefuses]
  rfl

theorem resend_accepted {task : CeleryTaskLog} (h : ¬isRefused faults task) :
    resend faults task = ⟨resent task, .ok ()⟩ := by
  by_cases htype : task.taskType = deterministicScoreTaskType
  · have hrefuses : ¬faults.refuses ⟨calculateDeterministicScoreTask.name, resubmission task,
        task.taskId⟩ = true := by
      intro hrefuses
      exact h (by simpa only [isRefused, decide_eq_true_eq] using ⟨htype, hrefuses⟩)
    rw [resend, if_neg (not_not_intro htype), applyAsync, binds_resubmission, if_neg (by simp),
      if_neg hrefuses, resent, if_neg (not_not_intro htype)]
    rfl
  · rw [resend, if_pos htype, resent, if_pos htype]
    rfl

theorem flatMap_resent (tasks : List CeleryTaskLog) :
    tasks.flatMap resent = (tasks.filter fun task => task.taskType = deterministicScoreTaskType).map
        resubmissionMessage := by
  induction tasks with
  | nil => rfl
  | cons task rest ih =>
    by_cases h : task.taskType = deterministicScoreTaskType
    · simp [resent, h, ih]
    · simp [resent, h, ih]

theorem exists_isRefused :
    (∃ task ∈ resubmitted db campaignId, faults.refuses (resubmissionMessage task)) ↔
      ∃ task ∈ getPausedTasks db campaignId, isRefused faults task := by
  simp only [resubmitted, List.mem_filter, decide_eq_true_eq, isRefused, and_assoc]

theorem resubmit_ok (h : ¬∃ task ∈ getPausedTasks db campaignId, isRefused faults task) :
    resubmitPausedTasks db faults campaignId =
      ⟨(resubmitted db campaignId).map resubmissionMessage,
        .ok (setStatus db (isResubmitted db campaignId) .queued)⟩ := by
  have hloop : Sending.forEach (getPausedTasks db campaignId) (resend faults) =
      ⟨(getPausedTasks db campaignId).flatMap resent, .ok ()⟩ :=
    Sending.forEach_of_ok fun task htask => resend_accepted fun hrefused => h ⟨task, htask, hrefused⟩
  refine (Sending.bind_of_ok hloop _).trans ?_
  rw [flatMap_resent]
  simp [pure, resubmitted]

theorem resubmit_refused (h : ∃ task ∈ getPausedTasks db campaignId, isRefused faults task) :
    ∃ sent, resubmitPausedTasks db faults campaignId = ⟨sent, .error .failure⟩ ∧
      (sent = [] ↔ ∀ task, (resubmitted db campaignId).head? = some task →
        faults.refuses (resubmissionMessage task)) := by
  obtain ⟨first, hfirst⟩ := Option.isSome_iff_exists.mp (List.find?_isSome.mpr h)
  obtain ⟨hrefused, before, after, hsplit, hbefore⟩ := List.find?_eq_some_iff_append.mp hfirst
  have hloop : Sending.forEach (getPausedTasks db campaignId) (resend faults) =
      ⟨before.flatMap resent, .error .failure⟩ := by
    rw [hsplit]
    refine Sending.forEach_of_error (fun task htask => ?_) (resend_refused hrefused)
    exact resend_accepted (by simpa using hbefore task htask)
  refine ⟨before.flatMap resent, Sending.bind_of_error hloop _, ?_⟩
  simp only [isRefused, decide_eq_true_eq] at hrefused
  rw [flatMap_resent, List.map_eq_nil_iff]
  have hresubmitted : resubmitted db campaignId =
      (before.filter fun task => task.taskType = deterministicScoreTaskType) ++
        first :: after.filter fun task => task.taskType = deterministicScoreTaskType := by
    rw [resubmitted, hsplit, List.filter_append, List.filter_cons_of_pos (by simp [hrefused.1])]
  rw [hresubmitted]
  cases hsent : before.filter fun task => task.taskType = deterministicScoreTaskType with
  | nil =>
    refine iff_of_true rfl ?_
    intro task htask
    cases htask
    exact hrefused.2
  | cons task rest =>
    refine iff_of_false (List.cons_ne_nil _ _) ?_
    intro hall
    have hmem : task ∈ before.filter fun task => task.taskType = deterministicScoreTaskType := by
      rw [hsent]
      exact List.mem_cons_self
    obtain ⟨hin, htype⟩ := List.mem_filter.mp hmem
    have haccepted := hbefore task hin
    have hrefuses := hall task rfl
    simp [isRefused, hrefuses, of_decide_eq_true htype] at haccepted

theorem enqueue_ok (h : getPendingResumes db campaignId = []) :
    enqueuePendingResumeParses db faults newTaskId campaignId =
      ⟨[], .ok { db with
        resumes := db.resumes.modify (withTaskId newTaskId []) (withTaskId_id newTaskId []) }⟩ := by
  simp only [enqueuePendingResumeParses, h]
  rfl

theorem enqueue_error (h : getPendingResumes db campaignId ≠ []) :
    enqueuePendingResumeParses db faults newTaskId campaignId =
      ⟨[], .error (.typeError processResumeDocument.name)⟩ := by
  obtain ⟨first, rest, hpending⟩ := List.exists_cons_of_ne_nil h
  have hfirst : applyAsync faults processResumeDocument [("resume_id", text first.id)]
      (newTaskId first.id) = ⟨[], .error (.typeError processResumeDocument.name)⟩ := by
    rw [applyAsync, not_binds_parse, if_pos (by simp)]
    rfl
  simp only [enqueuePendingResumeParses, hpending]
  refine Sending.bind_of_error ?_ _
  rw [Sending.forEach, Sending.bind_of_error hfirst]

end Loops

section Updates

variable {lower : String → String} {db : CampaignDb} {now : Instant}
  {request : CampaignUpdateRequest} {faults : Faults} {newTaskId : Uuid → String}
  {campaignId : Uuid} {campaign updated : CampaignRow}

def withCampaign (db : CampaignDb) (updated : CampaignRow) : CampaignDb :=
  { db with campaigns := db.campaigns.replace updated }

theorem not_pausedNow (h : resumedNow request campaign) : ¬pausedNow request campaign := by
  simp only [resumedNow, decide_eq_true_eq] at h
  simp [pausedNow, h.1]

def restoredDb (db : CampaignDb) (newTaskId : Uuid → String) (campaignId : Uuid) : CampaignDb :=
  let db' := setStatus db (isResubmitted db campaignId) .queued
  { db' with
    resumes := db'.resumes.modify (withTaskId newTaskId []) (withTaskId_id newTaskId []) }

theorem messages_eq_nil (hresumed : resumedNow request campaign)
    (haccepted : ¬∃ task ∈ getPausedTasks db campaignId, isRefused faults task) :
    (resubmitted db campaignId).map resubmissionMessage = [] ↔
      Unsent db request faults campaignId campaign := by
  rw [List.map_eq_nil_iff]
  cases hresubmitted : resubmitted db campaignId with
  | nil => exact iff_of_true rfl fun _ task htask => by simp [hresubmitted] at htask
  | cons task rest =>
    refine iff_of_false (List.cons_ne_nil _ _) ?_
    intro hunsent
    have hmem : task ∈ resubmitted db campaignId := hresubmitted ▸ List.mem_cons_self
    have hrefuses := hunsent hresumed task (by rw [hresubmitted]; rfl)
    exact haccepted (exists_isRefused.mp ⟨task, hmem, hrefuses⟩)

variable (db newTaskId) in
theorem moveTasks_error (h : Stuck db request faults campaignId campaign) :
    ∃ sent e, moveTasks db request faults newTaskId campaignId campaign = ⟨sent, .error e⟩ ∧
      (sent = [] ↔ Unsent db request faults campaignId campaign) := by
  obtain ⟨hresumed, hwrong⟩ := h
  rw [moveTasks, if_neg (not_pausedNow hresumed), if_pos hresumed]
  by_cases hrefused : ∃ task ∈ getPausedTasks db campaignId, isRefused faults task
  · obtain ⟨sent, hloop, hsent⟩ := resubmit_refused hrefused
    refine ⟨sent, .failure, Sending.bind_of_error hloop _, hsent.trans ?_⟩
    exact ⟨fun h _ => h, fun h => h hresumed⟩
  · have hpending := hwrong.resolve_right fun h => hrefused (exists_isRefused.mp h)
    have henqueue : enqueuePendingResumeParses
        (setStatus db (isResubmitted db campaignId) .queued) faults newTaskId campaignId =
        ⟨[], .error (.typeError processResumeDocument.name)⟩ := enqueue_error hpending
    refine ⟨(resubmitted db campaignId).map resubmissionMessage,
      .typeError processResumeDocument.name, ?_, messages_eq_nil hresumed hrefused⟩
    rw [Sending.bind_of_ok (resubmit_ok hrefused), henqueue, List.append_nil]

variable (db newTaskId) in
theorem moveTasks_resumed (hresumed : resumedNow request campaign)
    (h : ¬Stuck db request faults campaignId campaign) :
    moveTasks db request faults newTaskId campaignId campaign =
      ⟨(resubmitted db campaignId).map resubmissionMessage,
        .ok (restoredDb db newTaskId campaignId)⟩ := by
  rw [Stuck, not_and, not_or, not_not] at h
  obtain ⟨hpending, haccepted⟩ := h hresumed
  rw [exists_isRefused] at haccepted
  have henqueue : enqueuePendingResumeParses (setStatus db (isResubmitted db campaignId) .queued)
      faults newTaskId campaignId = ⟨[], .ok (restoredDb db newTaskId campaignId)⟩ :=
    enqueue_ok hpending
  rw [moveTasks, if_neg (not_pausedNow hresumed), if_pos hresumed,
    Sending.bind_of_ok (resubmit_ok haccepted), henqueue, List.append_nil]

variable (db newTaskId) in
theorem moveTasks_ok (h : ¬Stuck db request faults campaignId campaign) :
    ∃ sent db', moveTasks db request faults newTaskId campaignId campaign = ⟨sent, .ok db'⟩ ∧
      db'.campaigns = db.campaigns ∧ (sent = [] ↔ Unsent db request faults campaignId campaign) := by
  by_cases hresumed : resumedNow request campaign
  · refine ⟨_, _, moveTasks_resumed db newTaskId hresumed h, rfl, messages_eq_nil hresumed ?_⟩
    intro hrefused
    exact h ⟨hresumed, .inr (exists_isRefused.mpr hrefused)⟩
  · -- without a resume nothing is sent
    have hunsent : Unsent db request faults campaignId campaign := fun h => absurd h hresumed
    by_cases hpaused : pausedNow request campaign
    · exact ⟨[], _, if_pos hpaused, rfl, iff_of_true rfl hunsent⟩
    · exact ⟨[], db, (if_neg hpaused).trans (if_neg hresumed), rfl, iff_of_true rfl hunsent⟩

variable (newTaskId updated) in
theorem applyUpdate_late (h : RaisesLate db request faults campaignId campaign) :
    ∃ sent e, applyUpdate db request faults newTaskId campaignId campaign updated =
        ⟨sent, .error e⟩ ∧
      (sent = [] ↔ Unsent db request faults campaignId campaign) := by
  by_cases hstuck : Stuck db request faults campaignId campaign
  · obtain ⟨sent, e, hmove, hsent⟩ := moveTasks_error (withCampaign db updated) newTaskId hstuck
    exact ⟨sent, e, Sending.bind_of_error hmove _, hsent⟩
  · obtain ⟨sent, db', hmove, -, hsent⟩ := moveTasks_ok (withCampaign db updated) newTaskId hstuck
    have hraise : record faults = ⟨[], .error .failure⟩ := if_pos (h.resolve_right hstuck)
    refine ⟨sent, .failure, (Sending.bind_of_ok hmove _).trans ?_, hsent⟩
    rw [Sending.bind_of_error hraise, List.append_nil]

variable (newTaskId updated) in
theorem applyUpdate_ok (h : ¬RaisesLate db request faults campaignId campaign) :
    applyUpdate db request faults newTaskId campaignId campaign updated =
      moveTasks (withCampaign db updated) request faults newTaskId campaignId campaign := by
  rw [RaisesLate, not_or] at h
  obtain ⟨sent, db', hmove, -, -⟩ := moveTasks_ok (withCampaign db updated) newTaskId h.2
  have hrecord : record faults = ⟨[], .ok ()⟩ := if_neg h.1
  refine (Sending.bind_of_ok hmove _).trans ?_
  rw [Sending.bind_of_ok hrecord, hmove]
  simp [pure]

variable (newTaskId updated) in
theorem restored_iff (hpending : getPendingResumes db campaignId = []) :
    Restored db (restoredDb (withCampaign db updated) newTaskId campaignId) newTaskId campaignId
        ((resubmitted db campaignId).map resubmissionMessage) ↔
      ∀ task ∈ getPausedTasks db campaignId, task.taskType = deterministicScoreTaskType := by
  have hrows : (restoredDb (withCampaign db updated) newTaskId campaignId).taskLogs.rows =
      db.taskLogs.rows.map (withStatus (isResubmitted db campaignId) .queued) := rfl
  constructor
  · intro h task htask
    by_contra htype
    have hkept : withStatus (isResubmitted db campaignId) .queued task = task :=
      if_neg (by simp [isResubmitted, htype])
    obtain ⟨hmem, hpaused⟩ := List.mem_filter.mp htask
    have hrow : task ∈ getPausedTasks (restoredDb (withCampaign db updated) newTaskId campaignId)
        campaignId := by
      refine List.mem_filter.mpr ⟨?_, hpaused⟩
      rw [hrows]
      exact List.mem_map.mpr ⟨task, hmem, hkept⟩
    rw [h.resumed] at hrow
    simp at hrow
  · intro hall
    refine ⟨?_, ?_⟩
    · unfold getPausedTasks
      rw [hrows, List.filter_eq_nil_iff]
      intro log' hlog' hpaused
      obtain ⟨log, hlog, rfl⟩ := List.mem_map.mp hlog'
      by_cases hselected : isResubmitted db campaignId log
      · simp [withStatus, hselected] at hpaused
      · have hkept : withStatus (isResubmitted db campaignId) .queued log = log := if_neg hselected
        rw [hkept] at hpaused
        have htype := hall log (List.mem_filter.mpr ⟨hlog, hpaused⟩)
        have hpaused : log.status = .paused ∧ ofCampaign db campaignId log :=
          of_decide_eq_true hpaused
        exact hselected (by simp [isResubmitted, htype, hpaused.1, hpaused.2])
    · have hresubmitted : resubmitted db campaignId = getPausedTasks db campaignId :=
        List.filter_eq_self.mpr fun task htask => by simpa using hall task htask
      rw [hresubmitted, hpending, List.map_map]
      simp [Function.comp_def, resubmissionMessage]

theorem replace_ne (hfind : db.campaigns.find? campaignId = some campaign)
    (hid : updated.id = campaign.id) (hne : updated ≠ campaign) :
    db.campaigns.replace updated ≠ db.campaigns := by
  intro hsame
  have hkey : campaign.id = campaignId := ((db.campaigns.find?_eq_some _ _).mp hfind).2
  have hold : db.campaigns.find? updated.id = some campaign := by rw [hid, hkey, hfind]
  have hnew := Table.find?_replace_self db.campaigns updated campaign hold
  rw [hsame, hold] at hnew
  exact hne (Option.some.inj hnew).symm

theorem findCampaign_ok (h : findCampaign db campaignId = .ok campaign) :
    db.campaigns.find? campaignId = some campaign := by
  unfold findCampaign at h
  split at h
  · simp at h
  · next found hfind =>
      cases h
      exact hfind

variable (faults newTaskId) in
theorem updateCampaign_refused
    (h : ¬∃ campaign updated, Accepted lower db now request campaignId campaign updated) :
    ∃ e, updateCampaign lower db now request faults newTaskId campaignId = ⟨.error e, db, []⟩ := by
  unfold updateCampaign
  cases hfind : findCampaign db campaignId with
  | error e => exact ⟨_, rfl⟩
  | ok campaign =>
    cases hcheck : checkUpdate lower db now request campaign with
    | error e => exact ⟨.campaign e, by simp [hcheck]⟩
    | ok updated => exact absurd ⟨campaign, updated, hfind, hcheck⟩ h

theorem updateCampaign_prepare (h : Accepted lower db now request campaignId campaign updated)
    (hprepare : faults.prepare = true) :
    updateCampaign lower db now request faults newTaskId campaignId =
      ⟨.error .failure, db, []⟩ := by
  simp [updateCampaign, h.1, h.2, hprepare]

variable (newTaskId) in
theorem updateCampaign_late (h : Accepted lower db now request campaignId campaign updated)
    (hprepare : faults.prepare = false) (hlate : RaisesLate db request faults campaignId campaign) :
    ∃ sent e, updateCampaign lower db now request faults newTaskId campaignId =
        ⟨.error e, db, sent⟩ ∧
      (sent = [] ↔ Unsent db request faults campaignId campaign) := by
  obtain ⟨sent, e, happly, hsent⟩ := applyUpdate_late newTaskId updated hlate
  exact ⟨sent, e, by simp [updateCampaign, h.1, h.2, hprepare, happly], hsent⟩

theorem updateCampaign_ok (h : Accepted lower db now request campaignId campaign updated)
    (hprepare : faults.prepare = false) (hlate : ¬RaisesLate db request faults campaignId campaign)
    {sent : List Message} {db' : CampaignDb}
    (hmove : moveTasks (withCampaign db updated) request faults newTaskId campaignId campaign =
      ⟨sent, .ok db'⟩) :
    updateCampaign lower db now request faults newTaskId campaignId =
      ⟨if faults.respond then .error .failure else .ok updated, db', sent⟩ := by
  have happly := (applyUpdate_ok newTaskId updated hlate).trans hmove
  simp only [updateCampaign, h.1, h.2, hprepare, happly]
  cases faults.respond <;> rfl

theorem raises_iff (h : Accepted lower db now request campaignId campaign updated) :
    (∀ e, (updateCampaign lower db now request faults newTaskId campaignId).result = .error e →
        Unchanged db (updateCampaign lower db now request faults newTaskId campaignId).db ∧
          (updateCampaign lower db now request faults newTaskId campaignId).sent = []) ↔
      (faults.prepare = false → (RaisesLate db request faults campaignId campaign →
          Unsent db request faults campaignId campaign) ∧
        (¬RaisesLate db request faults campaignId campaign → faults.respond = false)) := by
  by_cases hprepare : faults.prepare
  · rw [updateCampaign_prepare h hprepare]
    refine iff_of_true (fun e _ => ⟨⟨rfl, rfl, rfl⟩, rfl⟩) fun hfalse => ?_
    simp [hprepare] at hfalse
  · have hprepare : faults.prepare = false := by simpa using hprepare
    by_cases hlate : RaisesLate db request faults campaignId campaign
    · obtain ⟨sent, error, houtcome, hsent⟩ := updateCampaign_late newTaskId h hprepare hlate
      rw [houtcome]
      constructor
      · intro hall
        exact fun _ => ⟨fun _ => hsent.mp (hall error rfl).2, fun hnot => absurd hlate hnot⟩
      · intro hcond e _
        exact ⟨⟨rfl, rfl, rfl⟩, hsent.mpr ((hcond hprepare).1 hlate)⟩
    · obtain ⟨sent, db', hmove, hcampaigns, -⟩ := moveTasks_ok (withCampaign db updated)
        newTaskId (fun hstuck => hlate (.inr hstuck))
      rw [updateCampaign_ok h hprepare hlate hmove]
      cases hrespond : faults.respond with
      | false => exact iff_of_true (fun e he => absurd he (by simp)) (by simp [hlate])
      | true =>
        -- the campaign row is committed by then
        refine iff_of_false (fun hall => ?_) (by simp [hprepare, hlate])
        obtain ⟨hid, hne, -⟩ := checkUpdate_ok h.2
        have hsame := (hall .failure rfl).1.campaigns
        exact replace_ne (findCampaign_ok h.1) hid hne (hcampaigns.symm.trans hsame)

theorem restores_iff (h : Accepted lower db now request campaignId campaign updated)
    (hresumed : resumedNow request campaign) :
    ((updateCampaign lower db now request Faults.none newTaskId campaignId).result = .ok updated ∧
        Restored db (updateCampaign lower db now request Faults.none newTaskId campaignId).db
          newTaskId campaignId
          (updateCampaign lower db now request Faults.none newTaskId campaignId).sent) ↔
      Resubmittable db campaignId := by
  by_cases hpending : getPendingResumes db campaignId = []
  · have hstuck : ¬Stuck db request Faults.none campaignId campaign := by
      rintro ⟨-, hwrong | ⟨task, -, hrefused⟩⟩
      · exact hwrong hpending
      · simp [Faults.none] at hrefused
    have hlate : ¬RaisesLate db request Faults.none campaignId campaign := by
      rintro (hrecord | hstuck')
      · simp [Faults.none] at hrecord
      · exact hstuck hstuck'
    have hmove := moveTasks_resumed (withCampaign db updated) newTaskId hresumed hstuck
    rw [updateCampaign_ok h rfl hlate hmove]
    have hrestored := restored_iff newTaskId updated hpending
    exact (and_iff_right rfl).trans (hrestored.trans (and_iff_right hpending).symm)
  · have hprepare : Faults.none.prepare = false := rfl
    obtain ⟨sent, e, houtcome, -⟩ := updateCampaign_late newTaskId h hprepare
      (.inr ⟨hresumed, .inl hpending⟩)
    rw [houtcome]
    exact iff_of_false (fun hok => absurd hok.1 (by simp)) fun hall => hpending hall.1

end Updates

theorem update_campaign_promise (lower : String → String) (db : CampaignDb) (now : Instant)
    (request : CampaignUpdateRequest) (faults : Faults) (newTaskId : Uuid → String)
    (campaignId : Uuid) :
    KeepsPromise lower db now request faults newTaskId campaignId ↔
      Delivers lower db now request faults campaignId := by
  constructor
  · intro hkeeps campaign updated h
    refine ⟨(raises_iff h).mp hkeeps.raises, ?_⟩
    rintro rfl hresumed
    exact (restores_iff h hresumed).mp (hkeeps.restores rfl campaign updated h hresumed)
  · intro hdelivers
    by_cases haccepted : ∃ campaign updated,
        Accepted lower db now request campaignId campaign updated
    · obtain ⟨campaign, updated, h⟩ := haccepted
      refine ⟨?_, (raises_iff h).mpr (hdelivers campaign updated h).1⟩
      rintro rfl campaign' updated' h' hresumed
      exact (restores_iff h' hresumed).mpr ((hdelivers campaign' updated' h').2 rfl hresumed)
    · refine ⟨fun _ campaign updated h => absurd ⟨campaign, updated, h⟩ haccepted, ?_⟩
      obtain ⟨error, houtcome⟩ := updateCampaign_refused faults newTaskId haccepted
      rw [houtcome]
      exact fun e _ => ⟨⟨rfl, rfl, rfl⟩, rfl⟩

def pausedCampaign (id : Uuid) : CampaignRow where
  toHiringCampaign := { openCampaign id with status := .paused }
  orgId := none
  deadline := none
  promptTemplateId := 0
  aiEvaluatePromptId := none
  weightDeterministic := 30
  weightSemantic := 40
  weightAi := 30
  semanticThreshold := 13 / 20
  aiThreshold := 50
  deterministicThreshold := 70

theorem pausedCampaign_id (id : Uuid) : (pausedCampaign id).id = id := rfl

def suspendedTask (id : Uuid) : CeleryTaskLog where
  id := id
  taskId := "suspended"
  taskType := deterministicScoreTaskType
  campaignCandidateId := some 0
  status := .paused
  outputSummary := none
  errorMessage := none
  startedAt := none
  completedAt := none

theorem suspendedTask_id (id : Uuid) : (suspendedTask id).id = id := rfl

theorem linked_id (id : Uuid) : (CampaignCandidateService.newCandidate 0 0 0 id).id = id := rfl

def pausedDb : CampaignDb where
  campaigns := Table.empty.insert pausedCampaign pausedCampaign_id
  campaignCandidates := Table.empty.insert (CampaignCandidateService.newCandidate 0 0 0) linked_id
  taskLogs := Table.empty.insert suspendedTask suspendedTask_id
  resumes := uploadedDb.resumes
  users := []
  promptTemplates := Table.empty
  minLayerWeight := none

def resumeRequest : CampaignUpdateRequest where
  name := none
  status := some .active
  deadline := none
  clearDeadline := false
  maxCandidates := none
  clearMaxCandidates := false
  hiringManagerId := none
  promptTemplateId := none
  aiEvaluatePromptId := none
  weightDeterministic := none
  weightSemantic := none
  weightAi := none
  semanticThreshold := none
  aiThreshold := none
  deterministicThreshold := none
  confirmScoringChange := false

def parseId (_ : Uuid) : String := "parse"

-- The parse cannot be sent, and the score is out while its row stays PAUSED.
theorem resume_raises_midway : ¬KeepsPromise id pausedDb 0 resumeRequest Faults.none parseId 0 := by
  intro h
  have hsent : (updateCampaign id pausedDb 0 resumeRequest Faults.none parseId 0).sent =
      [resubmissionMessage (suspendedTask 0)] := rfl
  have hraised : (updateCampaign id pausedDb 0 resumeRequest Faults.none parseId 0).result =
      .error (.typeError "resume.process_document") := rfl
  have hnone := (h.raises _ hraised).2
  rw [hsent] at hnone
  exact List.cons_ne_nil _ _ hnone

end AiHiring
