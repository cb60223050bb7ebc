import AiHiring.Tasks.DeterministicScore

namespace AiHiring

open Library Transaction

namespace DeterministicScoring

open CampaignCandidateRepository SessionM

section Rows

variable (table : TransitionTable) (run : ScoringRun) (cc : CampaignCandidate)
  (breakdown : ScoreBreakdown)

def screenedRow : CampaignCandidate :=
  if cc.pipelineStage = .uploaded ∧
      AllowedTransitionRepository.isTransitionAllowed table .uploaded .screening
        cc.previousStage = true then
    { cc.movedTo .screening with updatedAt := some run.screeningAt }
  else
    cc

def scoredRow : CampaignCandidate := withScreenedAt (withScore cc breakdown) run.scoredAt

def rejectedRow : CampaignCandidate :=
  if AllowedTransitionRepository.isTransitionAllowed table cc.pipelineStage .rejected
      cc.previousStage = true then
    (cc.movedTo .rejected).withDecision .rejected (some .deterministic)
      (some run.rejectionReason) (some breakdown.toDict) none run.rejectedAt
  else
    cc

@[simp] theorem screenedRow_id : (screenedRow table run cc).id = cc.id := by
  rw [screenedRow]
  split_ifs <;> rfl

@[simp] theorem rejectedRow_id : (rejectedRow table run cc breakdown).id = cc.id := by
  rw [rejectedRow]
  split_ifs <;> rfl

end Rows

section Intent

variable (table : TransitionTable) (run : ScoringRun) (db : Db) (cc : CampaignCandidate)
  (campaign : HiringCampaign) (breakdown : ScoreBreakdown)

def screenedDb : Db :=
  (StageTransitionService.transitionToScreening table db cc run.screeningAt).1

def storedDb : Db :=
  let screened := screenedRow table run cc
  update (update (screenedDb table run db cc) (withScore screened breakdown))
    (scoredRow run screened breakdown)

def rejection : Db :=
  (StageTransitionService.transitionToRejected table db cc "Deterministic filter rejection"
    (some breakdown.toDict) .deterministic (some run.rejectionReason) (some breakdown.toDict)
    none run.rejectedAt).1

def outcomeDb : Db :=
  if breakdown.deterministicPassed then
    db
  else
    update (rejection table run db cc breakdown)
      (skipAiEvaluation (rejectedRow table run cc breakdown))

-- The candidate as rejected, before its AI evaluation is skipped.
def rejectedDb : Db :=
  rejection table run (storedDb table run db cc breakdown)
    (scoredRow run (screenedRow table run cc) breakdown) breakdown

def scoredDb : Db :=
  let screened := screenedRow table run cc
  logScore run campaign screened breakdown
    (outcomeDb table run (storedDb table run db cc breakdown) (scoredRow run screened breakdown)
      breakdown)

end Intent

section Normal

variable (table : TransitionTable) (run : ScoringRun) (w : TaskDb) (cc : CampaignCandidate)

theorem normal_store (write : Db → Db) :
    (store write).normal w = ⟨.ok (), { w with toDb := write w.toDb }, [], none⟩ := rfl

theorem normal_isTransitionAllowed (fromStage toStage : PipelineStage)
    (previousStage : Option PipelineStage) :
    (isTransitionAllowed table fromStage toStage previousStage).normal w =
      ⟨.ok (AllowedTransitionRepository.isTransitionAllowed table fromStage toStage
        previousStage), w, [], none⟩ := by
  cases previousStage with
  | none => rfl
  | some previous =>
    rw [isTransitionAllowed, AllowedTransitionRepository.isTransitionAllowed,
      AllowedTransitionRepository.get, normal_query_bind]
    cases AllowedTransitionRepository.exact table fromStage toStage previous with
    | none => rfl
    | some row => rfl

theorem normal_transitionToScreening : (transitionToScreening table cc run.screeningAt).normal w =
      ⟨.ok (screenedRow table run cc), { w with toDb := screenedDb table run w.toDb cc }, [],
        none⟩ := by
  rw [transitionToScreening, screenedRow, screenedDb, StageTransitionService.transitionToScreening]
  by_cases hstage : cc.pipelineStage = .uploaded
  · rw [if_neg (by simp [hstage]),
      normal_bind w _ _ _ _ _ (normal_isTransitionAllowed table w _ _ _)]
    cases hallowed : AllowedTransitionRepository.isTransitionAllowed table cc.pipelineStage
        .screening cc.previousStage with
    | false =>
      rw [hstage] at hallowed
      simp [hstage, hallowed]
    | true =>
      rw [hstage] at hallowed
      simp only [hstage, hallowed, and_self, if_true]
      rfl
  · simp [hstage]

theorem normal_transitionToRejected (breakdown : ScoreBreakdown) :
    (transitionToRejected table cc "Deterministic filter rejection" (some breakdown.toDict)
        .deterministic run.rejectionReason (some breakdown.toDict) run.rejectedAt).normal w =
      ⟨.ok (rejectedRow table run cc breakdown,
          AllowedTransitionRepository.isTransitionAllowed table cc.pipelineStage .rejected
            cc.previousStage),
        { w with toDb := rejection table run w.toDb cc breakdown }, [], none⟩ := by
  rw [transitionToRejected, rejectedRow, rejection, StageTransitionService.transitionToRejected,
    normal_bind w _ _ _ _ _ (normal_isTransitionAllowed table w _ _ _)]
  cases AllowedTransitionRepository.isTransitionAllowed table cc.pipelineStage .rejected
    cc.previousStage <;> rfl

theorem normal_cancelQueued (logs : List CeleryTaskLog) :
    ∃ w' commits, (cancelQueued run logs).normal w = ⟨.ok (), w', commits, none⟩ ∧
      w'.toDb = w.toDb ∧ (∀ c ∈ commits, c.1 = .taskLog ∧ c.2.toDb = w.toDb) ∧
      (commits = [] ↔ logs = []) := by
  induction logs generalizing w with
  | nil => exact ⟨w, [], rfl, rfl, by simp, by simp⟩
  | cons log rest ih =>
    let dead : CeleryTaskLog := { log with
      status := .dead, errorMessage := some aiEvaluationSkippedErrorMessage,
      completedAt := some (run.cancelledAt log) }
    obtain ⟨w', commits, hrest, hdb, hcommits, -⟩ := ih (CeleryTaskLogService.marked w dead)
    refine ⟨w', (.taskLog, CeleryTaskLogService.marked w dead) :: commits, ?_, hdb, ?_, by simp⟩
    · have hmark := CeleryTaskLogService.normal_mark dead w
      rw [cancelQueued, CeleryTaskLogService.markDead, normal_bind w _ _ _ _ _ hmark,
        normal_refresh_bind, hrest]
      rfl
    · intro c hc
      cases List.mem_cons.mp hc with
      | inl hfirst =>
        rw [hfirst]
        exact ⟨rfl, rfl⟩
      | inr hin => exact hcommits c hin

theorem update_twice (db : Db) (first second : CampaignCandidate) (h : first.id = second.id) :
    update (update db first) second = update db second := by
  rw [update, update, update, Table.replace_replace _ _ _ h]

theorem normal_cancelDownstreamAiEvaluation :
    ∃ w' commits, (cancelDownstreamAiEvaluation run cc).normal w = ⟨.ok (), w', commits, none⟩ ∧
      w'.toDb = update w.toDb (skipAiEvaluation cc) ∧
      (∀ c ∈ commits, c.1 = .taskLog ∧ c.2.toDb = w.toDb) ∧
      (commits = [] ↔ queuedAiEvaluateLogs cc.id w = []) := by
  obtain ⟨w', commits, hcancel, hdb, hcommits, hnil⟩ :=
    normal_cancelQueued run w (queuedAiEvaluateLogs cc.id w)
  have hskip : update w'.toDb (skipAiEvaluation cc) = update w.toDb (skipAiEvaluation cc) := by
    rw [hdb]
  rw [cancelDownstreamAiEvaluation, normal_query_bind, normal_bind w _ _ _ _ _ hcancel,
    normal_refresh_bind]
  cases haiEvaluation : cc.aiEvaluation with
  | some evaluation =>
    refine ⟨{ w' with toDb := update w'.toDb (skipAiEvaluation cc) }, commits, ?_, hskip,
      hcommits, hnil⟩
    simp [normal_store, Finished.after]
  | none =>
    refine ⟨{ w' with toDb := update w'.toDb (skipAiEvaluation cc) }, commits, ?_, hskip,
      hcommits, hnil⟩
    have htwice := update_twice w'.toDb
      { cc with aiEvaluation := some (CampaignCandidateAIEvaluationRepository.getOrCreate cc) }
      (skipAiEvaluation cc) rfl
    rw [← htwice]
    simp only [Option.isNone_none, if_true]
    rw [normal_bind _ _ _ _ _ _ (normal_store _ _), normal_store]
    simp [Finished.after]

theorem normal_rejectFailed (breakdown : ScoreBreakdown) :
    ∃ w' commits, (rejectFailed table run cc breakdown).normal w = ⟨.ok (), w', commits, none⟩ ∧
      w'.toDb = outcomeDb table run w.toDb cc breakdown ∧
      (∀ c ∈ commits, c.1 = .taskLog ∧ c.2.toDb = rejection table run w.toDb cc breakdown) ∧
      (commits = [] ↔
        breakdown.deterministicPassed = true ∨ queuedAiEvaluateLogs cc.id w = []) := by
  rw [rejectFailed, outcomeDb]
  cases breakdown.deterministicPassed with
  | true => exact ⟨w, [], rfl, rfl, by simp, by simp⟩
  | false =>
    have hcancel := normal_cancelDownstreamAiEvaluation run
      { w with toDb := rejection table run w.toDb cc breakdown }
      (rejectedRow table run cc breakdown)
    rw [rejectedRow_id] at hcancel
    simp only [Bool.false_eq_true, if_false, false_or]
    rw [normal_bind w _ _ _ _ _ (normal_transitionToRejected table run w cc breakdown),
      Finished.after_nil]
    exact hcancel

theorem normal_calculateAndStoreScoreBreakdown (breakdown : ScoreBreakdown)
    (h : run.breakdown = .ok breakdown) :
    (calculateAndStoreScoreBreakdown run cc).normal w =
      ⟨.ok (breakdown, withScore cc breakdown),
        { w with toDb := update w.toDb (withScore cc breakdown) }, [], none⟩ := by
  rw [calculateAndStoreScoreBreakdown, normal_bind w _ _ _ _ _ (normal_queries run.reads w), h]
  rfl

-- The candidate reaches SCREENING or is beyond it.
def LeavesUploaded : Prop :=
  cc.pipelineStage = .uploaded →
    AllowedTransitionRepository.isTransitionAllowed table .uploaded .screening
      cc.previousStage = true

theorem screenedRow_uploaded :
    (screenedRow table run cc).pipelineStage = .uploaded ↔ ¬LeavesUploaded table cc := by
  rw [screenedRow, LeavesUploaded]
  by_cases hstage : cc.pipelineStage = .uploaded
  · cases hallowed : AllowedTransitionRepository.isTransitionAllowed table .uploaded .screening
        cc.previousStage <;> simp [hstage, CampaignCandidate.movedTo]
  · simp [hstage]

theorem normal_recordScore (taskLog : CeleryTaskLog) (campaign : HiringCampaign)
    (breakdown : ScoreBreakdown) :
    ∃ stored marked, (recordScore run taskLog campaign cc breakdown).normal w =
        ⟨.ok (), marked, [(.task, stored), (.taskLog, marked)], none⟩ ∧
      stored.toDb = logScore run campaign cc breakdown w.toDb ∧ marked.toDb = stored.toDb :=
  ⟨_, _, rfl, rfl, rfl⟩

-- The commits of a run that is not disturbed: the cancelled logs, each with
-- the candidate as rejected so far, then the task's own, then the SUCCESS mark.
theorem normal_scoreCandidate (taskLog : CeleryTaskLog) (campaign : HiringCampaign)
    (breakdown : ScoreBreakdown) (hleaves : LeavesUploaded table cc)
    (h : run.breakdown = .ok breakdown) :
    ∃ cancelled stored marked, (scoreCandidate table run taskLog campaign cc).normal w =
        ⟨.ok (), marked, cancelled ++ [(.task, stored), (.taskLog, marked)], none⟩ ∧
      (∀ c ∈ cancelled, c.1 = .taskLog ∧ c.2.toDb = rejectedDb table run w.toDb cc breakdown) ∧
      stored.toDb = scoredDb table run w.toDb cc campaign breakdown ∧
      marked.toDb = scoredDb table run w.toDb cc campaign breakdown ∧
      (cancelled = [] ↔
        breakdown.deterministicPassed = true ∨ queuedAiEvaluateLogs cc.id w = []) := by
  let screened := screenedRow table run cc
  have hstage : screened.pipelineStage ≠ .uploaded := fun huploaded =>
    (screenedRow_uploaded table run cc).mp huploaded hleaves
  obtain ⟨w₁, cancelled, hreject, hdb, hcancelled, hnil⟩ := normal_rejectFailed table run
    { w with toDb := storedDb table run w.toDb cc breakdown } (scoredRow run screened breakdown)
    breakdown
  obtain ⟨stored, marked, hrecord, hstored, hmarked⟩ :=
    normal_recordScore run w₁ (withScore screened breakdown) taskLog campaign breakdown
  have hscored : stored.toDb = scoredDb table run w.toDb cc campaign breakdown := by
    rw [hstored, hdb]
    rfl
  refine ⟨cancelled, stored, marked, ?_, hcancelled, hscored, hmarked.trans hscored, ?_⟩
  · rw [scoreCandidate, normal_bind w _ _ _ _ _ (normal_transitionToScreening table run w cc),
      Finished.after_nil, if_neg hstage,
      normal_bind _ _ _ _ _ _ (normal_calculateAndStoreScoreBreakdown run _ screened breakdown h),
      Finished.after_nil, normal_bind _ _ _ _ _ _ (normal_store _ _), Finished.after_nil]
    refine (normal_bind _ _ _ _ _ _ hreject).trans ?_
    rw [hrecord]
    rfl
  · have hid : (scoredRow run screened breakdown).id = cc.id := screenedRow_id table run cc
    rw [hid] at hnil
    exact hnil

end Normal

section Task

variable (table : TransitionTable) (run : ScoringRun) (w : TaskDb) (db : Db)

-- Nothing makes the task stop early: it gets to the scoring of `cc`.
structure Scores (cc : CampaignCandidate) (campaign : HiringCampaign)
    (breakdown : ScoreBreakdown) : Prop where
  found : CampaignRepository.getById db cc.campaignId = some campaign
  active : campaign.status ∈ scoreableCampaignStatuses
  parsed : (run.resume cc.resumeId).map Resume.parseStatus = some .parsed
  described : run.jobDescriptionFound (run.jdId campaign.id) = true
  leaves : LeavesUploaded table cc
  scored : run.breakdown = .ok breakdown

theorem normal_evaluateCandidate (taskLog : CeleryTaskLog) (cc : CampaignCandidate)
    (campaign : HiringCampaign) (breakdown : ScoreBreakdown)
    (h : Scores table run w.toDb cc campaign breakdown) :
    (evaluateCandidate table run taskLog (some cc)).normal w =
      (scoreCandidate table run taskLog campaign cc).normal w := by
  rw [evaluateCandidate, normal_refresh_bind, normal_query_bind, h.found]
  simp only
  rw [if_neg (by simp [h.active]), normal_refresh_bind, if_neg (by simp [h.parsed]),
    normal_refresh_bind, if_neg (by simp [h.described])]

theorem quiet_scoreCandidate (taskLog : CeleryTaskLog) (campaign : HiringCampaign)
    (cc : CampaignCandidate)
    (h : ∀ breakdown, ¬(LeavesUploaded table cc ∧ run.breakdown = .ok breakdown)) :
    ((scoreCandidate table run taskLog campaign cc).normal w).commits = [] := by
  rw [scoreCandidate, normal_bind w _ _ _ _ _ (normal_transitionToScreening table run w cc),
    Finished.after_nil]
  by_cases hleaves : LeavesUploaded table cc
  · have hstage : (screenedRow table run cc).pipelineStage ≠ .uploaded := fun huploaded =>
      (screenedRow_uploaded table run cc).mp huploaded hleaves
    rw [if_neg hstage]
    cases hbreakdown : run.breakdown with
    | ok breakdown => exact absurd ⟨hleaves, hbreakdown⟩ (h breakdown)
    | error message =>
      have hraises (w' : TaskDb) (cc : CampaignCandidate) :
          (calculateAndStoreScoreBreakdown run cc).normal w' =
            ⟨.error (.error message), w', [], none⟩ := by
        rw [calculateAndStoreScoreBreakdown, hbreakdown,
          normal_bind _ _ _ _ _ _ (normal_queries run.reads w')]
        rfl
      rw [normal_bind_error _ _ _ _ _ _ (hraises _ _)]
  · rw [if_pos ((screenedRow_uploaded table run cc).mpr hleaves), normal_raise]

-- A task that stops early commits at most its own SUCCESS mark.
theorem quiet_evaluateCandidate (taskLog : CeleryTaskLog) (loaded : Option CampaignCandidate)
    (h : ∀ cc ∈ loaded, ∀ campaign breakdown, ¬Scores table run w.toDb cc campaign breakdown) :
    ∀ c ∈ ((evaluateCandidate table run taskLog loaded).normal w).commits,
      c.1 = .taskLog ∧ c.2.toDb = w.toDb := by
  have hskip (reason : String) :
      ∀ c ∈ ((skip run taskLog reason).normal w).commits, c.1 = .taskLog ∧ c.2.toDb = w.toDb := by
    intro c hc
    obtain rfl := List.mem_singleton.mp hc
    exact ⟨rfl, rfl⟩
  cases loaded with
  | none => exact hskip _
  | some cc =>
    rw [evaluateCandidate, normal_refresh_bind, normal_query_bind]
    cases hcampaign : CampaignRepository.getById w.toDb cc.campaignId with
    | none => simp
    | some campaign =>
      simp only
      by_cases hactive : campaign.status ∈ scoreableCampaignStatuses
      · rw [if_neg (by simp [hactive]), normal_refresh_bind]
        by_cases hparsed : (run.resume cc.resumeId).map Resume.parseStatus = some .parsed
        · rw [if_neg (by simp [hparsed]), normal_refresh_bind]
          cases hdescribed : run.jobDescriptionFound (run.jdId campaign.id) with
          | false => simp
          | true =>
            rw [Bool.not_true, if_neg Bool.false_ne_true,
              quiet_scoreCandidate table run w taskLog campaign cc]
            · simp
            · intro breakdown hscores
              exact h cc rfl campaign breakdown
                ⟨hcampaign, hactive, hparsed, hdescribed, hscores.1, hscores.2⟩
        · rw [if_pos (by simpa using hparsed)]
          simp
      · rw [if_pos hactive]
        exact hskip _

end Task

section Start

open CeleryTaskLogRepository CeleryTaskLogService

variable (run : ScoringRun) (w : TaskDb)

def Live : Prop := ∀ own, getByTaskId run.taskId w = some own → own.status ≠ .success

-- An AI evaluation that still waits in the queue, other than this very task.
def AiEvaluationQueued (campaignCandidateId : Uuid) : Prop :=
  ∃ log ∈ w.taskLogs.rows, isQueuedAiEvaluate campaignCandidateId log ∧
    getByTaskId run.taskId w ≠ some log

theorem queuedAiEvaluateLogs_eq_nil (campaignCandidateId : Uuid) :
    queuedAiEvaluateLogs campaignCandidateId w = [] ↔
      ∀ log ∈ w.taskLogs.rows, ¬isQueuedAiEvaluate campaignCandidateId log := by
  rw [queuedAiEvaluateLogs, getByCampaignCandidateAndTaskType, List.filter_filter,
    List.filter_eq_nil_iff]
  simp only [isQueuedAiEvaluate, Bool.and_eq_true, decide_eq_true_eq]
  constructor
  · intro h log hlog hqueued
    exact h log hlog ⟨hqueued.2.2, hqueued.1, hqueued.2.1⟩
  · intro h log hlog hqueued
    exact h log hlog ⟨hqueued.2.1, hqueued.2.2, hqueued.1⟩

theorem queuedAiEvaluateLogs_marked (running : CeleryTaskLog) (campaignCandidateId : Uuid)
    (h : running.status ≠ .queued) :
    queuedAiEvaluateLogs campaignCandidateId (marked w running) = [] ↔
      ∀ log ∈ w.taskLogs.rows, isQueuedAiEvaluate campaignCandidateId log →
        log.id = running.id := by
  rw [queuedAiEvaluateLogs_eq_nil]
  constructor
  · intro hnone log hlog hqueued
    by_contra hid
    apply hnone log _ hqueued
    exact List.mem_map.mpr ⟨log, hlog, if_neg hid⟩
  · intro hown log' hlog' hqueued
    obtain ⟨log, hlog, hreplaced⟩ := List.mem_map.mp hlog'
    by_cases hid : log.id = running.id
    · rw [if_pos hid] at hreplaced
      rw [← hreplaced] at hqueued
      exact h hqueued.2.2
    · rw [if_neg hid] at hreplaced
      rw [← hreplaced] at hqueued
      exact hid (hown log hlog hqueued)

theorem normal_startTask (h : Live run w) : ∃ taskLog w' commits, (startTask run).normal w =
        ⟨.ok (some (taskLog, getById w.toDb run.campaignCandidateId)), w', commits, none⟩ ∧
      w'.toDb = w.toDb ∧ (∀ c ∈ commits, c.1 = .taskLog ∧ c.2.toDb = w.toDb) ∧
      ∀ campaignCandidateId, queuedAiEvaluateLogs campaignCandidateId w' = [] ↔
        ¬AiEvaluationQueued run w campaignCandidateId := by
  cases hown : getByTaskId run.taskId w with
  | some existing =>
    let running : CeleryTaskLog := { existing with
      status := .running, startedAt := some (existing.startedAt.getD run.startedAt) }
    refine ⟨running, marked w running, [(.taskLog, marked w running)], ?_, rfl, ?_, ?_⟩
    · rw [startTask, normal_query_bind, normal_query_bind, hown]
      simp only [h existing hown, if_false]
      rfl
    · intro c hc
      rw [List.mem_singleton.mp hc]
      exact ⟨rfl, rfl⟩
    · intro campaignCandidateId
      rw [queuedAiEvaluateLogs_marked w running _ (by simp [running]), AiEvaluationQueued, hown]
      have hmem : existing ∈ w.taskLogs.rows := List.mem_of_find?_eq_some hown
      constructor
      · intro hall hqueued
        obtain ⟨log, hlog, hqueued, hne⟩ := hqueued
        exact hne (congrArg some (w.taskLogs.eq_of_key_eq hlog hmem (hall log hlog hqueued)).symm)
      · intro hnone log hlog hqueued
        by_contra hid
        exact hnone ⟨log, hlog, hqueued, fun he => hid (by rw [← Option.some.inj he])⟩
  | none =>
    let created : CeleryTaskLog :=
      { id := w.taskLogs.next, taskId := run.taskId, taskType := taskType,
        campaignCandidateId := (getById w.toDb run.campaignCandidateId).map CampaignCandidate.id,
        status := .queued, outputSummary := none, errorMessage := none, startedAt := none,
        completedAt := none }
    let w₁ : TaskDb := { w with
      taskLogs := w.taskLogs.insert (fun id => { created with id := id }) fun _ => rfl }
    let running : CeleryTaskLog := { created with
      status := .running, startedAt := some run.startedAt }
    refine ⟨running, marked w₁ running, [(.taskLog, w₁), (.taskLog, marked w₁ running)], ?_,
      rfl, ?_, ?_⟩
    · rw [startTask, normal_query_bind, normal_query_bind, hown]
      rfl
    · intro c hc
      cases List.mem_cons.mp hc with
      | inl hfirst =>
        rw [hfirst]
        exact ⟨rfl, rfl⟩
      | inr hsecond =>
        rw [List.mem_singleton.mp hsecond]
        exact ⟨rfl, rfl⟩
    · intro campaignCandidateId
      rw [queuedAiEvaluateLogs_marked w₁ running _ (by simp [running]), AiEvaluationQueued, hown]
      constructor
      · intro hall hqueued
        obtain ⟨log, hlog, hqueued, -⟩ := hqueued
        have hbelow : log.id < w.taskLogs.next := w.taskLogs.below log hlog
        have hid : log.id = w.taskLogs.next :=
          hall log (List.mem_append_left _ hlog) hqueued
        exact absurd hid (Nat.ne_of_lt hbelow)
      · intro hnone log hlog hqueued
        cases List.mem_append.mp hlog with
        | inl hold => exact absurd ⟨log, hold, hqueued, by simp⟩ hnone
        | inr hnew =>
          rw [List.mem_singleton.mp hnew]

theorem normal_startTask_done (own : CeleryTaskLog) (hown : getByTaskId run.taskId w = some own)
    (h : own.status = .success) :
    (startTask run).normal w = ⟨.ok none, w, [], none⟩ := by
  rw [startTask, normal_query_bind, normal_query_bind, hown]
  simp [h]

end Start

end DeterministicScoring

end AiHiring
