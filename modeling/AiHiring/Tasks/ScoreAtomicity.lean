import AiHiring.Tasks.ScoreCommit

namespace AiHiring

open Library Transaction

namespace DeterministicScoring

section Stored

open CampaignCandidateRepository

variable (table : TransitionTable) (run : ScoringRun) (db : Db) (cc : CampaignCandidate)
  (breakdown : ScoreBreakdown)

-- The rejection does not apply and the row holds this very score already.
def AlreadyStored : Prop :=
  cc.pipelineStage ≠ .uploaded ∧
    AllowedTransitionRepository.isTransitionAllowed table cc.pipelineStage .rejected
      cc.previousStage = false ∧
    scoredRow run cc breakdown = cc

theorem screenedDb_next (hleaves : LeavesUploaded table cc) :
    (screenedDb table run db cc).stageHistory.next =
      db.stageHistory.next + if cc.pipelineStage = .uploaded then 1 else 0 := by
  rw [screenedDb, StageTransitionService.transitionToScreening]
  by_cases hstage : cc.pipelineStage = .uploaded
  · have hallowed := hleaves hstage
    simp only [hstage, hallowed]
    rfl
  · simp [hstage]

theorem rejection_next :
    (rejection table run db cc breakdown).stageHistory.next = db.stageHistory.next +
        if AllowedTransitionRepository.isTransitionAllowed table cc.pipelineStage .rejected
          cc.previousStage = true then 1 else 0 := by
  rw [rejection, StageTransitionService.transitionToRejected]
  cases AllowedTransitionRepository.isTransitionAllowed table cc.pipelineStage .rejected
    cc.previousStage <;> rfl

theorem rejectedDb_next (hleaves : LeavesUploaded table cc) :
    db.stageHistory.next ≤ (rejectedDb table run db cc breakdown).stageHistory.next ∧
      (cc.pipelineStage = .uploaded →
        db.stageHistory.next < (rejectedDb table run db cc breakdown).stageHistory.next) := by
  have hscreened := screenedDb_next table run db cc hleaves
  have hstored : (storedDb table run db cc breakdown).stageHistory.next =
      (screenedDb table run db cc).stageHistory.next := rfl
  rw [rejectedDb, rejection_next, hstored, hscreened]
  constructor
  · omega
  · intro hstage
    rw [if_pos hstage]
    omega

theorem rejectedDb_eq_iff (hfound : db.campaignCandidates.find? cc.id = some cc)
    (hleaves : LeavesUploaded table cc) :
    rejectedDb table run db cc breakdown = db ↔ AlreadyStored table run cc breakdown := by
  rw [AlreadyStored]
  by_cases hstage : cc.pipelineStage = .uploaded
  · have hnext := (rejectedDb_next table run db cc breakdown hleaves).2 hstage
    constructor
    · intro heq
      rw [heq] at hnext
      omega
    · intro hstored
      exact absurd hstage hstored.1
  · have hscreened : screenedRow table run cc = cc := by simp [screenedRow, hstage]
    have hdb : screenedDb table run db cc = db := by
      simp [screenedDb, StageTransitionService.transitionToScreening, hstage]
    have hstored : storedDb table run db cc breakdown = update db (scoredRow run cc breakdown) := by
      rw [storedDb, hscreened, hdb]
      exact update_twice db (withScore cc breakdown) (scoredRow run cc breakdown) rfl
    cases hallowed : AllowedTransitionRepository.isTransitionAllowed table cc.pipelineStage
        .rejected cc.previousStage with
    | true =>
      have hnext := rejection_next table run (storedDb table run db cc breakdown)
        (scoredRow run cc breakdown) breakdown
      have hsame : (scoredRow run cc breakdown).pipelineStage = cc.pipelineStage := rfl
      have hprevious : (scoredRow run cc breakdown).previousStage = cc.previousStage := rfl
      rw [hsame, hprevious, if_pos hallowed, hstored] at hnext
      constructor
      · intro heq
        rw [rejectedDb, hscreened, hstored] at heq
        rw [heq] at hnext
        exact absurd hnext (Nat.ne_of_lt (Nat.lt_succ_self _))
      · intro hstored
        exact absurd hstored.2.1 (by simp)
    | false =>
      have hrejected : rejectedDb table run db cc breakdown =
          update db (scoredRow run cc breakdown) := by
        rw [rejectedDb, hscreened, hstored, rejection, StageTransitionService.transitionToRejected]
        rw [if_pos]
        simp only [Bool.not_eq_true']
        exact hallowed
      rw [hrejected]
      constructor
      · intro heq
        have hself := Table.find?_replace_self db.campaignCandidates
          (scoredRow run cc breakdown) cc hfound
        have hsame : db.campaignCandidates.replace (scoredRow run cc breakdown) =
            db.campaignCandidates := congrArg Db.campaignCandidates heq
        rw [hsame] at hself
        exact ⟨hstage, rfl, Option.some.inj (hself.symm.trans hfound)⟩
      · intro hall
        rw [hall.2.2, update, Table.replace_found _ _ hfound]

end Stored

section AllOrNothing

variable (table : TransitionTable) (run : ScoringRun) (w : TaskDb)

-- The task is no redelivery of a finished one and gets to the scoring.
structure ReachesScoring (cc : CampaignCandidate) (campaign : HiringCampaign)
    (breakdown : ScoreBreakdown) : Prop where
  live : Live run w
  candidate : CampaignCandidateRepository.getById w.toDb run.campaignCandidateId = some cc
  scores : Scores table run w.toDb cc campaign breakdown

-- What is promised for every call that may fail, `none` being the run in which
-- none does: as long as the task's own commit is not reached nothing but task
-- logs is committed, nobody ever sees a part of the writes, and an undisturbed
-- run leaves them all.
structure AllOrNothing : Prop where
  untouched : ∀ failIn,
    (∀ c ∈ (calculateDeterministicScoreTask table run failIn w).commits, c.1 ≠ .task) →
      ∀ c ∈ (calculateDeterministicScoreTask table run failIn w).commits, c.2.toDb = w.toDb
  together : ∀ failIn, ∀ c ∈ (calculateDeterministicScoreTask table run failIn w).commits,
    c.2.toDb = w.toDb ∨ ∃ cc campaign breakdown, ReachesScoring table run w cc campaign breakdown ∧
        c.2.toDb = scoredDb table run w.toDb cc campaign breakdown
  recorded : ∀ cc campaign breakdown, ReachesScoring table run w cc campaign breakdown →
    ((calculateDeterministicScoreTask table run none w).committed w).toDb =
      scoredDb table run w.toDb cc campaign breakdown

-- A failed score of a candidate with an AI evaluation in the queue: cancelling
-- it commits the rejection before the task is through.
def CancelsMidway : Prop :=
  ∃ cc campaign breakdown, ReachesScoring table run w cc campaign breakdown ∧
    breakdown.deterministicPassed = false ∧ AiEvaluationQueued run w cc.id ∧
      ¬AlreadyStored table run cc breakdown

theorem recordFailure_commits (taskLog : CeleryTaskLog) (raised : Raised String)
    (failIn : Option ℕ) :
    ∀ c ∈ ((recordFailure run taskLog raised).run failIn w).commits,
      c.1 = .taskLog ∧ c.2.toDb = w.toDb := by
  intro c hc
  have hnormal := (run_commits_initial (recordFailure run taskLog raised) failIn w).subset hc
  rw [List.mem_singleton.mp hnormal]
  exact ⟨rfl, rfl⟩

-- The except branch adds the FAILURE mark to whatever the body has committed.
theorem tryExcept_commits (taskLog : CeleryTaskLog) (body : SessionM Unit) (failIn : Option ℕ) :
    ∃ failure, (tryExcept body (recordFailure run taskLog) failIn w).commits =
        (body.run failIn w).commits ++ failure ∧
      ∀ c ∈ failure, c.1 = .taskLog ∧ c.2.toDb = ((body.run failIn w).committed w).toDb := by
  rw [tryExcept]
  cases hresult : (body.run failIn w).result with
  | ok value => exact ⟨[], by simp, by simp⟩
  | error raised => exact ⟨_, rfl, recordFailure_commits run _ taskLog raised _⟩

-- A task that does not get past its RUNNING mark commits task logs only.
theorem startTask_commits (failIn : Option ℕ) :
    ∀ c ∈ ((startTask run).run failIn w).commits, c.1 = .taskLog ∧ c.2.toDb = w.toDb := by
  intro c hc
  have hnormal := (run_commits_initial (startTask run) failIn w).subset hc
  by_cases hlive : Live run w
  · obtain ⟨taskLog, w', commits, hstart, -, hcommits, -⟩ := normal_startTask run w hlive
    rw [hstart] at hnormal
    exact hcommits c hnormal
  · simp only [Live, not_forall, not_not] at hlive
    obtain ⟨own, hown, hsuccess⟩ := hlive
    rw [normal_startTask_done run w own hown hsuccess] at hnormal
    simp at hnormal

theorem task_commits (failIn : Option ℕ) :
    (calculateDeterministicScoreTask table run failIn w).commits =
        ((startTask run).run failIn w).commits ∨
      (Live run w ∧ ∃ taskLog w' k, w'.toDb = w.toDb ∧
        (∀ campaignCandidateId, queuedAiEvaluateLogs campaignCandidateId w' = [] ↔
          ¬AiEvaluationQueued run w campaignCandidateId) ∧
        (calculateDeterministicScoreTask table run failIn w).commits =
          ((startTask run).run failIn w).commits ++ (tryExcept (evaluateCandidate table run taskLog
                (CampaignCandidateRepository.getById w.toDb run.campaignCandidateId))
              (recordFailure run taskLog) k w').commits) := by
  cases hresult : ((startTask run).run failIn w).result with
  | error raised =>
    refine .inl ?_
    simp only [calculateDeterministicScoreTask, hresult]
  | ok started =>
    obtain ⟨k, hk⟩ := run_eq_normal (startTask run) failIn w (by simp [hresult])
    by_cases hlive : Live run w
    · obtain ⟨taskLog, w', commits, hstart, hdb, -, hqueued⟩ := normal_startTask run w hlive
      rw [hstart] at hk
      refine .inr ⟨hlive, taskLog, w', k, hdb, hqueued, ?_⟩
      simp only [calculateDeterministicScoreTask, hk, Finished.after]
    · simp only [Live, not_forall, not_not] at hlive
      obtain ⟨own, hown, hsuccess⟩ := hlive
      rw [normal_startTask_done run w own hown hsuccess] at hk
      refine .inl ?_
      simp only [calculateDeterministicScoreTask, hk]

section Safe

variable {table run w}

theorem evaluateCandidate_commits (taskLog : CeleryTaskLog) (w' : TaskDb) (k : Option ℕ)
    (hlive : Live run w) (hdb : w'.toDb = w.toDb)
    (hqueued : ∀ campaignCandidateId, queuedAiEvaluateLogs campaignCandidateId w' = [] ↔
      ¬AiEvaluationQueued run w campaignCandidateId)
    (hsafe : ¬CancelsMidway table run w) :
    let commits := ((evaluateCandidate table run taskLog
      (CampaignCandidateRepository.getById w.toDb run.campaignCandidateId)).run k w').commits
    ((∀ c ∈ commits, c.1 ≠ .task) → ∀ c ∈ commits, c.2.toDb = w.toDb) ∧
      ∀ c ∈ commits, c.2.toDb = w.toDb ∨ ∃ cc campaign breakdown,
        ReachesScoring table run w cc campaign breakdown ∧
          c.2.toDb = scoredDb table run w.toDb cc campaign breakdown := by
  intro commits
  have hinitial := run_commits_initial (evaluateCandidate table run taskLog
    (CampaignCandidateRepository.getById w.toDb run.campaignCandidateId)) k w'
  by_cases hreach : ∃ cc campaign breakdown, ReachesScoring table run w cc campaign breakdown
  · obtain ⟨cc, campaign, breakdown, hreach⟩ := hreach
    obtain ⟨cancelled, stored, marked, hscore, hcancelled, hstored, hmarked, hnil⟩ :=
      normal_scoreCandidate table run w' cc taskLog campaign breakdown hreach.scores.leaves
        hreach.scores.scored
    have hnormal : (evaluateCandidate table run taskLog
        (CampaignCandidateRepository.getById w.toDb run.campaignCandidateId)).normal w' =
        ⟨.ok (), marked, cancelled ++ [(.task, stored), (.taskLog, marked)], none⟩ := by
      rw [hreach.candidate, normal_evaluateCandidate table run w' taskLog cc campaign breakdown
        (hdb ▸ hreach.scores), hscore]
    rw [hnormal] at hinitial
    rw [hdb] at hstored hmarked
    -- The cancelled logs, if any, are committed with nothing of the score.
    have hsame : ∀ c ∈ cancelled, c.2.toDb = w.toDb := by
      intro c hc
      rw [(hcancelled c hc).2, hdb]
      by_contra hpartial
      have hmidway : cancelled ≠ [] := List.ne_nil_of_mem hc
      have hpending := mt hnil.mpr hmidway
      simp only [not_or, Bool.not_eq_true, hqueued, not_not] at hpending
      have hfound := hreach.candidate
      have hid : cc.id = run.campaignCandidateId := by
        simpa using List.find?_some hfound
      refine hsafe ⟨cc, campaign, breakdown, hreach, hpending.1, hpending.2, fun hstill => ?_⟩
      exact hpartial ((rejectedDb_eq_iff table run w.toDb cc breakdown (hid ▸ hfound)
        hreach.scores.leaves).mpr hstill)
    constructor
    · intro hnone c hc
      have hown : cancelled ++ [(CommitBy.task, stored)] <+:
          cancelled ++ [(.task, stored), (.taskLog, marked)] := by simp
      cases List.prefix_or_prefix_of_prefix hinitial hown with
      | inl hbefore =>
        cases List.mem_append.mp (hbefore.subset hc) with
        | inl hin => exact hsame c hin
        | inr hown =>
          have htask : c.1 = .task := by rw [List.mem_singleton.mp hown]
          exact absurd htask (hnone c hc)
      | inr hafter =>
        have hin : (CommitBy.task, stored) ∈ commits := hafter.subset (by simp)
        exact absurd rfl (hnone _ hin)
    · intro c hc
      cases List.mem_append.mp (hinitial.subset hc) with
      | inl hin => exact .inl (hsame c hin)
      | inr hrecorded =>
        refine .inr ⟨cc, campaign, breakdown, hreach, ?_⟩
        cases List.mem_cons.mp hrecorded with
        | inl hfirst =>
          rw [hfirst]
          exact hstored
        | inr hlast =>
          rw [List.mem_singleton.mp hlast]
          exact hmarked
  · have hquiet := quiet_evaluateCandidate table run w' taskLog
      (CampaignCandidateRepository.getById w.toDb run.campaignCandidateId) (by
        intro cc hcc campaign breakdown hscores
        exact hreach ⟨cc, campaign, breakdown, hlive, hcc, hdb ▸ hscores⟩)
    have hall : ∀ c ∈ commits, c.2.toDb = w.toDb := fun c hc =>
      (hquiet c (hinitial.subset hc)).2.trans hdb
    exact ⟨fun _ => hall, fun c hc => .inl (hall c hc)⟩

theorem committed_scored (cc : CampaignCandidate) (campaign : HiringCampaign)
    (breakdown : ScoreBreakdown) (h : ReachesScoring table run w cc campaign breakdown) :
    ((calculateDeterministicScoreTask table run none w).committed w).toDb =
      scoredDb table run w.toDb cc campaign breakdown := by
  obtain ⟨taskLog, w', commits, hstart, hdb, -, -⟩ := normal_startTask run w h.live
  obtain ⟨cancelled, stored, marked, hscore, -, -, hmarked, -⟩ :=
    normal_scoreCandidate table run w' cc taskLog campaign breakdown h.scores.leaves h.scores.scored
  have hbody : (evaluateCandidate table run taskLog (some cc)).run none w' =
      ⟨.ok (), marked, cancelled ++ [(.task, stored), (.taskLog, marked)], none⟩ :=
    (normal_evaluateCandidate table run w' taskLog cc campaign breakdown
      (hdb ▸ h.scores)).trans hscore
  have hstarted : (startTask run).run none w = ⟨.ok (some (taskLog, some cc)), w', commits, none⟩ :=
    h.candidate ▸ hstart
  rw [hdb] at hmarked
  simp only [calculateDeterministicScoreTask, hstarted, tryExcept, hbody]
  simpa [Finished.after, Finished.committed] using hmarked

theorem AllOrNothing.of_safe (hsafe : ¬CancelsMidway table run w) : AllOrNothing table run w where
  recorded := committed_scored
  untouched := by
    intro failIn hnone
    have hstarted := startTask_commits run w failIn
    cases task_commits table run w failIn with
    | inl honly =>
      rw [honly]
      exact fun c hc => (hstarted c hc).2
    | inr hbody =>
      obtain ⟨hlive, taskLog, w', k, hdb, hqueued, hcommits⟩ := hbody
      obtain ⟨failure, hfailure, hmarks⟩ := tryExcept_commits run w' taskLog
        (evaluateCandidate table run taskLog
          (CampaignCandidateRepository.getById w.toDb run.campaignCandidateId)) k
      have hsame := (evaluateCandidate_commits taskLog w' k hlive hdb hqueued hsafe).1
      rw [hcommits, hfailure] at hnone ⊢
      have hbody := hsame fun c hc =>
        hnone c (List.mem_append_right _ (List.mem_append_left _ hc))
      have hleft := Finished.committed_of_all (P := fun d => d.toDb = w.toDb) w' _ hdb hbody
      intro c hc
      rcases List.mem_append.mp hc with hin | hin
      · exact (hstarted c hin).2
      · rcases List.mem_append.mp hin with hin | hin
        · exact hbody c hin
        · exact (hmarks c hin).2.trans hleft
  together := by
    intro failIn c hc
    have hstarted := startTask_commits run w failIn
    cases task_commits table run w failIn with
    | inl honly =>
      rw [honly] at hc
      exact .inl (hstarted c hc).2
    | inr hbody =>
      obtain ⟨hlive, taskLog, w', k, hdb, hqueued, hcommits⟩ := hbody
      obtain ⟨failure, hfailure, hmarks⟩ := tryExcept_commits run w' taskLog
        (evaluateCandidate table run taskLog
          (CampaignCandidateRepository.getById w.toDb run.campaignCandidateId)) k
      have hbody := (evaluateCandidate_commits taskLog w' k hlive hdb hqueued hsafe).2
      have hleft := Finished.committed_of_all (P := fun d => d.toDb = w.toDb ∨
        ∃ cc campaign breakdown, ReachesScoring table run w cc campaign breakdown ∧
          d.toDb = scoredDb table run w.toDb cc campaign breakdown) w' _ (.inl hdb) hbody
      rw [hcommits, hfailure] at hc
      rcases List.mem_append.mp hc with hin | hin
      · exact .inl (hstarted c hin).2
      · rcases List.mem_append.mp hin with hin | hin
        · exact hbody c hin
        · rw [(hmarks c hin).2]
          exact hleft

end Safe

section Unsafe

variable {table run w}

theorem CancelsMidway.torn (h : CancelsMidway table run w) : ¬AllOrNothing table run w := by
  intro hall
  obtain ⟨cc, campaign, breakdown, hreach, hfailed, hqueued, hchanged⟩ := h
  obtain ⟨taskLog, w', commits, hstart, hdb, hmarks, hpending⟩ := normal_startTask run w hreach.live
  obtain ⟨cancelled, stored, marked, hscore, hcancelled, -, -, hnil⟩ :=
    normal_scoreCandidate table run w' cc taskLog campaign breakdown hreach.scores.leaves
      hreach.scores.scored
  have hcuts : cancelled ≠ [] := by
    intro hempty
    have hnone := hnil.mp hempty
    rw [hfailed, hpending] at hnone
    simp [hqueued] at hnone
  have hbody : (evaluateCandidate table run taskLog (some cc)).normal w' =
      ⟨.ok (), marked, cancelled ++ [(.task, stored), (.taskLog, marked)], none⟩ := by
    rw [normal_evaluateCandidate table run w' taskLog cc campaign breakdown (hdb ▸ hreach.scores),
      hscore]
  obtain ⟨n, -, -, hcut⟩ := exists_failure (evaluateCandidate table run taskLog (some cc)) w'
    cancelled (.task, stored) [(.taskLog, marked)] (by rw [hbody])
  obtain ⟨m, hdelayed⟩ := exists_delay (startTask run) w n
  rw [hstart, hreach.candidate] at hdelayed
  obtain ⟨failure, hfailure, hmark⟩ := tryExcept_commits run w' taskLog
    (evaluateCandidate table run taskLog (some cc)) (some n)
  have hcommits : (calculateDeterministicScoreTask table run (some m) w).commits =
      commits ++ (cancelled ++ failure) := by
    simp only [calculateDeterministicScoreTask, hdelayed, Finished.after, hfailure, hcut]
  have hsame := hall.untouched (some m) (by
    rw [hcommits]
    intro c hc
    have htag : c.1 = .taskLog := by
      rcases List.mem_append.mp hc with hin | hin
      · exact (hmarks c hin).1
      · rcases List.mem_append.mp hin with hin | hin
        · exact (hcancelled c hin).1
        · exact (hmark c hin).1
    simp [htag])
  obtain ⟨c, hc⟩ := List.exists_mem_of_ne_nil cancelled hcuts
  have hleft := hsame c (by simp [hcommits, hc])
  have hfound := hreach.candidate
  have hid : cc.id = run.campaignCandidateId := by simpa using List.find?_some hfound
  rw [(hcancelled c hc).2, hdb, rejectedDb_eq_iff table run w.toDb cc breakdown (hid ▸ hfound)
    hreach.scores.leaves] at hleft
  exact hchanged hleft

end Unsafe

-- The task persists all or nothing exactly when it does not have to cancel a
-- queued AI evaluation on its way.
theorem scoring_all_or_nothing_iff : AllOrNothing table run w ↔ ¬CancelsMidway table run w :=
  ⟨fun hall hmidway => hmidway.torn hall, AllOrNothing.of_safe⟩

end AllOrNothing

def failedBreakdown : ScoreBreakdown where
  mandatorySkills := [{ matchType := .missing, details := [] }]
  mandatoryCoveragePct := 0
  missingCoreSkillCount := 1
  maxMissingCoreSkills := 0
  skillQualificationPassed := false
  deterministicScore := 40
  deterministicPassed := false
  details := []

def failedRun : ScoringRun where
  taskId := "rescore"
  campaignCandidateId := 0
  resume := fun _ => some { parseStatus := .parsed }
  jdId := fun _ => 0
  jobDescriptionFound := fun _ => true
  reads := 3
  breakdown := .ok failedBreakdown
  rejectionReason := "Missing required skills: Go"
  dumps := fun _ => "summary"
  startedAt := 2
  screeningAt := 2
  scoredAt := 3
  rejectedAt := 3
  cancelledAt := fun _ => 4
  finishedAt := 4

def queuedEvaluation (id : Uuid) : CeleryTaskLog where
  id := id
  taskId := "evaluate"
  taskType := aiEvaluateTaskType
  campaignCandidateId := some 0
  status := .queued
  outputSummary := none
  errorMessage := none
  startedAt := none
  completedAt := none

def queuedDb : TaskDb where
  toDb := AiHiring.screenedDb
  taskLogs := Table.empty.insert queuedEvaluation fun _ => rfl

def stages (d : TaskDb) : List PipelineStage :=
  d.campaignCandidates.rows.map CampaignCandidate.pipelineStage

-- The call after the cancelled log fails: the candidate stays REJECTED, while
-- its AI evaluation is not skipped and the audit row is missing.
theorem rejection_committed_midway :
    ¬∀ (table : TransitionTable) (run : ScoringRun) (w : TaskDb), AllOrNothing table run w := by
  intro h
  have hsame := (h seededTransitions failedRun queuedDb).untouched (some 36) (by decide +kernel)
  have hcommitted : (calculateDeterministicScoreTask seededTransitions failedRun (some 36)
      queuedDb).commits.map (fun c => stages c.2) =
      [[.screening], [.screening], [.rejected], [.rejected]] := by decide +kernel
  have hin : [PipelineStage.rejected] ∈ (calculateDeterministicScoreTask seededTransitions
      failedRun (some 36) queuedDb).commits.map fun c => stages c.2 := by
    rw [hcommitted]
    simp
  obtain ⟨c, hc, hrejected⟩ := List.mem_map.mp hin
  have hstages : stages c.2 = stages queuedDb :=
    congrArg (fun db : Db => db.campaignCandidates.rows.map CampaignCandidate.pipelineStage)
      (hsame c hc)
  rw [hrejected] at hstages
  exact absurd hstages (by decide +kernel)

end DeterministicScoring

end AiHiring
