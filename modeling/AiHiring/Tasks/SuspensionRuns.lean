import AiHiring.Tasks.SuspensionDeliveries

namespace AiHiring

open Library

namespace ScoringQueue

open World

section Steps

variable {w t : World} {event : Event}

variable {i : ℕ} {worker : Worker}

theorem inv_finished (h : Inv w) (hi : w.crew[i]? = some worker)
    (hwork : worker.phase ≠ .done) {status : TaskStatus} {errorMessage : Option String}
    (hstatus : status ≠ .queued)
    (hscored : worker.phase = .scored → status = .success ∨
      w.suspension worker.message.taskId = none)
    (hsuccess : worker.phase = .running → status = .success → ¬resumedTask w worker.message.taskId)
    (hsent : worker.phase = .found ∨ (∃ s, w.suspension worker.message.taskId = some s ∧
      s.executed = 0 ∧ s.resumed = true) →
      ∃ m ∈ w.broker, m.taskId = worker.message.taskId ∧ m.tag ≠ worker.message.tag) :
    Inv (w.finish i worker status errorMessage) := by
  obtain ⟨hcrew, hbroker, -, -, hnext, -⟩ := finish_fields w i worker status errorMessage
  have hbase := h.base_finish hi hwork status errorMessage
  dsimp only at hbase
  rw [hcrew, hnext] at hbase
  have hleft (hneed : worker.phase = .found ∨ ∃ s, w.suspension worker.message.taskId = some s ∧
      s.executed = 0 ∧ s.resumed = true) :
      Sent (w.finish i worker status errorMessage).broker worker.message.taskId := by
    obtain ⟨m, hm, htask, hne⟩ := hsent hneed
    rw [hbroker]
    exact ⟨m, List.mem_filter.mpr ⟨hm, by simpa using hne⟩, htask⟩
  exact inv_ended h hi hwork hstatus hscored hsuccess hbase (List.Subset.refl _) hleft

theorem inv_retried (h : Inv w) (hi : w.crew[i]? = some worker) (hwork : worker.phase ≠ .done)
    (hscored : worker.phase = .scored → w.suspension worker.message.taskId = none)
    (taskType : ScoringTask) (cc : Uuid) (retries : ℕ) :
    Inv (World.applyAsync (w.finish i worker .retry none) worker.message.taskId taskType cc
      retries) := by
  obtain ⟨hcrew, -, -, -, hnext, -⟩ := finish_fields w i worker .retry none
  have hbase := h.base_finish hi hwork .retry none
  dsimp only at hbase
  rw [hcrew, hnext] at hbase
  obtain ⟨hlt, -⟩ := h.base.sent _ (h.base.held worker (List.mem_of_getElem? hi) hwork)
  refine inv_ended h hi hwork (by simp) (fun hs => .inr (hscored hs)) (fun _ hno => ?_)
    (hbase.send hlt taskType cc retries) (List.subset_append_left _ _) fun _ => ?_
  · exact TaskStatus.noConfusion hno
  · exact ⟨_, List.mem_append_right _ (List.mem_singleton_self _), rfl⟩

theorem inv_fail (h : Inv w) {retried : Bool} {error : String}
    (hcare : Careful w (.fail i retried error))
    (hstep : w.next? (.fail i retried error) = some t) : Inv t := by
  simp only [next?, Option.bind_eq_bind, Option.bind_eq_some_iff] at hstep
  obtain ⟨worker, hi, hstep⟩ := hstep
  obtain ⟨hscored, hmore⟩ := hcare worker hi
  split_ifs at hstep with hdone hretried hpolicy
  · cases hstep
    exact inv_retried h hi hdone hscored _ _ _
  · cases hstep
    have hstatus : failureStatus worker.message.taskType = .failure ∨
        failureStatus worker.message.taskType = .dead := by
      by_cases hdet : worker.message.taskType = .deterministicScore
      · exact .inl (by simp [failureStatus, hdet])
      · exact .inr (by simp [failureStatus, hdet])
    refine inv_finished h hi hdone ?_ (fun hs => .inr (hscored hs)) (fun _ hno => ?_)
      fun hneed => ?_
    · obtain hs | hs := hstatus <;> simp [hs]
    · obtain hs | hs := hstatus <;> simp [hs] at hno
    · refine (hmore ?_).resolve_left hretried
      obtain hfound | ⟨s, hs, -, hyes⟩ := hneed
      · exact .inl hfound
      · exact .inr ⟨s, hs, hyes⟩

theorem inv_success (h : Inv w) (hi : w.crew[i]? = some worker)
    (hphase : worker.phase = .running ∨ worker.phase = .scored)
    (hskip : worker.phase = .running → ¬resumedTask w worker.message.taskId) :
    Inv (w.finish i worker .success none) := by
  have hwork : worker.phase ≠ .done := by
    obtain hp | hp := hphase <;> simp [hp]
  refine inv_finished h hi hwork (by simp) (fun _ => .inl rfl) (fun hp _ => hskip hp)
    fun hneed => ?_
  obtain hfound | ⟨s, hs, hnone, hyes⟩ := hneed
  · obtain hp | hp := hphase <;> simp [hp] at hfound
  · obtain hp | hp := hphase
    · exact absurd ⟨s, hs, hyes⟩ (hskip hp)
    · have hone := (h.watch _ s hs).scored ⟨worker, List.mem_of_getElem? hi, rfl, hp⟩
      omega

theorem inv_step (h : Inv w) (hcare : Careful w event) (hstep : Step w event t) : Inv t := by
  cases event with
  | enqueueDeterministic cc resumeId dispatched =>
    obtain rfl : dispatched = true := hcare
    cases hstep
    exact inv_enqueueDeterministic h cc resumeId
  | enqueueUnlogged cc =>
    cases hstep
    exact inv_enqueueUnlogged h cc
  | enqueueSemantic cc dispatched =>
    obtain rfl : dispatched = true := hcare.1
    cases hstep
    exact inv_enqueueSemantic h cc hcare
  | enqueueAiEvaluation cc dispatched =>
    obtain rfl : dispatched = true := hcare
    cases hstep
    exact inv_enqueueUnlessInFlight h .aiEvaluate cc
  | enqueueCompositeScoring cc dispatched =>
    obtain rfl : dispatched = true := hcare
    cases hstep
    exact inv_enqueueUnlessInFlight h .compositeScore cc
  | pause =>
    simp only [Step, next?] at hstep
    split_ifs at hstep with hactive
    cases hstep
    exact inv_pause h hactive
  | resume =>
    simp only [Step, next?] at hstep
    split_ifs at hstep with hpaused
    cases hstep
    exact inv_resume h hpaused
  | close =>
    simp only [Step, next?] at hstep
    split_ifs at hstep with hclosed
    cases hstep
    exact inv_close h hclosed
  | cancelDownstream i =>
    obtain ⟨worker, -, hstep⟩ := Option.bind_eq_some_iff.mp hstep
    split_ifs at hstep
    cases hstep
    exact inv_cancelDownstream h worker.message.campaignCandidateId
  | deliver m => exact inv_deliver h hcare hstep
  | createLog i =>
    obtain ⟨worker, hi, hstep⟩ := Option.bind_eq_some_iff.mp hstep
    split_ifs at hstep with hphase
    cases hstep
    exact inv_createLog h hi hphase.1 hphase.2
  | markRunning i =>
    obtain ⟨worker, hi, hstep⟩ := Option.bind_eq_some_iff.mp hstep
    obtain ⟨id, hlog, hstep⟩ := Option.bind_eq_some_iff.mp hstep
    split_ifs at hstep with hphase
    cases hstep
    exact inv_markRunning h hi hphase hlog (hcare worker hi)
  | skip i =>
    obtain ⟨worker, hi, hstep⟩ := Option.bind_eq_some_iff.mp hstep
    split_ifs at hstep with hphase
    cases hstep
    exact inv_success h hi (.inl hphase.1) fun _ => hcare worker hi
  | store i verdict =>
    obtain ⟨worker, hi, hstep⟩ := Option.bind_eq_some_iff.mp hstep
    split_ifs at hstep with hphase
    cases hstep
    exact inv_store h hi hphase.1 hphase.2 verdict
  | markSuccess i =>
    obtain ⟨worker, hi, hstep⟩ := Option.bind_eq_some_iff.mp hstep
    split_ifs at hstep with hphase
    cases hstep
    refine inv_success h hi (.inr hphase) fun hrunning => ?_
    exact WorkerPhase.noConfusion (hphase.symm.trans hrunning)
  | fail i retried error => exact inv_fail h hcare hstep
  | lost i =>
    obtain ⟨worker, hi, hstep⟩ := Option.bind_eq_some_iff.mp hstep
    split_ifs at hstep with hdone
    cases hstep
    exact inv_lost h hi hdone (hcare worker hi)

theorem Inv.not_blocked (h : Inv w) (hi : w.crew[i]? = some worker)
    (hwork : worker.phase ≠ .done) (hfound : worker.phase ≠ .found) {log : ScoringLog}
    (hlog : log ∈ w.logs.rows) (hholds : worker.log = some log.id) : ¬Blocked w log := by
  obtain ⟨-, hrunning⟩ := h.running hi hwork hfound
  have htask := ((h.row_iff hi hwork hlog).mp hholds).2
  have hstatus := h.base.status_unique ⟨log, hlog, htask, rfl⟩ hrunning
  simp [Blocked, hstatus]

theorem unchanged {log : ScoringLog} (hlog : log ∈ w.logs.rows) (hscores : t.scores = w.scores)
    (hcandidates : t.candidates = w.candidates) (hrows : t.logs.rows = w.logs.rows) :
    t.scores = w.scores ∧ t.candidates = w.candidates ∧
      ∃ after ∈ t.logs.rows, after.id = log.id ∧ after.status = log.status := by
  rw [hrows]
  exact ⟨hscores, hcandidates, log, hlog, rfl, rfl⟩

-- What a delivery does before it marks its log is harmless, and what it does after
-- that it does for a log that is RUNNING.
theorem step_undisturbed (h : Inv w) (hcare : Careful w event) (hstep : Step w event t) :
    Undisturbed w event t := by
  intro log hlog hdelivered hblocked
  have hworker {i : ℕ} {worker : Worker} (hi : w.crew[i]? = some worker)
      (hd : w.crew[i]?.bind Worker.log = some log.id) : worker.log = some log.id := by
    rw [hi, Option.bind_some] at hd
    exact hd
  have hrunning {i : ℕ} {worker : Worker} (hi : w.crew[i]? = some worker)
      (hd : w.crew[i]?.bind Worker.log = some log.id)
      (hphase : worker.phase = .running ∨ worker.phase = .scored) : False := by
    have hne : worker.phase ≠ .done ∧ worker.phase ≠ .found := by
      obtain hp | hp := hphase <;> simp [hp]
    exact h.not_blocked hi hne.1 hne.2 hlog (hworker hi hd) hblocked
  cases event with
  | enqueueDeterministic | enqueueUnlogged | enqueueSemantic | enqueueAiEvaluation
  | enqueueCompositeScoring | pause | resume | close =>
    simp [deliveredLog] at hdelivered
  | deliver m =>
    simp only [Step, next?] at hstep
    split_ifs at hstep
    cases hfind : w.getByTaskId m.taskId with
    | none =>
      simp only [hfind, Option.some.injEq] at hstep
      subst hstep
      exact unchanged hlog rfl rfl rfl
    | some found =>
      simp only [hfind] at hstep
      split_ifs at hstep
      all_goals
        cases hstep
        exact unchanged hlog rfl rfl rfl
  | cancelDownstream i =>
    obtain ⟨worker, hi, hstep⟩ := Option.bind_eq_some_iff.mp hstep
    split_ifs at hstep with hphase
    exact (hrunning hi hdelivered (.inl hphase.1)).elim
  | createLog i =>
    obtain ⟨worker, hi, hstep⟩ := Option.bind_eq_some_iff.mp hstep
    split_ifs at hstep with hphase
    exact absurd (hworker hi hdelivered) (by simp [hphase.2])
  | markRunning i =>
    obtain ⟨worker, hi, -⟩ := Option.bind_eq_some_iff.mp hstep
    exact absurd hblocked (hcare worker hi log hlog (hworker hi hdelivered))
  | skip i =>
    obtain ⟨worker, hi, hstep⟩ := Option.bind_eq_some_iff.mp hstep
    split_ifs at hstep with hphase
    exact (hrunning hi hdelivered (.inl hphase.1)).elim
  | store i verdict =>
    obtain ⟨worker, hi, hstep⟩ := Option.bind_eq_some_iff.mp hstep
    split_ifs at hstep with hphase
    exact (hrunning hi hdelivered (.inl hphase.1)).elim
  | markSuccess i =>
    obtain ⟨worker, hi, hstep⟩ := Option.bind_eq_some_iff.mp hstep
    split_ifs at hstep with hphase
    exact (hrunning hi hdelivered (.inr hphase)).elim
  | fail i retried error =>
    simp only [Step, next?, Option.bind_eq_bind, Option.bind_eq_some_iff] at hstep
    obtain ⟨worker, hi, hstep⟩ := hstep
    have hfound (hdone : worker.phase ≠ .done) : worker.phase = .found := by
      by_contra hne
      exact h.not_blocked hi hdone hne hlog (hworker hi hdelivered) hblocked
    split_ifs at hstep with hdone hretried hpolicy
    all_goals
      cases hstep
      obtain ⟨-, -, -, -, -, -, hscores, hcandidates, hrows⟩ :=
        finish_fields w i worker _ _
      rw [if_pos (hfound hdone)] at hrows
      exact unchanged hlog hscores hcandidates hrows
  | lost i =>
    obtain ⟨worker, hi, hstep⟩ := Option.bind_eq_some_iff.mp hstep
    split_ifs at hstep
    cases hstep
    exact unchanged hlog rfl rfl rfl

theorem Inv.runsOnce (h : Inv w) : RunsOnce w := by
  intro taskId s hs
  have hwatch := h.watch taskId s hs
  refine ⟨fun hun => (hwatch.unresumed hun).1, fun hresumed => ⟨hwatch.once, fun hsettled => ?_⟩⟩
  have honce := hwatch.once
  by_contra hne
  exact hsettled.1 (hwatch.alive (by omega) (.inl hresumed))

end Steps

structure Start (w : World) : Prop where
  active : w.campaign = .active
  logs : w.logs.rows = []
  broker : w.broker = []
  crew : w.crew = []
  suspension : ∀ taskId, w.suspension taskId = none

theorem Start.inv {w : World} (h : Start w) : Inv w := by
  obtain ⟨-, hlogs, hbroker, hcrew, hsuspension⟩ := h
  refine ⟨?_, by simp [hlogs, Row], by simp [hsuspension], by simp [hsuspension]⟩
  rw [hlogs, hbroker, hcrew]
  constructor <;> simp [soleOwner_nil]

-- Suspended and cancelled tasks stay where they are along every careful run, and
-- the resumed ones run exactly once.
theorem suspended_tasks_run_once (w : World) (hstart : Start w) (path : List (Event × World))
    (hp : Path Step w path) (hcare : EveryStep (fun s event _ => Careful s event) w path) :
    EveryStep Undisturbed w path ∧ ∀ t ∈ visited w path, RunsOnce t := by
  have hkeep (s : World) (event : Event) (t : World) (h : Inv s) (hc : Careful s event)
      (hs : Step s event t) : Inv t := inv_step h hc hs
  constructor
  · exact hp.guarded_everyStep hstart.inv hcare hkeep fun s event t h => step_undisturbed h
  · intro t ht
    have h : Inv t := hp.guarded_invariant hstart.inv hcare hkeep t ht
    exact h.runsOnce

instance blockedDecidable (w : World) (log : ScoringLog) : Decidable (Blocked w log) :=
  inferInstanceAs (Decidable (_ ∨ _))

theorem careful_markRunning {w : World} (i : ℕ)
    (h : ∀ worker ∈ w.crew, ∀ log ∈ w.logs.rows, worker.log = some log.id → ¬Blocked w log) :
    Careful w (.markRunning i) :=
  fun worker hi => h worker (List.mem_of_getElem? hi)

def applicant (id : Uuid) : ScoredCandidate where
  id := id
  pipelineStage := .screening
  deterministicScore := none
  deterministicPassed := false
  semanticScore := none
  semanticPassed := false
  aiScore := none
  compositeScore := none

def openWorld : World where
  campaign := .active
  candidates := Table.empty.insert applicant fun _ => rfl
  logs := Table.empty
  broker := []
  crew := []
  nextTask := 0
  nextTag := 0
  scores := 0
  suspension := fun _ => none

def firstMessage : Message := ⟨0, 0, .deterministicScore, 0, 0⟩

def sentAgain : Message := ⟨1, 0, .deterministicScore, 0, 0⟩

def shortlisted : Verdict := ⟨80, true, .shortlisted⟩

def resumedRun : List (Event × World) :=
  execute World.next? openWorld
    [.enqueueDeterministic 0 0 true, .pause, .resume, .deliver firstMessage, .markRunning 0,
      .store 0 shortlisted, .markSuccess 0, .deliver sentAgain]

def pausedRun : List (Event × World) :=
  execute World.next? openWorld
    [.enqueueDeterministic 0 0 true, .pause, .deliver firstMessage, .markRunning 0,
      .store 0 shortlisted]

theorem open_start : Start openWorld := by
  constructor
  · rfl
  · rfl
  · rfl
  · rfl
  · intro taskId
    rfl

theorem suspended_tasks_run_once_resumed : EveryStep Undisturbed openWorld resumedRun ∧
      ∀ t ∈ visited openWorld resumedRun, RunsOnce t := by
  refine suspended_tasks_run_once openWorld open_start resumedRun
    (execute_path World.next? (fun _ _ _ h => h) openWorld _) ?_
  refine ⟨rfl, trivial, trivial, ?_, ?_, trivial, trivial, ?_, trivial⟩
  · show ∀ worker ∈ _, owner worker ≠ some 0
    decide +kernel
  · refine careful_markRunning 0 ?_
    decide +kernel
  · show ∀ worker ∈ _, owner worker ≠ some 0
    decide +kernel

-- The suspended task runs before the campaign is resumed: its delivery marks the
-- PAUSED log RUNNING and stores the score.
theorem suspended_task_runs_while_paused :
    Start openWorld ∧ Path Step openWorld pausedRun ∧ ¬EveryStep Undisturbed openWorld pausedRun ∧
      ¬∀ t ∈ visited openWorld pausedRun, RunsOnce t := by
  refine ⟨open_start, execute_path World.next? (fun _ _ _ h => h) openWorld _, fun hall => ?_,
    fun hall => ?_⟩
  · obtain ⟨-, -, -, hmark, -⟩ := hall
    obtain ⟨-, -, after, hafter, -, hstatus⟩ :=
      hmark ⟨0, 0, .deterministicScore, some (.deterministic 0 0), 0, .paused, none⟩
        (by decide +kernel) (by decide +kernel) (by decide +kernel)
    have hrunning : ∀ log ∈ (final openWorld (pausedRun.take 4)).logs.rows,
        log.status = .running := by
      decide +kernel
    rw [hrunning after hafter] at hstatus
    exact TaskStatus.noConfusion hstatus
  · have hruns := hall _ (final_mem_visited openWorld pausedRun)
    have hnone := (hruns 0 ⟨false, 1⟩ (by decide +kernel)).1 rfl
    exact absurd hnone (by decide)

end ScoringQueue

end AiHiring
