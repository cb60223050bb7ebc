import AiHiring.Tasks.Suspension

namespace AiHiring

open Library

namespace ScoringQueue

open World

section Enqueues

variable {w : World}

theorem Inv.old (h : Inv w) {taskId : ℕ} {s : Suspension} (hs : w.suspension taskId = some s) :
    taskId < w.nextTask := h.known taskId (by simp [hs])

theorem inv_newTask (h : Inv w) (taskType : ScoringTask) (key : Option IdempotencyKey)
    (cc : Uuid) : Inv (w.newTask taskType key cc true) := by
  have hfresh (r : ScoringLog) (hr : r ∈ w.logs.rows) : r.taskId ≠ w.nextTask := by
    have hlt := h.base.tasks r hr
    omega
  have hlogged : Base w.crew (w.logs.rows ++ [newLog w.nextTask taskType key cc w.logs.next])
      w.broker (w.nextTask + 1) w.nextTag := by
    refine h.base.addLog (Nat.le_succ _) (Nat.lt_succ_self _) hfresh fun worker hw hwork _ => ?_
    obtain ⟨hlt, -⟩ := h.base.sent worker.message (h.base.held worker hw hwork)
    exact Nat.ne_of_lt hlt
  have hsub : w.broker ⊆ w.broker ++ [⟨w.nextTag, w.nextTask, taskType, cc, 0⟩] :=
    List.subset_append_left _ _
  refine ⟨hlogged.send (Nat.lt_succ_self _) taskType cc 0, fun taskId hrow => ?_,
    fun taskId hs => Nat.lt_succ_of_lt (h.known taskId hs), fun taskId s hs => ?_⟩
  · obtain hrow | ⟨rfl, -⟩ := Row.append.mp hrow
    · exact (h.queued taskId hrow).mono hsub
    · exact ⟨_, List.mem_append_right _ (List.mem_singleton_self _), rfl⟩
  · have hne : w.nextTask ≠ taskId := Nat.ne_of_gt (h.old hs)
    refine (h.watch taskId s hs).congr (fun _ _ hrow => Row.append.mpr (.inl hrow)) ?_
      (fun hsent => hsent.mono hsub) fun _ _ => Iff.rfl
    rw [show (w.newTask taskType key cc true).logs.rows =
      w.logs.rows ++ [newLog w.nextTask taskType key cc w.logs.next] from rfl, Row.append]
    exact or_iff_left fun hnew => hne hnew.1

theorem inv_enqueueUnlogged (h : Inv w) (cc : Uuid) : Inv (w.enqueueUnlogged cc) := by
  have hsub : w.broker ⊆ w.broker ++ [⟨w.nextTag, w.nextTask, .deterministicScore, cc, 0⟩] :=
    List.subset_append_left _ _
  refine ⟨h.base.fresh.send (Nat.lt_succ_self _) .deterministicScore cc 0,
    fun taskId hrow => (h.queued taskId hrow).mono hsub,
    fun taskId hs => Nat.lt_succ_of_lt (h.known taskId hs), fun taskId s hs => ?_⟩
  exact (h.watch taskId s hs).congr (fun _ _ hrow => hrow) Iff.rfl
    (fun hsent => hsent.mono hsub) fun _ _ => Iff.rfl

theorem mem_replace_requeued {log r : ScoringLog} (hlog : log ∈ w.logs.rows) :
    r ∈ (w.logs.replace (requeued w.nextTask log)).rows ↔
      (r ∈ w.logs.rows ∧ r.id ≠ log.id) ∨ r = requeued w.nextTask log := by
  rw [Table.mem_replace]
  refine or_congr Iff.rfl ?_
  constructor
  · exact fun hr => hr.1
  · exact fun hr => ⟨hr, log, hlog, rfl⟩

theorem inv_takeOver (h : Inv w) {log : ScoringLog} (hlog : log ∈ w.logs.rows)
    (hended : terminalOrWaiting log)
    (hfree : ∀ worker ∈ w.crew, worker.phase ≠ .done → worker.log ≠ some log.id)
    (hresumed : w.suspension log.taskId ≠ none → resumedTask w log.taskId) (cc : Uuid) :
    Inv (dispatch { w with logs := w.logs.replace (requeued w.nextTask log)
                           nextTask := w.nextTask + 1 }
      true w.nextTask .semanticScore cc) := by
  let rows := (w.logs.replace (requeued w.nextTask log)).rows
  have hmem (r : ScoringLog) : r ∈ rows ↔
      (r ∈ w.logs.rows ∧ r.id ≠ log.id) ∨ r = requeued w.nextTask log :=
    mem_replace_requeued hlog
  have hnew : (requeued w.nextTask log).taskId = w.nextTask := rfl
  have hbase : Base w.crew rows w.broker (w.nextTask + 1) w.nextTag := by
    refine ⟨h.base.sole, fun r hr s hs heq => ?_, fun r hr => ?_, h.base.fresh.sent, h.base.tags,
      h.base.held, fun worker hw hwork => ?_⟩
    · obtain ⟨hr, -⟩ | rfl := (hmem r).mp hr
      · obtain ⟨hs, -⟩ | rfl := (hmem s).mp hs
        · exact h.base.unique r hr s hs heq
        · have hlt := h.base.tasks r hr
          omega
      · obtain ⟨hs, -⟩ | rfl := (hmem s).mp hs
        · have hlt := h.base.tasks s hs
          omega
        · rfl
    · obtain ⟨hr, -⟩ | rfl := (hmem r).mp hr
      · exact Nat.lt_succ_of_lt (h.base.tasks r hr)
      · exact Nat.lt_succ_self _
    · obtain ⟨hlt, -⟩ := h.base.sent worker.message (h.base.held worker hw hwork)
      refine ⟨fun hnone => ?_, fun id hid => ?_⟩
      · obtain ⟨hfound, hno⟩ := (h.base.holds worker hw hwork).unlogged hnone
        refine ⟨hfound, fun r hr => ?_⟩
        obtain ⟨hr, -⟩ | rfl := (hmem r).mp hr
        · exact hno r hr
        · exact Nat.ne_of_gt hlt
      · obtain ⟨r, hr, hrid, hrest⟩ := (h.base.holds worker hw hwork).logged id hid
        refine ⟨r, (hmem r).mpr (.inl ⟨hr, fun heq => ?_⟩), hrid, hrest⟩
        exact hfree worker hw hwork (by rw [hid, ← hrid, heq])
  have hsub : w.broker ⊆ w.broker ++ [⟨w.nextTag, w.nextTask, .semanticScore, cc, 0⟩] :=
    List.subset_append_left _ _
  refine ⟨hbase.send (Nat.lt_succ_self _) .semanticScore cc 0, fun taskId hrow => ?_,
    fun taskId hs => Nat.lt_succ_of_lt (h.known taskId hs), fun taskId s hs => ?_⟩
  · obtain ⟨r, hr, rfl, hstatus⟩ := hrow
    obtain ⟨hr, -⟩ | rfl := (hmem r).mp hr
    · exact (h.queued r.taskId ⟨r, hr, rfl, hstatus⟩).mono hsub
    · exact ⟨_, List.mem_append_right _ (List.mem_singleton_self _), rfl⟩
  · have hwatched : w.suspension taskId = some s := hs
    have hlt := h.old hwatched
    -- another log of the task would be this one
    have hother (r : ScoringLog) (hr : r ∈ w.logs.rows) (htask : r.taskId = taskId)
        (hne : r.status ≠ log.status ∨ taskId ≠ log.taskId) : r ∈ rows := by
      refine (hmem r).mpr (.inl ⟨hr, fun heq => ?_⟩)
      obtain rfl := w.logs.eq_of_key_eq hr hlog heq
      obtain hne | hne := hne
      · exact hne rfl
      · exact hne htask.symm
    refine (h.watch taskId s hs).congr (fun hun _ hrow => ?_) ?_ (fun hsent => hsent.mono hsub)
      fun _ _ => Iff.rfl
    · obtain ⟨r, hr, htask, hstatus⟩ := hrow
      refine ⟨r, hother r hr htask (.inr ?_), htask, hstatus⟩
      rintro rfl
      obtain ⟨s', hs', hyes⟩ := hresumed (by simp [hwatched])
      cases hwatched.symm.trans hs'
      rw [hun] at hyes
      exact Bool.noConfusion hyes
    · constructor
      · rintro ⟨r, hr, htask, hstatus⟩
        obtain ⟨hr, -⟩ | rfl := (hmem r).mp hr
        · exact ⟨r, hr, htask, hstatus⟩
        · exact absurd htask (Nat.ne_of_gt hlt)
      · rintro ⟨r, hr, htask, hstatus⟩
        refine ⟨r, hother r hr htask (.inl fun heq => ?_), htask, hstatus⟩
        rw [hstatus] at heq
        exact hended (by simp [← heq])

theorem inv_enqueueSemantic (h : Inv w) (cc : Uuid)
    (hcare : Careful w (.enqueueSemantic cc true)) : Inv (w.enqueueSemantic cc true) := by
  unfold enqueueSemantic
  cases hfind : w.getByIdempotencyKey (.semantic cc) with
  | none => exact inv_newTask h .semanticScore (some (.semantic cc)) cc
  | some log =>
    simp only
    split_ifs with hin
    · exact h
    · obtain ⟨hfree, hresumed⟩ := hcare.2 log hfind hin
      exact inv_takeOver h (List.mem_of_find?_eq_some hfind) hin hfree hresumed cc

theorem inv_enqueueDeterministic (h : Inv w) (cc resumeId : Uuid) :
    Inv (w.enqueueDeterministic cc resumeId true) := by
  unfold enqueueDeterministic
  cases w.getByIdempotencyKey (.deterministic cc resumeId) with
  | none => exact inv_newTask h .deterministicScore _ cc
  | some _ => exact h

theorem inv_enqueueUnlessInFlight (h : Inv w) (taskType : ScoringTask) (cc : Uuid) :
    Inv (w.enqueueUnlessInFlight taskType cc true) := by
  unfold enqueueUnlessInFlight
  split_ifs
  · exact h
  · exact inv_newTask h taskType none cc

end Enqueues

section Campaigns

variable {w : World}

theorem mem_isQueued {r : ScoringLog} : isQueued r = true ↔ r.status = .queued := by
  simp [isQueued]

theorem row_mark_ne {rows : List ScoringLog} {selected : ScoringLog → Bool}
    {status status' : TaskStatus} {errorMessage : Option String} {taskId : ℕ}
    (hnew : status ≠ status') (hold : ∀ r, r.status = status' → selected r = false) :
    Row (rows.map (withStatus selected status errorMessage)) taskId status' ↔
      Row rows taskId status' := by
  rw [Row.mark]
  constructor
  · rintro (⟨r, hr, htask, -, heq⟩ | ⟨r, hr, htask, -, heq⟩)
    · exact absurd heq hnew
    · exact ⟨r, hr, htask, heq⟩
  · rintro ⟨r, hr, htask, heq⟩
    exact .inr ⟨r, hr, htask, hold r heq, heq⟩

theorem no_queued_left {rows : List ScoringLog} {status : TaskStatus}
    {errorMessage : Option String} {taskId : ℕ} (hnew : status ≠ .queued) :
    ¬Row (rows.map (withStatus isQueued status errorMessage)) taskId .queued := by
  rw [Row.mark]
  rintro (⟨-, -, -, -, heq⟩ | ⟨r, -, -, hsel, heq⟩)
  · exact hnew heq
  · rw [mem_isQueued.mpr heq] at hsel
    exact Bool.noConfusion hsel

-- A log that is QUEUED is taken up by nobody.
theorem Inv.idle (h : Inv w) {taskId : ℕ} (hrow : Row w.logs.rows taskId .queued)
    {phase : WorkerPhase} (hat : AtWork w.crew taskId phase) (hdone : phase ≠ .done) :
    phase = .found := by
  obtain ⟨worker, hw, rfl, rfl⟩ := hat
  by_contra hphase
  have hholds := h.base.holds worker hw hdone
  obtain ⟨r, hr, htask, hqueued⟩ := hrow
  cases hlog : worker.log with
  | none => exact hphase (hholds.unlogged hlog).1
  | some id =>
    obtain ⟨s, hs, -, hstask, hrunning⟩ := hholds.logged id hlog
    obtain rfl := h.base.unique r hr s hs (htask.trans hstask.symm)
    rw [hrunning hphase] at hqueued
    exact TaskStatus.noConfusion hqueued

theorem inv_pause (h : Inv w) (hactive : w.campaign = .active) :
    Inv { w.suspendQueuedTasks with campaign := .paused } := by
  refine ⟨h.base.mark (fun r _ hsel => by simp [mem_isQueued.mp hsel]) .paused none,
    fun taskId hrow => absurd hrow (no_queued_left (by simp)), fun taskId hs => ?_,
    fun taskId s hs => ?_⟩
  all_goals
    simp only [suspendQueuedTasks] at hs
    split_ifs at hs with hnew
  · obtain ⟨r, hr, hsel⟩ := List.any_eq_true.mp hnew
    obtain ⟨rfl, -⟩ := of_decide_eq_true hsel
    exact h.base.tasks r hr
  · exact h.known taskId hs
  · cases hs
    obtain ⟨r, hr, hsel⟩ := List.any_eq_true.mp hnew
    obtain ⟨htask, hqueued⟩ := of_decide_eq_true hsel
    have hrow : Row w.logs.rows taskId .queued := ⟨r, hr, htask, mem_isQueued.mp hqueued⟩
    refine ⟨fun _ => ⟨rfl, by simp, fun _ => Row.mark.mpr (.inl ⟨r, hr, htask, hqueued, rfl⟩)⟩,
      fun _ _ => h.queued taskId hrow, fun _ => rfl, fun hat => ?_, by simp, by simp,
      fun hrow' => ?_⟩
    · exact absurd (h.idle hrow hat (by simp)) (by simp)
    · obtain ⟨-, -, -, -, heq⟩ | ⟨r', hr', htask', hsel', -⟩ := Row.mark.mp hrow'
      · exact TaskStatus.noConfusion heq
      · obtain rfl := h.base.unique r hr r' hr' (htask.trans htask'.symm)
        rw [hqueued] at hsel'
        exact Bool.noConfusion hsel'
  · have hold := h.watch taskId s hs
    have hsuccess : Row (w.logs.rows.map (withStatus isQueued .paused none)) taskId .success ↔
        Row w.logs.rows taskId .success :=
      row_mark_ne (by simp) fun r hr => by simp [isQueued, hr]
    have hresumed : s.resumed = true := by
      by_contra hun
      exact (hold.unresumed (Bool.eq_false_iff.mpr hun)).2.1 hactive
    refine ⟨fun hun => ?_, fun hnone _ => hold.alive hnone (.inl hresumed), hold.fresh,
      hold.scored, hold.once, fun hone => (hold.ended hone).imp id hsuccess.mpr, fun hrow => ?_⟩
    · rw [hresumed] at hun
      exact Bool.noConfusion hun
    · obtain hone | ⟨hun, -⟩ := hold.succeeded (hsuccess.mp hrow)
      · exact .inl hone
      · rw [hresumed] at hun
        exact Bool.noConfusion hun

theorem inv_close (h : Inv w) (hopen : w.campaign ≠ .closed) :
    Inv { w.killQueuedTasks with campaign := .closed } := by
  refine ⟨h.base.mark (fun r _ hsel => by simp [mem_isQueued.mp hsel]) .dead _,
    fun taskId hrow => absurd hrow (no_queued_left (by simp)), h.known, fun taskId s hs => ?_⟩
  have hold := h.watch taskId s hs
  have hsuccess : Row (w.logs.rows.map
        (withStatus isQueued .dead (some campaignClosedMessage))) taskId .success ↔
      Row w.logs.rows taskId .success :=
    row_mark_ne (by simp) fun r hr => by simp [isQueued, hr]
  refine ⟨fun hun => ⟨(hold.unresumed hun).1, by simp, by simp⟩, fun hnone hresumed => ?_,
    hold.fresh, hold.scored, hold.once, fun hone => (hold.ended hone).imp id hsuccess.mpr,
    fun hrow => ?_⟩
  · exact hold.alive hnone (.inl (hresumed.resolve_right (by simp)))
  · obtain hone | ⟨-, hclosed⟩ := hold.succeeded (hsuccess.mp hrow)
    · exact .inl hone
    · exact absurd hclosed hopen

theorem inv_cancelDownstream (h : Inv w) (cc : Uuid) : Inv (w.cancelDownstreamAiEvaluation cc) := by
  have hqueued (r : ScoringLog) (hsel : isCancelled cc r = true) : r.status = .queued := by
    simp only [isCancelled, decide_eq_true_eq] at hsel
    exact hsel.2.2
  have hnot (r : ScoringLog) {status : TaskStatus} (hr : r.status = status)
      (hne : status ≠ .queued) : isCancelled cc r = false := by
    rw [Bool.eq_false_iff]
    exact fun hsel => hne (hr.symm.trans (hqueued r hsel))
  refine ⟨h.base.mark (fun r _ hsel => by simp [hqueued r hsel]) .dead _, fun taskId hrow => ?_,
    h.known, fun taskId s hs => ?_⟩
  · obtain ⟨-, -, -, -, heq⟩ | ⟨r, hr, htask, -, heq⟩ := Row.mark.mp hrow
    · exact TaskStatus.noConfusion heq
    · exact h.queued taskId ⟨r, hr, htask, heq⟩
  · have hsame (status : TaskStatus) (hdead : TaskStatus.dead ≠ status) (hne : status ≠ .queued) :=
      @row_mark_ne w.logs.rows (isCancelled cc) .dead status
        (some DeterministicScoring.aiEvaluationSkippedErrorMessage) taskId hdead
        fun r hr => hnot r hr hne
    exact (h.watch taskId s hs).congr (fun _ _ hrow => (hsame .paused (by simp) (by simp)).mpr hrow)
      (hsame .success (by simp) (by simp)) (fun hsent => hsent) fun _ _ => Iff.rfl

theorem resubmit_spec (logs : List ScoringLog) (w : World)
    (hbase : Base w.crew w.logs.rows w.broker w.nextTask w.nextTag)
    (hknown : ∀ log ∈ logs, log.taskId < w.nextTask) :
    let t := logs.foldl resubmit w
    Base t.crew t.logs.rows t.broker t.nextTask t.nextTag ∧ t.crew = w.crew ∧ t.logs = w.logs ∧
      t.nextTask = w.nextTask ∧ w.broker ⊆ t.broker ∧ ∀ log ∈ logs, Sent t.broker log.taskId := by
  induction logs generalizing w with
  | nil => exact ⟨hbase, rfl, rfl, rfl, List.Subset.refl _, by simp⟩
  | cons log rest ih =>
    have hsent : Base w.crew w.logs.rows _ w.nextTask (w.nextTag + 1) :=
      hbase.send (hknown log List.mem_cons_self) .deterministicScore log.campaignCandidateId 0
    obtain ⟨hlast, hcrew, hlogs, hnext, hsub, hall⟩ := ih (w.resubmit log) hsent
      fun x hx => hknown x (List.mem_cons_of_mem log hx)
    have hfirst : w.broker ⊆ (w.resubmit log).broker := List.subset_append_left _ _
    refine ⟨hlast, hcrew, hlogs, hnext, List.Subset.trans hfirst hsub, fun x hx => ?_⟩
    obtain rfl | hx := List.mem_cons.mp hx
    · refine ⟨⟨w.nextTag, x.taskId, .deterministicScore, x.campaignCandidateId, 0⟩, hsub ?_, rfl⟩
      exact List.mem_append_right _ (List.mem_singleton_self _)
    · exact hall x hx

theorem inv_resume (h : Inv w) (hpaused : w.campaign = .paused) :
    Inv { w.resubmitPausedTasks with
      campaign := .active
      suspension := fun taskId => resumeAll (w.suspension taskId) } := by
  have hstatus (r : ScoringLog) (hsel : isResubmitted r = true) : r.status = .paused := by
    simp only [isResubmitted, decide_eq_true_eq] at hsel
    exact hsel.1
  let logs := w.logs.rows.filter isResubmitted
  let w₁ := w.mark isResubmitted .queued none
  have hbase : Base w₁.crew w₁.logs.rows w₁.broker w₁.nextTask w₁.nextTag :=
    h.base.mark (fun r _ hsel => by simp [hstatus r hsel]) .queued none
  obtain ⟨hlast, hcrew, hlogs, hnext, hsub, hall⟩ := resubmit_spec logs w₁ hbase
    fun log hlog => h.base.tasks log (List.mem_of_mem_filter hlog)
  refine ⟨hlast, fun taskId hrow => ?_, fun taskId hs => ?_, fun taskId s hs => ?_⟩
  · rw [resubmitPausedTasks, hlogs] at hrow
    obtain ⟨r, hr, rfl, hsel, -⟩ | ⟨r, hr, htask, -, heq⟩ := Row.mark.mp hrow
    · exact hall r (List.mem_filter.mpr ⟨hr, hsel⟩)
    · exact (h.queued taskId ⟨r, hr, htask, heq⟩).mono hsub
  · have hne : w.suspension taskId ≠ none := fun hnone => hs (by simp [hnone, resumeAll])
    have hlt := h.known taskId hne
    rw [resubmitPausedTasks, hnext]
    exact hlt
  · obtain ⟨old, hold, rfl⟩ := Option.map_eq_some_iff.mp hs
    have hwatch := h.watch taskId old hold
    have hsuccess : Row (w.logs.rows.map (withStatus isResubmitted .queued none)) taskId .success ↔
        Row w.logs.rows taskId .success :=
      row_mark_ne (by simp) fun r hr => by simp [isResubmitted, hr]
    simp only [resubmitPausedTasks]
    rw [hcrew, hlogs]
    refine ⟨by simp, fun hnone _ => (hwatch.alive hnone (.inr hpaused)).mono hsub, hwatch.fresh,
      hwatch.scored, hwatch.once, fun hone => (hwatch.ended hone).imp id hsuccess.mpr,
      fun hrow => ?_⟩
    obtain hone | ⟨-, hclosed⟩ := hwatch.succeeded (hsuccess.mp hrow)
    · exact .inl hone
    · rw [hpaused] at hclosed
      exact CampaignStatus.noConfusion hclosed

end Campaigns

end ScoringQueue

end AiHiring
