import AiHiring.Email.SendTask

namespace AiHiring

open Library

namespace EmailSend

structure Inv (w : World) : Prop where
  recorded : w.recorded = true ↔ w.status = .sent
  delivered : w.unrecorded = 0 → w.delivered = if w.recorded then 1 else 0
  closed : ∀ taskId, w.logs taskId = some .success → w.status = .sent

-- SENT, once committed, stays, so that no automatic caller queues the event again,
-- and only a commit of SENT that failed lets a second message out.
structure Truthful (w : World) : Prop where
  stays : w.recorded = true → w.status = .sent
  once : w.unrecorded = 0 → w.delivered ≤ 1

-- An attempt that schedules no retry leaves the notification SENT, or FAILED without
-- a delivery on record.
def Settled (w : World) (d : Delivery) (t : World) : Prop :=
  (sendCandidateEmailTask w d.message d.faults).2 ≠ .retried →
    t.status = .sent ∨ (t.status = .failed ∧ t.recorded = false)

-- Which statement of the body may raise first, and what the handler must then
-- bring to an end.
def Careful (w : World) (d : Delivery) : Prop :=
  ∀ s failure, firstFault d.faults (body w d.message) = some (s, failure) → s ≠ .update ∧
    if givesUp d.message failure then
      hasNotification s ∧ s ≠ .markAlreadySent ∧ s ≠ .markSuccess ∧
        d.faults .createDeadLetter = none ∧ d.faults .markFailed = none
    else hasTaskLog s → d.faults .markRetry = none

section Attempt

variable {w : World} {m : Message} {f : Faults}

theorem Inv.withLog (h : Inv w) (m : Message) {status : TaskStatus}
    (hstatus : status = .success → w.status = .sent) : Inv (withLog w m status) := by
  refine ⟨h.recorded, h.delivered, fun taskId hlog => ?_⟩
  by_cases htask : taskId = m.taskId
  · subst htask
    have hsuccess : some status = some TaskStatus.success := by
      simpa [EmailSend.withLog] using hlog
    exact hstatus (Option.some.inj hsuccess)
  · exact h.closed taskId (by simpa [EmailSend.withLog, htask] using hlog)

theorem mem_load {c : Statement} (hc : c ∈ load w m) :
    c = .createLog ∨ c = .markRunning ∨ c = .getById := by
  unfold load at hc
  split_ifs at hc <;> simp only [List.mem_cons, List.not_mem_nil, or_false] at hc
  · exact hc
  · exact .inr hc

theorem load_keeps (h : Inv w) :
    let r := runStretch (effect m) f (load w m) w
    Inv r.1 ∧ r.1.status = w.status := by
  have hstart : Inv w ∧ w.status = w.status := ⟨h, rfl⟩
  refine runStretch_keeps (fun s => Inv s ∧ s.status = w.status) _ hstart fun c hc s hs => ?_
  obtain rfl | rfl | rfl := mem_load hc
  · exact ⟨hs.1.withLog m (by simp), hs.2⟩
  · exact ⟨hs.1.withLog m (by simp), hs.2⟩
  · exact hs

theorem Inv.sent (h : Inv w) (hnew : w.status ≠ .sent) :
    Inv { w with delivered := w.delivered + 1, status := .sent, recorded := true } := by
  have hno : w.recorded = false := by
    rw [Bool.eq_false_iff]
    exact fun hyes => hnew (h.recorded.mp hyes)
  refine ⟨by simp, fun hzero => ?_, fun _ _ => rfl⟩
  have hdelivered := h.delivered hzero
  rw [hno] at hdelivered
  simpa using hdelivered

-- The rest of the body. Where it raises, SENT is either recorded or not yet; only
-- between the delivery and the commit is there nothing to say.
theorem send_spec (h : Inv w) :
    let r := runStretch (effect m) f (send w) w
    (r.2 = none → Inv r.1 ∧ r.1.status = .sent) ∧
      ∀ s failure, r.2 = some (s, failure) → s ≠ .update → Inv (noteUnrecorded r.1 s) ∧
        (s ≠ .markAlreadySent → s ≠ .markSuccess → r.1.status ≠ .sent) := by
  unfold send
  by_cases hsent : w.status = .sent
  · rw [if_pos hsent]
    cases hf : f .markAlreadySent with
    | none =>
      rw [runStretch_cons_none hf, runStretch_nil]
      exact ⟨fun _ => ⟨h.withLog m fun _ => hsent, hsent⟩, by simp⟩
    | some failure =>
      rw [runStretch_cons_some hf]
      refine ⟨by simp, fun s failure' hraised _ => ?_⟩
      obtain ⟨rfl, -⟩ := Prod.mk.inj (Option.some.inj hraised)
      exact ⟨h, by simp⟩
  · rw [if_neg hsent]
    cases hrender : f .render with
    | some failure =>
      rw [runStretch_cons_some hrender]
      refine ⟨by simp, fun s failure' hraised _ => ?_⟩
      obtain ⟨rfl, -⟩ := Prod.mk.inj (Option.some.inj hraised)
      exact ⟨h, fun _ _ => hsent⟩
    | none =>
    rw [runStretch_cons_none hrender]
    cases hsend : f .sendEmail with
    | some failure =>
      rw [runStretch_cons_some hsend]
      refine ⟨by simp, fun s failure' hraised _ => ?_⟩
      obtain ⟨rfl, -⟩ := Prod.mk.inj (Option.some.inj hraised)
      exact ⟨h, fun _ _ => hsent⟩
    | none =>
    rw [runStretch_cons_none hsend]
    cases hupdate : f .update with
    | some failure =>
      rw [runStretch_cons_some hupdate]
      refine ⟨by simp, fun s failure' hraised hne => ?_⟩
      obtain ⟨rfl, -⟩ := Prod.mk.inj (Option.some.inj hraised)
      exact absurd rfl hne
    | none =>
    rw [runStretch_cons_none hupdate]
    cases hcommit : f .commit with
    | some failure =>
      rw [runStretch_cons_some hcommit]
      refine ⟨by simp, fun s failure' hraised _ => ?_⟩
      obtain ⟨rfl, -⟩ := Prod.mk.inj (Option.some.inj hraised)
      exact ⟨⟨h.recorded, by simp [noteUnrecorded], h.closed⟩, fun _ _ => hsent⟩
    | none =>
    rw [runStretch_cons_none hcommit]
    have hdone := h.sent hsent
    cases hsuccess : f .markSuccess with
    | some failure =>
      rw [runStretch_cons_some hsuccess]
      refine ⟨by simp, fun s failure' hraised _ => ?_⟩
      obtain ⟨rfl, -⟩ := Prod.mk.inj (Option.some.inj hraised)
      exact ⟨hdone, by simp⟩
    | none =>
      rw [runStretch_cons_none hsuccess, runStretch_nil]
      exact ⟨fun _ => ⟨hdone.withLog m fun _ => rfl, rfl⟩, by simp⟩

theorem body_spec (h : Inv w) :
    let r := runStretch (effect m) f (body w m) w
    (r.2 = none → Inv r.1 ∧ r.1.status = .sent) ∧
      ∀ s failure, r.2 = some (s, failure) → s ≠ .update → Inv (noteUnrecorded r.1 s) ∧
        (hasNotification s = true → s ≠ .markAlreadySent → s ≠ .markSuccess →
          r.1.status ≠ .sent) := by
  unfold body
  cases hread : f .getByTaskId with
  | some failure =>
    rw [runStretch_cons_some hread]
    refine ⟨by simp, fun s failure' hraised _ => ?_⟩
    obtain ⟨rfl, -⟩ := Prod.mk.inj (Option.some.inj hraised)
    exact ⟨h, by simp [hasNotification, hasTaskLog]⟩
  | none =>
  rw [runStretch_cons_none hread]
  split_ifs with hsuccess
  · exact ⟨fun _ => ⟨h, h.closed _ hsuccess⟩, by simp⟩
  · have hread_eq : effect m .getByTaskId w = w := rfl
    have hload := load_keeps (f := f) (m := m) h
    have hfirst : (runStretch (effect m) f (load w m) w).2 = firstFault f (load w m) :=
      runStretch_snd _ _
    rw [runStretch_append, hread_eq]
    generalize runStretch (effect m) f (load w m) w = loaded at hload hfirst ⊢
    obtain ⟨w', raised⟩ := loaded
    have hsend_eq : send w' = send w := by
      unfold send
      rw [hload.2]
    cases raised with
    | none =>
      have hspec := send_spec (m := m) (f := f) hload.1
      rw [hsend_eq] at hspec
      exact ⟨hspec.1, fun s failure hraised hne =>
        ⟨(hspec.2 s failure hraised hne).1, fun _ => (hspec.2 s failure hraised hne).2⟩⟩
    | some raised =>
      refine ⟨by simp, fun s failure hraised _ => ?_⟩
      obtain rfl : raised = (s, failure) := Option.some.inj hraised
      obtain ⟨hmem, -⟩ := fault_of_firstFault hfirst.symm
      obtain rfl | rfl | rfl := mem_load hmem
      all_goals exact ⟨hload.1, by simp [hasNotification, hasTaskLog]⟩

theorem retried_spec (h : Inv w) {s : Statement} {failure : Failure}
    (hkeep : givesUp m failure = false) (hretry : hasTaskLog s = true → f .markRetry = none) :
    Inv (handle w m f s failure).1 ∧ (handle w m f s failure).2 = .retried := by
  unfold handle
  rw [hkeep]
  by_cases hlog : hasTaskLog s = true
  · rw [retry, if_pos hlog, runStretch_cons_none (hretry hlog), runStretch_nil]
    exact ⟨h.withLog m (by simp), rfl⟩
  · rw [retry, if_neg hlog, runStretch_nil]
    exact ⟨h, rfl⟩

theorem Inv.failed (h : Inv w) (hnew : w.status ≠ .sent) (entry : DeadLetter) (error : String) :
    let w' := { w with deadLetterQueue := w.deadLetterQueue ++ [entry], status := .failed,
                       errorReason := some error }
    Inv w' ∧ w'.status = .failed ∧ w'.recorded = false := by
  have hno : w.recorded = false := by
    rw [Bool.eq_false_iff]
    exact fun hyes => hnew (h.recorded.mp hyes)
  refine ⟨⟨by simp [hno], h.delivered, fun taskId hlog => ?_⟩, rfl, hno⟩
  exact absurd (h.closed taskId hlog) hnew

theorem givenUp_spec (h : Inv w) {s : Statement} {failure : Failure}
    (hgive : givesUp m failure = true) (hnew : w.status ≠ .sent) (hs : hasNotification s = true)
    (hdead : f .createDeadLetter = none) (hfailed : f .markFailed = none) :
    Inv (handle w m f s failure).1 ∧ (handle w m f s failure).1.status = .failed ∧
      (handle w m f s failure).1.recorded = false := by
  have hlog : hasTaskLog s = true := by
    unfold hasNotification at hs
    exact (of_decide_eq_true hs).1
  have hend := h.failed hnew ⟨m.taskId, failure.message, m.attemptNumber⟩ failure.message
  unfold handle
  rw [if_pos hgive, giveUp, if_pos hs, if_pos hlog]
  simp only [List.cons_append, List.nil_append]
  rw [runStretch_cons_none hdead, runStretch_cons_none hfailed]
  cases hmark : f .markDead with
  | some _ =>
    rw [runStretch_cons_some hmark]
    exact hend
  | none =>
    rw [runStretch_cons_none hmark, runStretch_nil]
    exact ⟨hend.1.withLog m (by simp), hend.2⟩

theorem attempt_spec (h : Inv w) {d : Delivery} (hcare : Careful w d) :
    Inv (sendCandidateEmailTask w d.message d.faults).1 ∧
      Settled w d (sendCandidateEmailTask w d.message d.faults).1 := by
  obtain ⟨hreturned, hraised⟩ := body_spec (m := d.message) (f := d.faults) h
  have hfirst : (runStretch (effect d.message) d.faults (body w d.message) w).2 =
      firstFault d.faults (body w d.message) := runStretch_snd _ _
  unfold Settled sendCandidateEmailTask
  generalize runStretch (effect d.message) d.faults (body w d.message) w = r at *
  obtain ⟨w', raised⟩ := r
  cases raised with
  | none =>
    obtain ⟨hinv, hsent⟩ := hreturned rfl
    exact ⟨hinv, fun _ => .inl hsent⟩
  | some raised =>
    obtain ⟨s, failure⟩ := raised
    obtain ⟨hupdate, hcare⟩ := hcare s failure hfirst.symm
    obtain ⟨hinv, hnew⟩ := hraised s failure rfl hupdate
    have hsame : (noteUnrecorded w' s).status = w'.status := by
      unfold noteUnrecorded
      split_ifs <;> rfl
    by_cases hgive : givesUp d.message failure = true
    · rw [if_pos hgive] at hcare
      obtain ⟨hnotification, hsent, hsuccess, hdead, hfailed⟩ := hcare
      have hno := hnew hnotification hsent hsuccess
      rw [← hsame] at hno
      obtain ⟨hinv', hend⟩ := givenUp_spec hinv hgive hno hnotification hdead hfailed
      exact ⟨hinv', fun _ => .inr hend⟩
    · rw [if_neg hgive] at hcare
      obtain ⟨hinv', hretried⟩ := retried_spec hinv (Bool.eq_false_iff.mpr hgive) hcare
      exact ⟨hinv', fun hne => absurd hretried hne⟩

theorem Inv.truthful (h : Inv w) : Truthful w := by
  refine ⟨h.recorded.mp, fun hzero => ?_⟩
  rw [h.delivered hzero]
  split_ifs <;> omega

theorem alreadyNotified_of_sent {notifications : List EmailNotification} {n : EmailNotification}
    (hn : n ∈ notifications) (hsent : n.status = .sent) :
    InterviewEmails.alreadyNotified notifications = true :=
  List.any_eq_true.mpr ⟨n, hn, by simp [hsent]⟩

end Attempt

structure Start (w : World) : Prop where
  queued : w.status = .queued
  logs : ∀ taskId, w.logs taskId = none
  delivered : w.delivered = 0
  recorded : w.recorded = false

theorem Start.inv {w : World} (h : Start w) : Inv w := by
  refine ⟨by simp [h.recorded, h.queued], fun _ => ?_, fun taskId hlog => ?_⟩
  · simp [h.delivered, h.recorded]
  · rw [h.logs taskId] at hlog
    simp at hlog

theorem status_tells_truth (w : World) (hstart : Start w) (path : List (Delivery × World))
    (hp : Path Step w path) (hcare : EveryStep (fun s d _ => Careful s d) w path) :
    (∀ t ∈ visited w path, Truthful t ∧ ∀ notifications : List EmailNotification,
      t.recorded = true → (∃ n ∈ notifications, n.status = t.status) →
        InterviewEmails.alreadyNotified notifications = true) ∧
      EveryStep Settled w path := by
  have hkeep (s : World) (d : Delivery) (t : World) (h : Inv s) (hc : Careful s d)
      (hs : Step s d t) : Inv t := by
    obtain rfl := hs
    exact (attempt_spec h hc).1
  constructor
  · intro t ht
    have htruth := (hp.guarded_invariant hstart.inv hcare hkeep t ht).truthful
    refine ⟨htruth, fun notifications hrecorded hn => ?_⟩
    obtain ⟨n, hn, hstatus⟩ := hn
    exact alreadyNotified_of_sent hn (hstatus.trans (htruth.stays hrecorded))
  · refine hp.guarded_everyStep hstart.inv hcare hkeep fun s d t h hc hs => ?_
    obtain rfl := hs
    exact (attempt_spec h hc).2

def queuedWorld : World where
  status := .queued
  errorReason := none
  logs := fun _ => none
  deadLetterQueue := []
  delivered := 0
  recorded := false
  unrecorded := 0

def connectionLost : Failure := ⟨.transient, "server closed the connection unexpectedly"⟩

def failing (s : Statement) : Faults := fun x => if x = s then some connectionLost else none

def next? (w : World) (d : Delivery) : Option World :=
  some (sendCandidateEmailTask w d.message d.faults).1

def attempts (deliveries : List Delivery) : List (Delivery × World) :=
  execute next? queuedWorld deliveries

theorem attempts_path (deliveries : List Delivery) : Path Step queuedWorld (attempts deliveries) :=
  execute_path next? (fun _ _ _ h => Option.some.inj h) queuedWorld deliveries

theorem queued_start : Start queuedWorld := by
  constructor
  · rfl
  · intro taskId
    rfl
  · rfl
  · rfl

def recovered : List Delivery :=
  [⟨⟨0, 0⟩, failing .sendEmail⟩, ⟨⟨0, 1⟩, failing .markSuccess⟩, ⟨⟨0, 2⟩, fun _ => none⟩]

theorem status_tells_truth_recovered : (∀ t ∈ visited queuedWorld (attempts recovered), Truthful t ∧
      ∀ notifications : List EmailNotification, t.recorded = true →
        (∃ n ∈ notifications, n.status = t.status) →
          InterviewEmails.alreadyNotified notifications = true) ∧
      EveryStep Settled queuedWorld (attempts recovered) := by
  refine status_tells_truth queuedWorld queued_start _ (attempts_path recovered) ?_
  refine ⟨?_, ?_, ?_, trivial⟩
  · intro s failure h
    have hfirst : some (Statement.sendEmail, connectionLost) = some (s, failure) := h
    cases hfirst
    decide
  · intro s failure h
    have hfirst : some (Statement.markSuccess, connectionLost) = some (s, failure) := h
    cases hfirst
    decide
  · intro s failure h
    have hfirst : (none : Option (Statement × Failure)) = some (s, failure) := h
    simp at hfirst

-- The third attempt delivers the message and records SENT, but cannot close its log;
-- the handler then writes FAILED over SENT, and a redelivery sends it once more.
def overwritten : List Delivery :=
  [⟨⟨0, 0⟩, failing .sendEmail⟩, ⟨⟨0, 1⟩, failing .sendEmail⟩, ⟨⟨0, 2⟩, failing .markSuccess⟩,
    ⟨⟨0, 2⟩, fun _ => none⟩]

theorem sent_overwritten : Start queuedWorld ∧ Path Step queuedWorld (attempts overwritten) ∧
      (¬∀ t ∈ visited queuedWorld (attempts overwritten), t.recorded = true → t.status = .sent) ∧
      (¬∀ t ∈ visited queuedWorld (attempts overwritten), t.unrecorded = 0 → t.delivered ≤ 1) ∧
      ¬EveryStep Settled queuedWorld (attempts overwritten) := by
  refine ⟨queued_start, attempts_path overwritten, fun hall => ?_, fun hall => ?_, fun hall => ?_⟩
  · have hsent := hall (final queuedWorld (attempts (overwritten.take 3)))
      (List.mem_of_getElem? (i := 3) rfl) rfl
    exact absurd hsent (by decide)
  · have honce := hall _ (final_mem_visited queuedWorld (attempts overwritten)) rfl
    exact absurd honce (by decide)
  · obtain ⟨-, -, hthird, -⟩ := hall
    have hend := hthird (by decide)
    exact absurd hend (by decide)

end EmailSend

end AiHiring
