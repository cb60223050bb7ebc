import AiHiring.Interview.FeedbackFrames
import AiHiring.Interview.Informed

namespace AiHiring

open Library InterviewScheduleRepository InterviewScheduleService InterviewEmails
open FeedbackWorld
open Informed (ana invitedWorld noticeEnv scheduledOnce)

namespace FeedbackAsked

section Properties

variable (w w' : FeedbackWorld)

def Active (round : InterviewSchedule) : Prop :=
  round.status ∈ [InterviewStatus.scheduled, .rescheduled]

def Asks (round : InterviewSchedule) (i : InterviewInterviewer) (n : EmailNotification) : Prop :=
  n.interviewScheduleId = round.id ∧ n.interviewInterviewerId = some i.id ∧
    n.triggerEvent = .interviewFeedbackRequested

def AskedSince (round : InterviewSchedule) (i : InterviewInterviewer) : Prop :=
  ∃ n t, (n, t) ∈ w.box.zip w.createdAt ∧ Asks round i n ∧
    ∀ startAt, round.startAt = some startAt → startAt < t

-- An interviewer whose feedback is missing after the end of an active round.
structure Missing (now : Instant) (round : InterviewSchedule) (i : InterviewInterviewer) :
    Prop where
  mem : round ∈ w.rounds
  active : Active round
  ended : notEnded round now = false
  interviewer : i ∈ getActiveInterviewers w.interviews.interviewers round.id
  noFeedback : ∀ f ∈ w.feedback, f.key ≠ (round.id, i.id)

-- New feedback is about a round that has taken place, and comes once.
structure FeedbackGiven (now : Instant) : Prop where
  tookPlace : ∀ f ∈ w'.feedback, f ∉ w.feedback → ∃ round ∈ w.rounds,
    round.id = f.interviewScheduleId ∧
      round.status ∈ [InterviewStatus.scheduled, .rescheduled, .completed] ∧
        notEnded round now = false
  once : (w'.feedback.map InterviewFeedback.key).Nodup

structure Promise (a : FeedbackAction) : Prop where
  given : FeedbackGiven w w' a.now
  asked : ∀ now, a = .sweep now → ∀ round i, Missing w' now round i → AskedSince w' round i

-- The round of a token has not been cancelled; and a sweep finds a request from
-- after the start, or none at all and a round that began and ended before.
def Timely : FeedbackAction → Prop
  | .submitFeedback interviewScheduleId _ _ _ => ∀ round ∈ w.rounds,
      round.id = interviewScheduleId → round.status ≠ .cancelled
  | .sweep now => ∀ round i, Missing w now round i → AskedSince w round i ∨
      ((∀ n ∈ w.box, ¬Asks round i n) ∧ endedBefore now round = true ∧
        ∀ startAt, round.startAt = some startAt → startAt < now)
  | _ => True

structure Inv : Prop where
  live : ∀ n ∈ w.box, n.Live
  stamped : w.createdAt.length = w.box.length
  once : (w.feedback.map InterviewFeedback.key).Nodup
  sound : Sound w.interviews.db

structure Start : Prop where
  nothing : w.box = []
  unstamped : w.createdAt = []
  nothingGiven : w.feedback = []
  sound : Sound w.interviews.db

end Properties

theorem Start.inv {w : FeedbackWorld} (h : Start w) : Inv w where
  live := by simp [h.nothing]
  stamped := by
    rw [h.nothing, h.unstamped]
    rfl
  once := by simp [h.nothingGiven]
  sound := h.sound

def askAll (e : NotificationEnv) (pairs : List (InterviewSchedule × InterviewInterviewer))
    (box : List EmailNotification) : List EmailNotification :=
  pairs.foldl (fun box pair => queueFeedbackRequested e box pair.1 pair.2) box

def pendingOf (w : FeedbackWorld) (round : InterviewSchedule) :
    List (InterviewSchedule × InterviewInterviewer) :=
  ((getActiveInterviewers w.interviews.interviewers round.id).filter fun i =>
    !alreadyGiven w.feedback round.id i.id).map fun i => (round, i)

section Requests

variable {e : NotificationEnv} {w : FeedbackWorld} {box : List EmailNotification}

theorem alreadyGiven_iff {feedback : List InterviewFeedback} {roundId interviewerId : Uuid} :
    alreadyGiven feedback roundId interviewerId = true ↔
      ∃ f ∈ feedback, f.key = (roundId, interviewerId) := by
  unfold alreadyGiven InterviewFeedbackRepository.getByInterviewScheduleId
  rw [List.any_eq_true]
  constructor
  · rintro ⟨f, hf, hid⟩
    obtain ⟨hmem, hround⟩ := List.mem_filter.mp hf
    refine ⟨f, hmem, ?_⟩
    unfold InterviewFeedback.key
    rw [of_decide_eq_true hround, of_decide_eq_true hid]
  · rintro ⟨f, hmem, hkey⟩
    obtain ⟨hround, hid⟩ := Prod.mk.inj hkey
    exact ⟨f, List.mem_filter.mpr ⟨hmem, decide_eq_true hround⟩, decide_eq_true hid⟩

theorem mem_pendingOf {round : InterviewSchedule} {i : InterviewInterviewer} :
    (round, i) ∈ pendingOf w round ↔ i ∈ getActiveInterviewers w.interviews.interviewers round.id ∧
        ∀ f ∈ w.feedback, f.key ≠ (round.id, i.id) := by
  have hnot : (!alreadyGiven w.feedback round.id i.id) = true ↔
      ∀ f ∈ w.feedback, f.key ≠ (round.id, i.id) := by
    rw [Bool.not_eq_true', ← Bool.not_eq_true, alreadyGiven_iff]
    push Not
    exact Iff.rfl
  unfold pendingOf
  rw [List.mem_map, ← hnot]
  constructor
  · rintro ⟨j, hj, hsame⟩
    obtain ⟨-, rfl⟩ := Prod.mk.inj hsame
    exact List.mem_filter.mp hj
  · intro h
    exact ⟨i, List.mem_filter.mpr h, rfl⟩

theorem queuePending_eq (round : InterviewSchedule) :
    queuePendingFeedbackRequestsForRound e w box round
        (getActiveInterviewers w.interviews.interviewers round.id) =
      askAll e (pendingOf w round) box := by
  unfold queuePendingFeedbackRequestsForRound askAll pendingOf
  rw [List.foldl_map]

theorem sweepRound_eq {round : InterviewSchedule} (hknown :
    w.interviews.db.campaignCandidates.find? round.campaignCandidateId ≠ none) :
    sweepRound e w box round = askAll e (pendingOf w round) box := by
  unfold sweepRound
  dsimp only
  split
  · next hnobody =>
      unfold pendingOf
      rw [hnobody]
      rfl
  · cases hfound : CampaignCandidateRepository.getById w.interviews.db
        round.campaignCandidateId with
    | none => exact absurd hfound hknown
    | some cc => exact queuePending_eq round

theorem sweep_eq (hinv : Inv w) (now : Instant) :
    sweep e w now = askAll e ((w.getEndedActiveRounds now).flatMap (pendingOf w)) w.box := by
  have hall (l : List InterviewSchedule) (hl : ∀ round ∈ l, round ∈ w.rounds)
      (box : List EmailNotification) :
      l.foldl (sweepRound e w) box = askAll e (l.flatMap (pendingOf w)) box := by
    induction l generalizing box with
    | nil => rfl
    | cons round rest ih =>
      rw [List.forall_mem_cons] at hl
      rw [List.foldl_cons, sweepRound_eq (hinv.sound.known round hl.1), ih hl.2, List.flatMap_cons]
      unfold askAll
      rw [List.foldl_append]
  exact hall _ (fun round hround => List.mem_of_mem_filter hround) w.box

variable (htemplate : (e.activeTemplate .interviewFeedbackRequested).isSome)
include htemplate

theorem askAll_spec (pairs : List (InterviewSchedule × InterviewInterviewer))
    (hlive : ∀ n ∈ box, n.Live) :
    ∃ news, askAll e pairs box = box ++ news ∧
      (∀ n ∈ news, n.Live ∧ ∃ pair ∈ pairs, Asks pair.1 pair.2 n ∧
        ∀ m ∈ box, ¬Asks pair.1 pair.2 m) ∧
      ∀ pair ∈ pairs, ∃ n ∈ box ++ news, Asks pair.1 pair.2 n := by
  induction pairs generalizing box with
  | nil => exact ⟨[], by simp [askAll], by simp, by simp⟩
  | cons pair rest ih =>
    have hqueues : Queues pair.1 _ _ fun box i => queueFeedbackRequested e box pair.1 i :=
      @queues_email e pair.1 .interviewFeedbackRequested htemplate rfl fun i =>
        [("feedback_link", e.feedbackLink pair.1.id i.id)]
    have hhas (n : EmailNotification) : Asks pair.1 pair.2 n ↔
        (n.topic = .interviewer pair.1.id pair.2.id ∧
          n.triggerEvent = .interviewFeedbackRequested) :=
      topic_interviewer.symm
    by_cases hdue : has box (.interviewer pair.1.id pair.2.id) .interviewFeedbackRequested = false
    · obtain ⟨n, habout, ⟨htrigger, -⟩, heq⟩ := hqueues.appends box pair.2 hlive hdue
      have hasked : Asks pair.1 pair.2 n := ⟨habout.interviewId, habout.interviewerId, htrigger⟩
      have hfresh : ∀ m ∈ box, ¬Asks pair.1 pair.2 m := by
        intro m hm hasks
        have htrue : has box (.interviewer pair.1.id pair.2.id) .interviewFeedbackRequested =
            true := hasNotice_iff.mpr ⟨m, hm, (hhas m).mp hasks⟩
        rw [hdue] at htrue
        simp at htrue
      have hgrown := (adds_one n habout.live).live hlive
      obtain ⟨news, hbox, hnews, hall⟩ := ih hgrown
      refine ⟨n :: news, ?_, ?_, ?_⟩
      · rw [askAll, List.foldl_cons, heq, ← askAll, hbox, List.append_assoc]
        rfl
      · intro m hm
        rcases List.mem_cons.mp hm with rfl | hm
        · exact ⟨habout.live, pair, List.mem_cons_self, hasked, hfresh⟩
        · obtain ⟨hmlive, other, hother, hasks, hnone⟩ := hnews m hm
          refine ⟨hmlive, other, List.mem_cons_of_mem _ hother, hasks, fun x hx => ?_⟩
          exact hnone x (List.mem_append_left _ hx)
      · intro other hother
        rcases List.mem_cons.mp hother with rfl | hother
        · exact ⟨n, by simp, hasked⟩
        · obtain ⟨m, hm, hasks⟩ := hall other hother
          exact ⟨m, by simpa using hm, hasks⟩
    · have heq := hqueues.keeps box pair.2 hlive hdue
      obtain ⟨news, hbox, hnews, hall⟩ := ih hlive
      refine ⟨news, ?_, ?_, ?_⟩
      · rw [askAll, List.foldl_cons, heq, ← askAll, hbox]
      · intro m hm
        obtain ⟨hmlive, other, hother, hasks, hnone⟩ := hnews m hm
        exact ⟨hmlive, other, List.mem_cons_of_mem _ hother, hasks, hnone⟩
      · intro other hother
        rcases List.mem_cons.mp hother with rfl | hother
        · obtain ⟨m, hm, hsame⟩ := hasNotice_iff.mp (Bool.eq_true_of_not_eq_false hdue)
          exact ⟨m, List.mem_append_left _ hm, (hhas m).mpr hsame⟩
        · exact hall other hother

end Requests

section Steps

variable {w w' : FeedbackWorld}

theorem zip_replicate (news : List EmailNotification) (now : Instant) :
    news.zip (List.replicate news.length now) = news.map fun n => (n, now) := by
  induction news with
  | nil => rfl
  | cons n rest ih =>
    rw [List.length_cons, List.replicate_succ, List.zip_cons_cons, ih, List.map_cons]

theorem zip_posted (hinv : Inv w) (interviews : InterviewWorld) {news : List EmailNotification}
    (hbox : interviews.notifications = w.box ++ news) (now : Instant) :
    (w.posted interviews now).box.zip (w.posted interviews now).createdAt =
      w.box.zip w.createdAt ++ news.map fun n => (n, now) := by
  have hlength : interviews.notifications.length - w.box.length = news.length := by
    rw [hbox, List.length_append]
    omega
  show interviews.notifications.zip (w.createdAt ++ List.replicate _ now) = _
  rw [hlength, hbox, List.zip_append hinv.stamped.symm, zip_replicate]

theorem posted_inv (hinv : Inv w) (interviews : InterviewWorld)
    (hadds : Adds w.box interviews.notifications) (hsound : Sound interviews.db) (now : Instant) :
    Inv (w.posted interviews now) := by
  refine ⟨hadds.live hinv.live, ?_, hinv.once, hsound⟩
  obtain ⟨news, hbox, -⟩ := hadds
  have hstamped := hinv.stamped
  show (w.createdAt ++ List.replicate (interviews.notifications.length - w.box.length) now).length =
    interviews.notifications.length
  rw [List.length_append, List.length_replicate, hbox, List.length_append]
  omega

theorem askedSince_mono (hinv : Inv w) {interviews : InterviewWorld}
    {news : List EmailNotification} (hbox : interviews.notifications = w.box ++ news)
    {now : Instant} {round : InterviewSchedule} {i : InterviewInterviewer}
    (h : AskedSince w round i) : AskedSince (w.posted interviews now) round i := by
  obtain ⟨n, t, hmem, hasks, hstart⟩ := h
  refine ⟨n, t, ?_, hasks, hstart⟩
  rw [zip_posted hinv interviews hbox now]
  exact List.mem_append_left _ hmem

theorem submitFeedback_ok {interviewScheduleId interviewerId : Uuid}
    {request : SubmitFeedbackRequest} {now : Instant} {feedback : List InterviewFeedback}
    (h : w.submitFeedback interviewScheduleId interviewerId request now = .ok feedback) :
    ∃ round ∈ w.rounds, round.id = interviewScheduleId ∧ notEnded round now = false ∧
      ∃ row : InterviewFeedback, row.interviewScheduleId = interviewScheduleId ∧
        (∀ f ∈ w.feedback, f.key ≠ row.key) ∧ feedback = w.feedback ++ [row] := by
  obtain ⟨⟨round, interviewer⟩, htoken, h⟩ := (bind_eq_ok _ _ _).mp h
  unfold resolveToken at htoken
  cases hround : getById w.interviews.db interviewScheduleId with
  | none => simp [hround] at htoken
  | some found =>
    cases hinterviewer : w.interviews.interviewers.find? interviewerId with
    | none => simp [hround, hinterviewer] at htoken
    | some owner =>
      simp only [hround, hinterviewer] at htoken
      split at htoken
      · simp at htoken
      · obtain ⟨rfl, rfl⟩ := Prod.mk.inj (Except.ok.inj htoken)
        obtain ⟨hmem, hid⟩ := (Table.find?_eq_some _ _ _).mp hround
        dsimp only at h
        cases hended : notEnded found now with
        | true => simp [hended] at h
        | false =>
          rw [hended, if_neg (by simp)] at h
          refine ⟨found, hmem, hid, hended, ?_⟩
          unfold InterviewFeedbackRepository.create at h
          split at h
          · simp at h
          · next feedback' hcreate =>
              split at hcreate
              · simp at hcreate
              · next hnone =>
                  cases hcreate
                  split at h
                  · simp at h
                  · cases h
                    refine ⟨_, hid, fun f hf hkey => hnone ?_, rfl⟩
                    exact List.any_eq_true.mpr ⟨f, hf, decide_eq_true hkey⟩

variable {e : NotificationEnv} {table : TransitionTable}
  (htemplate : (e.activeTemplate .interviewFeedbackRequested).isSome)
include htemplate

theorem askAll_adds (hinv : Inv w) (pairs : List (InterviewSchedule × InterviewInterviewer)) :
    Adds w.box (askAll e pairs w.box) := by
  obtain ⟨news, hbox, hnews, -⟩ := askAll_spec htemplate pairs hinv.live
  exact ⟨news, hbox, fun n hn => (hnews n hn).1⟩

theorem step_inv {a : FeedbackAction} (hinv : Inv w) (h : w.Step e table a w') : Inv w' := by
  obtain ⟨-, h⟩ := h
  cases a with
  | move call =>
    obtain ⟨db, hdb, rfl⟩ := h
    exact posted_inv hinv { w.interviews with db := db } Adds.refl (move_sound hdb hinv.sound)
      call.2
  | interview call =>
    obtain ⟨interviews, ⟨db, calls, hrun, rfl⟩, rfl⟩ := h
    refine posted_inv hinv _ (notified_adds _ _ _) ?_ call.now
    rw [notified_db]
    exact call_sound hrun hinv.sound
  | requestFeedback interviewId actorId actorRoles now =>
    obtain ⟨box, hbox, rfl⟩ := h
    refine posted_inv hinv (w.withBox box) ?_ hinv.sound now
    obtain ⟨round, -, hbox⟩ := (bind_eq_ok _ _ _).mp hbox
    obtain ⟨cc, -, hbox⟩ := (bind_eq_ok _ _ _).mp hbox
    split at hbox
    · simp at hbox
    · split at hbox
      · simp at hbox
      · cases hbox
        rw [queuePending_eq]
        exact askAll_adds htemplate hinv _
  | sweep now =>
    subst h
    refine posted_inv hinv (w.withBox (sweep e w now)) ?_ hinv.sound now
    show Adds w.box (sweep e w now)
    rw [sweep_eq hinv]
    exact askAll_adds htemplate hinv _
  | submitFeedback interviewScheduleId interviewerId request now =>
    obtain ⟨feedback, hfeedback, rfl⟩ := h
    obtain ⟨-, -, -, -, row, -, hnew, rfl⟩ := submitFeedback_ok hfeedback
    have hposted := posted_inv hinv w.interviews Adds.refl hinv.sound now
    refine ⟨hposted.live, hposted.stamped, ?_, hposted.sound⟩
    rw [List.map_append, List.nodup_append]
    refine ⟨hinv.once, by simp, ?_⟩
    intro x hx y hy
    obtain ⟨f, hf, rfl⟩ := List.mem_map.mp hx
    obtain rfl := List.mem_singleton.mp hy
    exact hnew f hf

-- After a sweep nobody is forgotten exactly when nobody's request is too old.
theorem sweep_asks_iff (hinv : Inv w) (now : Instant) :
    (∀ round i, Missing (w.posted (w.withBox (sweep e w now)) now) now round i →
        AskedSince (w.posted (w.withBox (sweep e w now)) now) round i) ↔ Timely w (.sweep now) := by
  obtain ⟨news, hbox, hnews, hall⟩ := askAll_spec htemplate
    ((w.getEndedActiveRounds now).flatMap (pendingOf w)) hinv.live
  rw [← sweep_eq hinv] at hbox
  have hzip := zip_posted hinv (w.withBox (sweep e w now)) hbox now
  constructor
  · intro hasked round i hmissing
    obtain ⟨n, t, hmem, hasks, hstart⟩ := hasked round i
      ⟨hmissing.mem, hmissing.active, hmissing.ended, hmissing.interviewer, hmissing.noFeedback⟩
    rw [hzip] at hmem
    rcases List.mem_append.mp hmem with hold | hnew
    · exact Or.inl ⟨n, t, hold, hasks, hstart⟩
    · obtain ⟨m, hm, hsame⟩ := List.mem_map.mp hnew
      obtain ⟨rfl, rfl⟩ := Prod.mk.inj hsame
      obtain ⟨-, ⟨round', i'⟩, hpair, hasks', hnone⟩ := hnews m hm
      obtain ⟨r, hr, hpending⟩ := List.mem_flatMap.mp hpair
      obtain ⟨j, -, hj⟩ := List.mem_map.mp hpending
      obtain ⟨rfl, rfl⟩ := Prod.mk.inj hj
      obtain ⟨hrow, hended⟩ := List.mem_filter.mp hr
      have hround : r.id = round.id := hasks'.1.symm.trans hasks.1
      have hinterviewer : j.id = i.id := Option.some.inj (hasks'.2.1.symm.trans hasks.2.1)
      obtain rfl := w.interviews.db.interviewSchedules.eq_of_key_eq hrow hmissing.mem hround
      refine Or.inr ⟨fun x hx hold => hnone x hx ?_, (of_decide_eq_true hended).2, hstart⟩
      exact ⟨hold.1, hinterviewer ▸ hold.2.1, hold.2.2⟩
  · intro htimely round i h
    have hmissing : Missing w now round i :=
      ⟨h.mem, h.active, h.ended, h.interviewer, h.noFeedback⟩
    rcases htimely round i hmissing with hold | ⟨hnone, hended, hstart⟩
    · exact askedSince_mono hinv hbox hold
    · have hpair : (round, i) ∈ (w.getEndedActiveRounds now).flatMap (pendingOf w) := by
        refine List.mem_flatMap.mpr ⟨round, List.mem_filter.mpr ⟨hmissing.mem, ?_⟩, ?_⟩
        · exact decide_eq_true ⟨hmissing.active, hended⟩
        · exact mem_pendingOf.mpr ⟨hmissing.interviewer, hmissing.noFeedback⟩
      obtain ⟨n, hn, hasks⟩ := hall (round, i) hpair
      rcases List.mem_append.mp hn with hold | hnew
      · exact absurd hasks (hnone n hold)
      · refine ⟨n, now, ?_, hasks, hstart⟩
        rw [hzip]
        exact List.mem_append_right _ (List.mem_map.mpr ⟨n, hnew, rfl⟩)

theorem promise_iff {a : FeedbackAction} (hinv : Inv w) (h : w.Step e table a w') :
    Promise w w' a ↔ Timely w a := by
  have hinv' := step_inv htemplate hinv h
  obtain ⟨-, h⟩ := h
  -- a call that gives no feedback
  have hidle (hsame : w'.feedback = w.feedback) : FeedbackGiven w w' a.now := by
    refine ⟨fun f hf hnot => ?_, hinv'.once⟩
    rw [hsame] at hf
    exact absurd hf hnot
  cases a with
  | move call =>
    obtain ⟨db, hdb, rfl⟩ := h
    exact iff_of_true ⟨hidle rfl, fun now hnow => by simp at hnow⟩ trivial
  | interview call =>
    obtain ⟨interviews, -, rfl⟩ := h
    exact iff_of_true ⟨hidle rfl, fun now hnow => by simp at hnow⟩ trivial
  | requestFeedback interviewId actorId actorRoles now =>
    obtain ⟨box, -, rfl⟩ := h
    exact iff_of_true ⟨hidle rfl, fun now hnow => by simp at hnow⟩ trivial
  | sweep now =>
    subst h
    rw [← sweep_asks_iff htemplate hinv now]
    constructor
    · intro hpromise
      exact hpromise.asked now rfl
    · intro hasked
      refine ⟨hidle rfl, fun other hother => ?_⟩
      obtain rfl := FeedbackAction.sweep.inj hother
      exact hasked
  | submitFeedback interviewScheduleId interviewerId request now =>
    obtain ⟨feedback, hfeedback, rfl⟩ := h
    obtain ⟨round, hround, hid, hended, row, hrow, hnew, rfl⟩ := submitFeedback_ok hfeedback
    constructor
    · intro hpromise other hother hsame
      obtain rfl := w.interviews.db.interviewSchedules.eq_of_key_eq hother hround
        (hsame.trans hid.symm)
      have hfresh : row ∉ w.feedback := fun hmem => hnew row hmem rfl
      obtain ⟨r, hr, hrid, hstatus, -⟩ := hpromise.given.tookPlace row
        (List.mem_append_right _ (List.mem_singleton_self row)) hfresh
      obtain rfl := w.interviews.db.interviewSchedules.eq_of_key_eq hr hother
        (hrid.trans (hrow.trans hid.symm))
      intro hcancelled
      rw [hcancelled] at hstatus
      simp at hstatus
    · intro htimely
      refine ⟨⟨fun f hf hnot => ?_, hinv'.once⟩, fun other hother => by simp at hother⟩
      obtain rfl : f = row := by
        rcases List.mem_append.mp hf with hold | hlast
        · exact absurd hold hnot
        · exact List.mem_singleton.mp hlast
      refine ⟨round, hround, hid.trans hrow.symm, ?_, hended⟩
      have hcancelled := htimely round hround hid
      cases hstatus : round.status with
      | pending =>
        -- a blank round has no end
        have hblank := hinv.sound.blank round hround hstatus
        rw [notEnded, hblank] at hended
        simp at hended
      | cancelled => exact absurd hstatus hcancelled
      | _ => simp

end Steps

-- Feedback is only given where an interview took place, and nobody is forgotten,
-- throughout a run exactly when each of its calls is timely.
theorem feedback_in_time_iff (e : NotificationEnv)
    (htemplate : (e.activeTemplate .interviewFeedbackRequested).isSome) (table : TransitionTable)
    (w : FeedbackWorld) (hstart : Start w) (path : List (FeedbackAction × FeedbackWorld))
    (hp : Path (fun w a w' => w.Step e table a w') w path) :
    EveryStep (fun w a w' => Promise w w' a) w path ↔ EveryStep (fun w a _ => Timely w a) w path :=
  hp.everyStep_congr hstart.inv (fun _ _ _ hinv h => step_inv htemplate hinv h)
    fun _ _ _ hinv h => promise_iff htemplate hinv h

def invited : FeedbackWorld where
  interviews := invitedWorld
  createdAt := []
  feedback := []
  clock := 0

def after (w : FeedbackWorld) (a : FeedbackAction) : FeedbackWorld :=
  (w.next? noticeEnv seededTransitions a).getD w

theorem step_after {w : FeedbackWorld} {a : FeedbackAction}
    (h : (w.next? noticeEnv seededTransitions a).isSome) :
    w.Step noticeEnv seededTransitions a (after w a) := by
  obtain ⟨w', hw'⟩ := Option.isSome_iff_exists.mp h
  rw [after, hw']
  exact next?_step noticeEnv w hw'

theorem invited_start : Start invited where
  nothing := rfl
  unstamped := rfl
  nothingGiven := rfl
  sound := by
    constructor
    · decide +kernel
    · decide +kernel

def begun : FeedbackWorld :=
  after (after invited (.interview scheduledOnce))
    (.requestFeedback 0 "recruiter" ["RECRUITER"] 2010)

def calledOff : FeedbackAction :=
  .interview (.cancel 0 "recruiter" ["RECRUITER"] "The candidate is ill."
    { office with now := 2010 })

def answered : FeedbackAction := .submitFeedback 0 0 ⟨.advance, none⟩ 2011

def putOff : FeedbackAction :=
  .interview (.reschedule 0 "recruiter" ["RECRUITER"]
    { videoCall with startTime := 13, endTime := 14, reason := none } [ana]
    { office with now := 2010 })

def started : List (FeedbackAction × FeedbackWorld) :=
  [(.interview scheduledOnce, after invited (.interview scheduledOnce)),
    (.requestFeedback 0 "recruiter" ["RECRUITER"] 2010, begun)]

def answeredAnyway : List (FeedbackAction × FeedbackWorld) :=
  started ++ [(calledOff, after begun calledOff),
    (answered, after (after begun calledOff) answered)]

def forgotten : List (FeedbackAction × FeedbackWorld) :=
  started ++ [(putOff, after begun putOff), (.sweep 2015, after (after begun putOff) (.sweep 2015))]

def Runs : FeedbackWorld → List (FeedbackAction × FeedbackWorld) → Prop :=
  Path fun w a w' => w.Step noticeEnv seededTransitions a w'

theorem answeredAnyway_path : Runs invited answeredAnyway := by
  refine ⟨step_after ?_, step_after ?_, step_after ?_, step_after ?_, trivial⟩
  · decide +kernel
  · decide +kernel
  · decide +kernel
  · decide +kernel

theorem forgotten_path : Runs invited forgotten := by
  refine ⟨step_after ?_, step_after ?_, step_after ?_, step_after ?_, trivial⟩
  · decide +kernel
  · decide +kernel
  · decide +kernel
  · decide +kernel

theorem feedback_in_time_iff_forgotten :
    EveryStep (fun w a w' => Promise w w' a) invited forgotten ↔
      EveryStep (fun w a _ => Timely w a) invited forgotten :=
  feedback_in_time_iff noticeEnv rfl seededTransitions invited invited_start forgotten
    forgotten_path

theorem feedback_too_late : (Runs invited answeredAnyway ∧
      ¬EveryStep (fun w a w' => Promise w w' a) invited answeredAnyway) ∧
    (Runs invited forgotten ∧ ¬EveryStep (fun w a w' => Promise w w' a) invited forgotten) := by
  refine ⟨⟨answeredAnyway_path, fun hall => ?_⟩, ⟨forgotten_path, fun hall => ?_⟩⟩
  · obtain ⟨-, -, -, hpromise, -⟩ := hall
    have hrounds : ∀ round ∈ (after begun calledOff).rounds, round.status = .cancelled := by
      decide +kernel
    have hnone : (after begun calledOff).feedback = [] := by decide +kernel
    have hrow : (⟨0, 0, .advance, none⟩ : InterviewFeedback) ∈
        (after (after begun calledOff) answered).feedback := by decide +kernel
    obtain ⟨round, hround, -, hstatus, -⟩ := hpromise.given.tookPlace _ hrow (by simp [hnone])
    rw [hrounds round hround] at hstatus
    simp at hstatus
  · obtain ⟨-, -, -, hpromise, -⟩ := hall
    let w := after (after begun putOff) (.sweep 2015)
    have hmissing : ∃ round ∈ w.rounds, round.status = .rescheduled ∧
        notEnded round 2015 = false ∧ round.startAt = some 2013 ∧
          getActiveInterviewers w.interviews.interviewers round.id ≠ [] := by
      decide +kernel
    have hnone : w.feedback = [] := by decide +kernel
    have htimes : ∀ entry ∈ w.box.zip w.createdAt,
        entry.1.triggerEvent = .interviewFeedbackRequested → ¬2013 < entry.2 := by
      decide +kernel
    obtain ⟨round, hround, hstatus, hended, hstart, hsomeone⟩ := hmissing
    obtain ⟨i, hi⟩ := List.exists_mem_of_ne_nil _ hsomeone
    obtain ⟨n, t, hmem, hasks, hsince⟩ := hpromise.asked 2015 rfl round i
      ⟨hround, by simp [Active, hstatus], hended, hi, by simp [hnone, w]⟩
    exact htimes (n, t) hmem hasks.2.2 (hsince 2013 hstart)

end FeedbackAsked

end AiHiring
