import AiHiring.Interview.Notifications

namespace AiHiring

open Library InterviewScheduleRepository InterviewScheduleService InterviewWorld

namespace Informed

-- One round is written; the others are what they were.
structure Written (db db' : Db) (after : InterviewSchedule) : Prop where
  here : after ∈ db'.interviewSchedules.rows
  others : ∀ r, r.id ≠ after.id → (r ∈ db'.interviewSchedules.rows ↔ r ∈ db.interviewSchedules.rows)
  notPending : after.status ≠ .pending

section Calls

variable {db db' : Db} {calls : List CalendarCall} {actorId : String}
  {actorRoles : List String} {env : InterviewEnv}

theorem written_of_rewritten {round after : InterviewSchedule}
    (h : Rewritten db db' round after) (hstatus : after.status ≠ .pending) :
    Written db db' after := by
  obtain ⟨hmem, -⟩ := (db.interviewSchedules.find?_eq_some _ _).mp h.found
  refine ⟨?_, fun r hr => ?_, hstatus⟩
  · rw [h.rounds, Table.mem_replace]
    exact .inr ⟨rfl, round, hmem, h.sameId.symm⟩
  · rw [h.rounds, Table.mem_replace]
    constructor
    · rintro (⟨hold, -⟩ | ⟨rfl, -⟩)
      · exact hold
      · exact absurd rfl hr
    · intro hold
      exact .inl ⟨hold, hr⟩

theorem getById_written {round after : InterviewSchedule} (h : Rewritten db db' round after) :
    getById db' after.id = some after := by
  unfold getById
  rw [h.rounds]
  exact db.interviewSchedules.find?_replace_self after round (h.sameId ▸ h.found)

-- The round that `schedule` fills in was blank or did not exist.
theorem schedule_cases (cc : Uuid) (request : ScheduleInterviewRequest)
    (h : schedule db cc actorId actorRoles request env = .ok (db', calls)) :
    (scheduledRound db cc env.now = none ∧ db' = db) ∨
    ∃ after, scheduledRound db cc env.now = some after.id ∧ getById db' after.id = some after ∧
      Written db db' after ∧ after.status = .scheduled ∧
      ∀ r ∈ db.interviewSchedules.rows, r.id = after.id → r.status = .pending := by
  obtain ⟨row, -, h⟩ := (bind_eq_ok _ _ _).mp h
  cases hlatest : getLatestByCampaignCandidateId db cc with
  | none => simp [hlatest] at h
  | some latest =>
    obtain ⟨hmem, -, -⟩ := mem_latest cc latest hlatest
    simp only [hlatest] at h
    unfold scheduledRound
    simp only [hlatest]
    by_cases hpending : latest.status = .pending
    · rw [if_pos hpending] at h ⊢
      obtain ⟨hdb, -⟩ := Prod.mk.inj (Except.ok.inj h)
      have hfound := (db.interviewSchedules.find?_eq_some _ _).mpr ⟨hmem, rfl⟩
      obtain ⟨hid, hcandidate, hnumber⟩ :=
        applyScheduleRequest_same latest request actorId actorRoles env
      obtain ⟨hstatus, -, -⟩ :=
        applyScheduleRequest_times latest request actorId actorRoles env
      have hround : Rewritten db db' latest
          (applyScheduleRequest latest request actorId actorRoles env).1 := by
        rw [← hdb]
        exact ⟨hfound, rfl, hid, hcandidate, hnumber, rfl⟩
      refine .inr ⟨_, congrArg some hid.symm, getById_written hround,
        written_of_rewritten hround (by simp [hstatus]), hstatus, fun r hr hsame => ?_⟩
      obtain rfl := db.interviewSchedules.eq_of_key_eq hr hmem (hsame.trans hid)
      exact hpending
    · rw [if_neg hpending] at h ⊢
      unfold createNextRound at h ⊢
      cases htaken : db.interviewSchedules.rows.find? fun r =>
          r.campaignCandidateId = cc ∧ r.roundNumber = latest.roundNumber + 1 with
      | some existing =>
        simp only [htaken, Bool.not_false, if_true] at h ⊢
        cases h
        exact .inl ⟨by simp, rfl⟩
      | none =>
        simp only [htaken, Bool.not_true, Bool.false_eq_true, if_false] at h ⊢
        obtain ⟨hdb, -⟩ := Prod.mk.inj (Except.ok.inj h)
        let blank := newRound cc (latest.roundNumber + 1) env.now db.interviewSchedules.next
        obtain ⟨hid, -, -⟩ := applyScheduleRequest_same blank request actorId actorRoles env
        obtain ⟨hstatus, -, -⟩ :=
          applyScheduleRequest_times blank request actorId actorRoles env
        have hrows : db'.interviewSchedules.rows = db.interviewSchedules.rows ++
            [(applyScheduleRequest blank request actorId actorRoles env).1] := by
          rw [← hdb]
          exact rows_filledRound db.interviewSchedules cc (latest.roundNumber + 1) env.now
            request actorId actorRoles env
        have hhere : (applyScheduleRequest blank request actorId actorRoles env).1 ∈
            db'.interviewSchedules.rows := by
          rw [hrows]
          simp
        refine .inr ⟨_, congrArg some hid.symm,
          (db'.interviewSchedules.find?_eq_some _ _).mpr ⟨hhere, rfl⟩,
          ⟨hhere, fun r hr => ?_, by simp [hstatus]⟩, hstatus, fun r hr hsame => ?_⟩
        · rw [hrows, List.mem_append, List.mem_singleton, or_iff_left]
          exact fun heq => hr (congrArg InterviewSchedule.id heq)
        · have hbelow := db.interviewSchedules.below r hr
          have hnext : db.interviewSchedules.next = r.id := (hsame.trans hid).symm
          omega

theorem rescheduled_zones (round : InterviewSchedule) (request : RescheduleInterviewRequest) :
    (rescheduled round request env).1.timezone = request.timezone ∧
      (rescheduled round request env).1.candidateTimezone = request.candidateTimezone := by
  unfold rescheduled
  obtain ⟨_, _, hsync⟩ := syncCalendar_same _ _ _ _ _
  rw [hsync]
  split_ifs <;> exact ⟨rfl, rfl⟩

theorem rescheduled_status {round : InterviewSchedule} (request : RescheduleInterviewRequest)
    (hstatus : round.status ∈ [.scheduled, .rescheduled, .cancelled]) :
    (rescheduled round request env).1.status ∈ [InterviewStatus.scheduled, .rescheduled] := by
  have hkept : round.status ≠ .cancelled →
      round.status ∈ [InterviewStatus.scheduled, .rescheduled] := by
    intro hne
    cases hs : round.status <;> simp_all
  unfold rescheduled
  obtain ⟨_, _, hsync⟩ := syncCalendar_same _ _ _ _ _
  rw [hsync]
  split_ifs with hevent hcancelled hcancelled
  · simp
  · simp
  · exact absurd (.inl hcancelled) hevent
  · exact hkept hcancelled

end Calls

-- What a call comes to: the round that it writes, and the notifications that follow.
inductive Notified (e : NotificationEnv) (w : InterviewWorld) :
    NotifiedCall → InterviewWorld → Prop
  | lost (cc : Uuid) (actorId : String) (actorRoles : List String)
      (request : ScheduleInterviewRequest) (inputs : List InterviewerInput) (env : InterviewEnv) :
      Notified e w (.schedule cc actorId actorRoles request inputs env) w
  | scheduled (cc : Uuid) (actorId : String) (actorRoles : List String)
      (request : ScheduleInterviewRequest) (inputs : List InterviewerInput) (env : InterviewEnv)
      (db : Db) (after : InterviewSchedule) (hwritten : Written w.db db after)
      (hstatus : after.status = .scheduled)
      (hblank : ∀ r ∈ w.db.interviewSchedules.rows, r.id = after.id → r.status = .pending) :
      Notified e w (.schedule cc actorId actorRoles request inputs env)
        (afterSchedule e w db after inputs)
  | rescheduled (interviewId : Uuid) (actorId : String) (actorRoles : List String)
      (request : RescheduleInterviewRequest) (inputs : List InterviewerInput)
      (env : InterviewEnv) (db : Db) (round : InterviewSchedule)
      (hround : w.db.interviewSchedules.find? interviewId = some round)
      (hstatus : round.status ∈ [.scheduled, .rescheduled, .cancelled])
      (hid : (rescheduled round request env).1.id = round.id)
      (hwritten : Written w.db db (rescheduled round request env).1) :
      Notified e w (.reschedule interviewId actorId actorRoles request inputs env)
        (afterReschedule e w db (rescheduled round request env).1
          (isRescheduleEvent round request env) inputs)
  | cancelled (interviewId : Uuid) (actorId : String) (actorRoles : List String)
      (reason : String) (env : InterviewEnv) (db : Db) (round : InterviewSchedule)
      (hround : w.db.interviewSchedules.find? interviewId = some round)
      (hwritten : Written w.db db (cancelled reason env.now round)) :
      Notified e w (.cancel interviewId actorId actorRoles reason env)
        (afterCancel e w db (cancelled reason env.now round) reason)
  | completed (interviewId : Uuid) (actorId : String) (actorRoles : List String)
      (alreadyGiven : Uuid → Bool) (env : InterviewEnv) (db : Db) (round : InterviewSchedule)
      (hround : w.db.interviewSchedules.find? interviewId = some round)
      (hstatus : round.status ∉ [.completed, .cancelled])
      (hended : notEnded round env.now = false)
      (hwritten : Written w.db db (completed round env.now)) :
      Notified e w (.complete interviewId actorId actorRoles alreadyGiven env)
        (afterComplete e w db (completed round env.now) alreadyGiven)

theorem step_notified {e : NotificationEnv} {w w' : InterviewWorld} {c : NotifiedCall}
    (h : Step e w c w') : Notified e w c w' := by
  obtain ⟨db, calls, hrun, rfl⟩ := h
  cases c with
  | schedule cc actorId actorRoles request inputs env =>
    obtain ⟨hnone, rfl⟩ | ⟨after, hsome, hget, hwritten, hstatus, hblank⟩ :=
      schedule_cases cc request hrun
    · simp only [notified, hnone, Option.bind_none]
      exact .lost cc actorId actorRoles request inputs env
    · simp only [notified, hsome, Option.bind_some, hget]
      exact .scheduled cc actorId actorRoles request inputs env db after hwritten hstatus hblank
  | reschedule interviewId actorId actorRoles request inputs env =>
    obtain ⟨round, rfl, hstatus, hround, -⟩ := reschedule_rewritten interviewId request hrun
    have hafter := @rescheduled_status env round request hstatus
    have hget := getById_written hround
    rw [hround.sameId] at hget
    have hfound : getById w.db round.id = some round := hround.found
    simp only [notified, hfound, hget]
    refine .rescheduled round.id actorId actorRoles request inputs env db round hround.found
      hstatus hround.sameId (written_of_rewritten hround ?_)
    intro hpending
    rw [hpending] at hafter
    simp at hafter
  | cancel interviewId actorId actorRoles reason env =>
    obtain ⟨round, rfl, -, hround, -⟩ := cancel_rewritten interviewId reason hrun
    have hget : getById db round.id = some (cancelled reason env.now round) :=
      getById_written hround
    simp only [notified, hget]
    exact .cancelled round.id actorId actorRoles reason env db round hround.found
      (written_of_rewritten hround (by simp [cancelled]))
  | complete interviewId actorId actorRoles alreadyGiven env =>
    obtain ⟨round, rfl, hstatus, hended, hround, -⟩ := complete_rewritten interviewId hrun
    have hget : getById db round.id = some (completed round env.now) :=
      getById_written hround
    simp only [notified, hget]
    exact .completed round.id actorId actorRoles alreadyGiven env db round hround.found hstatus
      hended (written_of_rewritten hround (by simp [completed]))

end Informed

end AiHiring
