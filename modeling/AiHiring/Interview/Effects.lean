import AiHiring.Interview.Service
import AiHiring.Pipeline.StageWrite

namespace AiHiring

open Library InterviewScheduleRepository InterviewScheduleService

inductive InterviewCall where
  | schedule (cc : Uuid) (actorId : String) (actorRoles : List String)
      (request : ScheduleInterviewRequest) (env : InterviewEnv)
  | reschedule (interviewId : Uuid) (actorId : String) (actorRoles : List String)
      (request : RescheduleInterviewRequest) (env : InterviewEnv)
  | cancel (interviewId : Uuid) (actorId : String) (actorRoles : List String) (reason : String)
      (env : InterviewEnv)
  | complete (interviewId : Uuid) (actorId : String) (actorRoles : List String)
      (env : InterviewEnv)

namespace InterviewCall

def run (db : Db) : InterviewCall → Except ServiceError (Db × List CalendarCall)
  | schedule cc actorId actorRoles request env =>
    InterviewScheduleService.schedule db cc actorId actorRoles request env
  | reschedule interviewId actorId actorRoles request env =>
    InterviewScheduleService.reschedule db interviewId actorId actorRoles request env
  | cancel interviewId actorId actorRoles reason env =>
    InterviewScheduleService.cancel db interviewId actorId actorRoles reason env
  | complete interviewId actorId actorRoles env =>
    InterviewScheduleService.complete db interviewId actorId actorRoles env

end InterviewCall

-- One round is rewritten in place; it stays the same round of the same candidate.
structure Rewritten (db db' : Db) (round after : InterviewSchedule) : Prop where
  found : db.interviewSchedules.find? round.id = some round
  rounds : db'.interviewSchedules = db.interviewSchedules.replace after
  sameId : after.id = round.id
  sameCandidate : after.campaignCandidateId = round.campaignCandidateId
  sameNumber : after.roundNumber = round.roundNumber
  candidates : db'.campaignCandidates = db.campaignCandidates

-- What a successful call does to the rounds, and what it asks of the calendars.
inductive Outcome (db db' : Db) (calls : List CalendarCall) : InterviewCall → Prop
  | filled (cc : Uuid) (actorId : String) (actorRoles : List String)
      (request : ScheduleInterviewRequest) (env : InterviewEnv) (latest : InterviewSchedule)
      (hlatest : getLatestByCampaignCandidateId db cc = some latest)
      (hpending : latest.status = .pending)
      (hround : Rewritten db db' latest
        (applyScheduleRequest latest request actorId actorRoles env).1)
      (hcalls : calls = (applyScheduleRequest latest request actorId actorRoles env).2) :
      Outcome db db' calls (.schedule cc actorId actorRoles request env)
  | next (cc : Uuid) (actorId : String) (actorRoles : List String)
      (request : ScheduleInterviewRequest) (env : InterviewEnv) (latest added : InterviewSchedule)
      (hlatest : getLatestByCampaignCandidateId db cc = some latest)
      (hfree : ∀ r ∈ db.interviewSchedules.rows, r.campaignCandidateId = cc →
        r.roundNumber ≠ latest.roundNumber + 1)
      (hadded : added = newRound cc (latest.roundNumber + 1) env.now db.interviewSchedules.next)
      (hrows : db'.interviewSchedules.rows = db.interviewSchedules.rows ++
        [(applyScheduleRequest added request actorId actorRoles env).1])
      (hcandidates : db'.campaignCandidates = db.campaignCandidates)
      (hcalls : calls = (applyScheduleRequest added request actorId actorRoles env).2) :
      Outcome db db' calls (.schedule cc actorId actorRoles request env)
  | lost (cc : Uuid) (actorId : String) (actorRoles : List String)
      (request : ScheduleInterviewRequest) (env : InterviewEnv) (hsame : db' = db)
      (hcalls : calls = []) : Outcome db db' calls (.schedule cc actorId actorRoles request env)
  | rescheduled (interviewId : Uuid) (actorId : String) (actorRoles : List String)
      (request : RescheduleInterviewRequest) (env : InterviewEnv) (round : InterviewSchedule)
      (hstatus : round.status ∈ [.scheduled, .rescheduled, .cancelled])
      (hround : Rewritten db db' round (rescheduled round request env).1)
      (hcalls : calls = (rescheduled round request env).2) :
      Outcome db db' calls (.reschedule interviewId actorId actorRoles request env)
  | cancelled (interviewId : Uuid) (actorId : String) (actorRoles : List String)
      (reason : String) (env : InterviewEnv) (round : InterviewSchedule)
      (hstatus : round.status ≠ .cancelled)
      (hround : Rewritten db db' round (cancelled reason env.now round))
      (hcalls : calls = cancelCalls round) :
      Outcome db db' calls (.cancel interviewId actorId actorRoles reason env)
  | completed (interviewId : Uuid) (actorId : String) (actorRoles : List String)
      (env : InterviewEnv) (round : InterviewSchedule)
      (hstatus : round.status ∉ [.completed, .cancelled])
      (hended : notEnded round env.now = false)
      (hround : Rewritten db db' round (completed round env.now)) (hcalls : calls = []) :
      Outcome db db' calls (.complete interviewId actorId actorRoles env)

variable (interviewId : Uuid) (round : InterviewSchedule)

section Specs

variable {db db' : Db} {calls : List CalendarCall}

theorem getRound_ok (h : getRound db interviewId = .ok round) :
    db.interviewSchedules.find? round.id = some round ∧ round.id = interviewId := by
  unfold getRound InterviewScheduleRepository.getById at h
  cases hfind : db.interviewSchedules.find? interviewId with
  | none => simp [hfind] at h
  | some found =>
    simp only [hfind, Except.ok.injEq] at h
    subst h
    obtain ⟨-, hid⟩ := (db.interviewSchedules.find?_eq_some _ _).mp hfind
    exact ⟨hid.symm ▸ hfind, hid⟩

theorem mem_latest (cc : Uuid) (latest : InterviewSchedule)
    (h : getLatestByCampaignCandidateId db cc = some latest) :
    latest ∈ db.interviewSchedules.rows ∧ latest.campaignCandidateId = cc ∧
      ∀ r ∈ db.interviewSchedules.rows, r.campaignCandidateId = cc →
        r.roundNumber ≤ latest.roundNumber := by
  let later (r s : InterviewSchedule) : Prop := s.roundNumber ≤ r.roundNumber
  have htotal : Std.Total later := ⟨fun r s => Nat.le_total s.roundNumber r.roundNumber⟩
  have htrans : IsTrans InterviewSchedule later := ⟨fun _ _ _ hrs hst => Nat.le_trans hst hrs⟩
  have hmem (r : InterviewSchedule) : r ∈ (db.roundsOf cc).insertionSort later ↔
      r ∈ db.interviewSchedules.rows ∧ r.campaignCandidateId = cc := by
    rw [List.mem_insertionSort, Db.roundsOf, List.mem_filter, decide_eq_true_iff]
  have hsorted := List.pairwise_insertionSort later (db.roundsOf cc)
  obtain ⟨rest, hrest⟩ := List.head?_eq_some_iff.mp h
  change (db.roundsOf cc).insertionSort later = latest :: rest at hrest
  rw [hrest, List.pairwise_cons] at hsorted
  obtain ⟨hrow, hcc⟩ := (hmem latest).mp (by rw [hrest]; exact List.mem_cons_self)
  refine ⟨hrow, hcc, fun r hr hrc => ?_⟩
  have hin := (hmem r).mpr ⟨hr, hrc⟩
  rw [hrest, List.mem_cons] at hin
  rcases hin with rfl | hin
  · exact Nat.le_refl _
  · exact hsorted.1 r hin

theorem applyScheduleRequest_same (round : InterviewSchedule)
    (request : ScheduleInterviewRequest) (actorId : String) (actorRoles : List String)
    (env : InterviewEnv) :
    let after := (applyScheduleRequest round request actorId actorRoles env).1
    after.id = round.id ∧ after.campaignCandidateId = round.campaignCandidateId ∧
      after.roundNumber = round.roundNumber := by
  unfold applyScheduleRequest
  cases calendarServiceFor request.platform <;> exact ⟨rfl, rfl, rfl⟩

theorem applyScheduleRequest_times (round : InterviewSchedule)
    (request : ScheduleInterviewRequest) (actorId : String) (actorRoles : List String)
    (env : InterviewEnv) :
    let after := (applyScheduleRequest round request actorId actorRoles env).1
    after.status = .scheduled ∧ after.startAt = some (request.startAt env) ∧
      after.endAt = some (request.endAt env) := by
  unfold applyScheduleRequest
  cases calendarServiceFor request.platform <;> exact ⟨rfl, rfl, rfl⟩

theorem rows_filledRound (rounds : Rounds) (cc : Uuid) (roundNumber : ℕ) (now : Instant)
    (request : ScheduleInterviewRequest) (actorId : String) (actorRoles : List String)
    (env : InterviewEnv) :
    ((addRound rounds cc roundNumber now).replace
      (applyScheduleRequest (newRound cc roundNumber now rounds.next) request actorId actorRoles
        env).1).rows =
      rounds.rows ++ [(applyScheduleRequest (newRound cc roundNumber now rounds.next) request
        actorId actorRoles env).1] := by
  have hid (id : Uuid) : (applyScheduleRequest (newRound cc roundNumber now id) request actorId
      actorRoles env).1.id = id :=
    (applyScheduleRequest_same (newRound cc roundNumber now id) request actorId actorRoles env).1
  exact congrArg Table.rows (rounds.replace_insert (newRound cc roundNumber now)
    (fun id => (applyScheduleRequest (newRound cc roundNumber now id) request actorId actorRoles
      env).1) (fun _ => rfl) hid)

theorem syncCalendar_same
    (oldService newService : Option CalendarProvider) (existingEventId : Option String)
    (env : InterviewEnv) :
    ∃ link eventId, (syncCalendar round oldService newService existingEventId env).1 =
      { round with meetingLink := link, externalCalendarEventId := eventId } := by
  unfold syncCalendar
  dsimp only
  split
  · split_ifs
    · exact ⟨round.meetingLink, round.externalCalendarEventId, rfl⟩
    · exact ⟨_, _, rfl⟩
  · exact ⟨_, _, rfl⟩
  · exact ⟨none, none, rfl⟩
  · exact ⟨round.meetingLink, round.externalCalendarEventId, rfl⟩

theorem rescheduled_same (round : InterviewSchedule) (request : RescheduleInterviewRequest)
    (env : InterviewEnv) :
    let after := (rescheduled round request env).1
    after.id = round.id ∧ after.campaignCandidateId = round.campaignCandidateId ∧
      after.roundNumber = round.roundNumber := by
  unfold rescheduled
  obtain ⟨_, _, hsync⟩ := syncCalendar_same _ _ _ _ _
  rw [hsync]
  split_ifs <;> exact ⟨rfl, rfl, rfl⟩

-- A round that is rescheduled keeps its status unless the event moves.
theorem rescheduled_times (round : InterviewSchedule) (request : RescheduleInterviewRequest)
    (env : InterviewEnv) :
    let after := (rescheduled round request env).1
    after.startAt = some (request.startAt env) ∧ after.endAt = some (request.endAt env) ∧
      (after.status = .rescheduled ∨ after.status = round.status) := by
  unfold rescheduled
  obtain ⟨_, _, hsync⟩ := syncCalendar_same _ _ _ _ _
  rw [hsync]
  split_ifs
  · exact ⟨rfl, rfl, .inl rfl⟩
  · exact ⟨rfl, rfl, .inl rfl⟩
  · exact ⟨rfl, rfl, .inr rfl⟩
  · exact ⟨rfl, rfl, .inr rfl⟩

variable {actorId : String} {actorRoles : List String} {env : InterviewEnv}

theorem schedule_ok (cc : Uuid) (request : ScheduleInterviewRequest)
    (h : schedule db cc actorId actorRoles request env = .ok (db', calls)) :
    Outcome db db' calls (.schedule cc actorId actorRoles request env) := by
  obtain ⟨row, -, h⟩ := (bind_eq_ok _ _ _).mp h
  cases hlatest : getLatestByCampaignCandidateId db cc with
  | none => simp [hlatest] at h
  | some latest =>
    obtain ⟨hmem, hcc, -⟩ := mem_latest cc latest hlatest
    simp only [hlatest] at h
    by_cases hpending : latest.status = .pending
    · rw [if_pos hpending] at h
      cases h
      have hfound := (db.interviewSchedules.find?_eq_some _ _).mpr ⟨hmem, rfl⟩
      obtain ⟨hid, hcandidate, hnumber⟩ :=
        applyScheduleRequest_same latest request actorId actorRoles env
      exact .filled cc actorId actorRoles request env latest hlatest hpending
        ⟨hfound, rfl, hid, hcandidate, hnumber, rfl⟩ rfl
    · rw [if_neg hpending, createNextRound] at h
      cases htaken : db.interviewSchedules.rows.find? fun r =>
          r.campaignCandidateId = cc ∧ r.roundNumber = latest.roundNumber + 1 with
      | some existing =>
        simp only [htaken, Bool.not_false, if_true] at h
        cases h
        exact .lost cc actorId actorRoles request env rfl rfl
      | none =>
        simp only [htaken, Bool.not_true, Bool.false_eq_true, if_false] at h
        cases h
        have hfree : ∀ r ∈ db.interviewSchedules.rows, r.campaignCandidateId = cc →
            r.roundNumber ≠ latest.roundNumber + 1 := by
          intro r hr hrc hrn
          simpa [hrc, hrn] using List.find?_eq_none.mp htaken r hr
        refine .next cc actorId actorRoles request env latest _ hlatest hfree rfl ?_ rfl rfl
        exact rows_filledRound db.interviewSchedules cc (latest.roundNumber + 1) env.now request
          actorId actorRoles env

theorem reschedule_rewritten (request : RescheduleInterviewRequest)
    (h : reschedule db interviewId actorId actorRoles request env = .ok (db', calls)) :
    ∃ round, round.id = interviewId ∧ round.status ∈ [.scheduled, .rescheduled, .cancelled] ∧
      Rewritten db db' round (rescheduled round request env).1 ∧
      calls = (rescheduled round request env).2 := by
  obtain ⟨round, hround, h⟩ := (bind_eq_ok _ _ _).mp h
  obtain ⟨cc, -, h⟩ := (bind_eq_ok _ _ _).mp h
  obtain ⟨hfound, hinterview⟩ := getRound_ok interviewId round hround
  obtain ⟨-, h⟩ := (raise_eq_ok _ _ _ _).mp h
  obtain ⟨hstatus, h⟩ := (raise_eq_ok _ _ _ _).mp h
  obtain ⟨hid, hcandidate, hnumber⟩ := rescheduled_same round request env
  have hwritten : db'.interviewSchedules =
        db.interviewSchedules.replace (rescheduled round request env).1 ∧
      db'.campaignCandidates = db.campaignCandidates ∧
      calls = (rescheduled round request env).2 := by
    split_ifs at h
    · obtain ⟨last, hhistory, h⟩ := (bind_eq_ok _ _ _).mp h
      cases h
      have hlast := addHistory_ok _ _ _ _ _ _ _ _ _ hhistory
      rw [hlast]
      exact ⟨rfl, rfl, rfl⟩
    · cases h
      exact ⟨rfl, rfl, rfl⟩
  obtain ⟨hrounds, hcandidates, hcalls⟩ := hwritten
  exact ⟨round, hinterview, not_not.mp hstatus,
    ⟨hfound, hrounds, hid, hcandidate, hnumber, hcandidates⟩, hcalls⟩

theorem cancel_rewritten (reason : String)
    (h : cancel db interviewId actorId actorRoles reason env = .ok (db', calls)) :
    ∃ round, round.id = interviewId ∧ round.status ≠ .cancelled ∧
      Rewritten db db' round (cancelled reason env.now round) ∧ calls = cancelCalls round := by
  obtain ⟨round, hround, h⟩ := (bind_eq_ok _ _ _).mp h
  obtain ⟨cc, -, h⟩ := (bind_eq_ok _ _ _).mp h
  obtain ⟨hfound, hinterview⟩ := getRound_ok interviewId round hround
  obtain ⟨hstatus, h⟩ := (raise_eq_ok _ _ _ _).mp h
  obtain ⟨last, hhistory, h⟩ := (bind_eq_ok _ _ _).mp h
  cases h
  have hlast := addHistory_ok _ _ _ _ _ _ _ _ _ hhistory
  rw [hlast]
  exact ⟨round, hinterview, hstatus, ⟨hfound, rfl, rfl, rfl, rfl, rfl⟩, rfl⟩

theorem complete_rewritten (h : complete db interviewId actorId actorRoles env = .ok (db', calls)) :
    ∃ round, round.id = interviewId ∧ round.status ∉ [.completed, .cancelled] ∧
      notEnded round env.now = false ∧ Rewritten db db' round (completed round env.now) ∧
      calls = [] := by
  obtain ⟨round, hround, h⟩ := (bind_eq_ok _ _ _).mp h
  obtain ⟨_, -, h⟩ := (bind_eq_ok _ _ _).mp h
  obtain ⟨hfound, hinterview⟩ := getRound_ok interviewId round hround
  obtain ⟨hstatus, h⟩ := (raise_eq_ok _ _ _ _).mp h
  obtain ⟨hended, h⟩ := (raise_eq_ok _ _ _ _).mp h
  cases h
  exact ⟨round, hinterview, hstatus, Bool.eq_false_iff.mpr hended,
    ⟨hfound, rfl, rfl, rfl, rfl, rfl⟩, rfl⟩

theorem reschedule_ok (request : RescheduleInterviewRequest)
    (h : reschedule db interviewId actorId actorRoles request env = .ok (db', calls)) :
    Outcome db db' calls (.reschedule interviewId actorId actorRoles request env) := by
  obtain ⟨round, -, hstatus, hround, hcalls⟩ := reschedule_rewritten interviewId request h
  exact .rescheduled interviewId actorId actorRoles request env round hstatus hround hcalls

theorem cancel_ok (reason : String)
    (h : cancel db interviewId actorId actorRoles reason env = .ok (db', calls)) :
    Outcome db db' calls (.cancel interviewId actorId actorRoles reason env) := by
  obtain ⟨round, -, hstatus, hround, hcalls⟩ := cancel_rewritten interviewId reason h
  exact .cancelled interviewId actorId actorRoles reason env round hstatus hround hcalls

theorem complete_ok (h : complete db interviewId actorId actorRoles env = .ok (db', calls)) :
    Outcome db db' calls (.complete interviewId actorId actorRoles env) := by
  obtain ⟨round, -, hstatus, hended, hround, hcalls⟩ := complete_rewritten interviewId h
  exact .completed interviewId actorId actorRoles env round hstatus hended hround hcalls

end Specs

theorem InterviewCall.run_ok (db db' : Db) (calls : List CalendarCall) (call : InterviewCall)
    (h : call.run db = .ok (db', calls)) : Outcome db db' calls call := by
  cases call with
  | schedule cc actorId actorRoles request env => exact schedule_ok cc request h
  | reschedule interviewId actorId actorRoles request env =>
    exact reschedule_ok interviewId request h
  | cancel interviewId actorId actorRoles reason env => exact cancel_ok interviewId reason h
  | complete interviewId actorId actorRoles env => exact complete_ok interviewId h

-- The stage writers and the interview service share the tables; every call is
-- one transaction.
inductive HiringAction where
  | move (call : StageWrite × Instant)
  | interview (call : InterviewCall)

namespace HiringAction

def Step (table : TransitionTable) (db : Db) : HiringAction → Db → Prop
  | move call, db' => StageWrite.Step table db call db'
  | interview call, db' => ∃ calls, call.run db = .ok (db', calls)

def next? (table : TransitionTable) (db : Db) : HiringAction → Option Db
  | move call => StageWrite.next? table db call
  | interview call => (call.run db).toOption.map Prod.fst

theorem next?_step (table : TransitionTable) (db db' : Db) (action : HiringAction)
    (h : next? table db action = some db') : Step table db action db' := by
  cases action with
  | move call => exact StageWrite.next?_step call h
  | interview call =>
    obtain ⟨⟨last, calls⟩, hrun, rfl⟩ := Option.map_eq_some_iff.mp h
    refine ⟨calls, ?_⟩
    cases hresult : call.run db with
    | error e => simp [hresult, Except.toOption] at hrun
    | ok result => simpa [hresult, Except.toOption] using hrun

end HiringAction

def videoCall : ScheduleInterviewRequest where
  interviewType := some "Technical"
  date := 20
  startTime := 10
  endTime := 11
  timezone := "UTC"
  candidateTimezone := none
  platform := some .teams
  location := none
  notes := none

def office : InterviewEnv where
  now := 4
  combineToUtc := fun date time _ => 100 * date + time
  created := (some "https://meet/1", some "event-1")

end AiHiring
