import AiHiring.Interview.Effects
import AiHiring.Library.Zone

namespace AiHiring

open Library InterviewScheduleService

namespace WallClock

-- All times are in microseconds, from the day before the calendar's first one.
def minute : ℤ := 60 * 1000000

def day : ℤ := 24 * 60 * minute

-- `utcoffset` is there where the text of the time carries one.
structure Time where
  hour : Fin 24
  (minute second : Fin 60)
  microsecond : Fin 1000000
  utcoffset : Option ℤ

def Time.clock (time : Time) : ℕ :=
  ((time.hour * 60 + time.minute) * 60 + time.second) * 1000000 + time.microsecond

-- `self <= other`, which raises where only one of them has an offset.
def Time.le? (self other : Time) : Option Bool :=
  if self.utcoffset = other.utcoffset then
    some (self.clock ≤ other.clock)
  else
    match self.utcoffset, other.utcoffset with
    | some offset, some otherOffset =>
      some ((self.clock : ℤ) - offset ≤ other.clock - otherOffset)
    | _, _ => none

-- The times of a request that pass `_end_after_start`; `date` counts the days from
-- the calendar's first one.
structure RequestTimes where
  date : ℕ
  (startTime endTime : Time)
  timezone : String
  endAfterStart : endTime.le? startTime = some false

def RequestTimes.request (times : RequestTimes) (request : RescheduleInterviewRequest) :
    RescheduleInterviewRequest :=
  { request with
    date := times.date
    startTime := times.startTime.clock
    endTime := times.endTime.clock
    timezone := times.timezone }

-- A zone of the database; no offset is a day or more.
structure ZoneInfo extends Zone where
  initial_lt : initial < day
  offset_lt : ∀ change ∈ changes, change.offset < day

section Times

variable (zones : String → ZoneInfo)

def wall (date moment : ℕ) : ℤ := (date + 1) * day + moment

def combineToUtc (date moment : ℕ) (tzName : String) : Instant :=
  ((zones tzName).toUtc (wall date moment)).toNat

-- `duration_minutes` of the response.
def durationMinutes (schedule : InterviewSchedule) : Option ℤ :=
  match schedule.startAt, schedule.endAt with
  | some startAt, some endAt => some (((endAt : ℤ) - startAt) / minute)
  | _, _ => none

def PositiveLength (schedule : InterviewSchedule) : Prop :=
  ∃ startAt endAt, schedule.startAt = some startAt ∧ schedule.endAt = some endAt ∧
    startAt < endAt ∧ ∃ minutes, durationMinutes schedule = some minutes ∧ 0 < minutes

-- On the clock, the end is at least a minute later than the start after what the
-- clocks are set forward in between.
def RequestTimes.LastsAMinute (times : RequestTimes) : Prop :=
  minute ≤ (times.endTime.clock : ℤ) - times.startTime.clock -
    (zones times.timezone).setForward (wall times.date times.startTime.clock)
      (wall times.date times.endTime.clock)

variable {zones}

theorem combineToUtc_cast (date moment : ℕ) (tzName : String) :
    (combineToUtc zones date moment tzName : ℤ) = (zones tzName).toUtc (wall date moment) := by
  have hlt : offsetOfWall (zones tzName).initial (zones tzName).changes (wall date moment) <
      day := by
    obtain hinitial | ⟨change, hchange, hoffset⟩ := @offsetOfWall_mem (zones tzName).initial
      (zones tzName).changes (wall date moment)
    · rw [hinitial]
      exact (zones tzName).initial_lt
    · rw [hoffset]
      exact (zones tzName).offset_lt change hchange
  refine Int.toNat_of_nonneg ?_
  unfold Zone.toUtc
  have hday : day ≤ wall date moment := by
    unfold wall day minute
    omega
  omega

theorem positiveLength_iff {schedule : InterviewSchedule} {times : RequestTimes}
    (hstart : schedule.startAt =
      some (combineToUtc zones times.date times.startTime.clock times.timezone))
    (hend : schedule.endAt =
      some (combineToUtc zones times.date times.endTime.clock times.timezone)) :
    PositiveLength schedule ↔ times.LastsAMinute zones := by
  have hlength := (zones times.timezone).toUtc_sub (wall times.date times.startTime.clock)
    (wall times.date times.endTime.clock)
  rw [← combineToUtc_cast, ← combineToUtc_cast] at hlength
  have hclock : wall times.date times.endTime.clock - wall times.date times.startTime.clock =
      times.endTime.clock - times.startTime.clock := by
    unfold wall
    omega
  rw [hclock] at hlength
  unfold RequestTimes.LastsAMinute
  rw [← hlength]
  generalize combineToUtc zones times.date times.startTime.clock times.timezone = startAt at *
  generalize combineToUtc zones times.date times.endTime.clock times.timezone = endAt at *
  have hduration : durationMinutes schedule = some (((endAt : ℤ) - startAt) / minute) := by
    rw [durationMinutes, hstart, hend]
  constructor
  · intro h
    obtain ⟨_, _, -, -, -, minutes, hminutes, hpositive⟩ := h
    cases hduration.symm.trans hminutes
    unfold minute at hpositive ⊢
    omega
  · intro h
    refine ⟨startAt, endAt, hstart, hend, ?_, _, hduration, ?_⟩
    · have hlt : (startAt : ℤ) < endAt := by
        unfold minute at h
        omega
      exact Int.ofNat_lt.mp hlt
    · unfold minute at h ⊢
      omega

end Times

-- A round is stored with a positive length exactly when the interview lasts a minute
-- or more after what the clocks are set forward between its start and its end.
theorem stored_positiveLength_iff (zones : String → ZoneInfo) (times : RequestTimes)
    (round : InterviewSchedule) (request : RescheduleInterviewRequest) (actorId : String)
    (actorRoles : List String) (env : InterviewEnv) :
    (PositiveLength (applyScheduleRequest round (times.request request).toScheduleInterviewRequest
        actorId actorRoles { env with combineToUtc := combineToUtc zones }).1 ↔
      times.LastsAMinute zones) ∧
    (PositiveLength (rescheduled round (times.request request)
        { env with combineToUtc := combineToUtc zones }).1 ↔
      times.LastsAMinute zones) := by
  let utc : InterviewEnv := { env with combineToUtc := combineToUtc zones }
  obtain ⟨-, hstart, hend⟩ := applyScheduleRequest_times round
    (times.request request).toScheduleInterviewRequest actorId actorRoles utc
  obtain ⟨hstart', hend', -⟩ := rescheduled_times round (times.request request) utc
  exact ⟨positiveLength_iff hstart hend, positiveLength_iff hstart' hend'⟩

def springForward : ZoneInfo where
  initial := -5 * 60 * minute
  changes := [⟨(738954 + 1) * day + 7 * 60 * minute, -4 * 60 * minute⟩]
  instants := List.pairwise_singleton _ _
  walls := List.pairwise_singleton _ _
  initial_lt := by decide
  offset_lt := by decide

def halfPastTwo : RequestTimes where
  date := 738954
  startTime := ⟨2, 30, 0, 0, none⟩
  endTime := ⟨3, 0, 0, 0, none⟩
  timezone := "America/New_York"
  endAfterStart := by decide +kernel

theorem not_lastsAMinute_halfPastTwo : ¬halfPastTwo.LastsAMinute fun _ => springForward := by
  have hadvanced : springForward.setForward (wall 738954 halfPastTwo.startTime.clock)
      (wall 738954 halfPastTwo.endTime.clock) = 60 * minute := by
    decide +kernel
  have hclock : (halfPastTwo.endTime.clock : ℤ) - halfPastTwo.startTime.clock = 30 * minute := by
    decide +kernel
  unfold RequestTimes.LastsAMinute
  rw [show halfPastTwo.date = 738954 from rfl, hadvanced, hclock]
  unfold minute
  omega

-- From half past two, which the clocks skip, to three o'clock.
theorem halfPastTwo_not_positive :
    ¬PositiveLength (applyScheduleRequest (InterviewScheduleRepository.newRound 0 1 0 0)
      (halfPastTwo.request { videoCall with reason := none }).toScheduleInterviewRequest
      "recruiter" ["RECRUITER"]
      { office with combineToUtc := combineToUtc fun _ => springForward }).1 := by
  intro hpositive
  obtain ⟨-, hstart, hend⟩ := applyScheduleRequest_times
    (InterviewScheduleRepository.newRound 0 1 0 0)
    (halfPastTwo.request { videoCall with reason := none }).toScheduleInterviewRequest
    "recruiter" ["RECRUITER"] { office with combineToUtc := combineToUtc fun _ => springForward }
  exact not_lastsAMinute_halfPastTwo ((positiveLength_iff hstart hend).mp hpositive)

end WallClock

end AiHiring
