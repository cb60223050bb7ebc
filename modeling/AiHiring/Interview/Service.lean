import AiHiring.Pipeline.Repository

namespace AiHiring

inductive CalendarProvider where
  | microsoft
  | google
  deriving DecidableEq, Repr

-- What a call of the service asks of a calendar, in order; a creation carries
-- the event id that it was answered with.
inductive CalendarCall where
  | createEvent (provider : CalendarProvider) (eventId : Option String)
  | updateEvent (provider : CalendarProvider) (eventId : String)
  | deleteEvent (provider : CalendarProvider) (eventId : String)

structure ScheduleInterviewRequest where
  interviewType : Option String
  (date startTime endTime : ℕ)
  timezone : String
  candidateTimezone : Option String
  platform : Option InterviewPlatform
  (location notes : Option String)

structure RescheduleInterviewRequest extends ScheduleInterviewRequest where
  reason : Option String

-- What a call reads outside the tables: the clock, the time zone database, and
-- the meeting link and event id that a creation is answered with, which are
-- both missing when the provider fails.
structure InterviewEnv where
  now : Instant
  combineToUtc : ℕ → ℕ → String → Instant
  created : Option String × Option String

namespace ScheduleInterviewRequest

def startAt (request : ScheduleInterviewRequest) (env : InterviewEnv) : Instant :=
  env.combineToUtc request.date request.startTime request.timezone

def endAt (request : ScheduleInterviewRequest) (env : InterviewEnv) : Instant :=
  env.combineToUtc request.date request.endTime request.timezone

end ScheduleInterviewRequest

namespace InterviewScheduleRepository

-- The INSERT under UNIQUE(campaign_candidate_id, round_number); the loser gets
-- the row that holds the number.
def createNextRound (db : Db) (campaignCandidateId : Uuid) (roundNumber : ℕ) (now : Instant) :
    Db × InterviewSchedule × Bool :=
  match db.interviewSchedules.rows.find? fun r =>
      r.campaignCandidateId = campaignCandidateId ∧ r.roundNumber = roundNumber with
  | some existing => (db, existing, false)
  | none =>
    ({ db with interviewSchedules :=
        addRound db.interviewSchedules campaignCandidateId roundNumber now },
      newRound campaignCandidateId roundNumber now db.interviewSchedules.next, true)

end InterviewScheduleRepository

namespace InterviewScheduleService

open InterviewScheduleRepository

-- TEAMS and MEET have a calendar, the other platforms and no platform have none.
def calendarServiceFor : Option InterviewPlatform → Option CalendarProvider
  | some .teams => some .microsoft
  | some .meet => some .google
  | _ => none

def assertHiringManagerOwnsCampaign (db : Db) (cc : CampaignCandidate) (userId : String) :
    Except ServiceError Unit :=
  match CampaignRepository.getById db cc.campaignId with
  | none => .error (.campaign "Campaign not found." 404)
  | some campaign =>
    if campaign.hiringManagerId ≠ userId then
      .error (.campaign "You do not have access to this candidate's campaign." 403)
    else
      .ok ()

def getCandidateAndAuthorize (db : Db) (campaignCandidateId : Uuid) (actorId : String)
    (actorRoles : List String) : Except ServiceError CampaignCandidate :=
  match CampaignCandidateRepository.getById db campaignCandidateId with
  | none => .error (.campaign "Campaign candidate not found." 404)
  | some cc =>
    if "HR_ADMIN" ∉ actorRoles ∧ "RECRUITER" ∉ actorRoles then do
      assertHiringManagerOwnsCampaign db cc actorId
      .ok cc
    else
      .ok cc

def getRound (db : Db) (interviewId : Uuid) : Except ServiceError InterviewSchedule :=
  match getById db interviewId with
  | none => .error (.campaign "Interview not found." 404)
  | some schedule => .ok schedule

-- The fields of the request, as both entry points write them.
def withRequest (schedule : InterviewSchedule) (request : ScheduleInterviewRequest)
    (env : InterviewEnv) : InterviewSchedule :=
  { schedule with
    interviewType := request.interviewType
    startAt := some (request.startAt env)
    endAt := some (request.endAt env)
    timezone := request.timezone
    candidateTimezone := request.candidateTimezone
    platform := request.platform
    location := request.location
    notes := request.notes
    updatedAt := env.now }

def createEvent (provider : CalendarProvider) (schedule : InterviewSchedule)
    (env : InterviewEnv) : InterviewSchedule × List CalendarCall :=
  ({ schedule with meetingLink := env.created.1, externalCalendarEventId := env.created.2 },
    [.createEvent provider env.created.2])

def applyScheduleRequest (schedule : InterviewSchedule) (request : ScheduleInterviewRequest)
    (actorId : String) (actorRoles : List String) (env : InterviewEnv) :
    InterviewSchedule × List CalendarCall :=
  let schedule := { withRequest schedule request env with
    status := .scheduled
    scheduledBy := some actorId
    scheduledByRole := actorRoles.head? }
  match calendarServiceFor request.platform with
  | none => (schedule, [])
  | some provider => createEvent provider schedule env

def scheduledDetails (schedule : InterviewSchedule) (previousRound : Option InterviewSchedule) :
    Dict :=
  [("interview_id", .str (text schedule.id)), ("round_number", .num schedule.roundNumber),
   ("start_at", .ofString? (schedule.startAt.map text)),
   ("end_at", .ofString? (schedule.endAt.map text))] ++
  match previousRound with
  | none => []
  | some previous =>
    [("previous_round_id", .str (text previous.id)),
     ("previous_round_number", .num previous.roundNumber)]

def fillRound (db : Db) (cc : CampaignCandidate) (schedule : InterviewSchedule)
    (previousRound : Option InterviewSchedule) (actorId : String) (actorRoles : List String)
    (request : ScheduleInterviewRequest) (env : InterviewEnv) : Db × List CalendarCall :=
  let (schedule, calls) := applyScheduleRequest schedule request actorId actorRoles env
  let db := update db schedule
  let db := AuditService.log db (some actorId) actorRoles.head? .interviewScheduled
    .campaignCandidate cc.id (some cc.campaignId) (some (scheduledDetails schedule previousRound))
  (db, calls)

def schedule (db : Db) (campaignCandidateId : Uuid) (actorId : String)
    (actorRoles : List String) (request : ScheduleInterviewRequest) (env : InterviewEnv) :
    Except ServiceError (Db × List CalendarCall) := do
  let cc ← getCandidateAndAuthorize db campaignCandidateId actorId actorRoles
  match getLatestByCampaignCandidateId db campaignCandidateId with
  | none =>
    .error (.campaign ("No interview_schedules row exists for this candidate - the candidate " ++
      "must reach the INTERVIEW pipeline stage before an interview can be scheduled.") 409)
  | some latest =>
    if latest.status = .pending then
      .ok (fillRound db cc latest none actorId actorRoles request env)
    else
      let (db, schedule, wasCreated) :=
        createNextRound db campaignCandidateId (latest.roundNumber + 1) env.now
      if !wasCreated then
        .ok (db, [])
      else
        .ok (fillRound db cc schedule (some latest) actorId actorRoles request env)

-- The calendar side of a reschedule: `oldService` and `existingEventId` are what
-- is left of the round's event, nothing when it was cancelled.
def syncCalendar (schedule : InterviewSchedule) (oldService newService : Option CalendarProvider)
    (existingEventId : Option String) (env : InterviewEnv) :
    InterviewSchedule × List CalendarCall :=
  let existing := existingEventId.filter (· ≠ "")
  match newService, oldService, existing with
  | some new, some old, some eventId =>
    if new = old then
      (schedule, [.updateEvent new eventId])
    else
      let (schedule, calls) := createEvent new schedule env
      (schedule, .deleteEvent old eventId :: calls)
  | some new, _, _ => createEvent new schedule env
  | none, some old, some eventId =>
    ({ schedule with meetingLink := none, externalCalendarEventId := none },
      [.deleteEvent old eventId])
  | none, _, _ => (schedule, [])

def uncancelled (schedule : InterviewSchedule) : InterviewSchedule :=
  { schedule with meetingLink := none, externalCalendarEventId := none, cancelReason := none }

def rescheduled (round : InterviewSchedule) (request : RescheduleInterviewRequest)
    (env : InterviewEnv) : InterviewSchedule × List CalendarCall :=
  let wasCancelled := round.status = .cancelled
  let isRescheduleEvent := wasCancelled ∨ some (request.startAt env) ≠ round.startAt ∨
    some (request.endAt env) ≠ round.endAt
  let oldService := if wasCancelled then none else calendarServiceFor round.platform
  let existingEventId := if wasCancelled then none else round.externalCalendarEventId
  let schedule := if wasCancelled then uncancelled round else round
  let schedule := withRequest schedule request.toScheduleInterviewRequest env
  let schedule := if isRescheduleEvent then { schedule with status := .rescheduled } else schedule
  syncCalendar schedule oldService (calendarServiceFor request.platform) existingEventId env

def reschedule (db : Db) (interviewId : Uuid) (actorId : String) (actorRoles : List String)
    (request : RescheduleInterviewRequest) (env : InterviewEnv) :
    Except ServiceError (Db × List CalendarCall) := do
  let round ← getRound db interviewId
  let cc ← getCandidateAndAuthorize db round.campaignCandidateId actorId actorRoles
  if round.status = .completed then
    .error (.campaign "This interview is marked complete and can no longer be edited." 409)
  else if round.status ∉ [.scheduled, .rescheduled, .cancelled] then
    .error (.campaign (s!"Cannot reschedule an interview that is {round.status.value} - it must " ++
      "be SCHEDULED, RESCHEDULED, or CANCELLED first.") 409)
  else
    let (schedule, calls) := rescheduled round request env
    let db := update db schedule
    if round.status = .cancelled ∨ some (request.startAt env) ≠ round.startAt ∨
        some (request.endAt env) ≠ round.endAt then do
      let db ← addHistory db schedule.id .rescheduled round.startAt (some (request.startAt env))
        (some actorId) actorRoles.head? request.reason
      let db := AuditService.log db (some actorId) actorRoles.head? .interviewRescheduled
        .campaignCandidate cc.id (some cc.campaignId)
        (some [("interview_id", .str (text schedule.id)),
          ("old_start_at", .ofString? (round.startAt.map text)),
          ("new_start_at", .str (text (request.startAt env))),
          ("reason", .ofString? request.reason)])
      .ok (db, calls)
    else
      .ok (db, calls)

-- A cancelled round keeps the id of its event.
def cancelCalls (round : InterviewSchedule) : List CalendarCall :=
  match calendarServiceFor round.platform, round.externalCalendarEventId.filter (· ≠ "") with
  | some provider, some eventId => [.deleteEvent provider eventId]
  | _, _ => []

def cancel (db : Db) (interviewId : Uuid) (actorId : String) (actorRoles : List String)
    (reason : String) (env : InterviewEnv) : Except ServiceError (Db × List CalendarCall) := do
  let round ← getRound db interviewId
  let cc ← getCandidateAndAuthorize db round.campaignCandidateId actorId actorRoles
  if round.status = .cancelled then
    .error (.campaign "Interview is already cancelled." 409)
  else
    let db := update db (cancelled reason env.now round)
    let db ← addHistory db round.id .cancelled round.startAt none (some actorId) actorRoles.head?
      (some reason)
    let db := AuditService.log db (some actorId) actorRoles.head? .interviewCancelled
      .campaignCandidate cc.id (some cc.campaignId)
      (some [("interview_id", .str (text round.id)), ("cancel_reason", .str reason)])
    .ok (db, cancelCalls round)

def completed (round : InterviewSchedule) (now : Instant) : InterviewSchedule :=
  { round with status := .completed, updatedAt := now }

-- `schedule.end_at is None or schedule.end_at > now`
def notEnded (round : InterviewSchedule) (now : Instant) : Bool :=
  match round.endAt with
  | none => true
  | some endAt => now < endAt

def complete (db : Db) (interviewId : Uuid) (actorId : String) (actorRoles : List String)
    (env : InterviewEnv) : Except ServiceError (Db × List CalendarCall) := do
  let round ← getRound db interviewId
  let _ ← getCandidateAndAuthorize db round.campaignCandidateId actorId actorRoles
  if round.status ∈ [.completed, .cancelled] then
    .error (.campaign
      s!"Cannot mark an interview complete - it is already {round.status.value}." 400)
  else if notEnded round env.now then
    .error (.campaign "Cannot mark an interview complete before it has ended." 400)
  else
    .ok (update db (completed round env.now), [])

end InterviewScheduleService

end AiHiring
