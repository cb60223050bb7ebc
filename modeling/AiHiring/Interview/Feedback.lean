import AiHiring.Interview.Notifications

namespace AiHiring

open InterviewScheduleRepository InterviewScheduleService InterviewEmails

inductive InterviewFeedbackRecommendation where
  | advance
  | select
  | reject
  | hold
  deriving DecidableEq, Repr

structure SubmitFeedbackRequest where
  recommendation : InterviewFeedbackRecommendation
  notes : Option String

structure InterviewFeedback where
  (interviewScheduleId interviewerId : Uuid)
  recommendation : InterviewFeedbackRecommendation
  notes : Option String
  deriving DecidableEq

namespace InterviewFeedback

-- What UNIQUE(interview_schedule_id, interviewer_id) keeps apart.
def key (f : InterviewFeedback) : Uuid × Uuid := (f.interviewScheduleId, f.interviewerId)

end InterviewFeedback

variable (feedback : List InterviewFeedback)

namespace InterviewFeedbackRepository

def getByInterviewScheduleId (interviewScheduleId : Uuid) :
    List InterviewFeedback :=
  feedback.filter fun f => f.interviewScheduleId = interviewScheduleId

-- The INSERT; `none` where the pair has a row already.
def create (row : InterviewFeedback) :
    Option (List InterviewFeedback) :=
  if feedback.any (fun f => f.key = row.key) then none else some (feedback ++ [row])

end InterviewFeedbackRepository

open InterviewFeedbackRepository

def alreadyGiven (interviewScheduleId interviewerId : Uuid) : Bool :=
  (getByInterviewScheduleId feedback interviewScheduleId).any fun f =>
    f.interviewerId = interviewerId

-- `complete` asks those who have given no feedback.
def NotifiedCall.given : NotifiedCall → NotifiedCall
  | complete interviewId actorId actorRoles _ env =>
    complete interviewId actorId actorRoles (alreadyGiven feedback interviewId) env
  | call => call

def NotifiedCall.now : NotifiedCall → Instant
  | schedule _ _ _ _ _ env | reschedule _ _ _ _ _ env | cancel _ _ _ _ env
  | complete _ _ _ _ env => env.now

-- The tables, with the instants at which the notifications were created, in their
-- order, and the clock of the last call.
structure FeedbackWorld where
  interviews : InterviewWorld
  createdAt : List Instant
  feedback : List InterviewFeedback
  clock : Instant

-- A call of `submit_feedback` brings what its token was signed for.
inductive FeedbackAction where
  | move (call : StageWrite × Instant)
  | interview (call : NotifiedCall)
  | requestFeedback (interviewId : Uuid) (actorId : String) (actorRoles : List String)
      (now : Instant)
  | sweep (now : Instant)
  | submitFeedback (interviewScheduleId interviewerId : Uuid) (request : SubmitFeedbackRequest)
      (now : Instant)

def FeedbackAction.now : FeedbackAction → Instant
  | move call => call.2
  | interview call => call.now
  | requestFeedback _ _ _ now => now
  | sweep now => now
  | submitFeedback _ _ _ now => now

namespace FeedbackWorld

variable (e : NotificationEnv) (w : FeedbackWorld)

def rounds : List InterviewSchedule := w.interviews.db.interviewSchedules.rows

def box : List EmailNotification := w.interviews.notifications

-- `queue_pending_feedback_requests_for_round`
def queuePendingFeedbackRequestsForRound (box : List EmailNotification)
    (schedule : InterviewSchedule) (interviewers : List InterviewInterviewer) :
    List EmailNotification :=
  (interviewers.filter fun i => !alreadyGiven w.feedback schedule.id i.id).foldl
    (fun box i => queueFeedbackRequested e box schedule i) box

-- `schedule.start_at is None or schedule.start_at > now`
def notStarted (round : InterviewSchedule) (now : Instant) : Bool :=
  match round.startAt with
  | none => true
  | some startAt => now < startAt

def requestFeedback (interviewId : Uuid) (actorId : String) (actorRoles : List String)
    (now : Instant) : Except ServiceError (List EmailNotification) := do
  let round ← getRound w.interviews.db interviewId
  let _ ← getCandidateAndAuthorize w.interviews.db round.campaignCandidateId actorId actorRoles
  if round.status ∉ [.scheduled, .rescheduled] then
    .error (.campaign
      s!"Cannot request feedback for an interview with status {round.status.value}." 400)
  else if notStarted round now then
    .error (.campaign "Cannot request feedback before the interview has started." 400)
  else
    .ok (queuePendingFeedbackRequestsForRound e w w.box round
      (getActiveInterviewers w.interviews.interviewers round.id))

def endedBefore (before : Instant) (round : InterviewSchedule) : Bool :=
  match round.endAt with
  | none => false
  | some endAt => endAt < before

def getEndedActiveRounds (before : Instant) : List InterviewSchedule :=
  w.rounds.filter fun round => round.status ∈ [.scheduled, .rescheduled] ∧ endedBefore before round

def sweepRound (box : List EmailNotification) (schedule : InterviewSchedule) :
    List EmailNotification :=
  let interviewers := getActiveInterviewers w.interviews.interviewers schedule.id
  if interviewers = [] then box
  else
    match CampaignCandidateRepository.getById w.interviews.db schedule.campaignCandidateId with
    | none => box
    | some _ => queuePendingFeedbackRequestsForRound e w box schedule interviewers

-- `InterviewFeedbackRequestSweepService.run`
def sweep (now : Instant) : List EmailNotification :=
  (w.getEndedActiveRounds now).foldl (sweepRound e w) w.box

def invalidLink : ServiceError := .campaign "This feedback link is invalid or has expired." 404

def resolveToken (interviewScheduleId interviewerId : Uuid) :
    Except ServiceError (InterviewSchedule × InterviewInterviewer) :=
  match getById w.interviews.db interviewScheduleId,
      w.interviews.interviewers.find? interviewerId with
  | some schedule, some interviewer =>
    if interviewer.interviewId ≠ schedule.id then .error invalidLink
    else .ok (schedule, interviewer)
  | _, _ => .error invalidLink

-- The audit entry names the candidate of the round.
def submitFeedback (interviewScheduleId interviewerId : Uuid) (request : SubmitFeedbackRequest)
    (now : Instant) : Except ServiceError (List InterviewFeedback) := do
  let (schedule, interviewer) ← w.resolveToken interviewScheduleId interviewerId
  if notEnded schedule now then
    .error (.campaign "Feedback can't be submitted until after the interview has ended." 400)
  else
    match create w.feedback
        ⟨schedule.id, interviewer.id, request.recommendation, request.notes⟩ with
    | none => .error (.campaign "Feedback has already been submitted for this interview." 409)
    | some feedback =>
      match CampaignCandidateRepository.getById w.interviews.db schedule.campaignCandidateId with
      | none => .error (.notFound "campaign_candidate")
      | some _ => .ok feedback

-- New notifications have been created at the time of the call.
def posted (interviews : InterviewWorld) (now : Instant) : FeedbackWorld :=
  { w with
    interviews := interviews
    createdAt := w.createdAt ++ List.replicate (interviews.notifications.length - w.box.length) now
    clock := now }

def withBox (box : List EmailNotification) : InterviewWorld :=
  { w.interviews with notifications := box }

def Step (table : TransitionTable) (a : FeedbackAction) (w' : FeedbackWorld) : Prop :=
  w.clock ≤ a.now ∧
  match a with
  | .move call => ∃ db, StageWrite.Step table w.interviews.db call db ∧
      w' = w.posted { w.interviews with db := db } call.2
  | .interview call => ∃ interviews,
      InterviewWorld.Step e w.interviews (call.given w.feedback) interviews ∧
      w' = w.posted interviews call.now
  | .requestFeedback interviewId actorId actorRoles now => ∃ box,
      w.requestFeedback e interviewId actorId actorRoles now = .ok box ∧
      w' = w.posted (w.withBox box) now
  | .sweep now => w' = w.posted (w.withBox (w.sweep e now)) now
  | .submitFeedback interviewScheduleId interviewerId request now => ∃ feedback,
      w.submitFeedback interviewScheduleId interviewerId request now = .ok feedback ∧
      w' = { w.posted w.interviews now with feedback := feedback }

def perform (table : TransitionTable) : FeedbackAction → Option FeedbackWorld
  | .move call => (StageWrite.next? table w.interviews.db call).map fun db =>
    w.posted { w.interviews with db := db } call.2
  | .interview call => (InterviewWorld.next? e w.interviews (call.given w.feedback)).map
      fun interviews => w.posted interviews call.now
  | .requestFeedback interviewId actorId actorRoles now =>
    (w.requestFeedback e interviewId actorId actorRoles now).toOption.map
      fun box => w.posted (w.withBox box) now
  | .sweep now => some (w.posted (w.withBox (w.sweep e now)) now)
  | .submitFeedback interviewScheduleId interviewerId request now =>
    (w.submitFeedback interviewScheduleId interviewerId request now).toOption.map
      fun feedback => { w.posted w.interviews now with feedback := feedback }

def next? (table : TransitionTable) (a : FeedbackAction) : Option FeedbackWorld :=
  if w.clock ≤ a.now then w.perform e table a else none

theorem next?_step {table : TransitionTable} {a : FeedbackAction} {w' : FeedbackWorld}
    (h : w.next? e table a = some w') : w.Step e table a w' := by
  have hok {α : Type} {x : Except ServiceError α} {y : α} (h : x.toOption = some y) :
      x = .ok y := by
    cases x with
    | error _ => simp [Except.toOption] at h
    | ok z => exact congrArg Except.ok (Option.some.inj h)
  unfold next? at h
  split at h
  · next hclock =>
      refine ⟨hclock, ?_⟩
      cases a with
      | move call =>
        obtain ⟨db, hdb, rfl⟩ := Option.map_eq_some_iff.mp h
        exact ⟨db, StageWrite.next?_step call hdb, rfl⟩
      | interview call =>
        obtain ⟨interviews, hinterviews, rfl⟩ := Option.map_eq_some_iff.mp h
        exact ⟨interviews, InterviewWorld.next?_step e w.interviews hinterviews, rfl⟩
      | requestFeedback interviewId actorId actorRoles now =>
        obtain ⟨box, hbox, rfl⟩ := Option.map_eq_some_iff.mp h
        exact ⟨box, hok hbox, rfl⟩
      | sweep now => exact (Option.some.inj h).symm
      | submitFeedback interviewScheduleId interviewerId request now =>
        obtain ⟨feedback, hfeedback, rfl⟩ := Option.map_eq_some_iff.mp h
        exact ⟨feedback, hok hfeedback, rfl⟩
  · simp at h

end FeedbackWorld

end AiHiring
