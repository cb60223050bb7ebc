import AiHiring.Interview.Effects
import AiHiring.Library.Feed

namespace AiHiring

open Library InterviewScheduleRepository

structure InterviewInterviewer where
  (id interviewId : Uuid)
  (name email : String)
  timezone : Option String
  isActive : Bool
  deriving DecidableEq

abbrev Interviewers := Table InterviewInterviewer InterviewInterviewer.id

structure InterviewerInput where
  (name email : String)
  timezone : Option String

-- The trigger events of the interview notifications.
inductive EmailTriggerEvent where
  | interviewScheduled
  | interviewRescheduled
  | interviewCancelled
  | interviewFeedbackRequested
  | interviewInterviewerInvitation
  | interviewInterviewerRescheduled
  | interviewInterviewerRemoved
  | interviewInterviewerCancelled
  deriving DecidableEq, Repr

inductive EmailNotificationStatus where
  | queued
  | sent
  | failed
  deriving DecidableEq, Repr

abbrev TemplateContext := List (String × String)

structure EmailNotification where
  (campaignCandidateId interviewScheduleId : Uuid)
  interviewInterviewerId : Option Uuid
  (recipientEmail recipientName : Option String)
  triggerEvent : EmailTriggerEvent
  templateId : Uuid
  status : EmailNotificationStatus
  templateContext : Option TemplateContext
  deriving DecidableEq

-- What the services take from elsewhere: how an instant reads in a zone, the active
-- templates, lower case, and the links for feedback.
structure NotificationEnv where
  localDate : Instant → String → String
  localTime : Instant → String → String
  activeTemplate : EmailTriggerEvent → Option Uuid
  lower : String → String
  feedbackLink : Uuid → Uuid → String

variable (interviewId : Uuid) (input : InterviewerInput) (id : Uuid) (row : InterviewInterviewer)
  (lower : String → String)

namespace InterviewScheduleRepository

def getActiveInterviewers (t : Interviewers) (interviewId : Uuid) : List InterviewInterviewer :=
  t.rows.filter fun row => row.interviewId = interviewId ∧ row.isActive

-- `existing_by_email`: of two rows with one address the later counts.
def existingByEmail (existing : List InterviewInterviewer)
    (email : String) : Option InterviewInterviewer :=
  existing.reverse.find? fun row => lower row.email = lower email

def renamed : InterviewInterviewer :=
  { row with name := input.name, timezone := input.timezone }

def renameRow :
    InterviewInterviewer :=
  if row.id = id then renamed input row else row

theorem renameRow_id :
    (renameRow input id row).id = row.id := by
  unfold renameRow renamed
  split_ifs <;> rfl

def newInterviewer :
    InterviewInterviewer where
  id := id
  interviewId := interviewId
  name := input.name
  email := input.email
  timezone := input.timezone
  isActive := true

theorem newInterviewer_id :
    (newInterviewer interviewId input id).id = id := rfl

-- The loop over the incoming interviewers, with the ids of the rows they end up in.
def placeInterviewers (lower : String → String) (interviewId : Uuid)
    (existing : List InterviewInterviewer) (t : Interviewers) :
    List InterviewerInput → Interviewers × List Uuid
  | [] => (t, [])
  | input :: rest =>
    match existingByEmail lower existing input.email with
    | some row =>
      let placed := placeInterviewers lower interviewId existing
        (t.modify (renameRow input row.id) (renameRow_id input row.id)) rest
      (placed.1, row.id :: placed.2)
    | none =>
      let placed := placeInterviewers lower interviewId existing
        (t.insert (newInterviewer interviewId input) (newInterviewer_id interviewId input))
        rest
      (placed.1, t.next :: placed.2)

def dropped (existing : List InterviewInterviewer) (inputs : List InterviewerInput) : List Uuid :=
  (existing.filter fun row => lower row.email ∉ inputs.map fun i => lower i.email).map
    InterviewInterviewer.id

def deactivate (ids : List Uuid) (row : InterviewInterviewer) : InterviewInterviewer :=
  if row.id ∈ ids then { row with isActive := false } else row

theorem deactivate_id (ids : List Uuid) (row : InterviewInterviewer) :
    (deactivate ids row).id = row.id := by
  unfold deactivate
  split_ifs <;> rfl

def replaceInterviewers (t : Interviewers) (interviewId : Uuid) (inputs : List InterviewerInput) :
    Interviewers × List InterviewInterviewer × List InterviewInterviewer :=
  let existing := getActiveInterviewers t interviewId
  let placed := placeInterviewers lower interviewId existing t inputs
  let ids := dropped lower existing inputs
  let after := placed.1.modify (deactivate ids) (deactivate_id ids)
  (after, placed.2.filterMap after.find?, ids.filterMap after.find?)

end InterviewScheduleRepository

namespace EmailNotificationRepository

def getByInterviewScheduleIdAndTriggerEvent (box : List EmailNotification)
    (interviewScheduleId : Uuid) (triggerEvent : EmailTriggerEvent) : List EmailNotification :=
  box.filter fun n => n.interviewScheduleId = interviewScheduleId ∧ n.triggerEvent = triggerEvent

def getByInterviewScheduleIdAndInterviewerIdAndTriggerEvent (box : List EmailNotification)
    (interviewScheduleId interviewerId : Uuid) (triggerEvent : EmailTriggerEvent) :
    List EmailNotification :=
  box.filter fun n => n.interviewScheduleId = interviewScheduleId ∧
    n.interviewInterviewerId = some interviewerId ∧ n.triggerEvent = triggerEvent

end EmailNotificationRepository

namespace InterviewEmails

open EmailNotificationRepository

variable (env : NotificationEnv)

def alreadyNotified (notifications : List EmailNotification) : Bool :=
  notifications.any fun n => n.status = .queued ∨ n.status = .sent

def modeTitle : Option InterviewPlatform → String
  | some .teams => "Teams"
  | some .meet => "Meet"
  | some .onsite => "Onsite"
  | some .phone => "Phone"
  | none => "Not specified"

def orElse (first : Option String) (second : String) : String :=
  (first.filter (· ≠ "")).getD second

def meetingInfoLine (schedule : InterviewSchedule) : String :=
  match schedule.platform with
  | some .teams | some .meet =>
    match schedule.meetingLink.filter (· ≠ "") with
    | some link => "Join here: " ++ link
    | none => "Your interviewer will share the meeting link separately."
  | some .onsite =>
    match schedule.location.filter (· ≠ "") with
    | some location => "Location: " ++ location
    | none => "Location details will be shared separately."
  | some .phone => "You will be called at the scheduled time."
  | none => ""

def candidateZone (schedule : InterviewSchedule) : String :=
  orElse schedule.candidateTimezone schedule.timezone

def interviewEmailContext (schedule : InterviewSchedule)
    (interviewers : List InterviewInterviewer) : Option TemplateContext :=
  schedule.startAt.map fun startAt =>
    [("interview_date", env.localDate startAt (candidateZone schedule)),
     ("interview_time", env.localTime startAt (candidateZone schedule)),
     ("interview_mode", modeTitle schedule.platform),
     ("interviewer_name", if interviewers = [] then "the hiring team"
       else ", ".intercalate (interviewers.map InterviewInterviewer.name)),
     ("meeting_info", meetingInfoLine schedule)]

-- `_queue_and_dispatch` for an interview round.
def queueAndDispatch (box : List EmailNotification) (schedule : InterviewSchedule)
    (triggerEvent : EmailTriggerEvent) (interviewers : List InterviewInterviewer) :
    List EmailNotification :=
  if alreadyNotified (getByInterviewScheduleIdAndTriggerEvent box schedule.id triggerEvent) then
    box
  else
    match env.activeTemplate triggerEvent with
    | none => box
    | some templateId =>
      box ++ [{ campaignCandidateId := schedule.campaignCandidateId
                interviewScheduleId := schedule.id
                interviewInterviewerId := none
                recipientEmail := none
                recipientName := none
                triggerEvent := triggerEvent
                templateId := templateId
                status := .queued
                templateContext := interviewEmailContext env schedule interviewers }]

def interviewerZone (schedule : InterviewSchedule) (interviewer : InterviewInterviewer) : String :=
  orElse interviewer.timezone schedule.timezone

def roundContext (schedule : InterviewSchedule) (interviewer : InterviewInterviewer) :
    TemplateContext :=
  let zone := interviewerZone schedule interviewer
  [("interview_date", (schedule.startAt.map fun startAt => env.localDate startAt zone).getD "TBD"),
   ("interview_time", (schedule.startAt.map fun startAt => env.localTime startAt zone).getD "TBD"),
   ("interview_mode", modeTitle schedule.platform)]

def block (label : String) (text : Option String) : String :=
  match text.filter (· ≠ "") with
  | some text => "\n\n" ++ label ++ ": " ++ text
  | none => ""

-- `_queue_interviewer_email`; the flag says that one was queued.
def queueInterviewerEmail (box : List EmailNotification) (schedule : InterviewSchedule)
    (interviewer : InterviewInterviewer) (triggerEvent : EmailTriggerEvent)
    (extraContext : TemplateContext) : List EmailNotification × Bool :=
  if alreadyNotified (getByInterviewScheduleIdAndInterviewerIdAndTriggerEvent box schedule.id
      interviewer.id triggerEvent) then
    (box, false)
  else
    match env.activeTemplate triggerEvent with
    | none => (box, false)
    | some templateId =>
      (box ++ [{ campaignCandidateId := schedule.campaignCandidateId
                 interviewScheduleId := schedule.id
                 interviewInterviewerId := some interviewer.id
                 recipientEmail := some interviewer.email
                 recipientName := some interviewer.name
                 triggerEvent := triggerEvent
                 templateId := templateId
                 status := .queued
                 templateContext := some (("recipient_name", interviewer.name) ::
                   extraContext) }], true)

def queueInvitation (box : List EmailNotification) (schedule : InterviewSchedule)
    (interviewer : InterviewInterviewer) : List EmailNotification × Bool :=
  queueInterviewerEmail env box schedule interviewer .interviewInterviewerInvitation
    (roundContext env schedule interviewer ++ [("notes_block", block "Notes" schedule.notes)])

def queueRescheduled (box : List EmailNotification) (schedule : InterviewSchedule)
    (interviewer : InterviewInterviewer) : List EmailNotification :=
  (queueInterviewerEmail env box schedule interviewer .interviewInterviewerRescheduled
    (roundContext env schedule interviewer)).1

def queueRemoved (box : List EmailNotification) (schedule : InterviewSchedule)
    (interviewer : InterviewInterviewer) : List EmailNotification :=
  (queueInterviewerEmail env box schedule interviewer .interviewInterviewerRemoved []).1

def queueCancelled (reason : String) (box : List EmailNotification) (schedule : InterviewSchedule)
    (interviewer : InterviewInterviewer) : List EmailNotification :=
  (queueInterviewerEmail env box schedule interviewer .interviewInterviewerCancelled
    (roundContext env schedule interviewer ++ [("reason_block", block "Reason" (some reason))])).1

def queueFeedbackRequested (box : List EmailNotification) (schedule : InterviewSchedule)
    (interviewer : InterviewInterviewer) : List EmailNotification :=
  (queueInterviewerEmail env box schedule interviewer .interviewFeedbackRequested
    [("feedback_link", env.feedbackLink schedule.id interviewer.id)]).1

def queueActive (isRescheduleEvent : Bool) (schedule : InterviewSchedule)
    (box : List EmailNotification) (interviewer : InterviewInterviewer) :
    List EmailNotification :=
  let invited := queueInvitation env box schedule interviewer
  if isRescheduleEvent && !invited.2 then queueRescheduled env invited.1 schedule interviewer
  else invited.1

-- `_queue_interviewer_lifecycle_emails`
def queueInterviewerLifecycleEmails (box : List EmailNotification) (schedule : InterviewSchedule)
    (active removed : List InterviewInterviewer) (isRescheduleEvent : Bool) :
    List EmailNotification :=
  removed.foldl (fun box interviewer => queueRemoved env box schedule interviewer)
    (active.foldl (queueActive env isRescheduleEvent schedule) box)

end InterviewEmails

-- The tables that a call of the service writes, with the notifications in the order
-- of their creation.
structure InterviewWorld where
  db : Db
  interviewers : Interviewers
  notifications : List EmailNotification

-- A call with what the requests say about the interviewers. Feedback is given
-- elsewhere.
inductive NotifiedCall where
  | schedule (cc : Uuid) (actorId : String) (actorRoles : List String)
      (request : ScheduleInterviewRequest) (interviewers : List InterviewerInput)
      (env : InterviewEnv)
  | reschedule (interviewId : Uuid) (actorId : String) (actorRoles : List String)
      (request : RescheduleInterviewRequest) (interviewers : List InterviewerInput)
      (env : InterviewEnv)
  | cancel (interviewId : Uuid) (actorId : String) (actorRoles : List String) (reason : String)
      (env : InterviewEnv)
  | complete (interviewId : Uuid) (actorId : String) (actorRoles : List String)
      (alreadyGiven : Uuid → Bool) (env : InterviewEnv)

namespace NotifiedCall

def call : NotifiedCall → InterviewCall
  | schedule cc actorId actorRoles request _ env => .schedule cc actorId actorRoles request env
  | reschedule interviewId actorId actorRoles request _ env =>
    .reschedule interviewId actorId actorRoles request env
  | cancel interviewId actorId actorRoles reason env =>
    .cancel interviewId actorId actorRoles reason env
  | complete interviewId actorId actorRoles _ env => .complete interviewId actorId actorRoles env

end NotifiedCall

namespace InterviewWorld

open InterviewEmails

variable (e : NotificationEnv)

-- The round that `schedule` fills in, unless another call has taken it.
def scheduledRound (db : Db) (cc : Uuid) (now : Instant) : Option Uuid :=
  match getLatestByCampaignCandidateId db cc with
  | none => none
  | some latest =>
    if latest.status = .pending then some latest.id
    else
      let created := createNextRound db cc (latest.roundNumber + 1) now
      if created.2.2 then some created.2.1.id else none

def isRescheduleEvent (round : InterviewSchedule) (request : RescheduleInterviewRequest)
    (env : InterviewEnv) : Bool :=
  round.status = .cancelled ∨ some (request.startAt env) ≠ round.startAt ∨
    some (request.endAt env) ≠ round.endAt

variable (w : InterviewWorld) (db : Db)

def afterSchedule (schedule : InterviewSchedule) (inputs : List InterviewerInput) :
    InterviewWorld :=
  let replaced := replaceInterviewers e.lower w.interviewers schedule.id inputs
  let box := queueAndDispatch e w.notifications schedule .interviewScheduled replaced.2.1
  ⟨db, replaced.1, queueInterviewerLifecycleEmails e box schedule replaced.2.1 replaced.2.2 false⟩

def afterReschedule (schedule : InterviewSchedule) (event : Bool)
    (inputs : List InterviewerInput) : InterviewWorld :=
  let replaced := replaceInterviewers e.lower w.interviewers schedule.id inputs
  let box := if event then
      queueAndDispatch e w.notifications schedule .interviewRescheduled replaced.2.1
    else w.notifications
  ⟨db, replaced.1, queueInterviewerLifecycleEmails e box schedule replaced.2.1 replaced.2.2 event⟩

def afterCancel (schedule : InterviewSchedule) (reason : String) : InterviewWorld :=
  let active := getActiveInterviewers w.interviewers schedule.id
  let box := queueAndDispatch e w.notifications schedule .interviewCancelled active
  ⟨db, w.interviewers,
    active.foldl (fun box interviewer => queueCancelled e reason box schedule interviewer) box⟩

def afterComplete (schedule : InterviewSchedule) (alreadyGiven : Uuid → Bool) : InterviewWorld :=
  let pending := (getActiveInterviewers w.interviewers schedule.id).filter fun i =>
    !alreadyGiven i.id
  ⟨db, w.interviewers,
    pending.foldl (fun box interviewer => queueFeedbackRequested e box schedule interviewer)
      w.notifications⟩

-- What follows the commit of a call that has gone through.
def notified : NotifiedCall → InterviewWorld
  | .schedule cc _ _ _ inputs env =>
    match (scheduledRound w.db cc env.now).bind (getById db) with
    | none => { w with db := db }
    | some schedule => afterSchedule e w db schedule inputs
  | .reschedule interviewId _ _ request inputs env =>
    match getById w.db interviewId, getById db interviewId with
    | some round, some schedule =>
      afterReschedule e w db schedule (isRescheduleEvent round request env) inputs
    | _, _ => { w with db := db }
  | .cancel interviewId _ _ reason _ =>
    match getById db interviewId with
    | none => { w with db := db }
    | some schedule => afterCancel e w db schedule reason
  | .complete interviewId _ _ alreadyGiven _ =>
    match getById db interviewId with
    | none => { w with db := db }
    | some schedule => afterComplete e w db schedule alreadyGiven

def Step (c : NotifiedCall) (w' : InterviewWorld) : Prop :=
  ∃ db calls, c.call.run w.db = .ok (db, calls) ∧ w' = notified e w db c

def next? (c : NotifiedCall) : Option InterviewWorld :=
  match c.call.run w.db with
  | .ok result => some (notified e w result.1 c)
  | .error _ => none

theorem next?_step {c : NotifiedCall} {w' : InterviewWorld} (h : next? e w c = some w') :
    Step e w c w' := by
  unfold next? at h
  split at h
  · next result hrun => exact ⟨result.1, result.2, hrun, (Option.some.inj h).symm⟩
  · simp at h

end InterviewWorld

end AiHiring
