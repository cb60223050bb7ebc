import AiHiring.Interview.Interviewers
import AiHiring.Interview.Lifecycle
import AiHiring.Interview.NotifiedCalls
import AiHiring.Pipeline.Intake

namespace AiHiring

open Library InterviewScheduleRepository InterviewScheduleService InterviewEmails InterviewWorld

namespace Informed

-- Nobody has been told anything of a round that is still blank, and every active
-- interviewer has been invited.
structure Inv (w : InterviewWorld) : Prop where
  live : ∀ n ∈ w.notifications, n.Live
  rounds : ∀ n ∈ w.notifications, ∃ round ∈ w.db.interviewSchedules.rows,
    round.id = n.interviewScheduleId ∧ round.status ≠ .pending
  ids : ∀ n ∈ w.notifications, ∀ id, n.interviewInterviewerId = some id → ¬w.interviewers.next ≤ id
  owners : ∀ i ∈ w.interviewers.rows, ∃ round ∈ w.db.interviewSchedules.rows,
    round.id = i.interviewId ∧ round.status ≠ .pending
  invited : ∀ i ∈ w.interviewers.rows, i.isActive = true →
    has w.notifications (.interviewer i.interviewId i.id) .interviewInterviewerInvitation = true

def CandidateTold (e : NotificationEnv) (box : List EmailNotification)
    (round : InterviewSchedule) (startAt : Instant) : Prop :=
  ∃ n, last box (.candidate round.id) = some n ∧
    if round.status = .cancelled then n.triggerEvent = .interviewCancelled
    else Carries e n startAt (candidateZone round)

def InterviewerTold (e : NotificationEnv) (box : List EmailNotification)
    (round : InterviewSchedule) (i : InterviewInterviewer) (startAt : Instant) : Prop :=
  ∃ n, last box (.interviewer round.id i.id) = some n ∧
    (n.triggerEvent = .interviewInterviewerCancelled ∨
      Carries e n startAt (interviewerZone round i))

-- The latest notifications about a round that has been given a time.
def RoundTold (e : NotificationEnv) (w : InterviewWorld) (round : InterviewSchedule) : Prop :=
  ∀ startAt, round.startAt = some startAt → CandidateTold e w.notifications round startAt ∧
    ∀ i ∈ getActiveInterviewers w.interviewers round.id,
      InterviewerTold e w.notifications round i startAt

def Told (e : NotificationEnv) (w : InterviewWorld) : Prop :=
  ∀ round ∈ w.db.interviewSchedules.rows, RoundTold e w round

structure Effect (w w' : InterviewWorld) (after : InterviewSchedule) : Prop where
  written : Written w.db w'.db after
  next : w.interviewers.next ≤ w'.interviewers.next
  others : ∀ i ∈ w'.interviewers.rows, i.interviewId = after.id ∨ i ∈ w.interviewers.rows
  invited : ∀ i ∈ getActiveInterviewers w'.interviewers after.id,
    has w'.notifications (.interviewer after.id i.id) .interviewInterviewerInvitation = true
  posted : Posted after.id w'.interviewers.next w.notifications w'.notifications

section Effects

variable {e : NotificationEnv} {w w' : InterviewWorld} {after : InterviewSchedule}

theorem Effect.inv (h : Effect w w' after) (hinv : Inv w) : Inv w' := by
  have hround (interviewId : Uuid) (hold : ∃ round ∈ w.db.interviewSchedules.rows,
      round.id = interviewId ∧ round.status ≠ .pending) :
      ∃ round ∈ w'.db.interviewSchedules.rows, round.id = interviewId ∧
        round.status ≠ .pending := by
    obtain ⟨round, hmem, rfl, hstatus⟩ := hold
    by_cases hid : round.id = after.id
    · exact ⟨after, h.written.here, hid.symm, h.written.notPending⟩
    · exact ⟨round, (h.written.others round hid).mpr hmem, rfl, hstatus⟩
  have hhere : ∃ round ∈ w'.db.interviewSchedules.rows, round.id = after.id ∧
      round.status ≠ .pending := ⟨after, h.written.here, rfl, h.written.notPending⟩
  obtain ⟨news, hbox, hnews⟩ := h.posted
  refine ⟨h.posted.live hinv.live, fun n hn => ?_, fun n hn id hid => ?_, fun i hi => ?_,
    fun i hi hactive => ?_⟩
  · rw [hbox] at hn
    obtain hn | hn := List.mem_append.mp hn
    · exact hround _ (hinv.rounds n hn)
    · rw [(hnews n hn).2.1]
      exact hhere
  · rw [hbox] at hn
    obtain hn | hn := List.mem_append.mp hn
    · have hold := hinv.ids n hn id hid
      have hnext := h.next
      omega
    · exact (hnews n hn).2.2 id hid
  · obtain hid | hold := h.others i hi
    · rw [hid]
      exact hhere
    · exact hround _ (hinv.owners i hold)
  · by_cases hid : i.interviewId = after.id
    · rw [hid]
      exact h.invited i (mem_getActiveInterviewers.mpr ⟨hi, hid, hactive⟩)
    · obtain hsame | hold := h.others i hi
      · exact absurd hsame hid
      · exact hasNotice_mono h.posted.subset (hinv.invited i hold hactive)

theorem Effect.told_iff (h : Effect w w' after) (htold : Told e w) :
    Told e w' ↔ RoundTold e w' after := by
  refine ⟨fun hall => hall after h.written.here, fun hafter round hmem => ?_⟩
  by_cases hid : round.id = after.id
  · obtain rfl := w'.db.interviewSchedules.eq_of_key_eq hmem h.written.here hid
    exact hafter
  · intro startAt hstart
    obtain ⟨⟨n, hlast, hn⟩, hinterviewers⟩ :=
      htold round ((h.written.others round hid).mp hmem) startAt hstart
    have hcandidate := h.posted.last_eq (k := .candidate round.id) hid
    refine ⟨⟨n, hcandidate.trans hlast, hn⟩, fun i hi => ?_⟩
    obtain ⟨hrow, hround, hactive⟩ := mem_getActiveInterviewers.mp hi
    have hold : i ∈ w.interviewers.rows :=
      (h.others i hrow).resolve_left fun hsame => hid (hround.symm.trans hsame)
    obtain ⟨n, hlast, hn⟩ :=
      hinterviewers i (mem_getActiveInterviewers.mpr ⟨hold, hround, hactive⟩)
    have hinterviewer := h.posted.last_eq (k := .interviewer round.id i.id) hid
    exact ⟨n, hinterviewer.trans hlast, hn⟩

end Effects

-- Filling in a round and rescheduling it: the interviewers are replaced and
-- notified, after the candidate.
section Replacing

variable {e : NotificationEnv} (htemplates : ∀ event, (e.activeTemplate event).isSome)
  {w : InterviewWorld} (hinv : Inv w) (s : InterviewSchedule) (inputs : List InterviewerInput)
  {box : List EmailNotification}
  (hbox : Posted s.id (replaceInterviewers e.lower w.interviewers s.id inputs).1.next
    w.notifications box)

def replacedWorld (e : NotificationEnv) (w : InterviewWorld) (db : Db) (s : InterviewSchedule)
    (inputs : List InterviewerInput) (box : List EmailNotification) (event : Bool) :
    InterviewWorld :=
  let replaced := replaceInterviewers e.lower w.interviewers s.id inputs
  ⟨db, replaced.1, queueInterviewerLifecycleEmails e box s replaced.2.1 replaced.2.2 event⟩

include htemplates hinv hbox

theorem lifecycle_replaced (db : Db) (event : Bool) :
    Lifecycle e (replaceInterviewers e.lower w.interviewers s.id inputs).1.next s
      (replaceInterviewers e.lower w.interviewers s.id inputs).2.1
      (replaceInterviewers e.lower w.interviewers s.id inputs).2.2 event box
      (replacedWorld e w db s inputs box event).notifications := by
  have hreplaced : Replaced w.interviewers s.id
    (replaceInterviewers e.lower w.interviewers s.id inputs) :=
    replaced_replaceInterviewers w.interviewers inputs
  have hbelow (i : InterviewInterviewer)
      (hi : i ∈ (replaceInterviewers e.lower w.interviewers s.id inputs).1.rows) :
      ¬(replaceInterviewers e.lower w.interviewers s.id inputs).1.next ≤ i.id := by
    have hlt := (replaceInterviewers e.lower w.interviewers s.id inputs).1.below i hi
    omega
  exact lifecycle htemplates (hbox.live hinv.live) (fun i hi => hbelow i (hreplaced.active i hi).1)
    (fun i hi => hbelow i (hreplaced.removed i hi).1) event

theorem replaced_effect {db : Db} (hwritten : Written w.db db s) (event : Bool) :
    Effect w (replacedWorld e w db s inputs box event) s := by
  have hreplaced : Replaced w.interviewers s.id
    (replaceInterviewers e.lower w.interviewers s.id inputs) :=
    replaced_replaceInterviewers w.interviewers inputs
  have hlife := lifecycle_replaced htemplates hinv s inputs hbox db event
  have hposted := hbox.trans hlife.posted
  refine ⟨hwritten, hreplaced.next, fun i hi => ?_, fun i hi => ?_, hposted⟩
  · by_cases hnew : w.interviewers.next ≤ i.id
    · exact .inl (hreplaced.new i hi hnew).1
    · obtain ⟨old, hold, -, hround, -, hsame⟩ := hreplaced.old i hi hnew
      by_cases hid : old.interviewId = s.id
      · exact .inl (hround ▸ hid)
      · exact .inr (hsame hid ▸ hold)
  · obtain ⟨hrow, hid, hactive⟩ := mem_getActiveInterviewers.mp hi
    by_cases hnew : w.interviewers.next ≤ i.id
    · exact hlife.invited i (hreplaced.new i hrow hnew).2
    · obtain ⟨old, hold, hsame, hround, hwas, -⟩ := hreplaced.old i hrow hnew
      have hinvited := hinv.invited old hold (hwas hactive)
      rw [hsame, hround, hid] at hinvited
      exact hasNotice_mono hposted.subset hinvited

theorem replaced_told (db : Db) (event : Bool)
    (hframe : ∀ id, last box (.interviewer s.id id) = last w.notifications (.interviewer s.id id) ∧
      has box (.interviewer s.id id) = has w.notifications (.interviewer s.id id))
    {startAt : Instant} (hstart : s.startAt = some startAt) {i : InterviewInterviewer}
    (hi : i ∈ getActiveInterviewers (replacedWorld e w db s inputs box event).interviewers s.id) :
    InterviewerTold e (replacedWorld e w db s inputs box event).notifications s i startAt ↔
      (¬w.interviewers.next ≤ i.id →
        (event = true ∧ i ∈ (replaceInterviewers e.lower w.interviewers s.id inputs).2.1 ∧
          has w.notifications (.interviewer s.id i.id) .interviewInterviewerRescheduled = false) ∨
        InterviewerTold e w.notifications s i startAt) := by
  have hreplaced : Replaced w.interviewers s.id
    (replaceInterviewers e.lower w.interviewers s.id inputs) :=
    replaced_replaceInterviewers w.interviewers inputs
  have hlife := lifecycle_replaced htemplates hinv s inputs hbox db event
  obtain ⟨hrow, hid, hactive⟩ := mem_getActiveInterviewers.mp hi
  obtain ⟨htold, hsame⟩ := hlife.told i
    (fun x hx hxi => Table.eq_of_key_eq _ (hreplaced.active x hx).1 hrow hxi)
    (fun x hx hxi => by
      obtain ⟨hmem, -, hinactive⟩ := hreplaced.removed x hx
      obtain rfl := Table.eq_of_key_eq _ hmem hrow hxi
      rw [hinactive] at hactive
      exact Bool.noConfusion hactive)
  obtain ⟨hlast, hhas⟩ := hframe i.id
  rw [hhas] at htold hsame
  rw [hlast] at hsame
  by_cases hnew : w.interviewers.next ≤ i.id
  · have hunheard : has w.notifications (.interviewer s.id i.id)
        .interviewInterviewerInvitation = false := by
      rw [Bool.eq_false_iff]
      intro hheard
      obtain ⟨n, hn, htopic, htrigger⟩ := hasNotice_iff.mp hheard
      obtain ⟨-, hinterviewer, -⟩ := topic_interviewer.mp ⟨htopic, htrigger⟩
      exact hinv.ids n hn i.id hinterviewer hnew
    obtain ⟨n, hn, hcarries⟩ := htold ⟨(hreplaced.new i hrow hnew).2, .inl hunheard⟩
    exact iff_of_true ⟨n, hn, .inr (hcarries startAt hstart)⟩ fun hnot => absurd hnew hnot
  · obtain ⟨old, hold, hoid, hround, hwas, -⟩ := hreplaced.old i hrow hnew
    have hinvited := hinv.invited old hold (hwas hactive)
    rw [hoid, hround, hid] at hinvited
    have hdue : Uninformed event (has w.notifications (.interviewer s.id i.id)) ↔
        event = true ∧ has w.notifications (.interviewer s.id i.id)
          .interviewInterviewerRescheduled = false := by
      simp [Uninformed, hinvited]
    rw [hdue] at htold hsame
    rw [forall_prop_of_true hnew]
    by_cases hmoved : i ∈ (replaceInterviewers e.lower w.interviewers s.id inputs).2.1 ∧
        event = true ∧ has w.notifications (.interviewer s.id i.id)
          .interviewInterviewerRescheduled = false
    · obtain ⟨n, hn, hcarries⟩ := htold hmoved
      exact iff_of_true ⟨n, hn, .inr (hcarries startAt hstart)⟩
        (.inl ⟨hmoved.2.1, hmoved.1, hmoved.2.2⟩)
    · have hnot : ¬(event = true ∧ i ∈ (replaceInterviewers e.lower w.interviewers s.id inputs).2.1 ∧
          has w.notifications (.interviewer s.id i.id) .interviewInterviewerRescheduled = false) :=
        fun h => hmoved ⟨h.2.1, h.1, h.2.2⟩
      rw [or_iff_right hnot, InterviewerTold, hsame hmoved]
      rfl

end Replacing

-- When rescheduling a round reaches everyone: the event is the first of its kind,
-- or what they last heard says the same. New interviewers are reached anyway.
def RescheduleReaches (e : NotificationEnv) (w : InterviewWorld) (round : InterviewSchedule)
    (request : RescheduleInterviewRequest) (inputs : List InterviewerInput) (env : InterviewEnv) :
    Prop :=
  let replaced := replaceInterviewers e.lower w.interviewers round.id inputs
  ((isRescheduleEvent round request env = true ∧
      has w.notifications (.candidate round.id) .interviewRescheduled = false) ∨
    ∃ n, last w.notifications (.candidate round.id) = some n ∧
      Carries e n (request.startAt env) (orElse request.candidateTimezone request.timezone)) ∧
  ∀ i ∈ getActiveInterviewers replaced.1 round.id, ¬w.interviewers.next ≤ i.id →
    (isRescheduleEvent round request env = true ∧ i ∈ replaced.2.1 ∧
      has w.notifications (.interviewer round.id i.id) .interviewInterviewerRescheduled = false) ∨
    ∃ n, last w.notifications (.interviewer round.id i.id) = some n ∧
      (n.triggerEvent = .interviewInterviewerCancelled ∨
        Carries e n (request.startAt env) (orElse i.timezone request.timezone))

-- When a call leaves nobody with old news.
def Reaches (e : NotificationEnv) (w : InterviewWorld) : NotifiedCall → Prop
  | .schedule .. => True
  | .reschedule interviewId _ _ request inputs env =>
    ∀ round, getById w.db interviewId = some round → RescheduleReaches e w round request inputs env
  | .cancel interviewId _ _ _ _ =>
    ∀ round, getById w.db interviewId = some round → round.startAt ≠ none →
      has w.notifications (.candidate interviewId) .interviewCancelled = false ∨
      ∃ n, last w.notifications (.candidate interviewId) = some n ∧
        n.triggerEvent = .interviewCancelled
  | .complete interviewId _ _ alreadyGiven _ =>
    ∀ round, getById w.db interviewId = some round → round.startAt ≠ none →
      ∀ i ∈ getActiveInterviewers w.interviewers interviewId, alreadyGiven i.id = true ∨
        has w.notifications (.interviewer interviewId i.id) .interviewFeedbackRequested = true

section Reaching

variable {e : NotificationEnv} (htemplates : ∀ event, (e.activeTemplate event).isSome)
  {w : InterviewWorld} (hinv : Inv w)
include htemplates hinv

theorem scheduled_effect {db : Db} {after : InterviewSchedule} (inputs : List InterviewerInput)
    (hwritten : Written w.db db after) :
    Effect w (afterSchedule e w db after inputs) after :=
  replaced_effect htemplates hinv after inputs
    (queueAndDispatch_frame htemplates hinv.live after _ rfl _).1 hwritten false

theorem scheduled_told {db : Db} {after : InterviewSchedule} (inputs : List InterviewerInput)
    (hstatus : after.status = .scheduled)
    (hblank : ∀ r ∈ w.db.interviewSchedules.rows, r.id = after.id → r.status = .pending) :
    RoundTold e (afterSchedule e w db after inputs) after := by
  have hnone (interviewId : Uuid) (hold : ∃ round ∈ w.db.interviewSchedules.rows,
      round.id = interviewId ∧ round.status ≠ .pending) : interviewId ≠ after.id := by
    rintro rfl
    obtain ⟨round, hmem, hid, hstatus⟩ := hold
    exact hstatus (hblank round hmem hid)
  intro startAt hstart
  have hframe := @queueAndDispatch_frame e
    (replaceInterviewers e.lower w.interviewers after.id inputs).1.next w.notifications htemplates
    hinv.live after .interviewScheduled rfl
    (replaceInterviewers e.lower w.interviewers after.id inputs).2.1
  have hlife := lifecycle_replaced htemplates hinv after inputs hframe.1 db false
  refine ⟨?_, fun i hi => ?_⟩
  · obtain ⟨hhas, -⟩ | ⟨-, n, -, htopic, -, -, -, hcontext, heq⟩ := queueAndDispatch_cases
      htemplates hinv.live after .interviewScheduled rfl
      (replaceInterviewers e.lower w.interviewers after.id inputs).2.1
    · obtain ⟨n, hn, htopic, -⟩ := hasNotice_iff.mp hhas
      have hround := interviewOf_topic n
      rw [htopic] at hround
      exact absurd hround.symm (hnone _ (hinv.rounds n hn))
    · have hlast : last (afterSchedule e w db after inputs).notifications
          (.candidate after.id) = some n := by
        refine hlife.candidate.trans ?_
        rw [heq, ← htopic]
        exact latest_append_self
      refine ⟨n, hlast, ?_⟩
      rw [hstatus, if_neg (by simp)]
      exact carries_candidate hcontext hstart
  · refine (replaced_told htemplates hinv after inputs hframe.1 db false hframe.2 hstart hi).mpr
      fun hold => ?_
    obtain ⟨hrow, hid, -⟩ := mem_getActiveInterviewers.mp hi
    obtain ⟨old, hmem, -, hround, -⟩ :=
      (replaced_replaceInterviewers w.interviewers inputs).old i hrow hold
    exact absurd (hround.trans hid) (hnone _ (hinv.owners old hmem))

theorem rescheduled_frame (after : InterviewSchedule) (event : Bool) (next : Uuid)
    (interviewers : List InterviewInterviewer) :
    let box := if event then
        queueAndDispatch e w.notifications after .interviewRescheduled interviewers
      else w.notifications
    Posted after.id next w.notifications box ∧
      ∀ id, last box (.interviewer after.id id) = last w.notifications (.interviewer after.id id) ∧
        has box (.interviewer after.id id) = has w.notifications (.interviewer after.id id) := by
  cases event with
  | true => exact queueAndDispatch_frame htemplates hinv.live after _ rfl interviewers
  | false => exact ⟨Posted.refl, fun id => ⟨rfl, rfl⟩⟩

theorem rescheduled_effect {db : Db} {after : InterviewSchedule} (event : Bool)
    (inputs : List InterviewerInput) (hwritten : Written w.db db after) :
    Effect w (afterReschedule e w db after event inputs) after :=
  replaced_effect htemplates hinv after inputs
    (rescheduled_frame htemplates hinv after event _ _).1 hwritten event

theorem rescheduled_told (db : Db) {round after : InterviewSchedule}
    {request : RescheduleInterviewRequest} {env : InterviewEnv} (inputs : List InterviewerInput)
    (hid : after.id = round.id) (hstart : after.startAt = some (request.startAt env))
    (hstatus : after.status ≠ .cancelled) (hzone : after.timezone = request.timezone)
    (hcandidate : after.candidateTimezone = request.candidateTimezone) :
    RoundTold e (afterReschedule e w db after (isRescheduleEvent round request env) inputs) after ↔
      RescheduleReaches e w round request inputs env := by
  generalize hevent : isRescheduleEvent round request env = event
  have hframe := rescheduled_frame htemplates hinv after event
    (replaceInterviewers e.lower w.interviewers after.id inputs).1.next
    (replaceInterviewers e.lower w.interviewers after.id inputs).2.1
  have hlife := lifecycle_replaced htemplates hinv after inputs hframe.1 db event
  unfold RescheduleReaches
  rw [hevent, ← hid]
  have hround : RoundTold e (afterReschedule e w db after event inputs) after ↔
      CandidateTold e (afterReschedule e w db after event inputs).notifications after
          (request.startAt env) ∧
        ∀ i ∈ getActiveInterviewers (afterReschedule e w db after event inputs).interviewers
          after.id, InterviewerTold e (afterReschedule e w db after event inputs).notifications
            after i (request.startAt env) := by
    unfold RoundTold
    rw [hstart]
    simp
  rw [hround]
  refine and_congr ?_ (forall₂_congr fun i hi => ?_)
  · have hcarries : CandidateTold e (afterReschedule e w db after event inputs).notifications
        after (request.startAt env) ↔
      ∃ n, last (if event then queueAndDispatch e w.notifications after .interviewRescheduled
          (replaceInterviewers e.lower w.interviewers after.id inputs).2.1 else w.notifications)
          (.candidate after.id) = some n ∧ Carries e n (request.startAt env)
            (orElse request.candidateTimezone request.timezone) := by
      simp only [CandidateTold, if_neg hstatus, candidateZone, hcandidate, hzone]
      exact exists_congr fun n => and_congr_left fun _ => by rw [← hlife.candidate]; rfl
    rw [hcarries]
    cases event with
    | false => simp
    | true =>
      obtain ⟨hhas, heq⟩ | ⟨hhas, n, -, htopic, -, -, -, hcontext, heq⟩ := queueAndDispatch_cases
        htemplates hinv.live after .interviewRescheduled rfl
        (replaceInterviewers e.lower w.interviewers after.id inputs).2.1
      · rw [if_pos rfl, heq, or_iff_right (by simp [hhas])]
      · have hcarry := carries_candidate hcontext hstart
        rw [candidateZone, hcandidate, hzone] at hcarry
        refine iff_of_true ⟨n, ?_, hcarry⟩ (.inl ⟨rfl, hhas⟩)
        rw [if_pos rfl, heq, ← htopic]
        exact latest_append_self
  · have htold := replaced_told htemplates hinv after inputs hframe.1 db event hframe.2 hstart hi
    unfold InterviewerTold interviewerZone at htold
    rw [hzone] at htold
    unfold InterviewerTold interviewerZone
    rw [hzone]
    exact htold

omit htemplates in
theorem activeOnly_effect {db : Db} {after : InterviewSchedule} {box : List EmailNotification}
    (hwritten : Written w.db db after)
    (hposted : Posted after.id w.interviewers.next w.notifications box) :
    Effect w ⟨db, w.interviewers, box⟩ after := by
  refine ⟨hwritten, Nat.le_refl _, fun i hi => .inr hi, fun i hi => ?_, hposted⟩
  obtain ⟨hrow, hid, hactive⟩ := mem_getActiveInterviewers.mp hi
  exact hasNotice_mono hposted.subset (hid ▸ hinv.invited i hrow hactive)

omit htemplates hinv in
theorem active_below {i : InterviewInterviewer} {interviewId : Uuid}
    (hi : i ∈ getActiveInterviewers w.interviewers interviewId) : ¬w.interviewers.next ≤ i.id := by
  have hlt := w.interviewers.below i (mem_getActiveInterviewers.mp hi).1
  omega

omit htemplates hinv in
theorem active_unique {i j : InterviewInterviewer} {interviewId : Uuid}
    (hi : i ∈ getActiveInterviewers w.interviewers interviewId)
    (hj : j ∈ getActiveInterviewers w.interviewers interviewId) (hid : i.id = j.id) : i = j :=
  w.interviewers.eq_of_key_eq (mem_getActiveInterviewers.mp hi).1
    (mem_getActiveInterviewers.mp hj).1 hid

theorem cancelled_effect {db : Db} {after : InterviewSchedule} (reason : String)
    (hwritten : Written w.db db after) : Effect w (afterCancel e w db after reason) after := by
  have hframe : Posted after.id w.interviewers.next w.notifications _ :=
    (queueAndDispatch_frame htemplates hinv.live after .interviewCancelled rfl
      (getActiveInterviewers w.interviewers after.id)).1
  have hq : Queues after _ _ fun box i => queueCancelled e reason box after i :=
    @queues_email e after .interviewInterviewerCancelled (htemplates _) rfl fun i =>
      roundContext e after i ++ [("reason_block", block "Reason" (some reason))]
  exact activeOnly_effect hinv hwritten (hframe.trans
    (posted_of_grown (hq.grown (hframe.live hinv.live)) fun i hi => active_below hi))

theorem cancelled_told (db : Db) {round : InterviewSchedule} (reason : String) (now : Instant)
    (hold : RoundTold e w round) :
    RoundTold e (afterCancel e w db (cancelled reason now round) reason)
        (cancelled reason now round) ↔
      (round.startAt ≠ none → has w.notifications (.candidate round.id) .interviewCancelled = false ∨
        ∃ n, last w.notifications (.candidate round.id) = some n ∧
          n.triggerEvent = .interviewCancelled) := by
  let after := cancelled reason now round
  have hafter : after.status = .cancelled := rfl
  let active := getActiveInterviewers w.interviewers after.id
  let box := queueAndDispatch e w.notifications after .interviewCancelled active
  let w' := afterCancel e w db after reason
  obtain ⟨hposted, hframe⟩ : Posted after.id w.interviewers.next w.notifications box ∧ _ :=
    queueAndDispatch_frame htemplates hinv.live after _ rfl active
  have hlive : ∀ n ∈ box, n.Live := hposted.live hinv.live
  have hq : Queues after _ _ fun box i => queueCancelled e reason box after i :=
    @queues_email e after .interviewInterviewerCancelled (htemplates _) rfl fun i =>
      roundContext e after i ++ [("reason_block", block "Reason" (some reason))]
  have hcandidate : last w'.notifications (.candidate after.id) = last box (.candidate after.id) :=
    ((hq.grown (l := active) hlive).last_eq (by simp)).1
  have hinterviewers (startAt : Instant) (hstart : round.startAt = some startAt) :
      ∀ i ∈ active, InterviewerTold e w'.notifications after i startAt := by
    intro i hi
    obtain ⟨htold, hsame⟩ := hq.last_foldl hlive fun x hx hxi => active_unique hx hi hxi
    by_cases hdue : has box (.interviewer after.id i.id) .interviewInterviewerCancelled = false
    · obtain ⟨n, hn, htrigger, -⟩ := htold ⟨hi, hdue⟩
      exact ⟨n, hn, .inl htrigger⟩
    · obtain ⟨n, hn, hinformed⟩ := (hold startAt hstart).2 i hi
      exact ⟨n, (hsame fun h => hdue h.2).trans ((hframe i.id).1.trans hn), hinformed⟩
  have hround : RoundTold e w' after ↔ (round.startAt ≠ none →
      ∃ n, last box (.candidate round.id) = some n ∧ n.triggerEvent = .interviewCancelled) := by
    constructor
    · intro htold hne
      obtain ⟨startAt, hstart⟩ := Option.ne_none_iff_exists'.mp hne
      obtain ⟨n, hn, htrigger⟩ := (htold startAt hstart).1
      rw [if_pos hafter] at htrigger
      exact ⟨n, hcandidate.symm.trans hn, htrigger⟩
    · intro htold startAt hstart
      have hround : round.startAt = some startAt := hstart
      obtain ⟨n, hn, htrigger⟩ := htold (by simp [hround])
      exact ⟨⟨n, hcandidate.trans hn, by rw [if_pos hafter]; exact htrigger⟩,
        hinterviewers startAt hround⟩
  refine hround.trans (forall_congr' fun _ => ?_)
  obtain ⟨hhas, heq⟩ | ⟨hhas, n, -, htopic, -, -, htrigger, -, heq⟩ :=
    queueAndDispatch_cases htemplates hinv.live after .interviewCancelled rfl active
  · have hbox : box = w.notifications := heq
    rw [hbox, or_iff_right (by rw [Bool.eq_false_iff, not_not]; exact hhas)]
  · refine iff_of_true ⟨n, ?_, htrigger⟩ (.inl hhas)
    have hbox : box = w.notifications ++ [n] := heq
    have htopic' : n.topic = .candidate round.id := htopic
    rw [hbox, ← htopic']
    exact latest_append_self

theorem completed_effect {db : Db} {after : InterviewSchedule} (alreadyGiven : Uuid → Bool)
    (hwritten : Written w.db db after) :
    Effect w (afterComplete e w db after alreadyGiven) after := by
  have hq : Queues after _ _ fun box i => queueFeedbackRequested e box after i :=
    @queues_email e after .interviewFeedbackRequested (htemplates _) rfl fun i =>
      [("feedback_link", e.feedbackLink after.id i.id)]
  refine activeOnly_effect hinv hwritten (posted_of_grown (hq.grown hinv.live) ?_)
  exact fun i hi => active_below (List.mem_of_mem_filter hi)

theorem completed_told (db : Db) {round : InterviewSchedule} (now : Instant)
    (alreadyGiven : Uuid → Bool) (hstatus : round.status ∉ [.completed, .cancelled])
    (hold : RoundTold e w round) :
    RoundTold e (afterComplete e w db (completed round now) alreadyGiven) (completed round now) ↔
      (round.startAt ≠ none → ∀ i ∈ getActiveInterviewers w.interviewers round.id,
        alreadyGiven i.id = true ∨
          has w.notifications (.interviewer round.id i.id) .interviewFeedbackRequested = true) := by
  let after := completed round now
  let active := getActiveInterviewers w.interviewers round.id
  let pending := active.filter fun i => !alreadyGiven i.id
  let w' := afterComplete e w db after alreadyGiven
  have hq : Queues after _ _ fun box i => queueFeedbackRequested e box after i :=
    @queues_email e after .interviewFeedbackRequested (htemplates _) rfl fun i =>
      [("feedback_link", e.feedbackLink after.id i.id)]
  have hcandidate : last w'.notifications (.candidate after.id) =
      last w.notifications (.candidate round.id) :=
    ((hq.grown (l := pending) hinv.live).last_eq (by simp)).1
  have hloop (i : InterviewInterviewer) (hi : i ∈ active) :=
    hq.last_foldl (l := pending) (j := i) hinv.live
      fun x hx hxi => active_unique (List.mem_of_mem_filter hx) hi hxi
  have hinterviewer (startAt : Instant) (hstart : round.startAt = some startAt)
      (i : InterviewInterviewer) (hi : i ∈ active) :
      InterviewerTold e w'.notifications after i startAt ↔ alreadyGiven i.id = true ∨
        has w.notifications (.interviewer round.id i.id) .interviewFeedbackRequested = true := by
    obtain ⟨hasked, hsame⟩ := hloop i hi
    by_cases hdue : i ∈ pending ∧
        has w.notifications (.interviewer round.id i.id) .interviewFeedbackRequested = false
    · obtain ⟨n, hn, htrigger, hcontext⟩ := hasked hdue
      refine iff_of_false ?_ ?_
      · rintro ⟨m, hm, hinformed⟩
        cases hn.symm.trans hm
        obtain hcancelled | ⟨ctx, hctx, hdate, -⟩ := hinformed
        · rw [htrigger] at hcancelled
          exact EmailTriggerEvent.noConfusion hcancelled
        · rw [hcontext] at hctx
          rw [← Option.some.inj hctx] at hdate
          simp [List.lookup_cons] at hdate
      · have hgiven := (List.mem_filter.mp hdue.1).2
        simp [hdue.2, Bool.not_eq_true' _ ▸ hgiven]
    · obtain ⟨n, hn, hinformed⟩ := (hold startAt hstart).2 i hi
      refine iff_of_true ⟨n, (hsame hdue).trans hn, hinformed⟩ ?_
      by_cases hgiven : alreadyGiven i.id = true
      · exact .inl hgiven
      · refine .inr (Bool.eq_true_of_not_eq_false fun hunasked => hdue ⟨?_, hunasked⟩)
        exact List.mem_filter.mpr ⟨hi, by simp [hgiven]⟩
  constructor
  · intro htold hne i hi
    obtain ⟨startAt, hstart⟩ := Option.ne_none_iff_exists'.mp hne
    exact (hinterviewer startAt hstart i hi).mp ((htold startAt hstart).2 i hi)
  · intro hreached startAt hstart
    have hround : round.startAt = some startAt := hstart
    obtain ⟨n, hn, hcarries⟩ := (hold startAt hround).1
    rw [if_neg fun hcancelled => hstatus (by simp [hcancelled])] at hcarries
    refine ⟨⟨n, hcandidate.trans hn, ?_⟩, fun i hi => ?_⟩
    · rw [if_neg (by simp [completed])]
      exact hcarries
    · exact (hinterviewer startAt hround i hi).mpr (hreached (by simp [hround]) i hi)

end Reaching

structure Start (w : InterviewWorld) : Prop where
  blank : ∀ round ∈ w.db.interviewSchedules.rows, round.startAt = none
  nobody : w.interviewers.rows = []
  nothing : w.notifications = []

theorem start_inv {w : InterviewWorld} (h : Start w) : Inv w := by
  obtain ⟨-, hnobody, hnothing⟩ := h
  constructor <;> simp [hnobody, hnothing]

theorem start_told {w : InterviewWorld} (e : NotificationEnv) (h : Start w) : Told e w := by
  intro round hmem startAt hstart
  rw [h.blank round hmem] at hstart
  simp at hstart

section Runs

variable {e : NotificationEnv} (htemplates : ∀ event, (e.activeTemplate event).isSome)
  {w w' : InterviewWorld} {c : NotifiedCall}
include htemplates

theorem step_inv (hinv : Inv w) (h : Step e w c w') : Inv w' := by
  cases step_notified h with
  | lost => exact hinv
  | scheduled cc actorId actorRoles request inputs env db after hwritten =>
    exact (scheduled_effect htemplates hinv inputs hwritten).inv hinv
  | rescheduled interviewId actorId actorRoles request inputs env db round hround hstatus hid
      hwritten =>
      exact (rescheduled_effect htemplates hinv _ inputs hwritten).inv hinv
  | cancelled interviewId actorId actorRoles reason env db round hround hwritten =>
    exact (cancelled_effect htemplates hinv reason hwritten).inv hinv
  | completed interviewId actorId actorRoles alreadyGiven env db round hround hstatus hended
      hwritten =>
      exact (completed_effect htemplates hinv alreadyGiven hwritten).inv hinv

theorem step_told (hinv : Inv w) (htold : Told e w) (h : Step e w c w') :
    Told e w' ↔ Reaches e w c := by
  have hrow {interviewId : Uuid} {round : InterviewSchedule}
      (hround : w.db.interviewSchedules.find? interviewId = some round) :
      RoundTold e w round ∧ round.id = interviewId := by
    obtain ⟨hmem, hid⟩ := (Table.find?_eq_some _ _ _).mp hround
    exact ⟨htold round hmem, hid⟩
  cases step_notified h with
  | lost => exact iff_of_true htold trivial
  | scheduled cc actorId actorRoles request inputs env db after hwritten hstatus hblank =>
    have heffect := scheduled_effect htemplates hinv inputs hwritten
    rw [heffect.told_iff htold]
    exact iff_of_true (scheduled_told htemplates hinv inputs hstatus hblank) trivial
  | rescheduled interviewId actorId actorRoles request inputs env db round hround hstatus hid
      hwritten =>
      have heffect := rescheduled_effect htemplates hinv (isRescheduleEvent round request env)
        inputs hwritten
      have hafter := @rescheduled_status env round request hstatus
      obtain ⟨hstart, -, -⟩ := rescheduled_times round request env
      obtain ⟨hzone, hcandidate⟩ := @rescheduled_zones env round request
      rw [heffect.told_iff htold, rescheduled_told htemplates hinv db inputs hid hstart
        (fun hcancelled => by simp [hcancelled] at hafter) hzone hcandidate]
      simp only [Reaches, getById, hround, Option.some.injEq, forall_eq']
  | cancelled interviewId actorId actorRoles reason env db round hround hwritten =>
    have heffect := cancelled_effect htemplates hinv reason hwritten
    obtain ⟨hold, rfl⟩ := hrow hround
    rw [heffect.told_iff htold, cancelled_told htemplates hinv db reason env.now hold]
    simp only [Reaches, getById, hround, Option.some.injEq, forall_eq']
  | completed interviewId actorId actorRoles alreadyGiven env db round hround hstatus hended
      hwritten =>
      have heffect := completed_effect htemplates hinv alreadyGiven hwritten
      obtain ⟨hold, rfl⟩ := hrow hround
      rw [heffect.told_iff htold,
        completed_told htemplates hinv db env.now alreadyGiven hstatus hold]
      simp only [Reaches, getById, hround, Option.some.injEq, forall_eq']

end Runs

-- Everyone has heard of the current time throughout a run exactly when each of its
-- calls reaches everyone it leaves behind.
theorem everyone_told_iff (e : NotificationEnv)
    (htemplates : ∀ event, (e.activeTemplate event).isSome) (w : InterviewWorld) (hstart : Start w)
    (path : List (NotifiedCall × InterviewWorld)) (hp : Path (Step e) w path) :
    (∀ t ∈ visited w path, Told e t) ↔ EveryStep (fun s c _ => Reaches e s c) w path :=
  hp.visited_iff_everyStep (start_inv hstart)
    (fun _ _ _ hinv hstep => step_inv htemplates hinv hstep) (start_told e hstart)
    fun _ _ _ hinv htold hstep => step_told htemplates hinv htold hstep

def noticeEnv : NotificationEnv where
  localDate := fun startAt _ => "Day " ++ toString (startAt / 100)
  localTime := fun startAt _ => toString (startAt % 100) ++ ":00"
  activeTemplate := fun _ => some 0
  lower := id
  feedbackLink := fun interviewId interviewerId => s!"/feedback/{interviewId}/{interviewerId}"

def invitedWorld : InterviewWorld where
  db := { screenedDb with
    interviewSchedules := addRound screenedDb.interviewSchedules 0 1 3 }
  interviewers := Table.empty
  notifications := []

def ana : InterviewerInput := ⟨"Ana", "ana@example.org", none⟩

def movedTo (startTime : ℕ) : NotifiedCall :=
  .reschedule 0 "recruiter" ["RECRUITER"]
    { videoCall with startTime := startTime, endTime := startTime + 1, reason := none } [ana] office

def scheduledOnce : NotifiedCall :=
  .schedule 0 "recruiter" ["RECRUITER"] videoCall [ana] office

def movedTwice : List (NotifiedCall × InterviewWorld) :=
  execute (next? noticeEnv) invitedWorld [scheduledOnce, movedTo 13, movedTo 15]

theorem invited_start : Start invitedWorld := by
  constructor
  · decide +kernel
  · decide +kernel
  · decide +kernel

theorem movedTwice_path : Path (Step noticeEnv) invitedWorld movedTwice :=
  execute_path (next? noticeEnv) (fun w _ _ h => next?_step noticeEnv w h) invitedWorld _

theorem everyone_told_iff_movedTwice : (∀ t ∈ visited invitedWorld movedTwice, Told noticeEnv t) ↔
      EveryStep (fun s c _ => Reaches noticeEnv s c) invitedWorld movedTwice :=
  everyone_told_iff noticeEnv (fun _ => rfl) invitedWorld invited_start movedTwice movedTwice_path

-- The second move of the round is news to nobody: there has been a notification of
-- a move before, and it carries the time in between.
theorem not_told_after_second_move :
    (∀ event, (noticeEnv.activeTemplate event).isSome) ∧ Start invitedWorld ∧
      Path (Step noticeEnv) invitedWorld movedTwice ∧
      ¬∀ t ∈ visited invitedWorld movedTwice, Told noticeEnv t := by
  refine ⟨fun _ => rfl, invited_start, movedTwice_path, fun hall => ?_⟩
  let w := final invitedWorld movedTwice
  have htold := hall w (final_mem_visited invitedWorld movedTwice)
  have hround : ∃ round ∈ w.db.interviewSchedules.rows, round.id = 0 ∧
      round.status = .rescheduled ∧ round.startAt = some 2015 := by
    decide +kernel
  have hlast : (last w.notifications (.candidate 0)).bind (fun n =>
      n.templateContext.bind fun ctx => ctx.lookup "interview_time") = some "13:00" := by
    decide +kernel
  obtain ⟨round, hmem, hid, hstatus, hstart⟩ := hround
  obtain ⟨n, hn, hcarries⟩ := (htold round hmem 2015 hstart).1
  rw [hid] at hn
  rw [hstatus, if_neg (by simp)] at hcarries
  obtain ⟨ctx, hctx, -, htime⟩ := hcarries
  have hnew : noticeEnv.localTime 2015 (candidateZone round) = "15:00" := rfl
  rw [hn, Option.bind_some, hctx, Option.bind_some, htime, hnew] at hlast
  exact absurd hlast (by decide)

end Informed

end AiHiring
