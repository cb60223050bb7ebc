import AiHiring.Interview.Notifications

namespace AiHiring

open Library InterviewEmails EmailNotificationRepository

inductive Topic where
  | candidate (interviewId : Uuid)
  | interviewer (interviewId interviewerId : Uuid)
  deriving DecidableEq

namespace EmailNotification

def topic (n : EmailNotification) : Topic :=
  match n.interviewInterviewerId with
  | none => .candidate n.interviewScheduleId
  | some interviewerId => .interviewer n.interviewScheduleId interviewerId

end EmailNotification

def EmailTriggerEvent.toCandidate : EmailTriggerEvent → Bool
  | interviewScheduled | interviewRescheduled | interviewCancelled => true
  | _ => false

-- A notification that is on its way or has arrived, to the right kind of recipient.
structure EmailNotification.Live (n : EmailNotification) : Prop where
  notFailed : n.status ≠ .failed
  recipient : n.interviewInterviewerId.isNone = n.triggerEvent.toCandidate

abbrev has (box : List EmailNotification) (k : Topic) (event : EmailTriggerEvent) : Bool :=
  hasNotice EmailNotification.topic EmailNotification.triggerEvent box k event

abbrev last (box : List EmailNotification) (k : Topic) : Option EmailNotification :=
  latest EmailNotification.topic box k

abbrev queue (box : List EmailNotification) (n : EmailNotification) : List EmailNotification :=
  queueOnce EmailNotification.topic EmailNotification.triggerEvent box n

def Carries (e : NotificationEnv) (n : EmailNotification) (startAt : Instant) (zone : String) :
    Prop :=
  ∃ ctx, n.templateContext = some ctx ∧
    ctx.lookup "interview_date" = some (e.localDate startAt zone) ∧
    ctx.lookup "interview_time" = some (e.localTime startAt zone)

-- Not invited yet, or there is a new time for someone who has not been told of any.
def Uninformed (isRescheduleEvent : Bool) (heard : EmailTriggerEvent → Bool) : Prop :=
  heard .interviewInterviewerInvitation = false ∨
    (isRescheduleEvent = true ∧ heard .interviewInterviewerRescheduled = false)

section Queueing

variable {e : NotificationEnv} {box : List EmailNotification}

theorem alreadyNotified_iff {notifications : List EmailNotification}
    (hlive : ∀ n ∈ notifications, n.Live) :
    alreadyNotified notifications = true ↔ notifications ≠ [] := by
  cases notifications with
  | nil => simp [alreadyNotified]
  | cons n rest =>
    have hstatus : n.status = .queued ∨ n.status = .sent := by
      have hnot := (hlive n List.mem_cons_self).notFailed
      cases hs : n.status with
      | queued => exact .inl rfl
      | sent => exact .inr rfl
      | failed => exact absurd hs hnot
    simp [alreadyNotified, hstatus]

theorem alreadyNotified_filter {p : EmailNotification → Bool} (hlive : ∀ n ∈ box, n.Live) :
    alreadyNotified (box.filter p) = true ↔ ∃ n ∈ box, p n = true := by
  rw [alreadyNotified_iff fun n hn => hlive n (List.mem_of_mem_filter hn), Ne,
    List.filter_eq_nil_iff]
  simp

theorem topic_candidate {n : EmailNotification} (hlive : n.Live) {interviewId : Uuid}
    {event : EmailTriggerEvent} (hevent : event.toCandidate = true) :
    (n.topic = .candidate interviewId ∧ n.triggerEvent = event) ↔
      (n.interviewScheduleId = interviewId ∧ n.triggerEvent = event) := by
  refine and_congr_left fun htrigger => ?_
  have hnone : n.interviewInterviewerId = none :=
    Option.isNone_iff_eq_none.mp (hlive.recipient.trans (htrigger ▸ hevent))
  simp [EmailNotification.topic, hnone]

theorem topic_interviewer {n : EmailNotification} {interviewId interviewerId : Uuid}
    {event : EmailTriggerEvent} :
    (n.topic = .interviewer interviewId interviewerId ∧ n.triggerEvent = event) ↔
      (n.interviewScheduleId = interviewId ∧ n.interviewInterviewerId = some interviewerId ∧
        n.triggerEvent = event) := by
  rw [← and_assoc]
  refine and_congr_left fun _ => ?_
  unfold EmailNotification.topic
  cases n.interviewInterviewerId with
  | none => simp
  | some id => simp

theorem queueAndDispatch_spec (htemplates : ∀ event, (e.activeTemplate event).isSome)
    (hlive : ∀ n ∈ box, n.Live) (schedule : InterviewSchedule) {event : EmailTriggerEvent}
    (hevent : event.toCandidate = true) (interviewers : List InterviewInterviewer) :
    ∃ n : EmailNotification, n.Live ∧ n.topic = .candidate schedule.id ∧ n.triggerEvent = event ∧
      n.interviewScheduleId = schedule.id ∧ n.interviewInterviewerId = none ∧
      n.templateContext = interviewEmailContext e schedule interviewers ∧
      queueAndDispatch e box schedule event interviewers = queue box n := by
  obtain ⟨templateId, htemplate⟩ := Option.isSome_iff_exists.mp (htemplates event)
  refine ⟨⟨schedule.campaignCandidateId, schedule.id, none, none, none, event, templateId, .queued,
    interviewEmailContext e schedule interviewers⟩, ⟨by simp, by simp [hevent]⟩, rfl, rfl, rfl, rfl,
    rfl, ?_⟩
  have hsame : alreadyNotified (getByInterviewScheduleIdAndTriggerEvent box schedule.id event) =
      has box (.candidate schedule.id) event := by
    rw [Bool.eq_iff_iff]
    unfold getByInterviewScheduleIdAndTriggerEvent
    rw [alreadyNotified_filter hlive, hasNotice_iff]
    refine exists_congr fun n => and_congr_right fun hn => ?_
    rw [topic_candidate (hlive n hn) hevent, decide_eq_true_iff]
  unfold queueAndDispatch
  rw [hsame, htemplate]
  rfl

theorem queueInterviewerEmail_spec {event : EmailTriggerEvent}
    (htemplate : (e.activeTemplate event).isSome) (hlive : ∀ n ∈ box, n.Live)
    (schedule : InterviewSchedule) (interviewer : InterviewInterviewer)
    (hevent : event.toCandidate = false) (extraContext : TemplateContext) :
    ∃ n : EmailNotification, n.Live ∧
      n.topic = .interviewer schedule.id interviewer.id ∧ n.triggerEvent = event ∧
      n.interviewScheduleId = schedule.id ∧ n.interviewInterviewerId = some interviewer.id ∧
      n.templateContext = some (("recipient_name", interviewer.name) :: extraContext) ∧
      queueInterviewerEmail e box schedule interviewer event extraContext =
        (queue box n, !has box (.interviewer schedule.id interviewer.id) event) := by
  obtain ⟨templateId, htemplate⟩ := Option.isSome_iff_exists.mp htemplate
  let n : EmailNotification := ⟨schedule.campaignCandidateId, schedule.id, some interviewer.id,
    some interviewer.email, some interviewer.name, event, templateId, .queued,
    some (("recipient_name", interviewer.name) :: extraContext)⟩
  obtain ⟨htopic, htrigger⟩ := (topic_interviewer (n := n)).mpr ⟨rfl, rfl, rfl⟩
  refine ⟨n, ⟨by simp [n], by simp [n, hevent]⟩, htopic, rfl, rfl, rfl, rfl, ?_⟩
  have hsame : alreadyNotified (getByInterviewScheduleIdAndInterviewerIdAndTriggerEvent box
      schedule.id interviewer.id event) =
        has box (.interviewer schedule.id interviewer.id) event := by
    rw [Bool.eq_iff_iff]
    unfold getByInterviewScheduleIdAndInterviewerIdAndTriggerEvent
    rw [alreadyNotified_filter hlive, hasNotice_iff]
    refine exists_congr fun m => and_congr_right fun _ => ?_
    rw [topic_interviewer, decide_eq_true_iff]
  unfold queueInterviewerEmail
  rw [hsame, htemplate]
  cases hhas : has box (.interviewer schedule.id interviewer.id) event with
  | true => simp [queue, queueOnce_of_has (htopic ▸ hhas : has box n.topic n.triggerEvent = true)]
  | false =>
    rw [queue, queueOnce_of_not (htopic ▸ hhas : has box n.topic n.triggerEvent = false)]
    rfl

end Queueing

structure About (s : InterviewSchedule) (i : InterviewInterviewer) (n : EmailNotification) :
    Prop where
  live : n.Live
  interviewId : n.interviewScheduleId = s.id
  interviewerId : n.interviewInterviewerId = some i.id

theorem About.topic {s : InterviewSchedule} {i : InterviewInterviewer} {n : EmailNotification}
    (h : About s i n) : n.topic = .interviewer s.id i.id := by
  unfold EmailNotification.topic
  rw [h.interviewerId, h.interviewId]

def Grown (s : InterviewSchedule) (l : List InterviewInterviewer)
    (box box' : List EmailNotification) : Prop :=
  ∃ news, box' = box ++ news ∧ ∀ n ∈ news, ∃ i ∈ l, About s i n

-- A step that notifies an interviewer when what the interviewer has been told so
-- far calls for it, and leaves the mailbox alone otherwise.
structure Queues (s : InterviewSchedule) (due : (EmailTriggerEvent → Bool) → Prop)
    (good : InterviewInterviewer → EmailNotification → Prop)
    (f : List EmailNotification → InterviewInterviewer → List EmailNotification) : Prop where
  appends : ∀ box i, (∀ n ∈ box, n.Live) → due (has box (.interviewer s.id i.id)) →
    ∃ n, About s i n ∧ good i n ∧ f box i = box ++ [n]
  keeps : ∀ box i, (∀ n ∈ box, n.Live) → ¬due (has box (.interviewer s.id i.id)) → f box i = box

section Loops

variable {e : NotificationEnv} {s : InterviewSchedule} {l : List InterviewInterviewer}
  {box box' : List EmailNotification}

theorem Grown.refl : Grown s l box box := ⟨[], by simp, by simp⟩

theorem Grown.trans {box'' : List EmailNotification} (h : Grown s l box box')
    (h' : Grown s l box' box'') : Grown s l box box'' := by
  obtain ⟨news, rfl, hnews⟩ := h
  obtain ⟨news', rfl, hnews'⟩ := h'
  refine ⟨news ++ news', List.append_assoc _ _ _, ?_⟩
  intro n hn
  obtain hn | hn := List.mem_append.mp hn
  · exact hnews n hn
  · exact hnews' n hn

theorem Grown.mono {l' : List InterviewInterviewer} (h : Grown s l box box') (hsub : l ⊆ l') :
    Grown s l' box box' := by
  obtain ⟨news, rfl, hnews⟩ := h
  refine ⟨news, rfl, fun n hn => ?_⟩
  obtain ⟨i, hi, habout⟩ := hnews n hn
  exact ⟨i, hsub hi, habout⟩

theorem Grown.live (h : Grown s l box box') (hlive : ∀ n ∈ box, n.Live) : ∀ n ∈ box', n.Live := by
  obtain ⟨news, rfl, hnews⟩ := h
  intro n hn
  obtain hn | hn := List.mem_append.mp hn
  · exact hlive n hn
  · obtain ⟨i, -, habout⟩ := hnews n hn
    exact habout.live

theorem Grown.subset (h : Grown s l box box') : box ⊆ box' := by
  obtain ⟨news, rfl, -⟩ := h
  exact List.subset_append_left box news

theorem Grown.last_eq (h : Grown s l box box') {k : Topic}
    (hk : ∀ i ∈ l, k ≠ .interviewer s.id i.id) :
    last box' k = last box k ∧ has box' k = has box k := by
  obtain ⟨news, rfl, hnews⟩ := h
  have hne : ∀ n ∈ news, n.topic ≠ k := by
    intro n hn htopic
    obtain ⟨i, hi, habout⟩ := hnews n hn
    exact hk i hi (htopic.symm.trans habout.topic)
  exact ⟨latest_append_of_forall_ne hne, funext fun event => hasNotice_append_of_forall_ne hne⟩

variable {due : (EmailTriggerEvent → Bool) → Prop}
  {good : InterviewInterviewer → EmailNotification → Prop}
  {f : List EmailNotification → InterviewInterviewer → List EmailNotification}

theorem Queues.step (hf : Queues s due good f) (hlive : ∀ n ∈ box, n.Live)
    (i : InterviewInterviewer) : Grown s [i] box (f box i) := by
  by_cases hdue : due (has box (.interviewer s.id i.id))
  · obtain ⟨n, habout, -, heq⟩ := hf.appends box i hlive hdue
    exact ⟨[n], heq, fun m hm => ⟨i, List.mem_singleton_self i, List.mem_singleton.mp hm ▸ habout⟩⟩
  · rw [hf.keeps box i hlive hdue]
    exact Grown.refl

-- A loop over interviewers notifies nobody else.
theorem Queues.grown (hf : Queues s due good f) (hlive : ∀ n ∈ box, n.Live) :
    Grown s l box (l.foldl f box) := by
  induction l generalizing box with
  | nil => exact Grown.refl
  | cons i rest ih =>
    have hfirst := hf.step hlive i
    exact (hfirst.mono (by simp)).trans
      ((ih (hfirst.live hlive)).mono (List.subset_cons_self i rest))

-- What an interviewer's latest notification is after the loop, by induction on
-- the list; only the interviewer's own turns matter.
theorem Queues.last_foldl (hf : Queues s due good f) (hlive : ∀ n ∈ box, n.Live)
    {j : InterviewInterviewer} (hj : ∀ i ∈ l, i.id = j.id → i = j) :
    (j ∈ l ∧ due (has box (.interviewer s.id j.id)) →
      ∃ n, last (l.foldl f box) (.interviewer s.id j.id) = some n ∧ good j n) ∧
    (¬(j ∈ l ∧ due (has box (.interviewer s.id j.id))) →
      last (l.foldl f box) (.interviewer s.id j.id) = last box (.interviewer s.id j.id)) := by
  induction l generalizing box with
  | nil => simp
  | cons i rest ih =>
    have hfirst := hf.step hlive i
    have hrest := ih (hfirst.live hlive) fun x hx => hj x (List.mem_cons_of_mem i hx)
    rw [List.foldl_cons]
    by_cases hid : i.id = j.id
    · obtain rfl := hj i List.mem_cons_self hid
      by_cases hdue : due (has box (.interviewer s.id i.id))
      · obtain ⟨n, habout, hgood, heq⟩ := hf.appends box i hlive hdue
        have hlast : last (f box i) (.interviewer s.id i.id) = some n := by
          rw [heq, ← habout.topic]
          exact latest_append_self
        refine ⟨fun _ => ?_, fun hnot => absurd ⟨List.mem_cons_self, hdue⟩ hnot⟩
        by_cases hagain : i ∈ rest ∧ due (has (f box i) (.interviewer s.id i.id))
        · exact hrest.1 hagain
        · exact ⟨n, (hrest.2 hagain).trans hlast, hgood⟩
      · rw [hf.keeps box i hlive hdue] at hrest ⊢
        exact ⟨fun h => absurd h.2 hdue, fun _ => hrest.2 fun h => hdue h.2⟩
    · have hother : ∀ x ∈ [i], Topic.interviewer s.id j.id ≠ .interviewer s.id x.id := by
        intro x hx heq
        rw [List.mem_singleton] at hx
        exact hid (hx ▸ (Topic.interviewer.inj heq).2.symm)
      obtain ⟨hlast, hhas⟩ := hfirst.last_eq hother
      have hmem : j ∈ i :: rest ↔ j ∈ rest := by
        rw [List.mem_cons, or_iff_right]
        exact fun heq => hid (congrArg InterviewInterviewer.id heq.symm)
      rw [hlast, hhas] at hrest
      rw [hmem]
      exact hrest

end Loops

section Steps

variable {e : NotificationEnv} {s : InterviewSchedule}

-- One event: each interviewer is notified once of it.
theorem queues_email {event : EmailTriggerEvent}
    (htemplate : (e.activeTemplate event).isSome) (hevent : event.toCandidate = false)
    (extraContext : InterviewInterviewer → TemplateContext) :
    Queues s (fun heard => heard event = false) (fun i n => n.triggerEvent = event ∧
        n.templateContext = some (("recipient_name", i.name) :: extraContext i))
      (fun box i => (queueInterviewerEmail e box s i event (extraContext i)).1) := by
  refine ⟨fun box i hlive hdue => ?_, fun box i hlive hdue => ?_⟩
  · obtain ⟨n, hn, htopic, htrigger, hround, hinterviewer, hcontext, heq⟩ :=
      queueInterviewerEmail_spec htemplate hlive s i hevent (extraContext i)
    refine ⟨n, ⟨hn, hround, hinterviewer⟩, ⟨htrigger, hcontext⟩, ?_⟩
    rw [heq]
    exact queueOnce_of_not (by rw [htopic, htrigger]; exact hdue)
  · obtain ⟨n, -, htopic, htrigger, -, -, -, heq⟩ :=
      queueInterviewerEmail_spec htemplate hlive s i hevent (extraContext i)
    rw [heq]
    exact queueOnce_of_has (by rw [htopic, htrigger]; exact Bool.eq_true_of_not_eq_false hdue)

theorem carries_round {n : EmailNotification} {i : InterviewInterviewer}
    {rest : TemplateContext} (hcontext : n.templateContext =
      some (("recipient_name", i.name) :: (roundContext e s i ++ rest)))
    {startAt : Instant} (hstart : s.startAt = some startAt) :
    Carries e n startAt (interviewerZone s i) := by
  refine ⟨_, hcontext, ?_, ?_⟩ <;> simp [roundContext, hstart, List.lookup_cons]

theorem queues_invitation (htemplates : ∀ event, (e.activeTemplate event).isSome) :
    Queues s (fun heard => heard .interviewInterviewerInvitation = false)
      (fun i n => n.triggerEvent = .interviewInterviewerInvitation ∧
        n.templateContext = some (("recipient_name", i.name) :: (roundContext e s i ++
          [("notes_block", block "Notes" s.notes)])))
      (fun box i => (queueInvitation e box s i).1) :=
  queues_email (htemplates _) rfl fun i => roundContext e s i ++ [("notes_block", block "Notes" s.notes)]

theorem queueActive_eq (htemplates : ∀ event, (e.activeTemplate event).isSome)
    (isRescheduleEvent : Bool) {box : List EmailNotification} (hlive : ∀ n ∈ box, n.Live)
    (i : InterviewInterviewer) :
    queueActive e isRescheduleEvent s box i =
      if has box (.interviewer s.id i.id) .interviewInterviewerInvitation = false then
        (queueInvitation e box s i).1
      else if isRescheduleEvent then queueRescheduled e box s i else box := by
  obtain ⟨n, -, htopic, htrigger, -, -, -, heq⟩ :=
    @queueInterviewerEmail_spec e box .interviewInterviewerInvitation (htemplates _) hlive s i rfl
      (roundContext e s i ++ [("notes_block", block "Notes" s.notes)])
  unfold queueActive queueInvitation
  rw [heq]
  cases hhas : has box (.interviewer s.id i.id) .interviewInterviewerInvitation with
  | false => simp
  | true =>
    have hsame : queue box n = box := queueOnce_of_has (by rw [htopic, htrigger]; exact hhas)
    simp [hsame]

theorem queues_active (htemplates : ∀ event, (e.activeTemplate event).isSome)
    (isRescheduleEvent : Bool) :
    Queues s (Uninformed isRescheduleEvent)
      (fun i n => ∀ startAt, s.startAt = some startAt → Carries e n startAt (interviewerZone s i))
      (queueActive e isRescheduleEvent s) := by
  have hinvitation : Queues s _ _ fun box i => (queueInvitation e box s i).1 :=
    queues_invitation htemplates
  have hrescheduled : Queues s _ _ (queueRescheduled e · s) :=
    @queues_email e s .interviewInterviewerRescheduled (htemplates _) rfl (roundContext e s)
  refine ⟨fun box i hlive hdue => ?_, fun box i hlive hdue => ?_⟩
  · rw [queueActive_eq htemplates isRescheduleEvent hlive i]
    by_cases hnew : has box (.interviewer s.id i.id) .interviewInterviewerInvitation = false
    · rw [if_pos hnew]
      obtain ⟨n, habout, ⟨-, hcontext⟩, heq⟩ := hinvitation.appends box i hlive hnew
      exact ⟨n, habout, fun startAt hstart => carries_round hcontext hstart, heq⟩
    · rw [if_neg hnew]
      obtain ⟨hevent, htold⟩ := hdue.resolve_left hnew
      rw [if_pos hevent]
      obtain ⟨n, habout, ⟨-, hcontext⟩, heq⟩ := hrescheduled.appends box i hlive htold
      refine ⟨n, habout, fun startAt hstart => ?_, heq⟩
      exact @carries_round e s n i [] (by rw [hcontext, List.append_nil]) startAt hstart
  · rw [queueActive_eq htemplates isRescheduleEvent hlive i]
    obtain ⟨hinvited, hnot⟩ := not_or.mp hdue
    rw [if_neg hinvited]
    by_cases hevent : isRescheduleEvent = true
    · rw [if_pos hevent]
      exact hrescheduled.keeps box i hlive fun htold => hnot ⟨hevent, htold⟩
    · rw [if_neg hevent]

theorem invited_foldl (htemplates : ∀ event, (e.activeTemplate event).isSome)
    (isRescheduleEvent : Bool) {l : List InterviewInterviewer} {box : List EmailNotification}
    (hlive : ∀ n ∈ box, n.Live) :
    ∀ i ∈ l, has (l.foldl (queueActive e isRescheduleEvent s) box) (.interviewer s.id i.id)
      .interviewInterviewerInvitation = true := by
  have hactive := queues_active (s := s) htemplates isRescheduleEvent
  induction l generalizing box with
  | nil => simp
  | cons i rest ih =>
    have hfirst := hactive.step hlive i
    have hrest := ih (hfirst.live hlive)
    intro j hj
    obtain rfl | hj := List.mem_cons.mp hj
    · refine hasNotice_mono (hactive.grown (hfirst.live hlive)).subset ?_
      by_cases hnew : has box (.interviewer s.id j.id) .interviewInterviewerInvitation = false
      · have hinvitation : Queues s _ _ fun box i => (queueInvitation e box s i).1 :=
          queues_invitation htemplates
        obtain ⟨n, habout, ⟨htrigger, -⟩, heq⟩ := hinvitation.appends box j hlive hnew
        rw [queueActive_eq htemplates isRescheduleEvent hlive j, if_pos hnew, heq, ← htrigger,
          ← habout.topic]
        exact hasNotice_of_latest latest_append_self
      · exact hasNotice_mono hfirst.subset (Bool.eq_true_of_not_eq_false hnew)
    · exact hrest j hj

end Steps

end AiHiring
