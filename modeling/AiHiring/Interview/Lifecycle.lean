import AiHiring.Interview.Topics

namespace AiHiring

open Library InterviewEmails

namespace Informed

-- The mailbox after notifications about one round, to its candidate or to
-- interviewers whose ids have been given out.
def Posted (interviewId next : Uuid) (box box' : List EmailNotification) : Prop :=
  ∃ news, box' = box ++ news ∧ ∀ n ∈ news, n.Live ∧ n.interviewScheduleId = interviewId ∧
    ∀ id, n.interviewInterviewerId = some id → ¬next ≤ id

def interviewOf : Topic → Uuid
  | .candidate interviewId => interviewId
  | .interviewer interviewId _ => interviewId

theorem interviewOf_topic (n : EmailNotification) :
    interviewOf n.topic = n.interviewScheduleId := by
  unfold EmailNotification.topic
  cases n.interviewInterviewerId <;> rfl

section Posting

variable {e : NotificationEnv} {interviewId next : Uuid} {s : InterviewSchedule}
  {l : List InterviewInterviewer} {box box' : List EmailNotification}

theorem Posted.refl : Posted interviewId next box box := ⟨[], by simp, by simp⟩

theorem Posted.trans {box'' : List EmailNotification} (h : Posted interviewId next box box')
    (h' : Posted interviewId next box' box'') : Posted interviewId next box box'' := by
  obtain ⟨news, rfl, hnews⟩ := h
  obtain ⟨news', rfl, hnews'⟩ := h'
  refine ⟨news ++ news', List.append_assoc _ _ _, ?_⟩
  intro n hn
  obtain hn | hn := List.mem_append.mp hn
  · exact hnews n hn
  · exact hnews' n hn

theorem Posted.live (h : Posted interviewId next box box') (hlive : ∀ n ∈ box, n.Live) :
    ∀ n ∈ box', n.Live := by
  obtain ⟨news, rfl, hnews⟩ := h
  intro n hn
  obtain hn | hn := List.mem_append.mp hn
  · exact hlive n hn
  · exact (hnews n hn).1

theorem Posted.subset (h : Posted interviewId next box box') : box ⊆ box' := by
  obtain ⟨news, rfl, -⟩ := h
  exact List.subset_append_left box news

theorem Posted.last_eq (h : Posted interviewId next box box') {k : Topic}
    (hk : interviewOf k ≠ interviewId) : last box' k = last box k := by
  obtain ⟨news, rfl, hnews⟩ := h
  refine latest_append_of_forall_ne fun n hn htopic => hk ?_
  rw [← htopic, interviewOf_topic]
  exact (hnews n hn).2.1

theorem posted_of_grown (h : Grown s l box box') (hl : ∀ i ∈ l, ¬next ≤ i.id) :
    Posted s.id next box box' := by
  obtain ⟨news, rfl, hnews⟩ := h
  refine ⟨news, rfl, fun n hn => ?_⟩
  obtain ⟨i, hi, habout⟩ := hnews n hn
  refine ⟨habout.live, habout.interviewId, fun id hid => ?_⟩
  rw [habout.interviewerId] at hid
  exact Option.some.inj hid ▸ hl i hi

theorem carries_candidate {n : EmailNotification} {interviewers : List InterviewInterviewer}
    (hcontext : n.templateContext = interviewEmailContext e s interviewers)
    {startAt : Instant} (hstart : s.startAt = some startAt) :
    Carries e n startAt (candidateZone s) := by
  rw [interviewEmailContext, hstart, Option.map_some] at hcontext
  refine ⟨_, hcontext, ?_, ?_⟩ <;> simp [List.lookup_cons]

variable (htemplates : ∀ event, (e.activeTemplate event).isSome)
include htemplates

theorem queueAndDispatch_cases (hlive : ∀ n ∈ box, n.Live) (s : InterviewSchedule)
    (event : EmailTriggerEvent) (hevent : event.toCandidate = true)
    (interviewers : List InterviewInterviewer) :
    (has box (.candidate s.id) event = true ∧ queueAndDispatch e box s event interviewers = box) ∨
    (has box (.candidate s.id) event = false ∧ ∃ n : EmailNotification, n.Live ∧
      n.topic = .candidate s.id ∧ n.interviewScheduleId = s.id ∧
      n.interviewInterviewerId = none ∧ n.triggerEvent = event ∧
      n.templateContext = interviewEmailContext e s interviewers ∧
      queueAndDispatch e box s event interviewers = box ++ [n]) := by
  obtain ⟨n, hn, htopic, htrigger, hround, hnone, hcontext, heq⟩ :=
    queueAndDispatch_spec htemplates hlive s hevent interviewers
  rw [heq]
  cases hhas : has box (.candidate s.id) event with
  | true => exact .inl ⟨rfl, queueOnce_of_has (by rw [htopic, htrigger]; exact hhas)⟩
  | false =>
    exact .inr ⟨rfl, n, hn, htopic, hround, hnone, htrigger, hcontext,
      queueOnce_of_not (by rw [htopic, htrigger]; exact hhas)⟩

theorem queueAndDispatch_frame (hlive : ∀ n ∈ box, n.Live) (s : InterviewSchedule)
    (event : EmailTriggerEvent) (hevent : event.toCandidate = true)
    (interviewers : List InterviewInterviewer) :
    Posted s.id next box (queueAndDispatch e box s event interviewers) ∧
      ∀ id, last (queueAndDispatch e box s event interviewers) (.interviewer s.id id) =
          last box (.interviewer s.id id) ∧
        has (queueAndDispatch e box s event interviewers) (.interviewer s.id id) =
          has box (.interviewer s.id id) := by
  obtain ⟨-, heq⟩ | ⟨-, n, hn, htopic, hround, hnone, -, -, heq⟩ :=
    queueAndDispatch_cases htemplates hlive s event hevent interviewers
  · rw [heq]
    exact ⟨Posted.refl, fun id => ⟨rfl, rfl⟩⟩
  · rw [heq]
    refine ⟨⟨[n], rfl, fun m hm => ?_⟩, fun id => ?_⟩
    · obtain rfl := List.mem_singleton.mp hm
      exact ⟨hn, hround, fun id hid => by simp [hnone] at hid⟩
    · have hne : ∀ m ∈ [n], m.topic ≠ .interviewer s.id id := by
        intro m hm heq
        rw [List.mem_singleton.mp hm, htopic] at heq
        exact Topic.noConfusion heq
      exact ⟨latest_append_of_forall_ne hne, funext fun event => hasNotice_append_of_forall_ne hne⟩

-- The mailbox after a round has been filled in or rescheduled.
structure Lifecycle (e : NotificationEnv) (next : Uuid) (s : InterviewSchedule)
    (active removed : List InterviewInterviewer) (event : Bool)
    (box box' : List EmailNotification) : Prop where
  posted : Posted s.id next box box'
  candidate : last box' (.candidate s.id) = last box (.candidate s.id)
  invited : ∀ i ∈ active, has box' (.interviewer s.id i.id) .interviewInterviewerInvitation = true
  told : ∀ j, (∀ i ∈ active, i.id = j.id → i = j) → (∀ i ∈ removed, i.id ≠ j.id) →
    (j ∈ active ∧ Uninformed event (has box (.interviewer s.id j.id)) →
      ∃ n, last box' (.interviewer s.id j.id) = some n ∧
        ∀ startAt, s.startAt = some startAt → Carries e n startAt (interviewerZone s j)) ∧
    (¬(j ∈ active ∧ Uninformed event (has box (.interviewer s.id j.id))) →
      last box' (.interviewer s.id j.id) = last box (.interviewer s.id j.id))

theorem lifecycle (hlive : ∀ n ∈ box, n.Live) {active removed : List InterviewInterviewer}
    (hactive : ∀ i ∈ active, ¬next ≤ i.id) (hremoved : ∀ i ∈ removed, ¬next ≤ i.id)
    (event : Bool) :
    Lifecycle e next s active removed event box
      (queueInterviewerLifecycleEmails e box s active removed event) := by
  let box₁ := active.foldl (queueActive e event s) box
  let box₂ := removed.foldl (fun box i => queueRemoved e box s i) box₁
  have hq₁ := queues_active (s := s) htemplates event
  have hq₂ : Queues s _ _ fun box i => queueRemoved e box s i :=
    @queues_email e s .interviewInterviewerRemoved (htemplates _) rfl fun _ => []
  have hg₁ : Grown s active box box₁ := hq₁.grown hlive
  have hg₂ : Grown s removed box₁ box₂ := hq₂.grown (hg₁.live hlive)
  refine ⟨(posted_of_grown hg₁ hactive).trans (posted_of_grown hg₂ hremoved), ?_, fun i hi => ?_,
    fun j hj hnot => ?_⟩
  · have hcandidate (l : List InterviewInterviewer) :
        ∀ i ∈ l, Topic.candidate s.id ≠ .interviewer s.id i.id := by simp
    exact (hg₂.last_eq (hcandidate removed)).1.trans (hg₁.last_eq (hcandidate active)).1
  · exact hasNotice_mono hg₂.subset (invited_foldl htemplates event hlive i hi)
  · have hother : ∀ i ∈ removed, Topic.interviewer s.id j.id ≠ .interviewer s.id i.id := by
      intro i hi heq
      exact hnot i hi (Topic.interviewer.inj heq).2.symm
    have hlast : last box₂ (.interviewer s.id j.id) = last box₁ (.interviewer s.id j.id) :=
      (hg₂.last_eq hother).1
    have htold := hq₁.last_foldl hlive hj
    rw [← hlast] at htold
    exact htold

end Posting

end Informed

end AiHiring
