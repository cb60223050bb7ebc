import AiHiring.Interview.Feedback
import AiHiring.Interview.NotifiedCalls
import AiHiring.Interview.Topics

namespace AiHiring

open Library InterviewScheduleRepository InterviewScheduleService InterviewEmails InterviewWorld

namespace FeedbackAsked

-- More notifications, all of them on their way.
def Adds (box box' : List EmailNotification) : Prop :=
  ∃ news, box' = box ++ news ∧ ∀ n ∈ news, n.Live

section Adding

variable {e : NotificationEnv} {box box' : List EmailNotification} {s : InterviewSchedule}

theorem Adds.refl : Adds box box := ⟨[], by simp, by simp⟩

theorem Adds.trans {box'' : List EmailNotification} (h : Adds box box') (h' : Adds box' box'') :
    Adds box box'' := by
  obtain ⟨news, rfl, hnews⟩ := h
  obtain ⟨news', rfl, hnews'⟩ := h'
  refine ⟨news ++ news', List.append_assoc _ _ _, ?_⟩
  intro n hn
  rcases List.mem_append.mp hn with hn | hn
  · exact hnews n hn
  · exact hnews' n hn

theorem Adds.live (h : Adds box box') (hlive : ∀ n ∈ box, n.Live) : ∀ n ∈ box', n.Live := by
  obtain ⟨news, rfl, hnews⟩ := h
  intro n hn
  rcases List.mem_append.mp hn with hn | hn
  · exact hlive n hn
  · exact hnews n hn

theorem adds_one (n : EmailNotification) (h : n.Live) : Adds box (box ++ [n]) :=
  ⟨[n], rfl, fun _ hm => List.mem_singleton.mp hm ▸ h⟩

theorem adds_foldl {α : Type} {f : List EmailNotification → α → List EmailNotification}
    (hf : ∀ box i, Adds box (f box i)) (l : List α) : Adds box (l.foldl f box) := by
  induction l generalizing box with
  | nil => exact Adds.refl
  | cons i rest ih => exact (hf box i).trans ih

theorem adds_dispatch {event : EmailTriggerEvent} (hevent : event.toCandidate = true)
    (interviewers : List InterviewInterviewer) :
    Adds box (queueAndDispatch e box s event interviewers) := by
  unfold queueAndDispatch
  split
  · exact Adds.refl
  · cases e.activeTemplate event with
    | none => exact Adds.refl
    | some templateId => exact adds_one _ ⟨by simp, by simp [hevent]⟩

theorem adds_email {event : EmailTriggerEvent} (hevent : event.toCandidate = false)
    (i : InterviewInterviewer) (extraContext : TemplateContext) :
    Adds box (queueInterviewerEmail e box s i event extraContext).1 := by
  unfold queueInterviewerEmail
  split
  · exact Adds.refl
  · cases e.activeTemplate event with
    | none => exact Adds.refl
    | some templateId => exact adds_one _ ⟨by simp, by simp [hevent]⟩

theorem adds_active (event : Bool) (i : InterviewInterviewer) :
    Adds box (queueActive e event s box i) := by
  have hinvited : Adds box (queueInvitation e box s i).1 := adds_email rfl i _
  unfold queueActive
  dsimp only
  split
  · exact hinvited.trans (adds_email rfl i _)
  · exact hinvited

theorem adds_lifecycle (active removed : List InterviewInterviewer) (event : Bool) :
    Adds box (queueInterviewerLifecycleEmails e box s active removed event) := by
  unfold queueInterviewerLifecycleEmails
  exact (adds_foldl (fun _ i => adds_active event i) active).trans
    (adds_foldl (fun _ i => adds_email rfl i _) removed)

theorem notified_adds (w : InterviewWorld) (db : Db) (c : NotifiedCall) :
    Adds w.notifications (notified e w db c).notifications := by
  cases c with
  | schedule cc actorId actorRoles request inputs env =>
    simp only [notified]
    split
    · exact Adds.refl
    · exact (adds_dispatch rfl _).trans (adds_lifecycle _ _ _)
  | reschedule interviewId actorId actorRoles request inputs env =>
    simp only [notified]
    split
    · unfold afterReschedule
      split
      · exact (adds_dispatch rfl _).trans (adds_lifecycle _ _ _)
      · exact adds_lifecycle _ _ _
    · exact Adds.refl
  | cancel interviewId actorId actorRoles reason env =>
    simp only [notified]
    split
    · exact Adds.refl
    · exact (adds_dispatch rfl _).trans (adds_foldl (fun _ i => adds_email rfl i _) _)
  | complete interviewId actorId actorRoles alreadyGiven env =>
    simp only [notified]
    split
    · exact Adds.refl
    · exact adds_foldl (fun _ i => adds_email rfl i _) _

theorem notified_db (w : InterviewWorld) (db : Db) (c : NotifiedCall) :
    (notified e w db c).db = db := by
  cases c <;> simp only [notified] <;> split <;> rfl

end Adding

-- A blank round has no end, and every round belongs to a candidate.
structure Sound (db : Db) : Prop where
  blank : ∀ r ∈ db.interviewSchedules.rows, r.status = .pending → r.endAt = none
  known : ∀ r ∈ db.interviewSchedules.rows, db.campaignCandidates.find? r.campaignCandidateId ≠ none

section Tables

variable {db db' : Db}

theorem sound_rewritten {round after : InterviewSchedule} (h : Rewritten db db' round after)
    (hstatus : after.status ≠ .pending) (hdb : Sound db) : Sound db' := by
  obtain ⟨hround, -⟩ := (Table.find?_eq_some _ _ _).mp h.found
  constructor
  · intro r hr hpending
    rw [h.rounds, Table.mem_replace] at hr
    rcases hr with ⟨hold, -⟩ | ⟨rfl, -⟩
    · exact hdb.blank r hold hpending
    · exact absurd hpending hstatus
  · intro r hr
    rw [h.candidates]
    rw [h.rounds, Table.mem_replace] at hr
    rcases hr with ⟨hold, -⟩ | ⟨rfl, -⟩
    · exact hdb.known r hold
    · rw [h.sameCandidate]
      exact hdb.known round hround

theorem call_sound {call : InterviewCall} {calls : List CalendarCall}
    (h : call.run db = .ok (db', calls)) (hdb : Sound db) : Sound db' := by
  cases InterviewCall.run_ok _ _ _ _ h with
  | filled cc actorId actorRoles request env latest hlatest hpending hround hcalls =>
    obtain ⟨hstatus, -, -⟩ := applyScheduleRequest_times latest request actorId actorRoles env
    exact sound_rewritten hround (by simp [hstatus]) hdb
  | next cc actorId actorRoles request env latest added hlatest hfree hadded hrows hcandidates
      hcalls =>
      obtain ⟨hmem, hcc, -⟩ := mem_latest cc latest hlatest
      obtain ⟨hstatus, -, -⟩ := applyScheduleRequest_times added request actorId actorRoles env
      obtain ⟨-, hcandidate, -⟩ := applyScheduleRequest_same added request actorId actorRoles env
      have hnew : added.campaignCandidateId = cc := by rw [hadded]; rfl
      constructor
      · intro r hr hpending
        rw [hrows, List.mem_append, List.mem_singleton] at hr
        rcases hr with hold | rfl
        · exact hdb.blank r hold hpending
        · rw [hstatus] at hpending
          simp at hpending
      · intro r hr
        rw [hcandidates]
        rw [hrows, List.mem_append, List.mem_singleton] at hr
        rcases hr with hold | rfl
        · exact hdb.known r hold
        · rw [hcandidate, hnew, ← hcc]
          exact hdb.known latest hmem
  | lost cc actorId actorRoles request env hsame hcalls => exact hsame ▸ hdb
  | rescheduled interviewId actorId actorRoles request env round hstatus hround hcalls =>
    refine sound_rewritten hround (fun hpending => ?_) hdb
    have hafter := @Informed.rescheduled_status env round request hstatus
    rw [hpending] at hafter
    simp at hafter
  | cancelled interviewId actorId actorRoles reason env round hstatus hround hcalls =>
    exact sound_rewritten hround (by simp [cancelled]) hdb
  | completed interviewId actorId actorRoles env round hstatus hended hround hcalls =>
    exact sound_rewritten hround (by simp [completed]) hdb

theorem known_replace {before after : CampaignCandidate} {id : Uuid}
    (hsame : after.id = before.id) (hfound : db.campaignCandidates.find? before.id = some before)
    (h : db.campaignCandidates.find? id ≠ none) :
    (db.campaignCandidates.replace after).find? id ≠ none := by
  by_cases hid : id = after.id
  · rw [hid, db.campaignCandidates.find?_replace_self after before (hsame ▸ hfound)]
    simp
  · rw [db.campaignCandidates.find?_replace_ne after id hid]
    exact h

theorem hooked_sound {rounds : Rounds} {cc : Uuid} {fromStage toStage : PipelineStage}
    {now : Instant} {P : InterviewSchedule → Prop} (hold : ∀ r ∈ rounds.rows, P r)
    (hnew : P (newRound cc 1 now rounds.next))
    (hcancel : ∀ r reason, P r → P (cancelledIn cc reason now r)) :
    ∀ r ∈ (hookedRounds rounds cc fromStage toStage now).rows, P r := by
  intro r hr
  unfold hookedRounds at hr
  split_ifs at hr with hinterview hcascade
  · unfold withPending at hr
    split_ifs at hr with hany
    · exact hold r hr
    · rcases List.mem_append.mp hr with hr | hr
      · exact hold r hr
      · obtain rfl := List.mem_singleton.mp hr
        exact hnew
  · obtain ⟨before, hbefore, rfl⟩ := List.mem_map.mp hr
    exact hcancel before _ (hold before hbefore)
  · exact hold r hr

theorem move_sound {table : TransitionTable} {call : StageWrite × Instant}
    (h : StageWrite.Step table db call db') (hdb : Sound db) : Sound db' := by
  rcases StageWrite.step_cases call h with
    ⟨before, after, heffect⟩ | ⟨cc, env, before, after, -, hrescored⟩
  · have hfound := heffect.moved.found
    have hknown (r : InterviewSchedule) (hr : db.campaignCandidates.find? r.campaignCandidateId ≠
        none) : db'.campaignCandidates.find? r.campaignCandidateId ≠ none := by
      rw [heffect.moved.candidates]
      exact known_replace heffect.moved.sameId hfound hr
    have hold : ∀ r ∈ db.interviewSchedules.rows, (r.status = .pending → r.endAt = none) ∧
        db'.campaignCandidates.find? r.campaignCandidateId ≠ none :=
      fun r hr => ⟨hdb.blank r hr, hknown r (hdb.known r hr)⟩
    have hall : ∀ r ∈ db'.interviewSchedules.rows, (r.status = .pending → r.endAt = none) ∧
        db'.campaignCandidates.find? r.campaignCandidateId ≠ none := by
      by_cases hhooks : call.1.RunsHooks
      · rw [heffect.hooked hhooks]
        refine hooked_sound hold ⟨fun _ => rfl, ?_⟩ fun r reason hr => ?_
        · exact hknown (newRound before.id 1 call.2 db.interviewSchedules.next)
            (by simp [newRound, hfound])
        · unfold cancelledIn
          split_ifs
          · exact ⟨fun hpending => absurd hpending (by simp [cancelled]), hr.2⟩
          · exact hr
      · rw [heffect.unhooked hhooks]
        exact hold
    exact ⟨fun r hr => (hall r hr).1, fun r hr => (hall r hr).2⟩
  · rw [hrescored.db]
    exact ⟨hdb.blank, fun r hr => known_replace hrescored.sameId hrescored.found (hdb.known r hr)⟩

end Tables

end FeedbackAsked

end AiHiring
