import AiHiring.Interview.Effects
import AiHiring.Library.Mirror
import AiHiring.Pipeline.Intake

namespace AiHiring

open Library InterviewScheduleRepository InterviewScheduleService

namespace CalendarSync

-- The providers' side: the events that stand in some calendar, and every id
-- that was ever given out.
structure Calendars where
  live : List (CalendarProvider × String)
  issued : List String

namespace Calendars

def record (calendars : Calendars) : CalendarCall → Calendars
  | .createEvent provider (some eventId) =>
    { live := (provider, eventId) :: calendars.live
      issued := eventId :: calendars.issued }
  | .createEvent _ none => calendars
  | .updateEvent _ _ => calendars
  | .deleteEvent provider eventId =>
    { calendars with live := calendars.live.filter (· ≠ (provider, eventId)) }

def answer (calendars : Calendars) (calls : List CalendarCall) : Calendars :=
  calls.foldl record calendars

-- A creation succeeds when it is answered with an id of its own.
def Answered (calendars : Calendars) : CalendarCall → Prop
  | .createEvent _ (some eventId) => eventId ≠ "" ∧ eventId ∉ calendars.issued
  | .createEvent _ none => False
  | .updateEvent _ _ => True
  | .deleteEvent _ _ => True

instance (calendars : Calendars) (call : CalendarCall) : Decidable (calendars.Answered call) :=
  match call with
  | .createEvent _ (some _) => inferInstanceAs (Decidable (_ ∧ _))
  | .createEvent _ none => inferInstanceAs (Decidable False)
  | .updateEvent _ _ => inferInstanceAs (Decidable True)
  | .deleteEvent _ _ => inferInstanceAs (Decidable True)

def Succeed (calendars : Calendars) (calls : List CalendarCall) : Prop :=
  ∀ call ∈ calls, calendars.Answered call

instance (calendars : Calendars) (calls : List CalendarCall) :
    Decidable (calendars.Succeed calls) :=
  inferInstanceAs (Decidable (∀ call ∈ calls, _))

end Calendars

structure World where
  db : Db
  calendars : Calendars

-- A cascade is also taken on its own, at any time and for any candidate.
inductive Action where
  | interview (call : InterviewCall)
  | move (call : StageWrite × Instant)
  | cascade (cc : Uuid) (reason : String) (changedBy changedByRole : Option String)
      (now : Instant)

def Step (table : TransitionTable) (w : World) : Action → World → Prop
  | .interview call, w' => ∃ calls, call.run w.db = .ok (w'.db, calls) ∧
      w.calendars.Succeed calls ∧ w'.calendars = w.calendars.answer calls
  | .move call, w' => StageWrite.Step table w.db call w'.db ∧ w'.calendars = w.calendars
  | .cascade cc reason changedBy changedByRole now, w' =>
    cancelActiveRounds w.db cc reason changedBy changedByRole now = .ok w'.db ∧
      w'.calendars = w.calendars

def next? (table : TransitionTable) (w : World) : Action → Option World
  | .interview call =>
    match call.run w.db with
    | .error _ => none
    | .ok (db, calls) =>
      if w.calendars.Succeed calls then some ⟨db, w.calendars.answer calls⟩ else none
  | .move call => (StageWrite.next? table w.db call).map fun db => { w with db }
  | .cascade cc reason changedBy changedByRole now =>
    (cancelActiveRounds w.db cc reason changedBy changedByRole now).toOption.map
      fun db => { w with db }

theorem next?_step (table : TransitionTable) (w w' : World) (action : Action)
    (h : next? table w action = some w') : Step table w action w' := by
  cases action with
  | interview call =>
    cases hrun : call.run w.db with
    | error e => simp [next?, hrun] at h
    | ok result =>
      obtain ⟨db, calls⟩ := result
      simp only [next?, hrun] at h
      split_ifs at h with hsucceed
      rw [← Option.some.inj h]
      exact ⟨calls, hrun, hsucceed, rfl⟩
  | move call =>
    obtain ⟨db, hdb, rfl⟩ := Option.map_eq_some_iff.mp h
    exact ⟨StageWrite.next?_step call hdb, rfl⟩
  | cascade cc reason changedBy changedByRole now =>
    obtain ⟨db, hdb, rfl⟩ := Option.map_eq_some_iff.mp h
    refine ⟨?_, rfl⟩
    cases hcancel : cancelActiveRounds w.db cc reason changedBy changedByRole now with
    | error e => simp [hcancel, Except.toOption] at hdb
    | ok last => simpa [hcancel, Except.toOption] using hdb

def takesPlace (round : InterviewSchedule) : Prop :=
  round.status ∈ [InterviewStatus.scheduled, .rescheduled, .completed]

instance (round : InterviewSchedule) : Decidable (takesPlace round) :=
  inferInstanceAs (Decidable (_ ∈ _))

-- The calendar event that a round should have.
def event (round : InterviewSchedule) : Option (CalendarProvider × String) :=
  if takesPlace round then
    (calendarServiceFor round.platform).bind fun provider =>
      round.externalCalendarEventId.map fun eventId => (provider, eventId)
  else
    none

-- The events that stand in the calendars are those of the rounds that take
-- place on a video platform, one each.
structure Synced (w : World) : Prop where
  events : Mirrors event w.db.interviewSchedules.rows w.calendars.live
  one : Exclusive InterviewSchedule.externalCalendarEventId w.db.interviewSchedules.rows
  hosted : ∀ r ∈ w.db.interviewSchedules.rows, takesPlace r →
    calendarServiceFor r.platform ≠ none → r.externalCalendarEventId ≠ none

def Hosted (db : Db) (cc : Uuid) : Prop :=
  ∃ r ∈ db.interviewSchedules.rows, r.campaignCandidateId = cc ∧
    (r.status = .scheduled ∨ r.status = .rescheduled) ∧ calendarServiceFor r.platform ≠ none

-- The step cancels the candidate's rounds over the head of a calendar.
def Strands (db : Db) : Action → Prop
  | .interview _ => False
  | .move call => call.1.RunsHooks ∧
      (∃ row stage, db.campaignCandidates.find? call.1.candidate = some row ∧
        call.1.target row = some stage ∧ cascades row.pipelineStage stage) ∧
      Hosted db call.1.candidate
  | .cascade cc _ _ _ _ => Hosted db cc

-- What every run keeps, stranded events or not.
structure Tracked (w : World) : Prop where
  issued : ∀ r ∈ w.db.interviewSchedules.rows, ∀ e, r.externalCalendarEventId = some e →
    e ∈ w.calendars.issued ∧ e ≠ ""
  one : Exclusive InterviewSchedule.externalCalendarEventId w.db.interviewSchedules.rows
  blank : ∀ r ∈ w.db.interviewSchedules.rows, r.status = .pending → r.platform = none

-- The calls made while one round is rewritten.
structure Carried (calendars calendars' : Calendars) (round after : InterviewSchedule) : Prop where
  grows : ∀ e ∈ calendars.issued, e ∈ calendars'.issued
  ids : ∀ e, after.externalCalendarEventId = some e → round.externalCalendarEventId = some e ∨
    (e ≠ "" ∧ e ∉ calendars.issued ∧ e ∈ calendars'.issued)
  blank : after.status = .pending → after.platform = none
  exchanged : (∀ x, event round = some x → x ∈ calendars.live) →
    Exchanged calendars.live calendars'.live (event round) (event after)
  hosted : (takesPlace round → calendarServiceFor round.platform ≠ none →
      round.externalCalendarEventId ≠ none) →
    takesPlace after → calendarServiceFor after.platform ≠ none →
      after.externalCalendarEventId ≠ none

section Carried

variable {calendars : Calendars} {round : InterviewSchedule} {env : InterviewEnv}

theorem event_eq_none (h : ¬takesPlace round) : event round = none := if_neg h

theorem event_of_platform (h : calendarServiceFor round.platform = none) : event round = none := by
  rw [event, h]
  simp

theorem event_of_id (h : round.externalCalendarEventId = none) : event round = none := by
  rw [event, h]
  simp

theorem event_eq_some {provider : CalendarProvider} {eventId : String} (htakes : takesPlace round)
    (hplatform : calendarServiceFor round.platform = some provider)
    (hid : round.externalCalendarEventId = some eventId) :
    event round = some (provider, eventId) := by
  rw [event, if_pos htakes, hplatform, hid]
  rfl

theorem not_pending_of_takesPlace (h : takesPlace round) : round.status ≠ .pending := by
  intro hpending
  rw [takesPlace, hpending] at h
  exact absurd h (by decide)

theorem createEvent_fresh (provider : CalendarProvider) (calls : List CalendarCall)
    (hsucceed : calendars.Succeed calls) (hcall : .createEvent provider env.created.2 ∈ calls)
    (htakes : takesPlace round) (hplatform : calendarServiceFor round.platform = some provider) :
    ∃ e, env.created.2 = some e ∧ e ≠ "" ∧ e ∉ calendars.issued ∧
      event (createEvent provider round env).1 = some (provider, e) := by
  have hanswered := hsucceed _ hcall
  cases he : env.created.2 with
  | none =>
    rw [he] at hanswered
    exact hanswered.elim
  | some e =>
    rw [he] at hanswered
    obtain ⟨hne, hfresh⟩ := hanswered
    exact ⟨e, rfl, hne, hfresh, event_eq_some htakes hplatform he⟩

theorem carried_created {calendars' : Calendars} {old after : InterviewSchedule} (e : String)
    (hissued : calendars'.issued = e :: calendars.issued) (hne : e ≠ "")
    (hfresh : e ∉ calendars.issued) (hid : after.externalCalendarEventId = some e)
    (htakes : takesPlace after)
    (hlive : Exchanged calendars.live calendars'.live (event old) (event after)) :
    Carried calendars calendars' old after where
  grows := by
    intro other hother
    rw [hissued]
    exact List.mem_cons_of_mem _ hother
  ids := by
    intro other hother
    obtain rfl : e = other := Option.some.inj (hid.symm.trans hother)
    exact .inr ⟨hne, hfresh, by rw [hissued]; exact List.mem_cons_self⟩
  blank := fun hpending => absurd hpending (not_pending_of_takesPlace htakes)
  exchanged := fun _ => hlive
  hosted := by
    intro _ _ _ hnone
    exact absurd (hid.symm.trans hnone) (by simp)

theorem carried_kept {calendars' : Calendars} {old after : InterviewSchedule}
    (hissued : calendars'.issued = calendars.issued)
    (hids : ∀ e, after.externalCalendarEventId = some e → old.externalCalendarEventId = some e)
    (hstatus : after.status ≠ .pending)
    (hlive : (∀ x, event old = some x → x ∈ calendars.live) →
      Exchanged calendars.live calendars'.live (event old) (event after))
    (hhosted : (takesPlace old → calendarServiceFor old.platform ≠ none →
        old.externalCalendarEventId ≠ none) →
      takesPlace after → calendarServiceFor after.platform ≠ none →
        after.externalCalendarEventId ≠ none) :
    Carried calendars calendars' old after where
  grows := by
    intro other hother
    rw [hissued]
    exact hother
  ids := fun e he => .inl (hids e he)
  blank := fun hpending => absurd hpending hstatus
  exchanged := hlive
  hosted := hhosted

theorem carried_refl (blank : InterviewSchedule)
    (hblank : blank.status = .pending → blank.platform = none) :
    Carried calendars calendars blank blank :=
  ⟨fun _ he => he, fun _ he => .inl he, hblank, exchanged_same, fun hhosted => hhosted⟩

theorem carried_silent {old after : InterviewSchedule} (hold : event old = none)
    (hids : ∀ e, after.externalCalendarEventId = some e → old.externalCalendarEventId = some e)
    (hstatus : after.status ≠ .pending) (hplatform : calendarServiceFor after.platform = none) :
    Carried calendars calendars old after := by
  refine carried_kept rfl hids hstatus (fun hlive => ?_) (fun _ _ hvideo => absurd hplatform hvideo)
  rw [event_of_platform hplatform, ← hold]
  exact exchanged_same hlive

theorem createEvent_carried (provider : CalendarProvider) (old filled : InterviewSchedule)
    (hold : event old = none) (htakes : takesPlace filled)
    (hplatform : calendarServiceFor filled.platform = some provider)
    (hsucceed : calendars.Succeed (createEvent provider filled env).2) :
    Carried calendars (calendars.answer (createEvent provider filled env).2) old
      (createEvent provider filled env).1 := by
  obtain ⟨e, he, hne, hfresh, hevent⟩ :=
    createEvent_fresh provider _ hsucceed List.mem_cons_self htakes hplatform
  have hanswer : calendars.answer (createEvent provider filled env).2 =
      { live := (provider, e) :: calendars.live, issued := e :: calendars.issued } := by
    simp [createEvent, Calendars.answer, Calendars.record, he]
  rw [hanswer]
  refine carried_created e rfl hne hfresh he htakes ?_
  rw [hold, hevent]
  exact exchanged_cons _

theorem movedEvent_carried (oldProvider newProvider : CalendarProvider) (eventId : String)
    (old filled : InterviewSchedule) (hold : event old = some (oldProvider, eventId))
    (htakes : takesPlace filled) (hplatform : calendarServiceFor filled.platform = some newProvider)
    (hsucceed : calendars.Succeed
      (.deleteEvent oldProvider eventId :: (createEvent newProvider filled env).2)) :
    Carried calendars (calendars.answer
        (.deleteEvent oldProvider eventId :: (createEvent newProvider filled env).2)) old
      (createEvent newProvider filled env).1 := by
  obtain ⟨e, he, hne, hfresh, hevent⟩ := createEvent_fresh newProvider _ hsucceed
    (List.mem_cons_of_mem _ List.mem_cons_self) htakes hplatform
  have hanswer : calendars.answer
      (.deleteEvent oldProvider eventId :: (createEvent newProvider filled env).2) =
      { live := (newProvider, e) :: calendars.live.filter (· ≠ (oldProvider, eventId))
        issued := e :: calendars.issued } := by
    simp [createEvent, Calendars.answer, Calendars.record, he]
  rw [hanswer]
  refine carried_created e rfl hne hfresh he htakes ?_
  rw [hold, hevent]
  exact (exchanged_filter _).trans (exchanged_cons _)

theorem applyScheduleRequest_carried (request : ScheduleInterviewRequest) (actorId : String)
    (actorRoles : List String) (hround : round.status = .pending)
    (hsucceed : calendars.Succeed (applyScheduleRequest round request actorId actorRoles env).2) :
    Carried calendars
      (calendars.answer (applyScheduleRequest round request actorId actorRoles env).2) round
      (applyScheduleRequest round request actorId actorRoles env).1 := by
  have hnone : event round = none := event_eq_none (by simp [takesPlace, hround])
  let filled : InterviewSchedule := { withRequest round request env with
    status := .scheduled
    scheduledBy := some actorId
    scheduledByRole := actorRoles.head? }
  have htakes : takesPlace filled := List.mem_cons_self
  cases hplatform : calendarServiceFor request.platform with
  | none =>
    have happly : applyScheduleRequest round request actorId actorRoles env = (filled, []) := by
      rw [applyScheduleRequest, hplatform]
    rw [happly]
    exact carried_silent hnone (fun e he => he) (not_pending_of_takesPlace htakes) hplatform
  | some provider =>
    have happly : applyScheduleRequest round request actorId actorRoles env =
        createEvent provider filled env := by
      rw [applyScheduleRequest, hplatform]
    rw [happly] at hsucceed ⊢
    exact createEvent_carried provider round filled hnone htakes hplatform hsucceed

-- What is left of a round's event when it is rescheduled: nothing if it was
-- cancelled, else the event it should have.
theorem syncCalendar_carried (old schedule : InterviewSchedule)
    (oldService newService : Option CalendarProvider) (existingEventId : Option String)
    (hold : event old = oldService.bind fun provider =>
      (existingEventId.filter (· ≠ "")).map fun eventId => (provider, eventId))
    (htakes : takesPlace schedule)
    (hplatform : calendarServiceFor schedule.platform = newService)
    (hids : ∀ e, schedule.externalCalendarEventId = some e → old.externalCalendarEventId = some e)
    (hkept : oldService ≠ none → schedule.externalCalendarEventId = existingEventId)
    (hsucceed : calendars.Succeed
      (syncCalendar schedule oldService newService existingEventId env).2) :
    Carried calendars
      (calendars.answer (syncCalendar schedule oldService newService existingEventId env).2) old
      (syncCalendar schedule oldService newService existingEventId env).1 := by
  have hstatus := not_pending_of_takesPlace htakes
  unfold syncCalendar at hsucceed ⊢
  generalize hexisting : existingEventId.filter (· ≠ "") = existing at hold hsucceed ⊢
  cases newService with
  | none =>
    cases oldService with
    | none => exact carried_silent hold hids hstatus hplatform
    | some oldProvider =>
      cases existing with
      | none => exact carried_silent hold hids hstatus hplatform
      | some eventId =>
        -- the platform has no calendar any more, the event is deleted
        have hnone : event { schedule with
            meetingLink := none, externalCalendarEventId := none } = none :=
          event_of_platform hplatform
        refine carried_kept rfl (fun e he => absurd he (by simp)) hstatus (fun _ => ?_)
          (fun _ _ hvideo => absurd hplatform hvideo)
        rw [hold, hnone]
        exact exchanged_filter _
  | some newProvider =>
    cases oldService with
    | none =>
      exact createEvent_carried newProvider old schedule hold htakes hplatform hsucceed
    | some oldProvider =>
      cases existing with
      | none =>
        exact createEvent_carried newProvider old schedule hold htakes hplatform hsucceed
      | some eventId =>
        have hid : schedule.externalCalendarEventId = some eventId := by
          rw [hkept (by simp)]
          exact (Option.filter_eq_some_iff.mp hexisting).1
        by_cases hsame : newProvider = oldProvider
        · -- the event is updated in place
          simp only [hsame, if_true] at hsucceed ⊢
          have hevent := event_eq_some htakes (hplatform.trans (congrArg some hsame)) hid
          refine carried_kept rfl hids hstatus (fun hlive => ?_) (fun _ _ _ hnone => ?_)
          · have hboth : event schedule = event old := hevent.trans hold.symm
            rw [hboth]
            exact exchanged_same hlive
          · exact absurd (hid.symm.trans hnone) (by simp)
        · -- the event moves from one calendar to the other
          simp only [if_neg hsame] at hsucceed ⊢
          exact movedEvent_carried oldProvider newProvider eventId old schedule hold htakes
            hplatform hsucceed

-- `existingEventId` is the round's own as long as no id is the empty text.
theorem filter_named (eventId : Option String) (hnamed : ∀ e, eventId = some e → e ≠ "") :
    eventId.filter (· ≠ "") = eventId := by
  cases eventId with
  | none => rfl
  | some e => simp [Option.filter, hnamed e rfl]

theorem rescheduled_carried (request : RescheduleInterviewRequest)
    (hstatus : round.status ∈ [InterviewStatus.scheduled, .rescheduled, .cancelled])
    (hnamed : ∀ e, round.externalCalendarEventId = some e → e ≠ "")
    (hsucceed : calendars.Succeed (rescheduled round request env).2) :
    Carried calendars (calendars.answer (rescheduled round request env).2) round
      (rescheduled round request env).1 := by
  unfold rescheduled at hsucceed ⊢
  by_cases hcancelled : round.status = .cancelled
  · -- a cancelled round is treated as one that never had an event
    have hnone : event round = none := event_eq_none (by simp [takesPlace, hcancelled])
    simp only [hcancelled, if_true, true_or] at hsucceed ⊢
    exact syncCalendar_carried _ _ _ _ _ hnone (by simp [takesPlace]) rfl
      (fun e he => absurd he (by simp [withRequest, uncancelled])) (fun h => absurd rfl h) hsucceed
  · have hround : takesPlace round := by
      rw [takesPlace]
      simp only [List.mem_cons, List.not_mem_nil, or_false] at hstatus ⊢
      tauto
    have hevent : event round = (calendarServiceFor round.platform).bind fun provider =>
        (round.externalCalendarEventId.filter (· ≠ "")).map fun eventId =>
          (provider, eventId) := by
      rw [filter_named _ hnamed, event, if_pos hround]
    simp only [hcancelled, if_false, false_or] at hsucceed ⊢
    by_cases hmoved : some (request.startAt env) ≠ round.startAt ∨
        some (request.endAt env) ≠ round.endAt
    · simp only [if_pos hmoved] at hsucceed ⊢
      exact syncCalendar_carried _ _ _ _ _ hevent (by simp [takesPlace]) rfl (fun e he => he)
        (fun _ => rfl) hsucceed
    · simp only [if_neg hmoved] at hsucceed ⊢
      exact syncCalendar_carried _ _ _ _ _ hevent hround rfl (fun e he => he) (fun _ => rfl)
        hsucceed

theorem takesPlace_of_platform (hblank : round.status = .pending → round.platform = none)
    (hstatus : round.status ≠ .cancelled) (hplatform : calendarServiceFor round.platform ≠ none) :
    takesPlace round := by
  have hpending : round.status ≠ .pending := by
    intro hpending
    rw [hblank hpending] at hplatform
    exact hplatform rfl
  rw [takesPlace]
  cases hcase : round.status with
  | pending => exact absurd hcase hpending
  | cancelled => exact absurd hcase hstatus
  | _ => decide

theorem cancelled_carried (reason : String) (now : Instant)
    (hnamed : ∀ e, round.externalCalendarEventId = some e → e ≠ "")
    (hblank : round.status = .pending → round.platform = none)
    (hstatus : round.status ≠ .cancelled) :
    Carried calendars (calendars.answer (cancelCalls round)) round
      (cancelled reason now round) := by
  have hnot : ¬takesPlace (cancelled reason now round) := by simp [takesPlace, cancelled]
  have hnone := event_eq_none hnot
  have hsilent (hround : event round = none) :
      Carried calendars calendars round (cancelled reason now round) := by
    refine carried_kept rfl (fun e he => he) (by simp [cancelled]) (fun hlive => ?_)
      (fun _ htakes => absurd htakes hnot)
    rw [hnone, ← hround]
    exact exchanged_same hlive
  unfold cancelCalls
  rw [filter_named _ hnamed]
  cases hplatform : calendarServiceFor round.platform with
  | none => exact hsilent (event_of_platform hplatform)
  | some provider =>
    have htakes := takesPlace_of_platform hblank hstatus (by simp [hplatform])
    cases hid : round.externalCalendarEventId with
    | none => exact hsilent (event_of_id hid)
    | some eventId =>
      refine carried_kept rfl (fun e he => he) (by simp [cancelled]) (fun _ => ?_)
        (fun _ htakes => absurd htakes hnot)
      rw [hnone, event_eq_some htakes hplatform hid]
      exact exchanged_filter _

theorem completed_carried (now : Instant) (hblank : round.status = .pending → round.platform = none)
    (hstatus : round.status ∉ [InterviewStatus.completed, .cancelled]) :
    Carried calendars (calendars.answer []) round (completed round now) := by
  have hafter : takesPlace (completed round now) := by simp [takesPlace, completed]
  have hopen : round.status ≠ .cancelled := fun h => hstatus (by simp [h])
  have hround (hvideo : calendarServiceFor round.platform ≠ none) : takesPlace round :=
    takesPlace_of_platform hblank hopen hvideo
  have hsame : event (completed round now) = event round := by
    by_cases hvideo : calendarServiceFor round.platform = none
    · have hvideo' : calendarServiceFor (completed round now).platform = none := hvideo
      rw [event_of_platform hvideo, event_of_platform hvideo']
    · rw [event, event, if_pos hafter, if_pos (hround hvideo)]
      rfl
  refine carried_kept rfl (fun e he => he) (not_pending_of_takesPlace hafter) (fun hlive => ?_)
    (fun hhosted _ hvideo => hhosted (hround hvideo) hvideo)
  rw [hsame]
  exact exchanged_same hlive

end Carried

section Cancelled

variable (cc : Uuid) (reason : String) (now : Instant) (round : InterviewSchedule)

theorem event_cancelledIn : event (cancelledIn cc reason now round) =
    if round.campaignCandidateId = cc ∧ round.status.active then none else event round := by
  rw [cancelledIn]
  split_ifs
  · exact event_eq_none (by simp [takesPlace, cancelled])
  · rfl

end Cancelled

-- What a step does to the rounds and the calendars, and whether it may leave an
-- event behind.
inductive Change (w w' : World) : Prop → Prop
  | same (hrounds : w'.db.interviewSchedules = w.db.interviewSchedules)
      (hcalendars : w'.calendars = w.calendars) : Change w w' False
  | rewritten (round after : InterviewSchedule) (hround : Rewritten w.db w'.db round after)
      (hcarried : Carried w.calendars w'.calendars round after) : Change w w' False
  | added (blank after : InterviewSchedule) (hstatus : blank.status = .pending)
      (hid : blank.externalCalendarEventId = none)
      (hrows : w'.db.interviewSchedules.rows = w.db.interviewSchedules.rows ++ [after])
      (hcarried : Carried w.calendars w'.calendars blank after) : Change w w' False
  | cancelled (cc : Uuid) (reason : String) (now : Instant)
      (hrounds : w'.db.interviewSchedules = w.db.interviewSchedules.modify
        (cancelledIn cc reason now) (cancelledIn_id cc reason now))
      (hcalendars : w'.calendars = w.calendars) : Change w w' (Hosted w.db cc)

section Steps

variable {table : TransitionTable} {w w' : World} {stranded : Prop}

theorem tracked_rewritten (round after : InterviewSchedule)
    (hround : Rewritten w.db w'.db round after)
    (hcarried : Carried w.calendars w'.calendars round after) (hw : Tracked w) : Tracked w' := by
  have hfound := hround.found
  rw [← hround.sameId] at hfound
  obtain ⟨hmem, -⟩ := (Table.find?_eq_some _ _ _).mp hround.found
  constructor
  · intro r hr e he
    rw [hround.rounds, Table.mem_replace] at hr
    rcases hr with ⟨hold, -⟩ | ⟨rfl, -⟩
    · obtain ⟨hissued, hne⟩ := hw.issued r hold e he
      exact ⟨hcarried.grows e hissued, hne⟩
    · rcases hcarried.ids e he with hheld | ⟨hne, -, hissued⟩
      · obtain ⟨hissued, hne⟩ := hw.issued round hmem e hheld
        exact ⟨hcarried.grows e hissued, hne⟩
      · exact ⟨hissued, hne⟩
  · rw [hround.rounds]
    apply exclusive_replace _ after round hfound hw.one
    intro e he
    rcases hcarried.ids e he with hheld | ⟨-, hfresh, -⟩
    · exact .inl hheld
    · exact .inr fun r hr hre => hfresh (hw.issued r hr e hre).1
  · intro r hr
    rw [hround.rounds, Table.mem_replace] at hr
    rcases hr with ⟨hold, -⟩ | ⟨rfl, -⟩
    · exact hw.blank r hold
    · exact hcarried.blank

theorem tracked_added (blank after : InterviewSchedule) (hid : blank.externalCalendarEventId = none)
    (hrows : w'.db.interviewSchedules.rows = w.db.interviewSchedules.rows ++ [after])
    (hcarried : Carried w.calendars w'.calendars blank after) (hw : Tracked w) : Tracked w' := by
  have hids (e : String) (he : after.externalCalendarEventId = some e) :
      e ≠ "" ∧ e ∉ w.calendars.issued ∧ e ∈ w'.calendars.issued := by
    apply (hcarried.ids e he).resolve_left
    rw [hid]
    simp
  constructor
  · intro r hr e he
    rw [hrows, List.mem_append, List.mem_singleton] at hr
    rcases hr with hold | rfl
    · obtain ⟨hissued, hne⟩ := hw.issued r hold e he
      exact ⟨hcarried.grows e hissued, hne⟩
    · obtain ⟨hne, -, hissued⟩ := hids e he
      exact ⟨hissued, hne⟩
  · rw [hrows]
    apply exclusive_append _ after hw.one
    intro e he r hr hre
    obtain ⟨-, hfresh, -⟩ := hids e he
    exact hfresh (hw.issued r hr e hre).1
  · intro r hr
    rw [hrows, List.mem_append, List.mem_singleton] at hr
    rcases hr with hold | rfl
    · exact hw.blank r hold
    · exact hcarried.blank

theorem tracked_cancelled (cc : Uuid) (reason : String) (now : Instant)
    (hrounds : w'.db.interviewSchedules = w.db.interviewSchedules.modify
      (cancelledIn cc reason now) (cancelledIn_id cc reason now))
    (hcalendars : w'.calendars = w.calendars) (hw : Tracked w) : Tracked w' := by
  have hrow (r : InterviewSchedule) (hr : r ∈ w'.db.interviewSchedules.rows) :
      ∃ old ∈ w.db.interviewSchedules.rows, cancelledIn cc reason now old = r := by
    rw [hrounds, Table.rows_modify] at hr
    exact List.mem_map.mp hr
  constructor
  · intro r hr e he
    obtain ⟨old, hold, rfl⟩ := hrow r hr
    rw [cancelledIn_externalCalendarEventId] at he
    rw [hcalendars]
    exact hw.issued old hold e he
  · rw [hrounds, Table.rows_modify]
    exact exclusive_map _ _ hw.one (cancelledIn_externalCalendarEventId cc reason now)
  · intro r hr hpending
    obtain ⟨old, hold, rfl⟩ := hrow r hr
    rw [cancelledIn_platform]
    rcases cancelledIn_status cc reason now old with hsame | hcancelled
    · exact hw.blank old hold (hsame.symm.trans hpending)
    · exact absurd (hcancelled.symm.trans hpending) (by decide)

theorem Change.tracked (h : Change w w' stranded) (hw : Tracked w) : Tracked w' := by
  cases h with
  | same hrounds hcalendars =>
    obtain ⟨hissued, hone, hblank⟩ := hw
    constructor
    · rwa [hrounds, hcalendars]
    · rwa [hrounds]
    · rwa [hrounds]
  | rewritten round after hround hcarried => exact tracked_rewritten round after hround hcarried hw
  | added blank after hstatus hid hrows hcarried =>
    exact tracked_added blank after hid hrows hcarried hw
  | cancelled cc reason now hrounds hcalendars =>
    exact tracked_cancelled cc reason now hrounds hcalendars hw

theorem exclusive_event (hw : Tracked w) : Exclusive event w.db.interviewSchedules.rows := by
  have hid (r : InterviewSchedule) (x : CalendarProvider × String) (hx : event r = some x) :
      r.externalCalendarEventId = some x.2 := by
    rw [event] at hx
    split_ifs at hx
    obtain ⟨provider, -, hx⟩ := Option.bind_eq_some_iff.mp hx
    obtain ⟨e, he, rfl⟩ := Option.map_eq_some_iff.mp hx
    exact he
  intro r hr s hs x hx hy
  exact hw.one r hr s hs x.2 (hid r x hx) (hid s x hy)

theorem event_kept_iff (hsynced : Synced w) (cc : Uuid) (reason : String) (now : Instant) :
    (∀ r ∈ w.db.interviewSchedules.rows, event (cancelledIn cc reason now r) = event r) ↔
      ¬Hosted w.db cc := by
  constructor
  · intro hall hhosted
    obtain ⟨r, hr, hcc, hstatus, hvideo⟩ := hhosted
    have htakes : takesPlace r := by
      rcases hstatus with hstatus | hstatus <;> simp [takesPlace, hstatus]
    have hactive : r.status.active = true := by
      rcases hstatus with hstatus | hstatus <;> simp [InterviewStatus.active, hstatus]
    have hid := hsynced.hosted r hr htakes hvideo
    obtain ⟨provider, hprovider⟩ := Option.ne_none_iff_exists'.mp hvideo
    obtain ⟨e, he⟩ := Option.ne_none_iff_exists'.mp hid
    have hsame := hall r hr
    rw [event_cancelledIn, if_pos ⟨hcc, hactive⟩, event_eq_some htakes hprovider he] at hsame
    simp at hsame
  · intro hfree r hr
    rw [event_cancelledIn]
    split_ifs with hselected
    · obtain ⟨hcc, hactive⟩ := hselected
      by_cases htakes : takesPlace r
      · have hstatus : r.status = .scheduled ∨ r.status = .rescheduled := by
          rw [takesPlace] at htakes
          cases hcase : r.status <;> simp_all [InterviewStatus.active]
        have hvideo : calendarServiceFor r.platform = none := by
          by_contra hvideo
          exact hfree ⟨r, hr, hcc, hstatus, hvideo⟩
        exact (event_of_platform hvideo).symm
      · exact (event_eq_none htakes).symm
    · rfl

-- A cascade tells no calendar, so it has to find none concerned.
theorem synced_cancelled_iff (hw : Tracked w) (hsynced : Synced w) (cc : Uuid) (reason : String)
    (now : Instant) (hrounds : w'.db.interviewSchedules = w.db.interviewSchedules.modify
      (cancelledIn cc reason now) (cancelledIn_id cc reason now))
    (hcalendars : w'.calendars = w.calendars) : Synced w' ↔ ¬Hosted w.db cc := by
  have hevents : Mirrors event w'.db.interviewSchedules.rows w'.calendars.live ↔
      ∀ r ∈ w.db.interviewSchedules.rows, event (cancelledIn cc reason now r) = event r := by
    rw [hrounds, hcalendars, Table.rows_modify]
    apply mirrors_map_iff _ _ (exclusive_event hw) _ hsynced.events
    intro r
    rw [event_cancelledIn]
    split_ifs
    · exact .inr rfl
    · exact .inl rfl
  have hkept := event_kept_iff hsynced cc reason now
  have htracked := tracked_cancelled cc reason now hrounds hcalendars hw
  constructor
  · intro h
    exact hkept.mp (hevents.mp h.events)
  · intro hfree
    refine ⟨hevents.mpr (hkept.mpr hfree), htracked.one, ?_⟩
    intro r hr htakes hvideo
    rw [hrounds, Table.rows_modify] at hr
    obtain ⟨old, hold, rfl⟩ := List.mem_map.mp hr
    rw [cancelledIn_externalCalendarEventId]
    rw [cancelledIn_platform] at hvideo
    rcases cancelledIn_status cc reason now old with hsame | hcancelled
    · rw [takesPlace, hsame] at htakes
      exact hsynced.hosted old hold htakes hvideo
    · rw [takesPlace, hcancelled] at htakes
      exact absurd htakes (by decide)

theorem Change.synced_iff (h : Change w w' stranded) (hw : Tracked w) (hsynced : Synced w) :
    Synced w' ↔ ¬stranded := by
  have htracked := h.tracked hw
  cases h with
  | same hrounds hcalendars =>
    refine ⟨fun _ => not_false, fun _ => ⟨?_, htracked.one, ?_⟩⟩
    · rw [hrounds, hcalendars]
      exact hsynced.events
    · rw [hrounds]
      exact hsynced.hosted
  | rewritten round after hround hcarried =>
    obtain ⟨hmem, -⟩ := (Table.find?_eq_some _ _ _).mp hround.found
    have hlive (x : CalendarProvider × String) (hx : event round = some x) :
        x ∈ w.calendars.live := (hsynced.events x).mpr ⟨round, hmem, hx⟩
    refine ⟨fun _ => not_false, fun _ => ⟨?_, htracked.one, ?_⟩⟩
    · rw [hround.rounds]
      exact mirrors_replace _ after round (hround.sameId ▸ hround.found) (exclusive_event hw)
        (hcarried.exchanged hlive) hsynced.events
    · intro r hr
      rw [hround.rounds, Table.mem_replace] at hr
      rcases hr with ⟨hold, -⟩ | ⟨rfl, -⟩
      · exact hsynced.hosted r hold
      · exact hcarried.hosted (hsynced.hosted round hmem)
  | added blank after hstatus hid hrows hcarried =>
    have hnone := event_of_id hid
    have hexchanged := hcarried.exchanged (by simp [hnone])
    rw [hnone] at hexchanged
    refine ⟨fun _ => not_false, fun _ => ⟨?_, htracked.one, ?_⟩⟩
    · rw [hrows]
      exact mirrors_append _ after hexchanged hsynced.events
    · intro r hr
      rw [hrows, List.mem_append, List.mem_singleton] at hr
      rcases hr with hold | rfl
      · exact hsynced.hosted r hold
      · refine hcarried.hosted fun htakes => ?_
        exact absurd hstatus (not_pending_of_takesPlace htakes)
  | cancelled cc reason now hrounds hcalendars =>
    exact synced_cancelled_iff hw hsynced cc reason now hrounds hcalendars

theorem interview_change (call : InterviewCall) (hw : Tracked w)
    (h : Step table w (.interview call) w') : Change w w' False := by
  obtain ⟨calls, hrun, hsucceed, hcalendars⟩ := h
  have hrow (round : InterviewSchedule)
      (hfound : w.db.interviewSchedules.find? round.id = some round) :
      (∀ e, round.externalCalendarEventId = some e → e ≠ "") ∧
        (round.status = .pending → round.platform = none) := by
    obtain ⟨hmem, -⟩ := (Table.find?_eq_some _ _ _).mp hfound
    exact ⟨fun e he => (hw.issued round hmem e he).2, hw.blank round hmem⟩
  cases InterviewCall.run_ok _ _ _ _ hrun with
  | filled cc actorId actorRoles request env latest hlatest hpending hround hcalls =>
    subst hcalls
    refine .rewritten latest _ hround ?_
    rw [hcalendars]
    exact applyScheduleRequest_carried request actorId actorRoles hpending hsucceed
  | next cc actorId actorRoles request env latest added hlatest hfree hadded hrows hcandidates
      hcalls =>
      subst hcalls hadded
      refine .added (newRound cc (latest.roundNumber + 1) env.now
        w.db.interviewSchedules.next) _ rfl rfl hrows ?_
      rw [hcalendars]
      exact applyScheduleRequest_carried request actorId actorRoles rfl hsucceed
  | lost cc actorId actorRoles request env hsame hcalls =>
    subst hcalls
    exact .same (congrArg Db.interviewSchedules hsame) hcalendars
  | rescheduled interviewId actorId actorRoles request env round hstatus hround hcalls =>
    subst hcalls
    refine .rewritten round _ hround ?_
    rw [hcalendars]
    exact rescheduled_carried request hstatus (hrow round hround.found).1 hsucceed
  | cancelled interviewId actorId actorRoles reason env round hstatus hround hcalls =>
    subst hcalls
    refine .rewritten round _ hround ?_
    obtain ⟨hnamed, hblank⟩ := hrow round hround.found
    rw [hcalendars]
    exact cancelled_carried reason env.now hnamed hblank hstatus
  | completed interviewId actorId actorRoles env round hstatus hended hround hcalls =>
    subst hcalls
    refine .rewritten round _ hround ?_
    rw [hcalendars]
    exact completed_carried env.now (hrow round hround.found).2 hstatus

theorem move_change (call : StageWrite × Instant) (h : Step table w (.move call) w') :
    ∃ stranded, Change w w' stranded ∧ (stranded ↔ Strands w.db (.move call)) := by
  obtain ⟨hstep, hcalendars⟩ := h
  rcases StageWrite.step_cases call hstep with
    ⟨before, after, heffect⟩ | ⟨cc, env, before, after, hcall, hrescored⟩
  · by_cases hhooks : call.1.RunsHooks
    · have hrounds := heffect.hooked hhooks
      have hfound := heffect.moved.found
      rw [heffect.candidate] at hfound
      -- the step strands an event exactly when its move cascades onto one
      have hstrands : Strands w.db (.move call) ↔
          cascades before.pipelineStage after.pipelineStage ∧ Hosted w.db before.id := by
        rw [Strands, heffect.candidate]
        constructor
        · intro hstrands
          obtain ⟨-, ⟨row, stage, hrow, htarget, hcascade⟩, hhosted⟩ := hstrands
          obtain rfl : row = before := Option.some.inj (hrow.symm.trans hfound)
          obtain rfl : stage = after.pipelineStage :=
            Option.some.inj (htarget.symm.trans heffect.target)
          exact ⟨hcascade, hhosted⟩
        · intro hboth
          obtain ⟨hcascade, hhosted⟩ := hboth
          exact ⟨hhooks, ⟨before, after.pipelineStage, hfound, heffect.target, hcascade⟩, hhosted⟩
      rw [hookedRounds] at hrounds
      split_ifs at hrounds with hentry hcascade
      · have hno : ¬cascades before.pipelineStage after.pipelineStage := by
          rw [hentry, cascades]
          simp [interviewExitCascadeStages]
        refine ⟨False, ?_, by simp [hstrands, hno]⟩
        rw [withPending] at hrounds
        split_ifs at hrounds
        · exact .same hrounds hcalendars
        · refine .added (newRound before.id 1 call.2 w.db.interviewSchedules.next) _ rfl rfl
            (congrArg Table.rows hrounds) ?_
          rw [hcalendars]
          exact carried_refl _ fun _ => rfl
      · refine ⟨_, .cancelled before.id (cascadeReason after.pipelineStage) call.2 hrounds
          hcalendars, ?_⟩
        rw [hstrands]
        exact ⟨fun hhosted => ⟨hcascade, hhosted⟩, fun hboth => hboth.2⟩
      · exact ⟨False, .same hrounds hcalendars, by simp [hstrands, hcascade]⟩
    · refine ⟨False, .same (heffect.unhooked hhooks) hcalendars, ?_⟩
      exact ⟨False.elim, fun hstrands => hhooks hstrands.1⟩
  · refine ⟨False, .same (by rw [hrescored.db]) hcalendars, False.elim, fun hstrands => ?_⟩
    have hhooks := hstrands.1
    rw [hcall] at hhooks
    exact hhooks

theorem step_change (action : Action) (hw : Tracked w) (h : Step table w action w') :
    ∃ stranded, Change w w' stranded ∧ (stranded ↔ Strands w.db action) := by
  cases action with
  | interview call => exact ⟨False, interview_change call hw h, Iff.rfl⟩
  | move call => exact move_change call h
  | cascade cc reason changedBy changedByRole now =>
    obtain ⟨hcancel, hcalendars⟩ := h
    have hdb := cancelActiveRounds_ok _ _ _ _ _ _ _ hcancel
    exact ⟨_, .cancelled cc reason now (congrArg Db.interviewSchedules hdb) hcalendars, Iff.rfl⟩

end Steps

def Start (w : World) : Prop :=
  w.db.interviewSchedules.rows = [] ∧ w.calendars.live = []

theorem start_tracked (w : World) (h : Start w) : Tracked w := by
  obtain ⟨hrows, -⟩ := h
  constructor <;> simp [hrows, Exclusive]

theorem start_synced (w : World) (h : Start w) : Synced w := by
  obtain ⟨hrows, hlive⟩ := h
  constructor <;> simp [hrows, hlive, Mirrors, Exclusive]

-- The calendars stay in step with the rounds along a run exactly when no cascade
-- of the run cancels a scheduled round on a video platform.
theorem synced_throughout_iff (table : TransitionTable) (w : World) (hstart : Start w)
    (path : List (Action × World)) (hp : Path (Step table) w path) :
    (∀ t ∈ visited w path, Synced t) ↔
      EveryStep (fun s action _ => ¬Strands s.db action) w path := by
  refine hp.visited_iff_everyStep (start_tracked w hstart) ?_ (start_synced w hstart) ?_
  · intro s action t hs hstep
    obtain ⟨stranded, hchange, -⟩ := step_change action hs hstep
    exact hchange.tracked hs
  · intro s action t hs hsynced hstep
    obtain ⟨stranded, hchange, hstrands⟩ := step_change action hs hstep
    rw [hchange.synced_iff hs hsynced, hstrands]

def selectedFromInterview : List Action :=
  [.move (.transition 0 .shortlisted recruiter none none idle, 2),
   .move (.transition 0 .interview recruiter none none idle, 3),
   .interview (.schedule 0 "recruiter" ["RECRUITER"] videoCall office),
   .move (.transition 0 .selected recruiter none none idle, 5)]

def screenedWorld : World where
  db := screenedDb
  calendars := { live := [], issued := [] }

def selectedFromInterviewRun : List (Action × World) :=
  execute (next? seededTransitions) screenedWorld selectedFromInterview

theorem selectedFromInterviewRun_path :
    Path (Step seededTransitions) screenedWorld selectedFromInterviewRun :=
  execute_path (next? seededTransitions)
    (fun w action w' h => next?_step seededTransitions w w' action h) screenedWorld
    selectedFromInterview

theorem synced_throughout_iff_selectedFromInterview :
    (∀ t ∈ visited screenedWorld selectedFromInterviewRun, Synced t) ↔
      EveryStep (fun s action _ => ¬Strands s.db action) screenedWorld
        selectedFromInterviewRun :=
  synced_throughout_iff seededTransitions screenedWorld ⟨rfl, rfl⟩ selectedFromInterviewRun
    selectedFromInterviewRun_path

-- The cascade cancels the round and leaves its event in the calendar.
theorem not_synced_after_selection :
    Start screenedWorld ∧ Path (Step seededTransitions) screenedWorld selectedFromInterviewRun ∧
      ¬∀ t ∈ visited screenedWorld selectedFromInterviewRun, Synced t := by
  refine ⟨⟨rfl, rfl⟩, selectedFromInterviewRun_path, fun hall => ?_⟩
  have hsynced := hall _ (final_mem_visited screenedWorld selectedFromInterviewRun)
  have hlive : (CalendarProvider.microsoft, "event-1") ∈
      (final screenedWorld selectedFromInterviewRun).calendars.live := by
    decide +kernel
  have hnobody : ¬∃ r ∈ (final screenedWorld selectedFromInterviewRun).db.interviewSchedules.rows,
      event r = some (CalendarProvider.microsoft, "event-1") := by
    decide +kernel
  exact hnobody ((hsynced.events _).mp hlive)

end CalendarSync

end AiHiring
