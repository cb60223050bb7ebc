import AiHiring.Interview.Effects

namespace AiHiring

open Library InterviewScheduleRepository InterviewScheduleService

namespace Sessions

-- What one session asks of `schedule`.
structure Request where
  campaignCandidateId : Uuid
  actorId : String
  actorRoles : List String
  request : ScheduleInterviewRequest
  env : InterviewEnv

-- How far a session is: `latest` is the object its query loaded, and a reserved
-- round is one that is inserted and not committed.
inductive Phase where
  | start
  | found (cc : CampaignCandidate) (latest : InterviewSchedule)
  | reserved (cc : CampaignCandidate) (latest : InterviewSchedule)
  | done

-- `reservations` are the uncommitted entries of the unique index on
-- (campaign_candidate_id, round_number).
structure World where
  db : Db
  reservations : List (Uuid × ℕ)
  phase : ℕ → Phase

def World.begin (db : Db) : World where
  db := db
  reservations := []
  phase := fun _ => .start

def World.at (world : World) (session : ℕ) (phase : Phase) : World :=
  { world with phase := Function.update world.phase session phase }

-- The statements of `schedule` come one at a time, every other call is one
-- transaction.
inductive Event where
  | read (session : ℕ)
  | reserve (session : ℕ)
  | fill (session : ℕ)
  | rollback (session : ℕ)
  | move (call : StageWrite × Instant)
  | call (call : InterviewCall)

-- A writer without the interview hooks that is asked for INTERVIEW; the
-- pipeline asks `transition_on_ai_success` for SHORTLISTED and HOLD only.
def EntersUnhooked : StageWrite → Prop
  | .transitionOnAiSuccess _ toStage _ _ _ _ _ => toStage = .interview
  | _ => False

instance (call : StageWrite) : Decidable (EntersUnhooked call) :=
  match call with
  | .transitionOnAiSuccess _ toStage _ _ _ _ _ =>
    inferInstanceAs (Decidable (toStage = .interview))
  | .transitionToScreening .. | .transitionToRejected .. | .applyHrOverride .. | .transition ..
  | .transitionStage .. | .revertOverride .. | .overrideCandidateStage ..
  | .flagCandidateForReview .. | .manualRescore .. => inferInstanceAs (Decidable False)

-- The UPDATE of the loaded round: of the columns that `_apply_schedule_request`
-- assigns, those that differ from what the session loaded are sent.
def flushed (stored loaded current : InterviewSchedule) : InterviewSchedule :=
  { stored with
    status := flushColumn stored.status loaded.status current.status
    interviewType := flushColumn stored.interviewType loaded.interviewType current.interviewType
    startAt := flushColumn stored.startAt loaded.startAt current.startAt
    endAt := flushColumn stored.endAt loaded.endAt current.endAt
    timezone := flushColumn stored.timezone loaded.timezone current.timezone
    candidateTimezone := flushColumn stored.candidateTimezone loaded.candidateTimezone
      current.candidateTimezone
    platform := flushColumn stored.platform loaded.platform current.platform
    meetingLink := flushColumn stored.meetingLink loaded.meetingLink current.meetingLink
    location := flushColumn stored.location loaded.location current.location
    notes := flushColumn stored.notes loaded.notes current.notes
    externalCalendarEventId := flushColumn stored.externalCalendarEventId
      loaded.externalCalendarEventId current.externalCalendarEventId
    scheduledBy := flushColumn stored.scheduledBy loaded.scheduledBy current.scheduledBy
    scheduledByRole := flushColumn stored.scheduledByRole loaded.scheduledByRole
      current.scheduledByRole
    updatedAt := flushColumn stored.updatedAt loaded.updatedAt current.updatedAt }

def Request.applied (request : Request) (schedule : InterviewSchedule) : InterviewSchedule :=
  (applyScheduleRequest schedule request.request request.actorId request.actorRoles
    request.env).1

def Request.logged (request : Request) (db : Db) (cc : CampaignCandidate)
    (schedule : InterviewSchedule) (previousRound : Option InterviewSchedule) : Db :=
  AuditService.log db (some request.actorId) request.actorRoles.head? .interviewScheduled
    .campaignCandidate cc.id (some cc.campaignId) (some (scheduledDetails schedule previousRound))

-- Fills in the PENDING round the session loaded, on the row as it is stored now.
def Request.fillLoaded (request : Request) (db : Db) (cc : CampaignCandidate)
    (loaded : InterviewSchedule) : Db :=
  let stored := (getById db loaded.id).getD loaded
  let schedule := flushed stored loaded (request.applied loaded)
  request.logged (InterviewScheduleRepository.update db schedule) cc schedule none

def Request.fillReserved (request : Request) (db : Db) (cc : CampaignCandidate)
    (latest : InterviewSchedule) : Db :=
  let reserved := newRound request.campaignCandidateId (latest.roundNumber + 1) request.env.now
    db.interviewSchedules.next
  let rounds := addRound db.interviewSchedules request.campaignCandidateId
    (latest.roundNumber + 1) request.env.now
  let db := { db with interviewSchedules := rounds }
  let schedule := request.applied reserved
  request.logged (InterviewScheduleRepository.update db schedule) cc schedule (some latest)

def entry (request : Request) (latest : InterviewSchedule) : Uuid × ℕ :=
  (request.campaignCandidateId, latest.roundNumber + 1)

section Steps

variable (table : TransitionTable) (requests : ℕ → Request)

def next? (world : World) : Event → Option World
  | .read session =>
    match world.phase session with
    | .start =>
      let request := requests session
      match getCandidateAndAuthorize world.db request.campaignCandidateId request.actorId
          request.actorRoles with
      | .error _ => some (world.at session .done)
      | .ok cc =>
        match getLatestByCampaignCandidateId world.db request.campaignCandidateId with
        | none => some (world.at session .done)
        | some latest => some (world.at session (.found cc latest))
    | _ => none
  | .reserve session =>
    match world.phase session with
    | .found cc latest =>
      let request := requests session
      if latest.status = .pending ∨ entry request latest ∈ world.reservations then
        -- nothing to insert, or the insert waits for the other transaction
        none
      else if (createNextRound world.db request.campaignCandidateId (latest.roundNumber + 1)
          request.env.now).2.2 then
        some { world.at session (.reserved cc latest) with
          reservations := entry request latest :: world.reservations }
      else
        some (world.at session .done)
    | _ => none
  | .fill session =>
    let request := requests session
    match world.phase session with
    | .found cc latest =>
      if latest.status = .pending then
        some { world.at session .done with db := request.fillLoaded world.db cc latest }
      else
        none
    | .reserved cc latest =>
      some { world.at session .done with
        db := request.fillReserved world.db cc latest
        reservations := world.reservations.filter (· ≠ entry request latest) }
    | _ => none
  | .rollback session =>
    match world.phase session with
    | .found _ _ => some (world.at session .done)
    | .reserved _ latest =>
      some { world.at session .done with
        reservations := world.reservations.filter (· ≠ entry (requests session) latest) }
    | _ => none
  | .move call =>
    if EntersUnhooked call.1 then none
    else (StageWrite.next? table world.db call).map fun db => { world with db := db }
  | .call call =>
    match call with
    | .schedule .. => none
    | _ => (call.run world.db).toOption.map fun result => { world with db := result.1 }

def Step (world : World) (event : Event) (world' : World) : Prop :=
  next? table requests world event = some world'

end Steps

section Inversion

variable {table : TransitionTable} {requests : ℕ → Request} {world world' : World}

theorem phase_at (session other : ℕ) (phase : Phase) :
    (world.at session phase).phase other =
      if other = session then phase else world.phase other :=
  Function.update_apply _ _ _ _

theorem step_read (session : ℕ) (h : Step table requests world (.read session) world') :
    world' = world.at session .done ∨ ∃ cc latest,
      getLatestByCampaignCandidateId world.db (requests session).campaignCandidateId =
        some latest ∧ world' = world.at session (.found cc latest) := by
  unfold Step next? at h
  cases hphase : world.phase session with
  | start =>
    simp only [hphase] at h
    split at h
    · exact .inl (Option.some.inj h).symm
    · split at h
      · exact .inl (Option.some.inj h).symm
      · exact .inr ⟨_, _, by assumption, (Option.some.inj h).symm⟩
  | _ => simp [hphase] at h

theorem step_reserve (session : ℕ) (h : Step table requests world (.reserve session) world') :
    ∃ cc latest, world.phase session = .found cc latest ∧
      entry (requests session) latest ∉ world.reservations ∧
      (((createNextRound world.db (requests session).campaignCandidateId (latest.roundNumber + 1)
          (requests session).env.now).2.2 = true ∧
        world' = { world.at session (.reserved cc latest) with
          reservations := entry (requests session) latest :: world.reservations }) ∨
      world' = world.at session .done) := by
  unfold Step next? at h
  cases hphase : world.phase session with
  | found cc latest =>
    simp only [hphase] at h
    split_ifs at h with hwait hcreated
    · exact ⟨cc, latest, rfl, fun hin => hwait (.inr hin),
        .inl ⟨hcreated, (Option.some.inj h).symm⟩⟩
    · exact ⟨cc, latest, rfl, fun hin => hwait (.inr hin), .inr (Option.some.inj h).symm⟩
  | _ => simp [hphase] at h

theorem step_fill (session : ℕ) (h : Step table requests world (.fill session) world') :
    (∃ cc latest, world.phase session = .found cc latest ∧ latest.status = .pending ∧
      world' = { world.at session .done with
        db := (requests session).fillLoaded world.db cc latest }) ∨
    ∃ cc latest, world.phase session = .reserved cc latest ∧
      world' = { world.at session .done with
        db := (requests session).fillReserved world.db cc latest
        reservations := world.reservations.filter (· ≠ entry (requests session) latest) } := by
  unfold Step next? at h
  cases hphase : world.phase session with
  | found cc latest =>
    simp only [hphase] at h
    split_ifs at h with hpending
    exact .inl ⟨cc, latest, rfl, hpending, (Option.some.inj h).symm⟩
  | reserved cc latest =>
    simp only [hphase] at h
    exact .inr ⟨cc, latest, rfl, (Option.some.inj h).symm⟩
  | _ => simp [hphase] at h

theorem step_rollback (session : ℕ) (h : Step table requests world (.rollback session) world') :
    (∃ cc latest, world.phase session = .found cc latest ∧ world' = world.at session .done) ∨
    ∃ cc latest, world.phase session = .reserved cc latest ∧
      world' = { world.at session .done with
        reservations := world.reservations.filter (· ≠ entry (requests session) latest) } := by
  unfold Step next? at h
  cases hphase : world.phase session with
  | found cc latest =>
    simp only [hphase] at h
    exact .inl ⟨cc, latest, rfl, (Option.some.inj h).symm⟩
  | reserved cc latest =>
    simp only [hphase] at h
    exact .inr ⟨cc, latest, rfl, (Option.some.inj h).symm⟩
  | _ => simp [hphase] at h

theorem step_move (call : StageWrite × Instant)
    (h : Step table requests world (.move call) world') :
    ¬EntersUnhooked call.1 ∧ ∃ db, StageWrite.Step table world.db call db ∧
      world' = { world with db := db } := by
  unfold Step next? at h
  dsimp only at h
  split_ifs at h with hunhooked
  obtain ⟨db, hdb, hworld⟩ := Option.map_eq_some_iff.mp h
  exact ⟨hunhooked, db, StageWrite.next?_step call hdb, hworld.symm⟩

def IsSchedule : InterviewCall → Prop
  | .schedule .. => True
  | _ => False

theorem step_call (call : InterviewCall) (h : Step table requests world (.call call) world') :
    ¬IsSchedule call ∧ ∃ db calls, call.run world.db = .ok (db, calls) ∧
      world' = { world with db := db } := by
  have hrun (hother : ¬IsSchedule call)
      (hmap : ((call.run world.db).toOption.map fun result => { world with db := result.1 }) =
        some world') : ¬IsSchedule call ∧ ∃ db calls, call.run world.db = .ok (db, calls) ∧
          world' = { world with db := db } := by
    obtain ⟨⟨db, calls⟩, hresult, hworld⟩ := Option.map_eq_some_iff.mp hmap
    cases hcall : call.run world.db with
    | error e => simp [hcall, Except.toOption] at hresult
    | ok last =>
      rw [hcall] at hresult
      exact ⟨hother, db, calls, congrArg Except.ok (Option.some.inj hresult), hworld.symm⟩
  cases call with
  | schedule cc actorId actorRoles request env => simp [Step, next?] at h
  | _ => exact hrun not_false h

end Inversion

section Alone

variable (table : TransitionTable) (requests : ℕ → Request)

theorem flushed_fresh (request : Request) (schedule : InterviewSchedule) :
    flushed schedule schedule (request.applied schedule) = request.applied schedule := by
  unfold flushed Request.applied applyScheduleRequest
  simp only [flushColumn_fresh]
  cases calendarServiceFor request.request.platform <;> rfl

theorem fillLoaded_fresh (request : Request) (db : Db) (cc : CampaignCandidate)
    (latest : InterviewSchedule) (hstored : getById db latest.id = some latest) :
    request.fillLoaded db cc latest =
      (fillRound db cc latest none request.actorId request.actorRoles request.request
        request.env).1 := by
  rw [Request.fillLoaded, hstored]
  dsimp only [Option.getD_some]
  rw [flushed_fresh]
  rfl

theorem createNextRound_latest (db : Db) (cc : Uuid) (latest : InterviewSchedule)
    (now : Instant) (hlatest : getLatestByCampaignCandidateId db cc = some latest) :
    createNextRound db cc (latest.roundNumber + 1) now =
      ({ db with interviewSchedules :=
          addRound db.interviewSchedules cc (latest.roundNumber + 1) now },
        newRound cc (latest.roundNumber + 1) now db.interviewSchedules.next, true) := by
  obtain ⟨-, -, hmax⟩ := mem_latest _ _ hlatest
  have hfree : db.interviewSchedules.rows.find? (fun r =>
      r.campaignCandidateId = cc ∧ r.roundNumber = latest.roundNumber + 1) = none := by
    rw [List.find?_eq_none]
    intro r hr htaken
    obtain ⟨hrc, hrn⟩ := of_decide_eq_true htaken
    have hle := hmax r hr hrc
    omega
  rw [createNextRound, hfree]

def statements (db : Db) (session : ℕ) : List Event :=
  match getLatestByCampaignCandidateId db (requests session).campaignCandidateId with
  | none => [.read session, .fill session]
  | some latest =>
    if latest.status = .pending then [.read session, .fill session]
    else [.read session, .reserve session, .fill session]

-- A session that runs alone is `schedule`.
theorem alone_eq_schedule (session : ℕ) (db : Db) :
    ((statements requests db session).foldlM (next? table requests) (World.begin db)).map
        World.db =
      (InterviewScheduleService.schedule db (requests session).campaignCandidateId
        (requests session).actorId (requests session).actorRoles (requests session).request
        (requests session).env).toOption.map Prod.fst := by
  generalize hrequest : requests session = request
  cases hauthorized : getCandidateAndAuthorize db request.campaignCandidateId request.actorId
      request.actorRoles with
  | error e =>
    have hschedule : InterviewScheduleService.schedule db request.campaignCandidateId
        request.actorId request.actorRoles request.request request.env = .error e := by
      rw [InterviewScheduleService.schedule, hauthorized]
      rfl
    rw [hschedule, statements]
    split
    · simp [next?, World.begin, World.at, hrequest, hauthorized, Except.toOption]
    · split_ifs <;>
        simp [next?, World.begin, World.at, hrequest, hauthorized, Except.toOption]
  | ok cc =>
    cases hlatest : getLatestByCampaignCandidateId db request.campaignCandidateId with
    | none =>
      simp [statements, InterviewScheduleService.schedule, next?, World.begin, World.at,
        hrequest, hauthorized, hlatest, bind, Except.bind, Except.toOption]
    | some latest =>
      by_cases hpending : latest.status = .pending
      · obtain ⟨hmem, -, -⟩ := mem_latest _ _ hlatest
        have hstored : getById db latest.id = some latest :=
          (db.interviewSchedules.find?_eq_some _ _).mpr ⟨hmem, rfl⟩
        simp [statements, InterviewScheduleService.schedule, next?, World.begin, World.at,
          hrequest, hauthorized, hlatest, hpending, bind, Except.bind, Except.toOption,
          fillLoaded_fresh _ _ _ _ hstored]
      · have hnext := createNextRound_latest db _ latest request.env.now hlatest
        simp [statements, InterviewScheduleService.schedule, next?, World.begin, World.at,
          hrequest, hauthorized, hlatest, hpending, bind, Except.bind, Except.toOption,
          hnext]
        rfl

end Alone

end Sessions

end AiHiring
