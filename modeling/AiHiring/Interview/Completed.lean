import AiHiring.Interview.Finalized

namespace AiHiring

open Library InterviewScheduleRepository

namespace CompletedRounds

-- A cascade is also taken on its own, at any time and for any candidate.
inductive Action where
  | hiring (action : HiringAction)
  | cascade (cc : Uuid) (reason : String) (changedBy changedByRole : Option String)
      (now : Instant)

def Step (table : TransitionTable) (db : Db) : Action → Db → Prop
  | .hiring action, db' => HiringAction.Step table db action db'
  | .cascade cc reason changedBy changedByRole now, db' =>
    cancelActiveRounds db cc reason changedBy changedByRole now = .ok db'

def next? (table : TransitionTable) (db : Db) : Action → Option Db
  | .hiring action => HiringAction.next? table db action
  | .cascade cc reason changedBy changedByRole now =>
    (cancelActiveRounds db cc reason changedBy changedByRole now).toOption

theorem next?_step (table : TransitionTable) (db db' : Db) (action : Action)
    (h : next? table db action = some db') : Step table db action db' := by
  cases action with
  | hiring action => exact HiringAction.next?_step table db db' action h
  | cascade cc reason changedBy changedByRole now =>
    cases hcancel : cancelActiveRounds db cc reason changedBy changedByRole now with
    | error e => simp [next?, hcancel, Except.toOption] at h
    | ok last =>
      obtain rfl : last = db' := by simpa [next?, hcancel, Except.toOption] using h
      exact hcancel

def StaysCompleted (interviewId : Uuid) (earlier later : Db) : Prop :=
  ∀ round, earlier.interviewSchedules.find? interviewId = some round →
    round.status = .completed → ∃ after, later.interviewSchedules.find? interviewId = some after ∧
        after.status = .completed ∧ after.startAt = round.startAt ∧ after.endAt = round.endAt

def CancelsCompleted (interviewId : Uuid) (db : Db) : Action → Prop
  | .hiring (.interview (.cancel id _ _ _ _)) => id = interviewId ∧
      ∃ round, db.interviewSchedules.find? interviewId = some round ∧ round.status = .completed
  | _ => False

variable {table : TransitionTable} {db db' : Db} {interviewId : Uuid}

theorem StaysCompleted.refl : StaysCompleted interviewId db db :=
  fun round hround hcompleted => ⟨round, hround, hcompleted, rfl, rfl⟩

theorem StaysCompleted.trans {db'' : Db} (h : StaysCompleted interviewId db db')
    (h' : StaysCompleted interviewId db' db'') : StaysCompleted interviewId db db'' := by
  intro round hround hcompleted
  obtain ⟨after, hafter, hstatus, hstart, hend⟩ := h round hround hcompleted
  obtain ⟨last, hlast, hlastStatus, hlastStart, hlastEnd⟩ := h' after hafter hstatus
  exact ⟨last, hlast, hlastStatus, hlastStart.trans hstart, hlastEnd.trans hend⟩

theorem staysCompleted_of_subset (h : db.interviewSchedules.rows ⊆ db'.interviewSchedules.rows) :
    StaysCompleted interviewId db db' := by
  intro round hround hcompleted
  obtain ⟨hmem, hid⟩ := (Table.find?_eq_some _ _ _).mp hround
  exact ⟨round, (Table.find?_eq_some _ _ _).mpr ⟨h hmem, hid⟩, hcompleted, rfl, rfl⟩

-- Only a round that is not COMPLETED is rewritten.
theorem staysCompleted_of_rewritten {round after : InterviewSchedule}
    (h : Rewritten db db' round after) (hopen : round.status ≠ .completed) :
    StaysCompleted interviewId db db' := by
  intro other hother hcompleted
  have hne : interviewId ≠ after.id := by
    intro hid
    rw [hid, h.sameId, h.found] at hother
    cases hother
    exact hopen hcompleted
  exact ⟨other, by rw [h.rounds, Table.find?_replace_ne _ _ _ hne]; exact hother, hcompleted,
    rfl, rfl⟩

theorem staysCompleted_of_cancelledIn (cc : Uuid) (reason : String) (now : Instant)
    (h : db'.interviewSchedules = db.interviewSchedules.modify (cancelledIn cc reason now)
      (cancelledIn_id cc reason now)) : StaysCompleted interviewId db db' := by
  intro round hround hcompleted
  have hinactive : round.status.active = false := by rw [hcompleted]; rfl
  refine ⟨round, ?_, hcompleted, rfl, rfl⟩
  rw [h, Table.find?_modify, hround, Option.map_some, cancelledIn, if_neg]
  intro hboth
  rw [hinactive] at hboth
  exact absurd hboth.2 (by simp)

theorem staysCompleted_of_hookedRounds (cc : Uuid) (fromStage toStage : PipelineStage)
    (now : Instant)
    (h : db'.interviewSchedules = hookedRounds db.interviewSchedules cc fromStage toStage now) :
    StaysCompleted interviewId db db' := by
  rw [hookedRounds] at h
  by_cases hentry : toStage = .interview
  · rw [if_pos hentry, withPending] at h
    split_ifs at h with hany
    · exact staysCompleted_of_subset (by rw [h]; exact List.Subset.refl _)
    · have hrows : db'.interviewSchedules.rows =
          db.interviewSchedules.rows ++ [newRound cc 1 now db.interviewSchedules.next] :=
        congrArg Table.rows h
      exact staysCompleted_of_subset (by rw [hrows]; exact List.subset_append_left _ _)
  · rw [if_neg hentry] at h
    by_cases hcascade : cascades fromStage toStage
    · rw [if_pos hcascade] at h
      exact staysCompleted_of_cancelledIn cc (cascadeReason toStage) now h
    · rw [if_neg hcascade] at h
      exact staysCompleted_of_subset (by rw [h]; exact List.Subset.refl _)

theorem move_staysCompleted (call : StageWrite × Instant) (h : StageWrite.Step table db call db') :
    StaysCompleted interviewId db db' := by
  rcases StageWrite.step_cases call h with
    ⟨before, after, heffect⟩ | ⟨cc, env, before, after, -, hrescored⟩
  · by_cases hhooks : call.1.RunsHooks
    · exact staysCompleted_of_hookedRounds _ _ _ _ (heffect.hooked hhooks)
    · refine staysCompleted_of_subset ?_
      rw [heffect.unhooked hhooks]
      exact List.Subset.refl _
  · refine staysCompleted_of_subset ?_
    rw [hrescored.db]
    exact List.Subset.refl _

-- Of the calls of the service only `cancel` lets a COMPLETED round through.
theorem schedule_staysCompleted {calls : List CalendarCall} (cc : Uuid) (actorId : String)
    (actorRoles : List String) (request : ScheduleInterviewRequest) (env : InterviewEnv)
    (h : InterviewScheduleService.schedule db cc actorId actorRoles request env =
      .ok (db', calls)) : StaysCompleted interviewId db db' := by
  cases schedule_ok cc request h with
  | filled _ _ _ _ _ latest hlatest hpending hround hcalls =>
    refine staysCompleted_of_rewritten hround ?_
    rw [hpending]
    decide
  | next _ _ _ _ _ latest added hlatest hfree hadded hrows hcandidates hcalls =>
    refine staysCompleted_of_subset ?_
    rw [hrows]
    exact List.subset_append_left _ _
  | lost _ _ _ _ _ hsame hcalls =>
    rw [hsame]
    exact StaysCompleted.refl

theorem cancel_staysCompleted {calls : List CalendarCall} (id : Uuid) (actorId : String)
    (actorRoles : List String) (reason : String) (env : InterviewEnv)
    (h : InterviewScheduleService.cancel db id actorId actorRoles reason env = .ok (db', calls)) :
    StaysCompleted interviewId db db' ↔ ¬CancelsCompleted interviewId db
        (.hiring (.interview (.cancel id actorId actorRoles reason env))) := by
  obtain ⟨round, rfl, -, hround, -⟩ := cancel_rewritten id reason h
  by_cases hcompleted : round.status = .completed
  · constructor
    · intro hstays hcancels
      obtain ⟨rfl, -⟩ := hcancels
      obtain ⟨after, hafter, hstatus, -, -⟩ := hstays round hround.found hcompleted
      have hcancelled : db'.interviewSchedules.find? round.id =
          some (cancelled reason env.now round) := by
        rw [hround.rounds]
        exact Table.find?_replace_self _ (cancelled reason env.now round) round hround.found
      rw [hcancelled] at hafter
      cases hafter
      simp [cancelled] at hstatus
    · intro hno other hother hstatus
      have hne : interviewId ≠ round.id := fun hid =>
        hno ⟨hid.symm, other, hother, hstatus⟩
      refine ⟨other, ?_, hstatus, rfl, rfl⟩
      rw [hround.rounds, Table.find?_replace_ne _ (cancelled reason env.now round) _ hne]
      exact hother
  · refine iff_of_true (staysCompleted_of_rewritten hround hcompleted) ?_
    rintro ⟨rfl, other, hother, hstatus⟩
    rw [hround.found] at hother
    cases hother
    exact hcompleted hstatus

theorem step_staysCompleted (action : Action) (h : Step table db action db') :
    StaysCompleted interviewId db db' ↔ ¬CancelsCompleted interviewId db action := by
  cases action with
  | cascade cc reason changedBy changedByRole now =>
    have hdb := cancelActiveRounds_ok _ _ _ _ _ _ _ h
    exact iff_of_true (staysCompleted_of_cancelledIn cc reason now
      (congrArg Db.interviewSchedules hdb)) id
  | hiring action =>
    cases action with
    | move call => exact iff_of_true (move_staysCompleted call h) id
    | interview call =>
      obtain ⟨calls, hrun⟩ := h
      cases call with
      | schedule cc actorId actorRoles request env =>
        exact iff_of_true (schedule_staysCompleted cc actorId actorRoles request env hrun) id
      | reschedule id actorId actorRoles request env =>
        obtain ⟨round, -, hstatus, hround, -⟩ := reschedule_rewritten id request hrun
        refine iff_of_true (staysCompleted_of_rewritten hround fun hcompleted => ?_) not_false
        rw [hcompleted] at hstatus
        exact absurd hstatus (by decide)
      | cancel id actorId actorRoles reason env =>
        exact cancel_staysCompleted id actorId actorRoles reason env hrun
      | complete id actorId actorRoles env =>
        obtain ⟨round, -, hstatus, -, hround, -⟩ := complete_rewritten id hrun
        refine iff_of_true (staysCompleted_of_rewritten hround fun hcompleted => ?_) not_false
        rw [hcompleted] at hstatus
        exact absurd hstatus (by decide)

-- In a run, a COMPLETED round stays as it is exactly when no call of `cancel`
-- is made on it.
theorem completed_final_iff (table : TransitionTable) (interviewId : Uuid) (db : Db)
    (path : List (Action × Db)) (hp : Path (Step table) db path) :
    (visited db path).Pairwise (StaysCompleted interviewId) ↔
      EveryStep (fun s action _ => ¬CancelsCompleted interviewId s action) db path := by
  have htrans (a b c : Db) (hab : StaysCompleted interviewId a b)
      (hbc : StaysCompleted interviewId b c) : StaysCompleted interviewId a c := hab.trans hbc
  rw [pairwise_visited_iff htrans]
  exact hp.everyStep_congr trivial (fun _ _ _ _ _ => trivial) fun s action t _ hstep =>
    step_staysCompleted action hstep

def completedThenCancelled : List Action :=
  [.hiring (.move (.transition 0 .shortlisted recruiter none none idle, 2)),
   .hiring (.move (.transition 0 .interview recruiter none none idle, 3)),
   .hiring (.interview (.schedule 0 "recruiter" ["RECRUITER"] videoCall office)),
   .hiring (.interview (.complete 0 "recruiter" ["RECRUITER"] { office with now := 2012 })),
   .hiring (.interview (.cancel 0 "recruiter" ["RECRUITER"] "Position filled" office))]

def completedThenCancelledRun : List (Action × Db) :=
  execute (next? seededTransitions) screenedDb completedThenCancelled

theorem completedThenCancelledRun_path :
    Path (Step seededTransitions) screenedDb completedThenCancelledRun :=
  execute_path (next? seededTransitions)
    (fun s action t h => next?_step seededTransitions s t action h) screenedDb
    completedThenCancelled

theorem completed_final_iff_completedThenCancelled :
    (visited screenedDb completedThenCancelledRun).Pairwise (StaysCompleted 0) ↔
      EveryStep (fun s action _ => ¬CancelsCompleted 0 s action) screenedDb
        completedThenCancelledRun :=
  completed_final_iff seededTransitions 0 screenedDb completedThenCancelledRun
    completedThenCancelledRun_path

theorem completedThenCancelledRun_statuses :
    (visited screenedDb completedThenCancelledRun).map (fun db =>
      (db.interviewSchedules.find? 0).map InterviewSchedule.status) =
        [none, none, some .pending, some .scheduled, some .completed, some .cancelled] := by
  decide +kernel

theorem completed_round_cancelled :
    Path (Step seededTransitions) screenedDb completedThenCancelledRun ∧
      ¬(visited screenedDb completedThenCancelledRun).Pairwise (StaysCompleted 0) := by
  refine ⟨completedThenCancelledRun_path, fun hall => ?_⟩
  have hstatuses := completedThenCancelledRun_statuses
  generalize visited screenedDb completedThenCancelledRun = states at hall hstatuses
  have hlength : states.length = 6 := by simpa using congrArg List.length hstatuses
  have hearlier := congrArg (fun l => l[4]?) hstatuses
  have hlater := congrArg (fun l => l[5]?) hstatuses
  rw [List.getElem?_map, List.getElem?_eq_getElem (by omega), Option.map_some] at hearlier hlater
  obtain ⟨round, hround, hcompleted⟩ := Option.map_eq_some_iff.mp (Option.some.inj hearlier)
  obtain ⟨after, hafter, hstatus, -, -⟩ :=
    List.pairwise_iff_getElem.mp hall 4 5 (by omega) (by omega) (by omega) round hround hcompleted
  rw [hafter, Option.map_some, hstatus] at hlater
  exact absurd (Option.some.inj hlater) (by decide)

end CompletedRounds

end AiHiring
