import AiHiring.Interview.Sessions
import AiHiring.Pipeline.Intake

namespace AiHiring

open Library InterviewScheduleRepository InterviewScheduleService

namespace RoundStructure

open Sessions

def numbersOf (db : Db) (cc : Uuid) : List ℕ :=
  (db.roundsOf cc).map InterviewSchedule.roundNumber

def Held (status : InterviewStatus) : Prop :=
  status ∈ [InterviewStatus.scheduled, .rescheduled, .completed]

structure WellFormed (db : Db) : Prop where
  entered : ∀ cc ∈ db.campaignCandidates.rows, cc.pipelineStage = .interview →
    db.roundsOf cc.id ≠ []
  numbered : ∀ cc, ∃ n, numbersOf db cc = List.range' 1 n
  pending : ∀ r ∈ db.interviewSchedules.rows, r.status = .pending → r.roundNumber = 1
  onePending : ∀ r ∈ db.interviewSchedules.rows, ∀ s ∈ db.interviewSchedules.rows,
    r.campaignCandidateId = s.campaignCandidateId → r.status = .pending → s.status = .pending →
      r = s
  timed : ∀ r ∈ db.interviewSchedules.rows, Held r.status → r.startAt ≠ none ∧ r.endAt ≠ none

-- A move to INTERVIEW finds the candidate's rounds and leaves the table alone.
def ReentryKeeps (world : World) (event : Event) (world' : World) : Prop :=
  match event with
  | .move call => ∀ row, world.db.campaignCandidates.find? call.1.candidate = some row →
      call.1.target row = some .interview → world.db.roundsOf row.id ≠ [] →
        world'.db.interviewSchedules = world.db.interviewSchedules
  | _ => True

-- A PENDING round is the blank first one.
structure RoundOk (r : InterviewSchedule) : Prop where
  pending : r.status = .pending → r.roundNumber = 1 ∧ r.startAt = none ∧ r.endAt = none
  timed : Held r.status → r.startAt ≠ none ∧ r.endAt ≠ none

structure Formed (db : Db) : Prop where
  entered : ∀ cc ∈ db.campaignCandidates.rows, cc.pipelineStage = .interview →
    numbersOf db cc.id ≠ []
  numbered : ∀ cc, ∃ n, numbersOf db cc = List.range' 1 n
  rounds : ∀ r ∈ db.interviewSchedules.rows, RoundOk r

-- What a step does to the rounds: it rewrites some, and may give one more round
-- to the candidates in `who`.
structure Grown (db db' : Db) (who : Uuid → Prop) : Prop where
  numbers : ∀ cc, numbersOf db' cc = numbersOf db cc ∨
    (who cc ∧ numbersOf db' cc = numbersOf db cc ++ [(numbersOf db cc).length + 1])
  rounds : (∀ r ∈ db.interviewSchedules.rows, RoundOk r) →
    ∀ r ∈ db'.interviewSchedules.rows, RoundOk r

variable (row round : InterviewSchedule)

section Rounds

variable {db db' : Db} {who : Uuid → Prop}

theorem mem_numbersOf (cc : Uuid) (n : ℕ) : n ∈ numbersOf db cc ↔
    ∃ r ∈ db.interviewSchedules.rows, r.campaignCandidateId = cc ∧ r.roundNumber = n := by
  simp [numbersOf, Db.roundsOf, and_assoc]

theorem numbersOf_map (f : InterviewSchedule → InterviewSchedule)
    (hrows : db'.interviewSchedules.rows = db.interviewSchedules.rows.map f)
    (hf : ∀ r ∈ db.interviewSchedules.rows,
      (f r).campaignCandidateId = r.campaignCandidateId ∧ (f r).roundNumber = r.roundNumber)
    (cc : Uuid) : numbersOf db' cc = numbersOf db cc := by
  rw [numbersOf, numbersOf, Db.roundsOf, Db.roundsOf, hrows]
  generalize db.interviewSchedules.rows = rows at hf
  induction rows with
  | nil => rfl
  | cons r rest ih =>
    obtain ⟨hcc, hnumber⟩ := hf r List.mem_cons_self
    have hrest := ih fun s hs => hf s (List.mem_cons_of_mem _ hs)
    by_cases hr : r.campaignCandidateId = cc
    · simp [hcc, hr, hnumber, hrest]
    · simp [hcc, hr, hrest]

theorem numbersOf_append
    (hrows : db'.interviewSchedules.rows = db.interviewSchedules.rows ++ [row]) (cc : Uuid) :
    numbersOf db' cc = numbersOf db cc ++
      if row.campaignCandidateId = cc then [row.roundNumber] else [] := by
  rw [numbersOf, numbersOf, Db.roundsOf, Db.roundsOf, hrows, List.filter_append, List.map_append]
  by_cases hcc : row.campaignCandidateId = cc <;> simp [hcc]

theorem grown_same (hrounds : db'.interviewSchedules = db.interviewSchedules) :
    Grown db db' who := by
  constructor
  · intro cc
    rw [numbersOf, numbersOf, Db.roundsOf, Db.roundsOf, hrounds]
    exact .inl rfl
  · rw [hrounds]
    exact fun hall => hall

theorem grown_map (f : InterviewSchedule → InterviewSchedule)
    (hrows : db'.interviewSchedules.rows = db.interviewSchedules.rows.map f)
    (hf : ∀ r ∈ db.interviewSchedules.rows,
      (f r).campaignCandidateId = r.campaignCandidateId ∧ (f r).roundNumber = r.roundNumber)
    (hok : ∀ r ∈ db.interviewSchedules.rows, RoundOk r → RoundOk (f r)) : Grown db db' who := by
  refine ⟨fun cc => .inl (numbersOf_map f hrows hf cc), fun hall r hr => ?_⟩
  rw [hrows] at hr
  obtain ⟨old, hold, rfl⟩ := List.mem_map.mp hr
  exact hok old hold (hall old hold)

theorem grown_replace (hrounds : db'.interviewSchedules = db.interviewSchedules.replace row)
    (hrow : ∀ r ∈ db.interviewSchedules.rows, r.id = row.id →
      row.campaignCandidateId = r.campaignCandidateId ∧ row.roundNumber = r.roundNumber ∧
        (RoundOk r → RoundOk row)) : Grown db db' who := by
  refine grown_map _ (by rw [hrounds, Table.rows_replace]) (fun r hr => ?_) (fun r hr hold => ?_)
  · by_cases hid : r.id = row.id
    · obtain ⟨hcc, hnumber, -⟩ := hrow r hr hid
      simp [hid, hcc, hnumber]
    · simp [hid]
  · by_cases hid : r.id = row.id
    · obtain ⟨-, -, hok⟩ := hrow r hr hid
      simpa [hid] using hok hold
    · simpa [hid] using hold

theorem grown_append (hrows : db'.interviewSchedules.rows = db.interviewSchedules.rows ++ [row])
    (hnumber : row.roundNumber = (numbersOf db row.campaignCandidateId).length + 1)
    (hok : RoundOk row) : Grown db db' (fun cc => cc = row.campaignCandidateId) := by
  constructor
  · intro cc
    rw [numbersOf_append row hrows]
    by_cases hcc : row.campaignCandidateId = cc
    · subst hcc
      rw [if_pos rfl, hnumber]
      exact .inr ⟨rfl, rfl⟩
    · rw [if_neg hcc, List.append_nil]
      exact .inl rfl
  · intro hall r hr
    rw [hrows, List.mem_append, List.mem_singleton] at hr
    rcases hr with hr | rfl
    · exact hall r hr
    · exact hok

theorem Grown.mono {who' : Uuid → Prop} (h : Grown db db' who) (hwho : ∀ cc, who cc → who' cc) :
    Grown db db' who' :=
  ⟨fun cc => (h.numbers cc).imp_right fun hgrown => ⟨hwho cc hgrown.1, hgrown.2⟩, h.rounds⟩

-- Numbers are only ever appended, so a round once made stays.
theorem Grown.kept (h : Grown db db' who) (cc : Uuid) (hne : numbersOf db cc ≠ []) :
    numbersOf db' cc ≠ [] := by
  rcases h.numbers cc with hsame | ⟨-, happend⟩
  · rwa [hsame]
  · rw [happend]
    simp

theorem Grown.length_le (h : Grown db db' who) (cc : Uuid) :
    (numbersOf db cc).length ≤ (numbersOf db' cc).length := by
  rcases h.numbers cc with hsame | ⟨-, happend⟩
  · rw [hsame]
  · rw [happend, List.length_append]
    omega

theorem Grown.formed (h : Grown db db' who) (hdb : Formed db)
    (hentered : ∀ cc ∈ db'.campaignCandidates.rows, cc.pipelineStage = .interview →
      numbersOf db' cc.id ≠ []) : Formed db' := by
  refine ⟨hentered, fun cc => ?_, h.rounds hdb.rounds⟩
  obtain ⟨n, hn⟩ := hdb.numbered cc
  rcases h.numbers cc with hsame | ⟨-, happend⟩
  · exact ⟨n, hsame.trans hn⟩
  · refine ⟨n + 1, ?_⟩
    rw [happend, hn, List.length_range', List.range'_concat]
    simp [Nat.add_comm]

theorem Formed.wellFormed (h : Formed db) : WellFormed db where
  entered := by
    intro cc hcc hstage hnone
    apply h.entered cc hcc hstage
    rw [numbersOf, hnone]
    rfl
  numbered := h.numbered
  pending := fun r hr hpending => ((h.rounds r hr).pending hpending).1
  onePending := by
    intro r hr s hs hcc hpending hpending'
    obtain ⟨n, hn⟩ := h.numbered r.campaignCandidateId
    have hnodup : (numbersOf db r.campaignCandidateId).Nodup := by
      rw [hn]
      exact List.nodup_range'
    have hmem (t : InterviewSchedule) (ht : t ∈ db.interviewSchedules.rows)
        (htc : t.campaignCandidateId = r.campaignCandidateId) :
        t ∈ db.roundsOf r.campaignCandidateId :=
      List.mem_filter.mpr ⟨ht, decide_eq_true htc⟩
    have hnumber := ((h.rounds r hr).pending hpending).1
    have hnumber' := ((h.rounds s hs).pending hpending').1
    exact List.inj_on_of_nodup_map hnodup (hmem r hr rfl) (hmem s hs hcc.symm)
      (hnumber.trans hnumber'.symm)
  timed := fun r hr hheld => (h.rounds r hr).timed hheld

end Rounds

section Writes

variable {table : TransitionTable} {db db' : Db}

theorem roundOk_cancelledIn (cc : Uuid) (reason : String) (now : Instant) (r : InterviewSchedule)
    (h : RoundOk r) : RoundOk (cancelledIn cc reason now r) := by
  rw [cancelledIn]
  split_ifs
  · constructor
    · intro hpending
      simp [cancelled] at hpending
    · intro hheld
      simp [Held, cancelled] at hheld
  · exact h

theorem roundOk_newRound (cc : Uuid) (now : Instant) (id : Uuid) :
    RoundOk (newRound cc 1 now id) := by
  constructor
  · intro _
    exact ⟨rfl, rfl, rfl⟩
  · intro hheld
    simp [Held, newRound] at hheld

theorem any_round_iff (cc : Uuid) :
    (db.interviewSchedules.rows.any fun r => r.campaignCandidateId = cc) = true ↔
      numbersOf db cc ≠ [] := by
  rw [List.any_eq_true]
  constructor
  · intro hany
    obtain ⟨r, hr, hcc⟩ := hany
    have hmem := (mem_numbersOf cc r.roundNumber).mpr ⟨r, hr, of_decide_eq_true hcc, rfl⟩
    exact List.ne_nil_of_mem hmem
  · intro hne
    obtain ⟨n, hn⟩ := List.exists_mem_of_ne_nil _ hne
    obtain ⟨r, hr, hcc, -⟩ := (mem_numbersOf cc n).mp hn
    exact ⟨r, hr, decide_eq_true hcc⟩

-- The hooks give a first round to a candidate that enters INTERVIEW without one.
theorem grown_hooked (before after : CampaignCandidate) (call : StageWrite × Instant)
    (h : StageWrite.Effect db db' call before after) (hhooks : call.1.RunsHooks) :
    Grown db db' (fun cc => cc = before.id ∧ numbersOf db cc = []) ∧
      (after.pipelineStage = .interview →
        db'.interviewSchedules = withPending db.interviewSchedules before.id call.2) := by
  have hrounds := h.hooked hhooks
  rw [hookedRounds] at hrounds
  split_ifs at hrounds with hentry hcascade
  · refine ⟨?_, fun _ => hrounds⟩
    rw [withPending] at hrounds
    split_ifs at hrounds with hany
    · exact grown_same hrounds
    · have hnone : numbersOf db before.id = [] := by
        by_contra hne
        exact hany ((any_round_iff before.id).mpr hne)
      have hadded : Grown db db' (fun cc => cc = before.id) :=
        grown_append (newRound before.id 1 call.2 db.interviewSchedules.next)
          (congrArg Table.rows hrounds) (by simp [newRound, hnone]) (roundOk_newRound _ _ _)
      refine hadded.mono fun cc hcc => ⟨hcc, ?_⟩
      rw [hcc, hnone]
  · refine ⟨?_, fun hinterview => absurd hinterview hentry⟩
    exact grown_map _ (congrArg Table.rows hrounds) (fun r _ => by simp)
      (fun r _ hr => roundOk_cancelledIn _ _ _ r hr)
  · exact ⟨grown_same hrounds, fun hinterview => absurd hinterview hentry⟩

theorem enters_hooked (before : CampaignCandidate) (call : StageWrite)
    (htarget : call.target before = some .interview) (hlisted : ¬EntersUnhooked call) :
    call.RunsHooks := by
  cases call with
  | transitionOnAiSuccess cc toStage decisionType changeReason scores decisionReason details =>
    exact absurd (Option.some.inj htarget) hlisted
  | transition cc toStage actor reason key env => trivial
  | transitionStage cc withRepo request => trivial
  | overrideCandidateStage campaignId cc targetStage reason actorId actorRole env => trivial
  | _ => simp [StageWrite.target] at htarget

-- What a stage write does to the rounds: whoever stands at INTERVIEW has one.
theorem move_formed (call : StageWrite × Instant) (hlisted : ¬EntersUnhooked call.1)
    (h : StageWrite.Step table db call db') (hdb : Formed db) :
    Formed db' ∧ Grown db db' (fun cc => numbersOf db cc = []) := by
  rcases StageWrite.step_cases call h with
    ⟨before, after, heffect⟩ | ⟨cc, env, before, after, -, hrescored⟩
  · have hgrown : Grown db db' (fun cc => numbersOf db cc = []) := by
      by_cases hhooks : call.1.RunsHooks
      · exact (grown_hooked before after call heffect hhooks).1.mono fun cc hcc => hcc.2
      · exact grown_same (heffect.unhooked hhooks)
    refine ⟨hgrown.formed hdb fun row hrow hstage => ?_, hgrown⟩
    rw [heffect.moved.candidates, Table.mem_replace] at hrow
    rcases hrow with ⟨hold, -⟩ | ⟨rfl, -⟩
    · exact hgrown.kept row.id (hdb.entered row hold hstage)
    · have htarget := heffect.target
      rw [hstage] at htarget
      have hhooks := enters_hooked before call.1 htarget hlisted
      have hpending := (grown_hooked before row call heffect hhooks).2 hstage
      rw [heffect.moved.sameId, ← any_round_iff, hpending, withPending]
      split_ifs with hany
      · exact hany
      · refine List.any_eq_true.mpr ⟨newRound before.id 1 call.2 db.interviewSchedules.next, ?_,
          decide_eq_true rfl⟩
        exact List.mem_append_right _ (List.mem_singleton.mpr rfl)
  · have hrounds : db'.interviewSchedules = db.interviewSchedules := by rw [hrescored.db]
    have hgrown : Grown db db' (fun cc => numbersOf db cc = []) := grown_same hrounds
    refine ⟨hgrown.formed hdb fun row hrow hstage => ?_, hgrown⟩
    rw [hrescored.db, Table.mem_replace] at hrow
    rcases hrow with ⟨hold, -⟩ | ⟨rfl, -⟩
    · exact hgrown.kept row.id (hdb.entered row hold hstage)
    · obtain ⟨hfound, -⟩ := (Table.find?_eq_some _ _ _).mp hrescored.found
      rw [hrescored.sameId]
      exact hgrown.kept before.id (hdb.entered before hfound (hrescored.sameStage ▸ hstage))

theorem grown_rewritten (after : InterviewSchedule) (h : Rewritten db db' round after)
    (hok : RoundOk round → RoundOk after) : Grown db db' (fun _ => False) := by
  refine grown_replace after h.rounds fun r hr hid => ?_
  obtain ⟨hround, -⟩ := (Table.find?_eq_some _ _ _).mp h.found
  obtain rfl : r = round :=
    db.interviewSchedules.eq_of_key_eq hr hround (hid.trans h.sameId)
  exact ⟨h.sameCandidate, h.sameNumber, hok⟩

theorem roundOk_rescheduled (request : RescheduleInterviewRequest) (env : InterviewEnv)
    (hstatus : round.status ∈ [InterviewStatus.scheduled, .rescheduled, .cancelled]) :
    RoundOk (rescheduled round request env).1 := by
  obtain ⟨hstart, hend, hkept⟩ := rescheduled_times round request env
  constructor
  · intro hpending
    rw [hpending] at hkept
    rcases hkept with hmoved | hsame
    · exact absurd hmoved (by decide)
    · rw [← hsame] at hstatus
      exact absurd hstatus (by decide)
  · intro _
    rw [hstart, hend]
    simp

theorem roundOk_completed (now : Instant)
    (hstatus : round.status ∉ [InterviewStatus.completed, .cancelled])
    (hended : notEnded round now = false) (h : RoundOk round) : RoundOk (completed round now) := by
  constructor
  · intro hpending
    simp [completed] at hpending
  · intro _
    apply h.timed
    -- a blank round has no end and is turned away
    have hopen : round.status ≠ .pending := by
      intro hpending
      obtain ⟨-, -, hend⟩ := h.pending hpending
      rw [notEnded, hend] at hended
      simp at hended
    rw [Held]
    cases hcase : round.status with
    | pending => exact absurd hcase hopen
    | cancelled => simp [hcase] at hstatus
    | completed => simp [hcase] at hstatus
    | _ => decide

theorem call_formed (call : InterviewCall) (calls : List CalendarCall) (hcall : ¬IsSchedule call)
    (h : call.run db = .ok (db', calls)) (hdb : Formed db) :
    Formed db' ∧ Grown db db' (fun _ => False) := by
  have hkept (round after : InterviewSchedule) (hround : Rewritten db db' round after)
      (hok : RoundOk round → RoundOk after) : Formed db' ∧ Grown db db' (fun _ => False) := by
    have hgrown := grown_rewritten round after hround hok
    refine ⟨hgrown.formed hdb fun cc hcc hstage => ?_, hgrown⟩
    rw [hround.candidates] at hcc
    exact hgrown.kept cc.id (hdb.entered cc hcc hstage)
  cases InterviewCall.run_ok _ _ _ _ h with
  | rescheduled interviewId actorId actorRoles request env round hstatus hround hcalls =>
    exact hkept round _ hround fun _ => roundOk_rescheduled round request env hstatus
  | cancelled interviewId actorId actorRoles reason env round hstatus hround hcalls =>
    refine hkept round _ hround fun _ => ⟨fun hpending => ?_, fun hheld => ?_⟩
    · simp [cancelled] at hpending
    · simp [Held, cancelled] at hheld
  | completed interviewId actorId actorRoles env round hstatus hended hround hcalls =>
    exact hkept round _ hround (roundOk_completed round env.now hstatus hended)
  | _ => exact absurd trivial hcall

end Writes

section Sessions

variable {db db' : Db} {request : Request} {cc : CampaignCandidate}

theorem applied_facts (request : Request) (schedule : InterviewSchedule) :
    (request.applied schedule).id = schedule.id ∧
      (request.applied schedule).campaignCandidateId = schedule.campaignCandidateId ∧
      (request.applied schedule).roundNumber = schedule.roundNumber ∧
      (request.applied schedule).status = .scheduled ∧
      (request.applied schedule).startAt ≠ none ∧ (request.applied schedule).endAt ≠ none := by
  obtain ⟨hid, hcc, hnumber⟩ := applyScheduleRequest_same schedule request.request
    request.actorId request.actorRoles request.env
  obtain ⟨hstatus, hstart, hend⟩ := applyScheduleRequest_times schedule request.request
    request.actorId request.actorRoles request.env
  exact ⟨hid, hcc, hnumber, hstatus, by simp [Request.applied, hstart],
    by simp [Request.applied, hend]⟩

theorem roundOk_scheduled (hstatus : round.status = .scheduled)
    (hstart : round.startAt ≠ none) (hend : round.endAt ≠ none) : RoundOk round :=
  ⟨fun hpending => absurd (hstatus.symm.trans hpending) (by decide), fun _ => ⟨hstart, hend⟩⟩

variable (db request cc) in
-- Whatever has become of the round since it was loaded, the flush sends the
-- status and both times: the loaded row was blank.
theorem fillLoaded_grown (loaded : InterviewSchedule) (hpending : loaded.status = .pending)
    (hstart : loaded.startAt = none) (hend : loaded.endAt = none) :
    Grown db (request.fillLoaded db cc loaded) (fun _ => False) := by
  obtain ⟨-, -, -, hscheduled, hstartAt, hendAt⟩ := applied_facts request loaded
  let stored := (getById db loaded.id).getD loaded
  have hrow : RoundOk (flushed stored loaded (request.applied loaded)) := by
    apply roundOk_scheduled
    · change flushColumn _ _ _ = _
      rw [hscheduled, flushColumn_dirty _ _ _ (by rw [hpending]; decide)]
    · change flushColumn _ _ _ ≠ _
      rwa [flushColumn_dirty _ _ _ (by rwa [hstart])]
    · change flushColumn _ _ _ ≠ _
      rwa [flushColumn_dirty _ _ _ (by rwa [hend])]
  refine grown_replace (flushed stored loaded (request.applied loaded)) rfl fun r hr hid => ?_
  have hstored : r = stored := by
    cases hfound : getById db loaded.id with
    | none =>
      have hnone := List.find?_eq_none.mp hfound r hr
      have hstoredId : stored.id = loaded.id := by simp [stored, hfound]
      exact absurd (hid.trans hstoredId) (by simpa using hnone)
    | some found =>
      obtain ⟨hmem, hfoundId⟩ := (Table.find?_eq_some _ _ _).mp hfound
      have hsame : stored = found := by simp [stored, hfound]
      have hstoredId : stored.id = found.id := by rw [hsame]
      rw [hsame]
      exact db.interviewSchedules.eq_of_key_eq hr hmem (hid.trans hstoredId)
  rw [hstored]
  exact ⟨rfl, rfl, fun _ => hrow⟩

variable (db request cc) in
theorem fillReserved_grown (latest : InterviewSchedule)
    (hnumber : latest.roundNumber = (numbersOf db request.campaignCandidateId).length) :
    Grown db (request.fillReserved db cc latest) (fun cc => cc = request.campaignCandidateId) := by
  let reserved := newRound request.campaignCandidateId (latest.roundNumber + 1) request.env.now
    db.interviewSchedules.next
  obtain ⟨-, hcc, hsame, hscheduled, hstartAt, hendAt⟩ := applied_facts request reserved
  have hgrown : Grown db (request.fillReserved db cc latest)
      (fun cc => cc = (request.applied reserved).campaignCandidateId) := by
    apply grown_append (request.applied reserved)
    · exact rows_filledRound db.interviewSchedules request.campaignCandidateId
        (latest.roundNumber + 1) request.env.now request.request request.actorId
        request.actorRoles request.env
    · rw [hsame, hcc]
      exact congrArg (· + 1) hnumber
    · exact roundOk_scheduled _ hscheduled hstartAt hendAt
  rw [hcc] at hgrown
  exact hgrown

-- What a session knows about the round it holds: a number that was read can
-- only be overtaken, one that is reserved cannot.
def Knows (db : Db) (request : Request) : Phase → Prop
  | .found _ latest => (latest.status = .pending → latest.startAt = none ∧ latest.endAt = none) ∧
      1 ≤ latest.roundNumber ∧
      latest.roundNumber ≤ (numbersOf db request.campaignCandidateId).length
  | .reserved _ latest => 1 ≤ latest.roundNumber ∧
      latest.roundNumber = (numbersOf db request.campaignCandidateId).length
  | _ => True

theorem Grown.knows {who : Uuid → Prop} (h : Grown db db' who) (phase : Phase)
    (hwho : ∀ row latest, phase = .reserved row latest → ¬who request.campaignCandidateId)
    (hknows : Knows db request phase) : Knows db' request phase := by
  cases phase with
  | found row latest =>
    obtain ⟨hblank, hpos, hle⟩ := hknows
    exact ⟨hblank, hpos, hle.trans (h.length_le _)⟩
  | reserved row latest =>
    obtain ⟨hpos, hlength⟩ := hknows
    rcases h.numbers request.campaignCandidateId with hsame | ⟨hgrows, -⟩
    · exact ⟨hpos, by rw [hsame]; exact hlength⟩
    · exact absurd hgrows (hwho row latest rfl)
  | _ => trivial

theorem knows_latest (latest : InterviewSchedule) (hdb : Formed db)
    (hlatest : getLatestByCampaignCandidateId db request.campaignCandidateId = some latest) :
    Knows db request (.found cc latest) := by
  obtain ⟨hmem, hcc, -⟩ := mem_latest _ _ hlatest
  obtain ⟨n, hn⟩ := hdb.numbered request.campaignCandidateId
  have hnumber := (mem_numbersOf request.campaignCandidateId latest.roundNumber).mpr
    ⟨latest, hmem, hcc, rfl⟩
  rw [hn, List.mem_range'_1] at hnumber
  refine ⟨fun hpending => ((hdb.rounds latest hmem).pending hpending).2, hnumber.1, ?_⟩
  rw [hn, List.length_range']
  omega

theorem knows_reserved (latest : InterviewSchedule) (now : Instant) (hdb : Formed db)
    (hfound : Knows db request (.found cc latest))
    (hcreated : (createNextRound db request.campaignCandidateId (latest.roundNumber + 1)
      now).2.2 = true) : Knows db request (.reserved cc latest) := by
  obtain ⟨-, hpos, hle⟩ := hfound
  refine ⟨hpos, ?_⟩
  by_contra hne
  obtain ⟨n, hn⟩ := hdb.numbered request.campaignCandidateId
  have htaken : latest.roundNumber + 1 ∈ numbersOf db request.campaignCandidateId := by
    rw [hn, List.length_range'] at hle hne
    rw [hn, List.mem_range'_1]
    omega
  obtain ⟨r, hr, hcc, hnumber⟩ := (mem_numbersOf _ _).mp htaken
  rw [createNextRound] at hcreated
  cases hfind : db.interviewSchedules.rows.find? (fun r =>
      r.campaignCandidateId = request.campaignCandidateId ∧
        r.roundNumber = latest.roundNumber + 1) with
  | none => simpa [hcc, hnumber] using List.find?_eq_none.mp hfind r hr
  | some existing =>
    simp only [hfind] at hcreated
    exact absurd hcreated Bool.false_ne_true

end Sessions

-- The index entry that a session holds.
def claimed (request : Request) : Phase → Option (Uuid × ℕ)
  | .reserved _ latest => some (entry request latest)
  | _ => none

structure Inv (requests : ℕ → Request) (world : World) : Prop where
  formed : Formed world.db
  knows : ∀ session, Knows world.db (requests session) (world.phase session)
  listed : ∀ session e, claimed (requests session) (world.phase session) = some e →
    e ∈ world.reservations
  apart : ∀ session other e, claimed (requests session) (world.phase session) = some e →
    claimed (requests other) (world.phase other) = some e → session = other

section Runs

variable {table : TransitionTable} {requests : ℕ → Request} {world world' : World}

theorem Inv.commit {db : Db} {who : Uuid → Prop} (h : Inv requests world) (hformed : Formed db)
    (hgrown : Grown world.db db who)
    (hwho : ∀ cc, who cc → numbersOf world.db cc = []) :
    Inv requests { world with db := db } where
  formed := hformed
  knows := by
    intro session
    have hknows := h.knows session
    refine hgrown.knows _ (fun row latest hphase hgrows => ?_) hknows
    -- a session only reserves a round after another one
    change world.phase session = _ at hphase
    rw [hphase] at hknows
    obtain ⟨hpos, hlength⟩ := hknows
    rw [hwho _ hgrows, List.length_nil] at hlength
    omega
  listed := h.listed
  apart := h.apart

theorem Inv.advance {db : Db} {who : Uuid → Prop} {reservations : List (Uuid × ℕ)}
    (h : Inv requests world) (session : ℕ) (phase : Phase) (hformed : Formed db)
    (hgrown : Grown world.db db who)
    (hwho : ∀ other row latest, other ≠ session → world.phase other = .reserved row latest →
      ¬who (requests other).campaignCandidateId)
    (hknows : Knows db (requests session) phase)
    (hothers : ∀ other e, other ≠ session →
      claimed (requests other) (world.phase other) = some e → e ∈ reservations)
    (hown : ∀ e, claimed (requests session) phase = some e → e ∈ reservations ∧
      ∀ other, other ≠ session → claimed (requests other) (world.phase other) ≠ some e) :
    Inv requests { world.at session phase with db := db, reservations := reservations } := by
  have hphase (other : ℕ) : (world.at session phase).phase other =
      if other = session then phase else world.phase other := phase_at session other phase
  constructor
  · exact hformed
  · intro other
    change Knows db (requests other) ((world.at session phase).phase other)
    rw [hphase]
    split_ifs with hother
    · exact hother ▸ hknows
    · exact hgrown.knows _ (fun row latest => hwho other row latest hother) (h.knows other)
  · intro other e hclaim
    change claimed (requests other) ((world.at session phase).phase other) = some e at hclaim
    rw [hphase] at hclaim
    split_ifs at hclaim with hother
    · exact (hown e (hother ▸ hclaim)).1
    · exact hothers other e hother hclaim
  · intro first second e hfirst hsecond
    change claimed (requests first) ((world.at session phase).phase first) = some e at hfirst
    change claimed (requests second) ((world.at session phase).phase second) = some e at hsecond
    rw [hphase] at hfirst hsecond
    split_ifs at hfirst hsecond with hf hs hs
    · exact hf.trans hs.symm
    · exact absurd hsecond ((hown e (hf ▸ hfirst)).2 second hs)
    · exact absurd hfirst ((hown e (hs ▸ hsecond)).2 first hf)
    · exact h.apart first second e hfirst hsecond

theorem Inv.leave (h : Inv requests world) (session : ℕ) (phase : Phase)
    (reservations : List (Uuid × ℕ)) (hknows : Knows world.db (requests session) phase)
    (hfree : claimed (requests session) phase = none)
    (hothers : ∀ other e, other ≠ session →
      claimed (requests other) (world.phase other) = some e → e ∈ reservations) :
    Inv requests { world.at session phase with reservations := reservations } := by
  have hsame : Grown world.db world.db (fun _ => False) := grown_same rfl
  exact h.advance session phase h.formed hsame (fun _ _ _ _ _ => not_false) hknows hothers
    (fun e hclaim => absurd (hfree.symm.trans hclaim) (by simp))

theorem others_listed (h : Inv requests world) (session : ℕ) (row : CampaignCandidate)
    (latest : InterviewSchedule) (hphase : world.phase session = .reserved row latest)
    (other : ℕ) (e : Uuid × ℕ) (hother : other ≠ session)
    (hclaim : claimed (requests other) (world.phase other) = some e) :
    e ∈ world.reservations.filter (· ≠ entry (requests session) latest) := by
  refine List.mem_filter.mpr ⟨h.listed other e hclaim, decide_eq_true fun hsame => hother ?_⟩
  have hown : claimed (requests session) (world.phase session) = some e := by
    rw [hphase, hsame]
    rfl
  exact h.apart other session e hclaim hown

-- Both would hold the entry for the number after the candidate's last round.
theorem reserved_once (h : Inv requests world) (other session : ℕ) {row cc : CampaignCandidate}
    {held latest : InterviewSchedule} (hother : world.phase other = .reserved row held)
    (hphase : world.phase session = .reserved cc latest)
    (hsame : (requests other).campaignCandidateId = (requests session).campaignCandidateId) :
    other = session := by
  have hheld := h.knows other
  have hlast := h.knows session
  rw [hother] at hheld
  rw [hphase] at hlast
  obtain ⟨-, hheldLength⟩ := hheld
  obtain ⟨-, hlength⟩ := hlast
  have hentry : entry (requests other) held = entry (requests session) latest := by
    rw [entry, entry, hheldLength, hlength, hsame]
  have hfirst : claimed (requests other) (world.phase other)
      = some (entry (requests session) latest) := by
    rw [hother, ← hentry]
    rfl
  have hsecond : claimed (requests session) (world.phase session)
      = some (entry (requests session) latest) := by
    rw [hphase]
    rfl
  exact h.apart other session _ hfirst hsecond

theorem inv_step (event : Event) (h : Inv requests world)
    (hs : Step table requests world event world') : Inv requests world' := by
  cases event with
  | read session =>
    rcases step_read session hs with rfl | ⟨cc, latest, hlatest, rfl⟩
    · exact h.leave session .done _ trivial rfl fun other e _ => h.listed other e
    · exact h.leave session (.found cc latest) _ (knows_latest latest h.formed hlatest) rfl
        fun other e _ => h.listed other e
  | reserve session =>
    obtain ⟨cc, latest, hphase, hfree, hcase⟩ := step_reserve session hs
    rcases hcase with ⟨hcreated, rfl⟩ | rfl
    · have hfound := h.knows session
      rw [hphase] at hfound
      have hknows := knows_reserved latest _ h.formed hfound hcreated
      have hsame : Grown world.db world.db (fun _ => False) := grown_same rfl
      refine h.advance session (.reserved cc latest) h.formed hsame
        (fun _ _ _ _ _ => not_false) hknows
        (fun other e _ hclaim => List.mem_cons_of_mem _ (h.listed other e hclaim)) ?_
      intro e hclaim
      obtain rfl : entry (requests session) latest = e := Option.some.inj hclaim
      exact ⟨List.mem_cons_self, fun other _ hother => hfree (h.listed other _ hother)⟩
    · exact h.leave session .done _ trivial rfl fun other e _ => h.listed other e
  | fill session =>
    rcases step_fill session hs with
      ⟨cc, latest, hphase, hpending, rfl⟩ | ⟨cc, latest, hphase, rfl⟩
    · have hfound := h.knows session
      rw [hphase] at hfound
      obtain ⟨hblank, -, -⟩ := hfound
      obtain ⟨hstart, hend⟩ := hblank hpending
      have hgrown := fillLoaded_grown world.db (requests session) cc latest hpending hstart hend
      exact h.advance session .done (hgrown.formed h.formed fun row hrow hstage =>
          hgrown.kept row.id (h.formed.entered row hrow hstage))
        hgrown (fun _ _ _ _ _ => not_false) trivial (fun other e _ => h.listed other e)
        (fun e hclaim => absurd hclaim (by simp [claimed]))
    · have hheld := h.knows session
      rw [hphase] at hheld
      obtain ⟨hpos, hlength⟩ := hheld
      have hgrown := fillReserved_grown world.db (requests session) cc latest hlength
      exact h.advance session .done (hgrown.formed h.formed fun row hrow hstage =>
          hgrown.kept row.id (h.formed.entered row hrow hstage))
        hgrown
        (fun other row held hother hreserved hsame =>
          hother (reserved_once h other session hreserved hphase hsame))
        trivial (others_listed h session cc latest hphase)
        (fun e hclaim => absurd hclaim (by simp [claimed]))
  | rollback session =>
    rcases step_rollback session hs with ⟨cc, latest, -, rfl⟩ | ⟨cc, latest, hphase, rfl⟩
    · exact h.leave session .done _ trivial rfl fun other e _ => h.listed other e
    · exact h.leave session .done _ trivial rfl (others_listed h session cc latest hphase)
  | move call =>
    obtain ⟨hlisted, db, hstep, rfl⟩ := step_move call hs
    obtain ⟨hformed, hgrown⟩ := move_formed call hlisted hstep h.formed
    exact h.commit hformed hgrown fun _ hnone => hnone
  | call call =>
    obtain ⟨hcall, db, calls, hrun, rfl⟩ := step_call call hs
    obtain ⟨hformed, hgrown⟩ := call_formed call calls hcall hrun h.formed
    exact h.commit hformed hgrown fun _ => False.elim

theorem reentry_step (event : Event) (hs : Step table requests world event world') :
    ReentryKeeps world event world' := by
  cases event with
  | move call =>
    intro row hrow htarget hrounds
    obtain ⟨hlisted, db, hstep, rfl⟩ := step_move call hs
    rcases StageWrite.step_cases call hstep with
      ⟨before, after, heffect⟩ | ⟨cc, env, before, after, hcall, -⟩
    · have hfound := heffect.moved.found
      rw [heffect.candidate] at hfound
      obtain rfl : row = before := Option.some.inj (hrow.symm.trans hfound)
      have hstage : after.pipelineStage = .interview :=
        Option.some.inj (heffect.target.symm.trans htarget)
      have hhooks := enters_hooked row call.1 htarget hlisted
      have hpending := (grown_hooked row after call heffect hhooks).2 hstage
      have hany : (world.db.interviewSchedules.rows.any
          fun r => r.campaignCandidateId = row.id) = true := by
        rw [any_round_iff, numbersOf, Ne, List.map_eq_nil_iff]
        exact hrounds
      rw [withPending, if_pos hany] at hpending
      exact hpending
    · rw [hcall] at htarget
      simp [StageWrite.target] at htarget
  | _ => trivial

end Runs

def Start (db : Db) : Prop :=
  db.interviewSchedules.rows = [] ∧ ∀ cc ∈ db.campaignCandidates.rows, cc.pipelineStage ≠ .interview

theorem inv_begin (requests : ℕ → Request) (db : Db) (h : Start db) :
    Inv requests (World.begin db) := by
  obtain ⟨hrows, hnobody⟩ := h
  refine ⟨⟨fun cc hcc hstage => absurd hstage (hnobody cc hcc), fun cc => ⟨0, ?_⟩, ?_⟩,
    fun _ => trivial, ?_, ?_⟩
  · simp [World.begin, numbersOf, Db.roundsOf, hrows]
  · simp [World.begin, hrows]
  · simp [World.begin, claimed]
  · simp [World.begin, claimed]

-- In every run of stage writes, interview calls and interleaved sessions the
-- rounds stay well formed, and coming back to INTERVIEW leaves them alone.
theorem wellFormed_throughout (table : TransitionTable) (requests : ℕ → Request) (db : Db)
    (hstart : Start db) (path : List (Event × World))
    (hp : Path (Step table requests) (World.begin db) path) :
    (∀ world ∈ visited (World.begin db) path, WellFormed world.db) ∧
      EveryStep ReentryKeeps (World.begin db) path := by
  have hinv := inv_begin requests db hstart
  constructor
  · intro world hworld
    have hheld := hp.invariant hinv (fun _ event _ h hs => inv_step event h hs) world hworld
    exact hheld.formed.wellFormed
  · exact hp.everyStep hinv (fun _ event _ h hs => inv_step event h hs)
      (fun _ event _ _ hs => reentry_step event hs)

def recruiterSession (_ : ℕ) : Request where
  campaignCandidateId := 0
  actorId := "recruiter"
  actorRoles := ["RECRUITER"]
  request := videoCall
  env := office

def doubleClick : List Event :=
  [.move (.transition 0 .shortlisted recruiter none none idle, 2),
   .move (.transition 0 .interview recruiter none none idle, 3),
   .read 0, .fill 0, .read 1, .read 2, .reserve 1, .fill 1, .reserve 2]

def doubleClickRun : List (Event × World) :=
  execute (next? seededTransitions recruiterSession) (World.begin screenedDb) doubleClick

theorem doubleClickRun_path :
    Path (Step seededTransitions recruiterSession) (World.begin screenedDb) doubleClickRun :=
  execute_path _ (fun _ _ _ h => h) _ _

theorem wellFormed_throughout_doubleClick :
    (∀ world ∈ visited (World.begin screenedDb) doubleClickRun, WellFormed world.db) ∧
      EveryStep ReentryKeeps (World.begin screenedDb) doubleClickRun :=
  wellFormed_throughout seededTransitions recruiterSession screenedDb ⟨rfl, by decide +kernel⟩
    doubleClickRun doubleClickRun_path

-- The second click finds round 2 taken and adds nothing.
example : doubleClickRun.length = 9 ∧
    numbersOf (final (World.begin screenedDb) doubleClickRun).db 0 = [1, 2] := by
  decide +kernel

end RoundStructure

end AiHiring
