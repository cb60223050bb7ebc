import AiHiring.Pipeline.PreviousStage

namespace AiHiring

open Library StageTransitionService

namespace Race

structure Request where
  toStage : PipelineStage
  actor : Actor
  reason : Option String
  env : RescoreEnv

-- How far a session is: its object is the one the unlocked read loaded.
inductive Phase where
  | start
  | checked (candidate : CampaignCandidate) (role : String)
  | locked (candidate locked : CampaignCandidate) (role : String)
  | committed (fromStage : PipelineStage)
  | done

structure World where
  db : Db
  lockedBy : Option ℕ
  phase : ℕ → Phase

def World.begin (db : Db) : World where
  db := db
  lockedBy := none
  phase := fun _ => .start

def World.at (world : World) (session : ℕ) (phase : Phase) : World :=
  { world with phase := Function.update world.phase session phase }

inductive Event where
  | read (session : ℕ)
  | lock (session : ℕ)
  | commit (session : ℕ) (now : Instant)
  | rollback (session : ℕ)
  | rescore (session : ℕ)

-- The UPDATE of the locked object: two columns are assigned, and only those
-- that differ from what the session loaded are sent.
def flushed (stored loaded : CampaignCandidate) (toStage : PipelineStage) : CampaignCandidate :=
  { stored with
    previousStage :=
      flushColumn stored.previousStage loaded.previousStage (some loaded.pipelineStage)
    pipelineStage := flushColumn stored.pipelineStage loaded.pipelineStage toStage }

section Steps

variable (table : TransitionTable) (id : Uuid) (requests : ℕ → Request)

-- The statements of `transition` one at a time; a session that raises is done.
def next? (world : World) : Event → Option World
  | .read session =>
    match world.phase session with
    | .start =>
      match CampaignCandidateRepository.getById world.db id with
      | none => some (world.at session .done)
      | some candidate =>
        match permit table candidate (requests session).toStage (requests session).actor
            (requests session).reason with
        | .error _ => some (world.at session .done)
        | .ok (_, role) => some (world.at session (.checked candidate role))
    | _ => none
  | .lock session =>
    match world.phase session, world.lockedBy with
    | .checked candidate role, none =>
      let locked := getByIdForUpdate world.db candidate
      if locked.pipelineStage ≠ candidate.pipelineStage then
        some (world.at session .done)
      else
        some { world.at session (.locked candidate locked role) with
          lockedBy := some session }
    | _, _ => none
  | .commit session now =>
    match world.phase session with
    | .locked candidate locked role =>
      let stored := (CampaignCandidateRepository.getById world.db id).getD locked
      match recordMove world.db candidate
          (flushed stored locked (requests session).toStage) role (requests session).toStage
          (requests session).actor (requests session).reason none now with
      | .ok (db, true) =>
        some { world.at session (.committed candidate.pipelineStage) with
          db := db, lockedBy := none }
      | _ => none
    | _ => none
  | .rollback session =>
    match world.phase session with
    | .checked _ _ => some (world.at session .done)
    | .locked _ _ _ => some { world.at session .done with lockedBy := none }
    | _ => none
  | .rescore session =>
    match world.phase session with
    | .committed fromStage =>
      some { world.at session .done with
        db := rescoreAfter world.db id fromStage (requests session).toStage (requests session).env }
    | _ => none

def Step (world : World) (event : Event) (world' : World) : Prop :=
  next? table id requests world event = some world'

-- A commit is governed by the pair that was committed right before it, and
-- records that stage as the one it leaves.
def Governed (world : World) (event : Event) (world' : World) : Prop :=
  match event with
  | .commit session _ => ∀ stored row, world.db.campaignCandidates.find? id = some stored →
      world'.db.historyOf id = world.db.historyOf id ++ [row] →
      Permitted table stored (requests session).toStage (requests session).actor
        (requests session).reason ∧
      row.fromStage = some stored.pipelineStage
  | _ => True

-- Nobody has moved the candidate since the session's unlocked read; only
-- previous_stage may have changed, to one that permits the move as well.
def Untouched (world : World) (event : Event) (_ : World) : Prop :=
  match event with
  | .commit session _ => ∀ stored candidate locked role,
      world.db.campaignCandidates.find? id = some stored →
      world.phase session = .locked candidate locked role →
      candidate.pipelineStage = stored.pipelineStage ∧
      (candidate.previousStage = stored.previousStage ∨
        Permitted table stored (requests session).toStage (requests session).actor
          (requests session).reason)
  | _ => True

-- The object a session holds passed the checks of steps 1 to 3.
def Phase.Sound (request : Request) : Phase → Prop
  | .checked candidate role => candidate.id = id ∧
      ∃ row, permit table candidate request.toStage request.actor request.reason = .ok (row, role)
  | .locked candidate current role => current = candidate ∧ candidate.id = id ∧
      ∃ row, permit table candidate request.toStage request.actor request.reason = .ok (row, role)
  | _ => True

def Checked (world : World) : Prop :=
  (∃ stored, world.db.campaignCandidates.find? id = some stored) ∧
    ∀ session, (world.phase session).Sound table id (requests session)

end Steps

variable {table : TransitionTable} {id : Uuid} {requests : ℕ → Request} {world world' : World}

variable (session : ℕ) (phase : Phase)

-- The locking read gives the session its own object back, so the conflict
-- branch is never taken: a session that gets the lock goes on.
theorem lock_never_conflicts (candidate : CampaignCandidate) (role : String)
    (hphase : world.phase session = .checked candidate role) (hfree : world.lockedBy = none) :
    next? table id requests world (.lock session) =
      some { world.at session (.locked candidate candidate role) with
        lockedBy := some session } := by
  simp [next?, hphase, hfree, getByIdForUpdate]

theorem phase_at (other : ℕ) (phase : Phase) : (world.at session phase).phase other =
      if other = session then phase else world.phase other := by
  exact Function.update_apply _ _ _ _

theorem step_read (h : Step table id requests world (.read session) world') :
    ∃ phase, world' = world.at session phase ∧
      (phase = .done ∨ ∃ candidate role row, phase = .checked candidate role ∧
        world.db.campaignCandidates.find? id = some candidate ∧
        permit table candidate (requests session).toStage (requests session).actor
          (requests session).reason = .ok (row, role)) := by
  unfold Step next? at h
  cases hphase : world.phase session with
  | start =>
    cases hfind : CampaignCandidateRepository.getById world.db id with
    | none =>
      simp only [hphase, hfind, Option.some.injEq] at h
      exact ⟨.done, h.symm, .inl rfl⟩
    | some candidate =>
      cases hpermit : permit table candidate (requests session).toStage
          (requests session).actor (requests session).reason with
      | error e =>
        simp only [hphase, hfind, hpermit, Option.some.injEq] at h
        exact ⟨.done, h.symm, .inl rfl⟩
      | ok permitted =>
        rcases permitted with ⟨row, role⟩
        simp only [hphase, hfind, hpermit, Option.some.injEq] at h
        exact ⟨.checked candidate role, h.symm, .inr ⟨candidate, role, row, rfl, hfind, hpermit⟩⟩
  | _ => simp [hphase] at h

theorem step_lock (h : Step table id requests world (.lock session) world') :
    ∃ candidate role, world.phase session = .checked candidate role ∧ world.lockedBy = none ∧
      world' = { world.at session (.locked candidate candidate role) with
        lockedBy := some session } := by
  unfold Step at h
  cases hphase : world.phase session with
  | checked candidate role =>
    cases hfree : world.lockedBy with
    | some other => simp [next?, hphase, hfree] at h
    | none =>
      rw [lock_never_conflicts session candidate role hphase hfree] at h
      exact ⟨candidate, role, rfl, rfl, (Option.some.inj h).symm⟩
  | _ => simp [next?, hphase] at h

theorem step_commit (now : Instant)
    (h : Step table id requests world (.commit session now) world') :
    ∃ candidate locked role db, world.phase session = .locked candidate locked role ∧
      recordMove world.db candidate
        (flushed ((CampaignCandidateRepository.getById world.db id).getD locked) locked
          (requests session).toStage) role (requests session).toStage (requests session).actor
        (requests session).reason none now = .ok (db, true) ∧
      world' = { world.at session (.committed candidate.pipelineStage) with
        db := db, lockedBy := none } := by
  unfold Step next? at h
  cases hphase : world.phase session with
  | locked candidate locked role =>
    simp only [hphase] at h
    cases hrecord : recordMove world.db candidate
        (flushed ((CampaignCandidateRepository.getById world.db id).getD locked) locked
          (requests session).toStage) role (requests session).toStage (requests session).actor
        (requests session).reason none now with
    | error e => simp [hrecord] at h
    | ok result =>
      rcases result with ⟨db, created⟩
      cases created with
      | false => simp [hrecord] at h
      | true =>
        simp only [hrecord, Option.some.injEq] at h
        exact ⟨candidate, locked, role, db, rfl, hrecord, h.symm⟩
  | _ => simp [hphase] at h

theorem step_rollback (h : Step table id requests world (.rollback session) world') :
    (∃ candidate role, world.phase session = .checked candidate role ∧
      world' = world.at session .done) ∨
    ∃ candidate locked role, world.phase session = .locked candidate locked role ∧
      world' = { world.at session .done with lockedBy := none } := by
  unfold Step next? at h
  cases hphase : world.phase session with
  | checked candidate role =>
    simp only [hphase, Option.some.injEq] at h
    exact .inl ⟨candidate, role, rfl, h.symm⟩
  | locked candidate locked role =>
    simp only [hphase, Option.some.injEq] at h
    exact .inr ⟨candidate, locked, role, rfl, h.symm⟩
  | _ => simp [hphase] at h

theorem step_rescore (h : Step table id requests world (.rescore session) world') :
    ∃ fromStage, world.phase session = .committed fromStage ∧
      world' = { world.at session .done with
        db := rescoreAfter world.db id fromStage (requests session).toStage
          (requests session).env } := by
  unfold Step next? at h
  cases hphase : world.phase session with
  | committed fromStage =>
    simp only [hphase, Option.some.injEq] at h
    exact ⟨fromStage, rfl, h.symm⟩
  | _ => simp [hphase] at h

theorem checked_begin (db : Db) (cc : CampaignCandidate)
    (hcc : db.campaignCandidates.find? id = some cc) :
    Checked table id requests (World.begin db) :=
  ⟨⟨cc, hcc⟩, fun _ => trivial⟩

theorem checked_at (hi : Checked table id requests world)
    (hphase : phase.Sound table id (requests session)) :
    Checked table id requests (world.at session phase) := by
  refine ⟨hi.1, fun other => ?_⟩
  rw [phase_at]
  by_cases hother : other = session
  · rw [if_pos hother, hother]
    exact hphase
  · rw [if_neg hother]
    exact hi.2 other

theorem commit_writes (now : Instant) (hi : Checked table id requests world)
    (h : Step table id requests world (.commit session now) world') :
    ∃ stored candidate role, world.db.campaignCandidates.find? id = some stored ∧
      world.phase session = .locked candidate candidate role ∧
      Permitted table candidate (requests session).toStage (requests session).actor
        (requests session).reason ∧
      world'.db.campaignCandidates.find? id =
        some (flushed stored candidate (requests session).toStage) ∧
      ∃ row : CampaignCandidateStageHistory,
        world'.db.historyOf id = world.db.historyOf id ++ [row] ∧
        row.fromStage = some candidate.pipelineStage ∧
        row.toStage = (requests session).toStage := by
  obtain ⟨candidate, locked, role, db, hphase, hrecord, hworld⟩ := step_commit session now h
  obtain ⟨⟨stored, hstored⟩, hsound⟩ := hi
  obtain ⟨-, hid⟩ := (world.db.campaignCandidates.find?_eq_some _ _).mp hstored
  have hheld := hsound session
  rw [hphase] at hheld
  obtain ⟨rfl, hsame, permitted, hpermit⟩ := hheld
  have hread : (CampaignCandidateRepository.getById world.db id).getD locked = stored := by
    rw [CampaignCandidateRepository.getById, hstored]
    rfl
  rw [hread] at hrecord
  obtain ⟨hcandidates, ⟨row, hrows, hrowcc, hfrom, hto, -⟩, -⟩ :=
    recordMove_writes _ _ _ locked _ _ _ _ _ _ hrecord
  refine ⟨stored, locked, role, hstored, hphase,
    (permitted_iff _ _ _ _ _).mpr ⟨permitted, role, hpermit⟩, ?_, row, ?_, hfrom, hto⟩
  · rw [hworld, ← hid]
    change db.campaignCandidates.find? _ = _
    rw [hcandidates]
    exact world.db.campaignCandidates.find?_replace_self _ stored (hid.symm ▸ hstored)
  · rw [hworld]
    change db.historyOf id = _
    rw [Db.historyOf, hrows, List.filter_append]
    simp [hrowcc, hsame, Db.historyOf]

theorem checked_step (event : Event) (hi : Checked table id requests world)
    (h : Step table id requests world event world') : Checked table id requests world' := by
  cases event with
  | read session =>
    obtain ⟨phase, rfl, hphase⟩ := step_read session h
    apply checked_at session phase hi
    rcases hphase with rfl | ⟨held, resolved, row, rfl, hfind, hpermit⟩
    · trivial
    · obtain ⟨-, hid⟩ := (world.db.campaignCandidates.find?_eq_some _ _).mp hfind
      exact ⟨hid, row, hpermit⟩
  | lock session =>
    obtain ⟨candidate, role, hphase, -, rfl⟩ := step_lock session h
    have hheld := hi.2 session
    rw [hphase] at hheld
    exact checked_at session (.locked candidate candidate role) hi ⟨rfl, hheld⟩
  | commit session now =>
    obtain ⟨_, _, _, -, -, -, hwritten, -⟩ := commit_writes session now hi h
    obtain ⟨candidate, _, role, db, -, -, hworld⟩ := step_commit session now h
    have hat := checked_at session (.committed candidate.pipelineStage) hi trivial
    refine ⟨⟨_, hwritten⟩, ?_⟩
    rw [hworld]
    exact hat.2
  | rollback session =>
    rcases step_rollback session h with ⟨_, _, -, rfl⟩ | ⟨_, _, _, -, rfl⟩
    · exact checked_at session .done hi trivial
    · exact checked_at session .done hi trivial
  | rescore session =>
    obtain ⟨fromStage, -, rfl⟩ := step_rescore session h
    obtain ⟨stored, hstored⟩ := hi.1
    obtain ⟨-, rfl⟩ := (world.db.campaignCandidates.find?_eq_some _ _).mp hstored
    obtain ⟨after, hagain, -⟩ := rescoreAfter_spec world.db stored fromStage
      (requests session).toStage (requests session).env hstored
    have hat := checked_at session .done hi trivial
    exact ⟨⟨after, hagain.find?_self⟩, hat.2⟩

theorem governed_iff (event : Event) (hi : Checked table id requests world)
    (h : Step table id requests world event world') :
    Governed table id requests world event world' ↔
      Untouched table id requests world event world' := by
  cases event with
  | commit session now =>
    obtain ⟨stored, candidate, role, hstored, hphase, hread, -, row, hrows, hfrom, -⟩ :=
      commit_writes session now hi h
    constructor
    · intro hgoverned other held lockedNow resolved hother hheld
      cases hstored.symm.trans hother
      obtain ⟨rfl, -, -⟩ := Phase.locked.inj (hphase.symm.trans hheld)
      obtain ⟨hpermitted, hleft⟩ := hgoverned stored row hstored hrows
      rw [hfrom] at hleft
      exact ⟨Option.some.inj hleft, .inr hpermitted⟩
    · intro huntouched other last hother hlast
      cases hstored.symm.trans hother
      obtain rfl : row = last := by
        have happend := hrows.symm.trans hlast
        simpa using happend
      obtain ⟨hstage, hpair⟩ := huntouched stored candidate candidate role hstored hphase
      refine ⟨?_, hfrom.trans (congrArg some hstage)⟩
      rcases hpair with hprevious | hpermitted
      · rw [Permitted, ← hstage, ← hprevious]
        exact hread
      · exact hpermitted
  | _ => exact Iff.rfl

-- Over any interleaving of any number of sessions, every commit is governed
-- exactly when each meets the candidate as its unlocked read left it.
theorem governed_throughout_iff (table : TransitionTable) (id : Uuid) (requests : ℕ → Request)
    (db : Db) (cc : CampaignCandidate) (hcc : db.campaignCandidates.find? id = some cc)
    (path : List (Event × World)) (hp : Path (Step table id requests) (World.begin db) path) :
    EveryStep (Governed table id requests) (World.begin db) path ↔
      EveryStep (Untouched table id requests) (World.begin db) path :=
  hp.everyStep_congr (checked_begin db cc hcc) (fun _ event _ hi hs => checked_step event hi hs)
    (fun _ event _ hi hs => governed_iff event hi hs)

-- A session that runs alone is `transition`.
theorem alone_eq_transition (db : Db) (now : Instant) :
    ([.read session, .lock session, .commit session now, .rescore session].foldlM
        (next? table id requests) (World.begin db)).map World.db =
      match transition table db id (requests session).toStage (requests session).actor
          (requests session).reason none (requests session).env now with
      | .ok (db', true) => some db'
      | _ => none := by
  cases hfind : CampaignCandidateRepository.getById db id with
  | none => simp [transition, hfind, next?, World.begin, World.at]
  | some cc =>
    cases hpermit : permit table cc (requests session).toStage (requests session).actor
        (requests session).reason with
    | error e =>
      simp [transition, hfind, hpermit, next?, World.begin, World.at, bind, Except.bind]
    | ok permitted =>
      rcases permitted with ⟨row, role⟩
      have hflush : flushed cc cc (requests session).toStage =
          cc.movedTo (requests session).toStage := by
        simp [flushed, CampaignCandidate.movedTo]
      simp only [transition, hfind, hpermit, getByIdForUpdate, refetch_false, ne_eq,
        not_true, if_false, bind, Except.bind]
      cases hrecord : recordMove db cc (cc.movedTo (requests session).toStage) role
          (requests session).toStage (requests session).actor (requests session).reason none
          now with
      | error e =>
        simp [next?, World.begin, World.at, hfind, hpermit, getByIdForUpdate, hflush, hrecord]
      | ok result =>
        rcases result with ⟨last, created⟩
        cases created with
        | false =>
          simp [next?, World.begin, World.at, hfind, hpermit, getByIdForUpdate, hflush, hrecord]
        | true =>
          simp [next?, World.begin, World.at, hfind, hpermit, getByIdForUpdate, hflush, hrecord]

def recruiters : Request where
  toStage := if session = 0 then .hold else .shortlisted
  actor := recruiter
  reason := none
  env := idle

def holdRun : List (Event × World) :=
  execute (next? seededTransitions 0 recruiters) (World.begin screenedDb)
    [.read 0, .read 1, .lock 0, .commit 0 2, .lock 1]

def shortlistRun : List (Event × World) :=
  execute (next? seededTransitions 0 recruiters) (final (World.begin screenedDb) holdRun)
    [.commit 1 3]

theorem holdRun_path :
    Path (Step seededTransitions 0 recruiters) (World.begin screenedDb) holdRun :=
  execute_path _ (fun _ _ _ h => h) _ _

theorem race_path :
    Path (Step seededTransitions 0 recruiters) (World.begin screenedDb) (holdRun ++ shortlistRun) :=
  (path_append _ _ _).mpr ⟨holdRun_path, execute_path _ (fun _ _ _ h => h) _ _⟩

theorem governed_throughout_iff_race : ∃ cc, screenedDb.campaignCandidates.find? 0 = some cc ∧
      (EveryStep (Governed seededTransitions 0 recruiters) (World.begin screenedDb)
          (holdRun ++ shortlistRun) ↔
        EveryStep (Untouched seededTransitions 0 recruiters) (World.begin screenedDb)
          (holdRun ++ shortlistRun)) := by
  obtain ⟨cc, hcc⟩ : ∃ cc, screenedDb.campaignCandidates.find? 0 = some cc := ⟨_, rfl⟩
  exact ⟨cc, hcc, governed_throughout_iff seededTransitions 0 recruiters screenedDb cc hcc
    (holdRun ++ shortlistRun) race_path⟩

-- The second commit moves a held candidate from SCREENING to SHORTLISTED.
theorem race_not_governed :
    Path (Step seededTransitions 0 recruiters) (World.begin screenedDb) (holdRun ++ shortlistRun) ∧
      ¬EveryStep (Governed seededTransitions 0 recruiters) (World.begin screenedDb)
        (holdRun ++ shortlistRun) := by
  refine ⟨race_path, fun hall => ?_⟩
  obtain ⟨-, hlast⟩ := (everyStep_append _ _ _).mp hall
  let held := final (World.begin screenedDb) holdRun
  have hview : (next? seededTransitions 0 recruiters held (.commit 1 3)).map (fun after =>
      ((held.db.campaignCandidates.find? 0).map CampaignCandidate.pipelineStage,
        (after.db.historyOf 0).getLast?.map CampaignCandidateStageHistory.fromStage)) =
      some (some .hold, some (some .screening)) := by decide +kernel
  obtain ⟨after, hafter, hseen⟩ := Option.map_eq_some_iff.mp hview
  obtain ⟨hstage, hfrom⟩ := Prod.mk.inj hseen
  obtain ⟨stored, hstored, hstored_stage⟩ := Option.map_eq_some_iff.mp hstage
  obtain ⟨cc, hcc⟩ : ∃ cc, screenedDb.campaignCandidates.find? 0 = some cc := ⟨_, rfl⟩
  have hchecked : Checked seededTransitions 0 recruiters held :=
    holdRun_path.invariant (checked_begin screenedDb cc hcc)
      (fun _ event _ hi hs => checked_step event hi hs) held (final_mem_visited _ _)
  obtain ⟨_, _, _, -, -, -, -, row, hrows, -⟩ := commit_writes 1 3 hchecked hafter
  have hrun : shortlistRun = [(.commit 1 3, after)] := by
    simp only [shortlistRun, execute]
    rw [hafter]
  rw [hrun] at hlast
  obtain ⟨-, hleft⟩ := hlast.1 stored row hstored hrows
  rw [hrows, List.getLast?_concat] at hfrom
  rw [Option.map_some, Option.some.injEq, hleft, hstored_stage] at hfrom
  exact absurd hfrom (by decide)

end Race

end AiHiring
