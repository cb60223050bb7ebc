import AiHiring.Pipeline.Override

namespace AiHiring

open Library
open CampaignCandidateRepository (getStageHistoryByIdempotencyKey createStageHistoryIdempotent)

-- What every stage writer does to the candidate and to its stage history.
-- previous_stage and the decision are not part of it: the writers differ there.
structure Moved (db db' : Db) (before after : CampaignCandidate) : Prop where
  found : db.campaignCandidates.find? before.id = some before
  sameId : after.id = before.id
  sameCampaign : after.campaignId = before.campaignId
  candidates : db'.campaignCandidates = db.campaignCandidates.replace after
  history : ∃ row : CampaignCandidateStageHistory,
    db'.stageHistory.rows = db.stageHistory.rows ++ [row] ∧ row.campaignCandidateId = before.id ∧
      row.fromStage = some before.pipelineStage ∧ row.toStage = after.pipelineStage

namespace Moved

variable {db db' : Db} {before after : CampaignCandidate}

theorem find?_self (h : Moved db db' before after) :
    db'.campaignCandidates.find? before.id = some after := by
  rw [h.candidates, ← h.sameId]
  exact db.campaignCandidates.find?_replace_self after before (h.sameId ▸ h.found)

theorem find?_other (h : Moved db db' before after) (id : Uuid) (hne : id ≠ before.id) :
    db'.campaignCandidates.find? id = db.campaignCandidates.find? id := by
  rw [h.candidates]
  exact db.campaignCandidates.find?_replace_ne after id (h.sameId ▸ hne)

theorem historyOf_self (h : Moved db db' before after) : ∃ row : CampaignCandidateStageHistory,
      db'.historyOf before.id = db.historyOf before.id ++ [row] ∧
        row.fromStage = some before.pipelineStage ∧ row.toStage = after.pipelineStage := by
  obtain ⟨row, hrows, hcc, hfrom, hto⟩ := h.history
  refine ⟨row, ?_, hfrom, hto⟩
  rw [Db.historyOf, hrows, List.filter_append]
  simp [hcc, Db.historyOf]

theorem historyOf_other (h : Moved db db' before after) (id : Uuid) (hne : id ≠ before.id) :
    db'.historyOf id = db.historyOf id := by
  obtain ⟨row, hrows, hcc, -, -⟩ := h.history
  rw [Db.historyOf, hrows, List.filter_append]
  simp [hcc, Ne.symm hne, Db.historyOf]

theorem rescored (h : Moved db db' before after) (hagain : Rescored db' db'' after last) :
    Moved db db'' before last := by
  constructor
  · exact h.found
  · rw [hagain.sameId, h.sameId]
  · rw [hagain.sameCampaign, h.sameCampaign]
  · rw [hagain.db, ← db.campaignCandidates.replace_replace after last hagain.sameId.symm,
      h.candidates]
  · obtain ⟨row, hrows, hcc, hfrom, hto⟩ := h.history
    rw [hagain.db]
    exact ⟨row, hrows, hcc, hfrom, hto.trans hagain.sameStage.symm⟩

end Moved

section Specs

variable (table : TransitionTable) (db db' : Db) (now : Instant)

namespace StageTransitionService

open AllowedTransitionRepository

-- The exceptions of steps 1 to 3.
def Refusal : ServiceError → Prop
  | .invalidTransition _ _ => True
  | .forbiddenRole _ _ _ => True
  | .reasonRequired _ _ => True
  | _ => False

-- A row governs the move, lists one of the actor's roles, and gets its reason.
def Permitted (cc : CampaignCandidate) (toStage : PipelineStage) (actor : Actor)
    (reason : Option String) : Prop :=
  ∃ row, get table cc.pipelineStage toStage cc.previousStage = some row ∧
    (∃ role ∈ actor.roles, role ∈ row.allowedRoles) ∧
    (row.requiresReason = true → ∃ given, reason = some given ∧ NonBlank given)

variable (cc : CampaignCandidate) (hcc : db.campaignCandidates.find? cc.id = some cc)

include hcc

theorem transitionToScreening_ok (h : transitionToScreening table db cc now = (db', true)) :
    ∃ after, Moved db db' cc after ∧ after.pipelineStage = .screening ∧
      after.previousStage = some cc.pipelineStage ∧ after.decisionType = cc.decisionType ∧
      db'.interviewSchedules = db.interviewSchedules := by
  rw [transitionToScreening] at h
  split_ifs at h
  · exact absurd (Prod.mk.inj h).2 (by simp)
  · exact absurd (Prod.mk.inj h).2 (by simp)
  · rw [← (Prod.mk.inj h).1]
    exact ⟨{ cc.movedTo .screening with updatedAt := some now },
      ⟨hcc, rfl, rfl, rfl, _, rfl, rfl, rfl, rfl⟩, rfl, rfl, rfl, rfl⟩

theorem transitionOnAiSuccess_ok (toStage : PipelineStage) (decisionType : DecisionType)
    (changeReason : String) (scoresSnapshot : Option Dict) (decisionReason : Option String)
    (decisionDetails : Option Dict)
    (h : transitionOnAiSuccess table db cc toStage decisionType changeReason scoresSnapshot
      decisionReason decisionDetails now = (db', true)) :
    ∃ after, Moved db db' cc after ∧ after.pipelineStage = toStage ∧
      after.previousStage = some cc.pipelineStage ∧ after.decisionType = some decisionType ∧
      db'.interviewSchedules = db.interviewSchedules := by
  rw [transitionOnAiSuccess] at h
  split_ifs at h
  · exact absurd (Prod.mk.inj h).2 (by simp)
  · rw [← (Prod.mk.inj h).1]
    exact ⟨(cc.movedTo toStage).withDecision decisionType (some .ai)
        (some (decisionReason.getD changeReason)) decisionDetails none now,
      ⟨hcc, rfl, rfl, rfl, _, rfl, rfl, rfl, rfl⟩, rfl, rfl, rfl, rfl⟩

theorem transitionToRejected_ok (changeReason : String) (scoresSnapshot : Option Dict)
    (decisionSource : DecisionSource) (decisionReason : Option String)
    (decisionDetails : Option Dict) (decisionByUserId : Option String)
    (h : transitionToRejected table db cc changeReason scoresSnapshot decisionSource
      decisionReason decisionDetails decisionByUserId now = (db', true)) :
    ∃ after, Moved db db' cc after ∧ after.pipelineStage = .rejected ∧
      after.previousStage = some cc.pipelineStage ∧ after.decisionType = some .rejected ∧
      db'.interviewSchedules = db.interviewSchedules := by
  rw [transitionToRejected] at h
  by_cases hallowed : !isTransitionAllowed table cc.pipelineStage .rejected cc.previousStage
  · rw [if_pos hallowed] at h
    exact absurd (Prod.mk.inj h).2 (by simp)
  · rw [if_neg hallowed] at h
    rw [← (Prod.mk.inj h).1]
    exact ⟨(cc.movedTo .rejected).withDecision .rejected (some decisionSource)
        (some (decisionReason.getD changeReason)) decisionDetails decisionByUserId now,
      ⟨hcc, rfl, rfl, rfl, _, rfl, rfl, rfl, rfl⟩, rfl, rfl, rfl, rfl⟩

theorem applyHrOverride_ok (changedBy changeReason : String) (decisionReason : Option String)
    (h : applyHrOverride table db cc changedBy changeReason decisionReason now = (db', true)) :
    ∃ after, Moved db db' cc after ∧ after.pipelineStage = .screening ∧
      after.previousStage = some cc.pipelineStage ∧ after.decisionType = some .reset ∧
      db'.interviewSchedules = db.interviewSchedules := by
  rw [applyHrOverride] at h
  split_ifs at h
  · exact absurd (Prod.mk.inj h).2 (by simp)
  · rw [← (Prod.mk.inj h).1]
    exact ⟨(cc.movedTo .screening).withDecision .reset (some .recruiter)
        (some (decisionReason.getD changeReason)) (some (overriddenDecision cc))
        (some changedBy) now,
      ⟨hcc, rfl, rfl, rfl, _, rfl, rfl, rfl, rfl⟩, rfl, rfl, rfl, rfl⟩

omit hcc in
theorem recordMove_replay (written : CampaignCandidate) (role : String) (toStage : PipelineStage)
    (actor : Actor) (reason idempotencyKey : Option String) :
    recordMove db cc written role toStage actor reason idempotencyKey now = .ok (db', false) ↔
      db' = db ∧ idempotencyKey.bind (getStageHistoryByIdempotencyKey db) ≠ none := by
  cases hkey : idempotencyKey.bind
      (getStageHistoryByIdempotencyKey db) with
  | some existing =>
    simp [recordMove, createStageHistoryIdempotent, hkey, eq_comm]
  | none =>
    simp [recordMove, createStageHistoryIdempotent, hkey, bind_eq_ok]

omit hcc in
theorem recordMove_writes (written : CampaignCandidate) (role : String) (toStage : PipelineStage)
    (actor : Actor) (reason idempotencyKey : Option String)
    (h : recordMove db cc written role toStage actor reason idempotencyKey now = .ok (db', true)) :
    db'.campaignCandidates = db.campaignCandidates.replace written ∧
      (∃ row : CampaignCandidateStageHistory,
        db'.stageHistory.rows = db.stageHistory.rows ++ [row] ∧
        row.campaignCandidateId = cc.id ∧ row.fromStage = some cc.pipelineStage ∧
        row.toStage = toStage ∧ row.idempotencyKey = idempotencyKey) ∧
      db'.interviewSchedules =
        hookedRounds db.interviewSchedules cc.id cc.pipelineStage toStage now ∧
      db'.campaigns = db.campaigns ∧
      idempotencyKey.bind (getStageHistoryByIdempotencyKey db) = none := by
  cases hkey : idempotencyKey.bind
      (getStageHistoryByIdempotencyKey db) with
  | some existing =>
    simp [recordMove, createStageHistoryIdempotent, hkey] at h
  | none =>
    simp only [recordMove, createStageHistoryIdempotent, hkey,
      Bool.not_true, Bool.false_eq_true, if_false, bind_eq_ok] at h
    obtain ⟨mid, hhooks, hdone⟩ := h
    have hmid := interviewHooks_ok _ _ _ _ _ _ _ _ hhooks
    rw [← (Prod.mk.inj (Except.ok.inj hdone)).1, hmid]
    exact ⟨rfl, ⟨_, rfl, rfl, rfl, rfl, rfl⟩, rfl, rfl, rfl⟩

theorem recordMove_ok (written : CampaignCandidate) (role : String) (toStage : PipelineStage)
    (actor : Actor) (reason idempotencyKey : Option String) (hid : written.id = cc.id)
    (hcampaign : written.campaignId = cc.campaignId) (hstage : written.pipelineStage = toStage)
    (h : recordMove db cc written role toStage actor reason idempotencyKey now = .ok (db', true)) :
    Moved db db' cc written ∧ db'.interviewSchedules =
        hookedRounds db.interviewSchedules cc.id cc.pipelineStage toStage now ∧
      db'.campaigns = db.campaigns ∧
      ∃ row : CampaignCandidateStageHistory, row ∈ db'.stageHistory.rows ∧
        row.idempotencyKey = idempotencyKey := by
  obtain ⟨hcandidates, ⟨row, hrows, hrowcc, hfrom, hto, hkey⟩, hrounds, hcampaigns, -⟩ :=
    recordMove_writes _ _ _ cc written role toStage actor reason idempotencyKey h
  refine ⟨⟨hcc, hid, hcampaign, hcandidates, row, hrows, hrowcc, hfrom, hto.trans hstage.symm⟩,
    hrounds, hcampaigns, row, ?_, hkey⟩
  rw [hrows]
  exact List.mem_append_right _ (List.mem_singleton_self _)

omit hcc cc in
theorem reasonGiven_iff (reason : Option String) :
    reasonGiven reason = true ↔ ∃ given, reason = some given ∧ NonBlank given := by
  cases reason with
  | none => simp [reasonGiven]
  | some given =>
    simp only [reasonGiven, Bool.and_eq_true, decide_eq_true_eq,
      strip_ne_empty, Option.some.injEq, exists_eq_left']
    exact ⟨fun h => h.2, fun h => ⟨h.ne_empty, h⟩⟩

omit hcc in
theorem permit_eq_ok (toStage : PipelineStage) (actor : Actor) (reason : Option String)
    (row : AllowedTransition) (role : String) :
    permit table cc toStage actor reason = .ok (row, role) ↔
      get table cc.pipelineStage toStage cc.previousStage = some row ∧
        actor.roles.find? (fun r => r ∈ row.allowedRoles) = some role ∧
        (row.requiresReason = true → reasonGiven reason = true) := by
  rw [permit]
  cases hrow : get table cc.pipelineStage toStage cc.previousStage with
  | none => simp
  | some found =>
    cases hrole : actor.roles.find? (fun r => r ∈ found.allowedRoles) with
    | none =>
      simp only [hrole, reduceCtorEq, false_iff, Option.some.injEq]
      rintro ⟨rfl, hsome, -⟩
      exact absurd (hrole.symm.trans hsome) (by simp)
    | some first =>
      simp only [hrole, raise_eq_ok, Except.ok.injEq, Prod.mk.injEq, Option.some.injEq]
      constructor
      · rintro ⟨hreason, rfl, rfl⟩
        exact ⟨rfl, hrole, by simpa using hreason⟩
      · rintro ⟨rfl, hsome, hreason⟩
        exact ⟨by simpa using hreason, rfl, Option.some.inj (hrole.symm.trans hsome)⟩

omit hcc cc in
-- The locking read gives back the object the session loaded, so alone the
-- conflict check never fires.
theorem transition_eq_ok (campaignCandidateId : Uuid) (toStage : PipelineStage) (actor : Actor)
    (reason idempotencyKey : Option String) (env : RescoreEnv) (applied : Bool) :
    transition table db campaignCandidateId toStage actor reason idempotencyKey env now =
        .ok (db', applied) ↔
      ∃ cc row role mid, db.campaignCandidates.find? campaignCandidateId = some cc ∧
        permit table cc toStage actor reason = .ok (row, role) ∧
        recordMove db cc (cc.movedTo toStage) role toStage actor reason idempotencyKey now =
          .ok (mid, applied) ∧
        db' = if applied then
            rescoreAfter mid campaignCandidateId cc.pipelineStage toStage env
          else mid := by
  rw [transition, CampaignCandidateRepository.getById]
  cases hcc : db.campaignCandidates.find? campaignCandidateId with
  | none => simp
  | some cc =>
    simp only [bind_eq_ok, getByIdForUpdate, refetch_false, ne_eq, not_true, if_false,
      Option.some.injEq]
    constructor
    · rintro ⟨⟨row, role⟩, hpermit, ⟨mid, created⟩, hrecord, hdone⟩
      cases created with
      | false =>
        cases hdone
        exact ⟨cc, row, role, mid, rfl, hpermit, hrecord, rfl⟩
      | true =>
        cases hdone
        exact ⟨cc, row, role, mid, rfl, hpermit, hrecord, rfl⟩
    · rintro ⟨found, row, role, mid, rfl, hpermit, hrecord, rfl⟩
      refine ⟨(row, role), hpermit, (mid, applied), hrecord, ?_⟩
      cases applied <;> rfl

omit hcc in
theorem permitted_iff (toStage : PipelineStage) (actor : Actor) (reason : Option String) :
    Permitted table cc toStage actor reason ↔
      ∃ row role, permit table cc toStage actor reason = .ok (row, role) := by
  simp only [permit_eq_ok, reasonGiven_iff]
  constructor
  · rintro ⟨row, hget, ⟨role, hrole, hlists⟩, hreason⟩
    have hsome : (actor.roles.find? fun r => r ∈ row.allowedRoles).isSome = true := by
      rw [List.find?_isSome]
      exact ⟨role, hrole, decide_eq_true hlists⟩
    obtain ⟨first, hfirst⟩ := Option.isSome_iff_exists.mp hsome
    exact ⟨row, first, hget, hfirst, hreason⟩
  · rintro ⟨row, role, hget, hfirst, hreason⟩
    have hlists := List.find?_some hfirst
    exact ⟨row, hget, ⟨role, List.mem_of_find?_eq_some hfirst, by simpa using hlists⟩, hreason⟩

omit hcc in
theorem permit_error (toStage : PipelineStage) (actor : Actor) (reason : Option String)
    (e : ServiceError) (h : permit table cc toStage actor reason = .error e) : Refusal e := by
  unfold permit at h
  cases hget : get table cc.pipelineStage toStage cc.previousStage with
  | none =>
    simp only [hget] at h
    rw [← Except.error.inj h]
    trivial
  | some row =>
    cases hrole : actor.roles.find? (fun r => r ∈ row.allowedRoles) with
    | none =>
      simp only [hget, hrole] at h
      rw [← Except.error.inj h]
      trivial
    | some role =>
      simp only [hget, hrole] at h
      split_ifs at h
      rw [← Except.error.inj h]
      trivial

omit hcc in
theorem recordMove_attributed (written : CampaignCandidate) (role : String)
    (toStage : PipelineStage) (actor : Actor) (reason idempotencyKey : Option String)
    (by_ : String) (hid : actor.id = some by_) (hhuman : "SYSTEM" ∉ actor.roles)
    (hfresh : idempotencyKey.bind (getStageHistoryByIdempotencyKey db) = none) :
    ∃ mid, recordMove db cc written role toStage actor reason idempotencyKey now =
      .ok (mid, true) := by
  obtain ⟨mid, hmid⟩ := interviewHooks_attributed (CampaignCandidateRepository.update
      (CampaignCandidateRepository.createStageHistory db cc.id toStage (some cc.pipelineStage)
        (some by_) reason .manual none idempotencyKey) written)
    cc.id cc.pipelineStage toStage now by_ role
  simp only [recordMove, createStageHistoryIdempotent, hfresh,
    hid, Bool.not_true, Bool.false_eq_true, if_false, decide_eq_true_eq, if_neg hhuman,
    bind_eq_ok]
  exact ⟨_, mid, hmid, rfl⟩

omit hcc in
theorem transition_attributed (toStage : PipelineStage) (actor : Actor)
    (reason idempotencyKey : Option String) (env : RescoreEnv) (by_ : String)
    (hcc : db.campaignCandidates.find? cc.id = some cc)
    (hid : actor.id = some by_) (hhuman : "SYSTEM" ∉ actor.roles)
    (hfresh : idempotencyKey.bind (getStageHistoryByIdempotencyKey db) = none) :
    match permit table cc toStage actor reason with
    | .ok _ => ∃ db', transition table db cc.id toStage actor reason idempotencyKey env now =
        .ok (db', true)
    | .error e =>
      transition table db cc.id toStage actor reason idempotencyKey env now = .error e := by
  cases hpermit : permit table cc toStage actor reason with
  | error e =>
    simp [transition, CampaignCandidateRepository.getById, hcc, hpermit, bind, Except.bind]
  | ok permitted =>
    rcases permitted with ⟨row, role⟩
    obtain ⟨mid, hmid⟩ := recordMove_attributed db now cc (cc.movedTo toStage) role toStage
      actor reason idempotencyKey by_ hid hhuman hfresh
    exact ⟨_, (transition_eq_ok _ _ _ _ _ _ _ _ _ _ _).mpr
      ⟨cc, row, role, mid, hcc, hpermit, hmid, rfl⟩⟩

omit hcc cc in
theorem transition_ok (campaignCandidateId : Uuid) (toStage : PipelineStage) (actor : Actor)
    (reason idempotencyKey : Option String) (env : RescoreEnv)
    (h : transition table db campaignCandidateId toStage actor reason idempotencyKey env now =
      .ok (db', true)) :
    ∃ cc after, Moved db db' cc after ∧ cc.id = campaignCandidateId ∧
      after.pipelineStage = toStage ∧ after.previousStage = some cc.pipelineStage ∧
      (after.decisionType = cc.decisionType ∨ toStage = .screening) ∧
      db'.interviewSchedules =
        hookedRounds db.interviewSchedules cc.id cc.pipelineStage toStage now ∧
      db'.campaigns = db.campaigns ∧
      ∃ row : CampaignCandidateStageHistory, row ∈ db'.stageHistory.rows ∧
        row.idempotencyKey = idempotencyKey := by
  obtain ⟨cc, row, role, mid, hfind, -, hrecord, hdb⟩ :=
    (transition_eq_ok _ _ _ _ _ _ _ _ _ _ _).mp h
  obtain ⟨-, hid⟩ := (db.campaignCandidates.find?_eq_some _ _).mp hfind
  subst hid
  obtain ⟨hmoved, hrounds, hcampaigns, hkey⟩ := recordMove_ok _ _ _ cc hfind
    (cc.movedTo toStage) role toStage actor reason idempotencyKey rfl rfl rfl hrecord
  obtain ⟨after, hagain, hdue⟩ := rescoreAfter_spec mid (cc.movedTo toStage) cc.pipelineStage
    toStage env hmoved.find?_self
  rw [if_pos rfl] at hdb
  change Rescored mid (rescoreAfter mid cc.id cc.pipelineStage toStage env) _ _ at hagain
  rw [← hdb] at hagain
  refine ⟨cc, after, hmoved.rescored hagain, rfl, hagain.sameStage, hagain.samePrevious, ?_⟩
  rw [hagain.db]
  refine ⟨?_, hrounds, hcampaigns, hkey⟩
  rcases hdue with rfl | hdue
  · exact .inl rfl
  · exact .inr hdue.1

end StageTransitionService

namespace PipelineTransitionService

open AllowedTransitionRepository

theorem closeIfAllPositionsFilled_frame (withRepo : Bool) (campaignId : Uuid)
    (changedBy actorRole : Option String) :
    ∃ campaigns auditLog, closeIfAllPositionsFilled db withRepo campaignId changedBy actorRole now =
        { db with campaigns, auditLog } := by
  rw [closeIfAllPositionsFilled]
  by_cases hrepo : (!withRepo) = true
  · rw [if_pos hrepo]
    exact ⟨_, _, rfl⟩
  · rw [if_neg hrepo]
    cases CampaignRepository.getById db campaignId with
    | none => exact ⟨_, _, rfl⟩
    | some campaign =>
      dsimp only
      split_ifs <;> exact ⟨_, _, rfl⟩

theorem decided_spec (cc : CampaignCandidate) (request : StageRequest) :
    (decided cc request now).id = cc.id ∧ (decided cc request now).campaignId = cc.campaignId ∧
      (decided cc request now).pipelineStage = cc.pipelineStage ∧
      (decided cc request now).previousStage = cc.previousStage ∧
      (decided cc request now).decisionType = request.decisionType.or cc.decisionType := by
  rw [decided]
  cases request.decisionType with
  | none => exact ⟨rfl, rfl, rfl, rfl, rfl⟩
  | some decisionType => exact ⟨rfl, rfl, rfl, rfl, rfl⟩

theorem permit_eq_ok (cc : CampaignCandidate) (request : StageRequest) (row : AllowedTransition) :
    permit table cc request = .ok row ↔
      get table cc.pipelineStage request.toStage cc.previousStage = some row ∧
        effectiveRole request ∈ row.allowedRoles ∧
        (row.requiresReason = true → reasonMissing request.reason = false) := by
  rw [permit]
  cases hrow : get table cc.pipelineStage request.toStage cc.previousStage with
  | none => simp
  | some found =>
    simp only [raise_eq_ok, Except.ok.injEq, Option.some.injEq, not_not]
    constructor
    · rintro ⟨hrole, hreason, rfl⟩
      exact ⟨rfl, hrole, by simpa using hreason⟩
    · rintro ⟨rfl, hrole, hreason⟩
      exact ⟨hrole, by simpa using hreason, rfl⟩

theorem transitionStage_attributed (withRepo : Bool) (cc : CampaignCandidate)
    (request : StageRequest) (by_ : String) (hby : request.changedBy = some by_) :
    match permit table cc request with
    | .ok _ => ∃ result, transitionStage table db withRepo cc request now = .ok result
    | .error e => transitionStage table db withRepo cc request now = .error e := by
  cases hpermit : permit table cc request with
  | error e => simp [transitionStage, hpermit, bind, Except.bind]
  | ok row =>
    have hhooks := interviewHooks_attributed
      (CampaignCandidateRepository.update db (cc.movedTo request.toStage)) cc.id
      cc.pipelineStage request.toStage now by_ (effectiveRole request)
    obtain ⟨mid, hmid⟩ := hhooks
    rw [← hby] at hmid
    refine ⟨(recordStage mid withRepo cc.pipelineStage
      (decided (cc.movedTo request.toStage) request now) request now,
      decided (cc.movedTo request.toStage) request now), ?_⟩
    rw [transitionStage, hpermit]
    exact (bind_eq_ok _ _ _).mpr ⟨row, rfl, (bind_eq_ok _ _ _).mpr ⟨mid, hmid, rfl⟩⟩

theorem recordStage_spec (withRepo : Bool) (fromStage : PipelineStage) (cc : CampaignCandidate)
    (request : StageRequest) :
    let last := recordStage db withRepo fromStage cc request now
    last.campaignCandidates = db.campaignCandidates.replace cc ∧
      last.interviewSchedules = db.interviewSchedules ∧
      (∃ row : CampaignCandidateStageHistory,
        last.stageHistory.rows = db.stageHistory.rows ++ [row] ∧
        row.campaignCandidateId = cc.id ∧ row.fromStage = some fromStage ∧
        row.toStage = request.toStage) ∧
      last.campaigns = if request.toStage = .selected then
          (closeIfAllPositionsFilled (CampaignCandidateRepository.update db cc) withRepo
            cc.campaignId request.changedBy request.actorRole now).campaigns
        else db.campaigns := by
  obtain ⟨campaigns, auditLog, hclose⟩ := closeIfAllPositionsFilled_frame
    (CampaignCandidateRepository.update db cc) now withRepo cc.campaignId request.changedBy
    request.actorRole
  simp only [recordStage, hclose]
  split_ifs <;> exact ⟨rfl, rfl, ⟨_, rfl, rfl, rfl, rfl⟩, rfl⟩

theorem transitionStage_ok (withRepo : Bool) (cc cc' : CampaignCandidate)
    (request : StageRequest) (hcc : db.campaignCandidates.find? cc.id = some cc)
    (h : transitionStage table db withRepo cc request now = .ok (db', cc')) :
    Moved db db' cc cc' ∧ cc'.pipelineStage = request.toStage ∧
      cc'.previousStage = some cc.pipelineStage ∧
      cc'.decisionType = request.decisionType.or cc.decisionType ∧
      db'.interviewSchedules =
        hookedRounds db.interviewSchedules cc.id cc.pipelineStage request.toStage now ∧
      ∃ mid : Db, mid.campaignCandidates = db'.campaignCandidates ∧ mid.campaigns = db.campaigns ∧
        db'.campaigns = if request.toStage = .selected then
            (closeIfAllPositionsFilled mid withRepo cc.campaignId request.changedBy
              request.actorRole now).campaigns
          else db.campaigns := by
  simp only [transitionStage, CampaignCandidateRepository.updatePipelineStage, bind_eq_ok] at h
  obtain ⟨-, -, mid, hhooks, hdone⟩ := h
  obtain ⟨hdb, hcc'⟩ := Prod.mk.inj (Except.ok.inj hdone)
  have hmid := interviewHooks_ok _ _ _ _ _ _ _ _ hhooks
  obtain ⟨hid, hcampaign, hstage, hprevious, hdecision⟩ :=
    decided_spec now (cc.movedTo request.toStage) request
  change decided (cc.movedTo request.toStage) request now = cc' at hcc'
  change recordStage mid withRepo cc.pipelineStage
    (decided (cc.movedTo request.toStage) request now) request now = db' at hdb
  rw [hcc'] at hid hcampaign hstage hprevious hdecision hdb
  obtain ⟨hcandidates, hrounds, ⟨row, hrows, hrowcc, hfrom, hto⟩, hcampaigns⟩ :=
    recordStage_spec mid now withRepo cc.pipelineStage cc' request
  rw [hdb] at hcandidates hrounds hrows hcampaigns
  -- the row is written twice, before and after the hooks
  have hwritten : db'.campaignCandidates = db.campaignCandidates.replace cc' := by
    rw [hcandidates, hmid]
    exact db.campaignCandidates.replace_replace (cc.movedTo request.toStage) cc' hid.symm
  refine ⟨⟨hcc, hid, hcampaign, hwritten, row, ?_, hrowcc.trans hid, hfrom, hto.trans hstage.symm⟩,
    hstage, hprevious, hdecision, ?_, CampaignCandidateRepository.update mid cc', ?_, ?_, ?_⟩
  · rw [hrows, hmid]; rfl
  · rw [hrounds, hmid]; rfl
  · rw [hcandidates]; rfl
  · rw [hmid]; rfl
  · rw [hcampaigns, hcampaign, hmid]; rfl

end PipelineTransitionService

namespace OverrideRevertService

theorem storedDecision_ok (details : Dict) (restoredType : DecisionType)
    (restoredSource : DecisionSource)
    (h : storedDecision details = .ok (restoredType, restoredSource)) :
    ∃ kind, detail details "overridden_decision_type" = .str kind ∧
      DecisionType.ofValue? kind = some restoredType := by
  simp only [storedDecision, raise_eq_ok] at h
  obtain ⟨-, hnames⟩ := h
  cases htype : (detail details "overridden_decision_type").asString?.bind
      DecisionType.ofValue? with
  | none => rw [htype] at hnames; exact absurd hnames (by simp)
  | some found =>
    cases hsource : (detail details "overridden_decision_source").asString?.bind
        DecisionSource.ofValue? with
    | none => rw [htype, hsource] at hnames; exact absurd hnames (by simp)
    | some source =>
      rw [htype, hsource] at hnames
      obtain ⟨rfl, -⟩ := Prod.mk.inj (Except.ok.inj hnames)
      obtain ⟨kind, hkind, hvalue⟩ := Option.bind_eq_some_iff.mp htype
      exact ⟨kind, (Json.asString?_eq_some _ _).mp hkind, hvalue⟩

theorem revertOverride_ok (withAiRepo : Bool) (campaignCandidateId : Uuid)
    (reason actorId : String) (actorRole : Option String)
    (h : revertOverride db withAiRepo campaignCandidateId reason actorId actorRole now = .ok db') :
    ∃ cc after restoredType restoredSource, Moved db db' cc after ∧ cc.id = campaignCandidateId ∧
      storedDecision (cc.decisionDetails.getD []) = .ok (restoredType, restoredSource) ∧
      after.pipelineStage = .rejected ∧ after.previousStage = cc.previousStage ∧
      after.decisionType = some restoredType ∧
      db'.interviewSchedules = db.interviewSchedules := by
  rw [revertOverride, CampaignCandidateRepository.getById] at h
  cases hcc : db.campaignCandidates.find? campaignCandidateId with
  | none => rw [hcc] at h; exact absurd h (by simp)
  | some cc =>
    obtain ⟨-, hid⟩ := (db.campaignCandidates.find?_eq_some _ _).mp hcc
    subst hid
    simp only [hcc, raise_eq_ok, not_not, bind_eq_ok] at h
    obtain ⟨-, hscreening, ⟨restoredType, restoredSource⟩, hstored, hdone⟩ := h
    cases hdone
    have hskip (row : CampaignCandidate) : (skipAiEvaluation row).id = row.id ∧
        (skipAiEvaluation row).campaignId = row.campaignId ∧
        (skipAiEvaluation row).pipelineStage = row.pipelineStage ∧
        (skipAiEvaluation row).previousStage = row.previousStage ∧
        (skipAiEvaluation row).decisionType = row.decisionType := by
      rw [skipAiEvaluation]
      split_ifs <;> exact ⟨rfl, rfl, rfl, rfl, rfl⟩
    obtain ⟨hid, hcampaign, hstage, hprevious, hdecision⟩ :=
      hskip (reverted cc (cc.decisionDetails.getD []) reason actorId restoredType
        restoredSource now)
    cases withAiRepo with
    | false =>
      exact ⟨cc, reverted cc (cc.decisionDetails.getD []) reason actorId restoredType
          restoredSource now, restoredType, restoredSource,
        ⟨hcc, rfl, rfl, rfl, _, rfl, rfl, hscreening ▸ rfl, rfl⟩, rfl, hstored, rfl, rfl, rfl,
        rfl⟩
    | true =>
      exact ⟨cc, _, restoredType, restoredSource,
        ⟨hcc, hid, hcampaign, rfl, _, rfl, hid, hscreening ▸ rfl, hstage.symm⟩, rfl, hstored,
        hstage, hprevious, hdecision, rfl⟩

end OverrideRevertService

namespace CampaignService

theorem getStalledCandidateOrRaise_ok (campaignId campaignCandidateId : Uuid)
    (cc : CampaignCandidate)
    (h : getStalledCandidateOrRaise db campaignId campaignCandidateId = .ok cc) :
    db.campaignCandidates.find? campaignCandidateId = some cc ∧ cc.campaignId = campaignId := by
  rw [getStalledCandidateOrRaise] at h
  cases hcampaign : CampaignRepository.getById db campaignId with
  | none => rw [hcampaign] at h; exact absurd h (by simp)
  | some campaign =>
    cases hcc : CampaignRepository.getCampaignCandidate db campaignId campaignCandidateId with
    | none => rw [hcampaign, hcc] at h; exact absurd h (by simp)
    | some found =>
      simp only [hcampaign, hcc] at h
      cases h
      have hfound := List.find?_some hcc
      have hmem := List.mem_of_find?_eq_some hcc
      obtain ⟨hid, hin⟩ := of_decide_eq_true hfound
      exact ⟨(db.campaignCandidates.find?_eq_some _ _).mpr ⟨hmem, hid⟩, hin⟩

theorem overrideTarget_allowed (fromStage target : PipelineStage) (targetStage : Option String)
    (h : overrideTarget fromStage targetStage = .ok target) :
    target ∉ overrideForbiddenTargets := by
  rw [overrideTarget] at h
  cases hnamed : targetStage.filter (· ≠ "") with
  | some named =>
    simp only [hnamed] at h
    cases hstage : PipelineStage.ofValue? named with
    | none => simp [hstage] at h
    | some stage =>
      simp only [hstage, raise_eq_ok, Except.ok.injEq] at h
      exact h.2.2 ▸ h.1
  | none =>
    simp only [hnamed] at h
    cases fromStage <;> simp_all [stageOverrideNext] <;> subst h <;> decide

theorem overrideCandidateStage_ok (campaignId campaignCandidateId : Uuid)
    (targetStage : Option String) (reason actorId : String) (actorRole : Option String)
    (env : RescoreEnv)
    (h : overrideCandidateStage db campaignId campaignCandidateId targetStage reason actorId
      actorRole env now = .ok db') :
    ∃ cc after target, Moved db db' cc after ∧ cc.id = campaignCandidateId ∧
      overrideTarget cc.pipelineStage targetStage = .ok target ∧
      after.pipelineStage = target ∧ after.previousStage = cc.previousStage ∧
      (after.decisionType = cc.decisionType ∨ target = .screening) ∧
      db'.interviewSchedules =
        hookedRounds db.interviewSchedules cc.id cc.pipelineStage target now ∧
      ∃ mid : Db, (target = .selected → mid.campaignCandidates = db'.campaignCandidates) ∧
        mid.campaigns = db.campaigns ∧
        db'.campaigns = if target = .selected then
            (PipelineTransitionService.closeIfAllPositionsFilled mid true cc.campaignId
              (some actorId) actorRole now).campaigns
          else db.campaigns := by
  simp only [overrideCandidateStage, CampaignRepository.transitionCandidateStage, bind_eq_ok] at h
  obtain ⟨cc, hcc, target, htarget, mid, hhooks, hdone⟩ := h
  obtain ⟨hfind, hcampaign⟩ := getStalledCandidateOrRaise_ok _ _ _ _ hcc
  obtain ⟨-, hid⟩ := (db.campaignCandidates.find?_eq_some _ _).mp hfind
  subst hid hcampaign
  have hmid := interviewHooks_ok _ _ _ _ _ _ _ _ hhooks
  -- the state the override commits, before the re-score
  obtain ⟨logged, last, hlogged, hlast, hdb⟩ : ∃ logged last : Db,
      (∃ auditLog, logged = { mid with auditLog }) ∧
      last = (if target = .selected then
          PipelineTransitionService.closeIfAllPositionsFilled logged true cc.campaignId
            (some actorId) actorRole now
        else logged) ∧
      rescoreAfter last cc.id cc.pipelineStage target env = db' :=
    ⟨_, _, ⟨_, rfl⟩, rfl, Except.ok.inj hdone⟩
  obtain ⟨auditLog, rfl⟩ := hlogged
  obtain ⟨campaigns, entries, hclose⟩ := PipelineTransitionService.closeIfAllPositionsFilled_frame
    { mid with auditLog } now true cc.campaignId (some actorId) actorRole
  have hrest : last = { mid with campaigns := last.campaigns, auditLog := last.auditLog } := by
    rw [hlast]
    split_ifs
    · rw [hclose]
    · rfl
  have hmoved : Moved db last cc { cc with pipelineStage := target } := by
    rw [hrest, hmid]
    exact ⟨hfind, rfl, rfl, rfl, _, rfl, rfl, rfl, rfl⟩
  obtain ⟨after, hagain, hdue⟩ := rescoreAfter_spec last { cc with pipelineStage := target }
    cc.pipelineStage target env hmoved.find?_self
  change Rescored last (rescoreAfter last cc.id cc.pipelineStage target env) _ _ at hagain
  rw [hdb] at hagain
  refine ⟨cc, after, target, hmoved.rescored hagain, rfl, htarget, hagain.sameStage,
    hagain.samePrevious, ?_, ?_, { mid with auditLog }, ?_, ?_, ?_⟩
  · rcases hdue with rfl | hdue
    · exact .inl rfl
    · exact .inr hdue.1
  · rw [hagain.db]
    change last.interviewSchedules = _
    rw [hrest, hmid]
    rfl
  · rintro rfl
    have hno : ¬rescoreDue cc.pipelineStage .selected := fun hdue => absurd hdue.1 (by decide)
    rw [rescoreAfter, if_neg hno] at hdb
    rw [← hdb, hrest]
  · rw [hmid]; rfl
  · rw [hagain.db]
    change last.campaigns = _
    rw [hlast]
    split_ifs
    · rfl
    · rw [hmid]; rfl

theorem flagCandidateForReview_ok (campaignId campaignCandidateId : Uuid)
    (reason actorId : String) (actorRole : Option String)
    (h : flagCandidateForReview db campaignId campaignCandidateId reason actorId actorRole =
      .ok db') :
    ∃ cc after, Moved db db' cc after ∧ cc.id = campaignCandidateId ∧
      after.pipelineStage = .fraudReview ∧ after.previousStage = cc.previousStage ∧
      after.decisionType = cc.decisionType ∧
      db'.interviewSchedules = db.interviewSchedules := by
  simp only [flagCandidateForReview, CampaignRepository.transitionCandidateStage, bind_eq_ok,
    raise_eq_ok] at h
  obtain ⟨cc, hcc, -, hdone⟩ := h
  obtain ⟨hfind, -⟩ := getStalledCandidateOrRaise_ok _ _ _ _ hcc
  obtain ⟨-, hid⟩ := (db.campaignCandidates.find?_eq_some _ _).mp hfind
  subst hid
  cases hdone
  exact ⟨cc, { cc with pipelineStage := .fraudReview, isFraudFlagged := true },
    ⟨hfind, rfl, rfl, rfl, _, rfl, rfl, rfl, rfl⟩, rfl, rfl, rfl, rfl, rfl⟩

end CampaignService

end Specs

end AiHiring
