import AiHiring.Pipeline.Intake
import AiHiring.Pipeline.StageWrite

namespace AiHiring

open Library AllowedTransitionRepository
open StageTransitionService (transition_eq_ok recordMove_replay permitted_iff)

namespace Replay

-- One call of `transition`, as a client sends it and sends it again.
structure Call where
  candidate : Uuid
  toStage : PipelineStage
  actor : Actor
  (reason idempotencyKey : Option String)
  env : RescoreEnv

variable (table : TransitionTable)

def Call.run (call : Call) (db : Db) (now : Instant) : Except ServiceError (Db × Bool) :=
  StageTransitionService.transition table db call.candidate call.toStage call.actor call.reason
    call.idempotencyKey call.env now

-- A call that raises is rolled back.
def settled (db : Db) : Except ServiceError (Db × Bool) → Db
  | .ok (db, _) => db
  | .error _ => db

def Step (db : Db) (action : Call × Instant) (db' : Db) : Prop :=
  db' = settled db (action.1.run table db action.2)

def Applied (db : Db) (action : Call × Instant) : Prop :=
  ∃ db', action.1.run table db action.2 = .ok (db', true)

-- The key that a call takes if it goes through.
def consumedBy (db : Db) (action : Call × Instant) : List String :=
  match action.1.run table db action.2 with
  | .ok (_, true) => action.1.idempotencyKey.toList
  | _ => []

-- `q` holds at every step whose key an earlier successful call has consumed.
def AtReplays (q : Db → Call × Instant → Db → Prop) :
    List String → Db → List ((Call × Instant) × Db) → Prop
  | _, _, [] => True
  | used, db, (action, db') :: rest =>
    (∀ key ∈ used, action.1.idempotencyKey = some key → q db action db') ∧
      AtReplays q (consumedBy table db action ++ used) db' rest

-- The replay moves nothing and is not refused.
def Honoured (db : Db) (action : Call × Instant) (db' : Db) : Prop :=
  db' = db ∧ ¬Applied table db action ∧
    ∀ e, action.1.run table db action.2 = .error e → ¬StageTransitionService.Refusal e

-- The move the call asks for is open to its actor from where the candidate is now.
def Permitted (cc : CampaignCandidate) (call : Call) : Prop :=
  StageTransitionService.Permitted table cc call.toStage call.actor call.reason

def StillPermitted (db : Db) (action : Call × Instant) (_ : Db) : Prop :=
  ∀ cc, db.campaignCandidates.find? action.1.candidate = some cc → Permitted table cc action.1

-- The same, seen from before the first call: from the target to itself.
def RepeatPermitted (cc : CampaignCandidate) (call : Call) : Prop :=
  ∃ row, get table call.toStage call.toStage (some cc.pipelineStage) = some row ∧
    (∃ role ∈ call.actor.roles, role ∈ row.allowedRoles) ∧
    (row.requiresReason = true → ∃ given, call.reason = some given ∧ NonBlank given)

def Consumed (db : Db) (key : String) : Prop :=
  CampaignCandidateRepository.getStageHistoryByIdempotencyKey db key ≠ none

variable {table} {db db' : Db} {now : Instant} {call : Call}

theorem consumed_iff (key : String) :
    Consumed db key ↔ ∃ row ∈ db.stageHistory.rows, row.idempotencyKey = some key := by
  rw [Consumed, CampaignCandidateRepository.getStageHistoryByIdempotencyKey,
    ← Option.isSome_iff_ne_none, List.find?_isSome]
  simp

theorem applied_moved (h : call.run table db now = .ok (db', true)) :
    ∃ cc after, Moved db db' cc after ∧ cc.id = call.candidate ∧
      after.pipelineStage = call.toStage ∧ after.previousStage = some cc.pipelineStage ∧
      ∃ row ∈ db'.stageHistory.rows, row.idempotencyKey = call.idempotencyKey := by
  obtain ⟨cc, after, hmoved, hid, hstage, hprevious, -, -, -, row, hrow, hkey⟩ :=
    StageTransitionService.transition_ok table db db' now _ _ _ _ _ _ h
  exact ⟨cc, after, hmoved, hid, hstage, hprevious, row, hrow, hkey⟩

theorem unapplied_same (h : call.run table db now = .ok (db', false)) : db' = db := by
  obtain ⟨cc, row, role, mid, -, -, hrecord, hdb⟩ :=
    (transition_eq_ok _ _ _ _ _ _ _ _ _ _ _).mp h
  rw [hdb]
  exact ((recordMove_replay _ _ _ _ _ _ _ _ _ _).mp hrecord).1

theorem consumed_applied (key : String) (h : call.run table db now = .ok (db', true))
    (hkey : call.idempotencyKey = some key) : Consumed db' key := by
  obtain ⟨_, _, -, -, -, -, row, hrow, hrowkey⟩ := applied_moved h
  exact (consumed_iff key).mpr ⟨row, hrow, hrowkey.trans hkey⟩

theorem consumed_step (key : String) (action : Call × Instant) (hused : Consumed db key)
    (h : Step table db action db') : Consumed db' key := by
  rw [Step] at h
  cases hrun : action.1.run table db action.2 with
  | error e =>
    rw [hrun] at h
    exact h.symm ▸ hused
  | ok result =>
    rcases result with ⟨last, applied⟩
    rw [hrun] at h
    change db' = last at h
    subst h
    cases applied with
    | false => exact unapplied_same hrun ▸ hused
    | true =>
      obtain ⟨_, _, hmoved, -⟩ := applied_moved hrun
      obtain ⟨_, hrows, -⟩ := hmoved.history
      obtain ⟨row, hrow, hkey⟩ := (consumed_iff key).mp hused
      rw [consumed_iff, hrows]
      exact ⟨row, List.mem_append_left _ hrow, hkey⟩

variable (table now) in
theorem run_consumed (key : String) (hkey : call.idempotencyKey = some key)
    (hused : Consumed db key) (cc : CampaignCandidate)
    (hcc : db.campaignCandidates.find? call.candidate = some cc) :
    match StageTransitionService.permit table cc call.toStage call.actor call.reason with
    | .ok _ => call.run table db now = .ok (db, false)
    | .error e => call.run table db now = .error e := by
  cases hpermit : StageTransitionService.permit table cc call.toStage call.actor call.reason with
  | error e =>
    simp [Call.run, StageTransitionService.transition, CampaignCandidateRepository.getById, hcc,
      hpermit, bind, Except.bind]
  | ok permitted =>
    rcases permitted with ⟨row, role⟩
    have hreplay := (recordMove_replay db db now cc
      (cc.movedTo call.toStage) role call.toStage call.actor call.reason
      call.idempotencyKey).mpr ⟨rfl, by rw [hkey]; exact hused⟩
    exact (transition_eq_ok _ _ _ _ _ _ _ _ _ _ _).mpr
      ⟨cc, row, role, db, hcc, hpermit, hreplay, rfl⟩

theorem honoured_iff (key : String) (action : Call × Instant)
    (hkey : action.1.idempotencyKey = some key) (hused : Consumed db key)
    (h : Step table db action db') :
    Honoured table db action db' ↔ StillPermitted table db action db' := by
  rw [Step] at h
  cases hcc : db.campaignCandidates.find? action.1.candidate with
  | none =>
    have hrun : action.1.run table db action.2 =
        .error (.notFound "Campaign candidate not found.") := by
      simp [Call.run, StageTransitionService.transition, CampaignCandidateRepository.getById, hcc]
    have hyes : StillPermitted table db action db' := by
      intro cc hfind
      exact absurd (hcc.symm.trans hfind) (by simp)
    refine ⟨fun _ => hyes, fun _ => ⟨?_, ?_, ?_⟩⟩
    · rw [h, hrun]
      rfl
    · rintro ⟨last, hlast⟩
      exact absurd (hrun.symm.trans hlast) (by simp)
    · intro e he
      rw [← Except.error.inj (hrun.symm.trans he)]
      exact not_false
  | some cc =>
    have hstill : StillPermitted table db action db' ↔ Permitted table cc action.1 := by
      constructor
      · intro hall
        exact hall cc hcc
      · intro hone other hother
        exact Option.some.inj (hcc.symm.trans hother) ▸ hone
    have hanswer := run_consumed table action.2 key hkey hused cc hcc
    rw [hstill, Permitted, permitted_iff]
    cases hpermit : StageTransitionService.permit table cc action.1.toStage action.1.actor
        action.1.reason with
    | error e =>
      simp only [hpermit] at hanswer
      constructor
      · rintro ⟨-, -, hno⟩
        exact absurd (StageTransitionService.permit_error _ _ _ _ _ e hpermit) (hno e hanswer)
      · rintro ⟨row, role, hok⟩
        simp at hok
    | ok permitted =>
      simp only [hpermit] at hanswer
      refine ⟨fun _ => ⟨permitted.1, permitted.2, rfl⟩, fun _ => ⟨?_, ?_, ?_⟩⟩
      · rw [h, hanswer]
        rfl
      · rintro ⟨last, hlast⟩
        exact absurd (hanswer.symm.trans hlast) (by simp)
      · intro e he
        exact absurd (hanswer.symm.trans he) (by simp)

theorem consumedBy_consumed (key : String) (action : Call × Instant)
    (hkey : key ∈ consumedBy table db action) (h : Step table db action db') :
    Consumed db' key := by
  rw [Step] at h
  unfold consumedBy at hkey
  cases hrun : action.1.run table db action.2 with
  | error e => simp [hrun] at hkey
  | ok result =>
    rcases result with ⟨last, applied⟩
    cases applied with
    | false => simp [hrun] at hkey
    | true =>
      simp only [hrun, Option.mem_toList] at hkey
      rw [hrun] at h
      change db' = last at h
      subst h
      exact consumed_applied key hrun hkey

theorem atReplays_iff (used : List String) (hused : ∀ key ∈ used, Consumed db key)
    (path : List ((Call × Instant) × Db)) (hp : Path (Step table) db path) :
    AtReplays table (Honoured table) used db path ↔
      AtReplays table (StillPermitted table) used db path := by
  induction path generalizing used db with
  | nil => exact Iff.rfl
  | cons entry rest ih =>
    rcases entry with ⟨action, next⟩
    obtain ⟨hstep, hrest⟩ := hp
    have hnext : ∀ key ∈ consumedBy table db action ++ used, Consumed next key := by
      intro key hkey
      rcases List.mem_append.mp hkey with hnew | hold
      · exact consumedBy_consumed key action hnew hstep
      · exact consumed_step key action (hused key hold) hstep
    refine and_congr ?_ (ih _ hnext hrest)
    apply forall_congr'
    intro key
    apply forall_congr'
    intro hkey
    apply forall_congr'
    intro hcall
    exact honoured_iff key action hcall (hused key hkey) hstep

theorem repeated_iff (cc : CampaignCandidate) (key : String) (later : Instant)
    (hcc : db.campaignCandidates.find? call.candidate = some cc)
    (hkey : call.idempotencyKey = some key) (hfirst : call.run table db now = .ok (db', true)) :
    call.run table db' later = .ok (db', false) ↔ RepeatPermitted table cc call := by
  obtain ⟨before, after, hmoved, hid, hstage, hprevious, -⟩ := applied_moved hfirst
  obtain rfl : before = cc := by
    have hbefore := hmoved.found
    rw [hid, hcc] at hbefore
    exact (Option.some.inj hbefore).symm
  have hafter := hmoved.find?_self
  rw [hid] at hafter
  have hused := consumed_applied key hfirst hkey
  have hanswer := run_consumed table later key hkey hused after hafter
  have hsame : RepeatPermitted table before call ↔ Permitted table after call := by
    rw [RepeatPermitted, Permitted, StageTransitionService.Permitted, hstage, hprevious]
  rw [hsame, Permitted, permitted_iff]
  cases hpermit : StageTransitionService.permit table after call.toStage call.actor call.reason with
  | error e =>
    simp only [hpermit] at hanswer
    rw [hanswer]
    simp
  | ok permitted =>
    simp only [hpermit] at hanswer
    exact ⟨fun _ => ⟨permitted.1, permitted.2, rfl⟩, fun _ => hanswer⟩

-- A retry is honoured exactly when its move is still permitted from where the
-- candidate now stands: right after the first call, from the target to itself.
-- The key is looked at only behind that check.
theorem replay_iff (table : TransitionTable) (db : Db) (path : List ((Call × Instant) × Db))
    (hp : Path (Step table) db path) :
    (∀ (call : Call) (now later : Instant) (key : String) (cc : CampaignCandidate) (once : Db),
      db.campaignCandidates.find? call.candidate = some cc → call.idempotencyKey = some key →
      call.run table db now = .ok (once, true) →
      (call.run table once later = .ok (once, false) ↔ RepeatPermitted table cc call)) ∧
    (AtReplays table (Honoured table) [] db path ↔
      AtReplays table (StillPermitted table) [] db path) := by
  constructor
  · intro call now later key cc once hcc hkey hfirst
    exact repeated_iff cc key later hcc hkey hfirst
  · exact atReplays_iff [] (by simp) path hp

def hold : Call where
  candidate := 0
  toStage := .hold
  actor := recruiter
  reason := none
  idempotencyKey := some "hold-1"
  env := idle

def retried (table : TransitionTable) (call : Call) (db : Db) (now later : Instant) :
    Option ServiceError :=
  match call.run table db now with
  | .ok (once, true) =>
    match call.run table once later with
    | .error e => some e
    | .ok _ => none
  | _ => none

theorem retried_some (table : TransitionTable) (call : Call) (db : Db) (now later : Instant)
    (e : ServiceError) (h : retried table call db now later = some e) :
    ∃ once, call.run table db now = .ok (once, true) ∧ call.run table once later = .error e := by
  unfold retried at h
  cases hfirst : call.run table db now with
  | error _ => simp [hfirst] at h
  | ok result =>
    rcases result with ⟨once, applied⟩
    cases applied with
    | false => simp [hfirst] at h
    | true =>
      cases hsecond : call.run table once later with
      | ok _ => simp [hfirst, hsecond] at h
      | error refused =>
        simp only [hfirst, hsecond, Option.some.injEq] at h
        exact ⟨once, rfl, h ▸ hsecond⟩

theorem hold_retried :
    retried seededTransitions hold screenedDb 2 3 = some (.invalidTransition .hold .hold) := by
  decide +kernel

theorem replay_iff_hold : ∃ once cc, hold.run seededTransitions screenedDb 2 = .ok (once, true) ∧
      (hold.run seededTransitions once 3 = .ok (once, false) ↔
        RepeatPermitted seededTransitions cc hold) ∧
      (AtReplays seededTransitions (Honoured seededTransitions) [] screenedDb
          [((hold, 2), settled screenedDb (hold.run seededTransitions screenedDb 2))] ↔
        AtReplays seededTransitions (StillPermitted seededTransitions) [] screenedDb
          [((hold, 2), settled screenedDb (hold.run seededTransitions screenedDb 2))]) := by
  obtain ⟨once, hfirst, -⟩ := retried_some _ _ _ _ _ _ hold_retried
  obtain ⟨cc, hcc⟩ : ∃ cc, screenedDb.campaignCandidates.find? 0 = some cc := ⟨_, rfl⟩
  have hall := replay_iff seededTransitions screenedDb
    [((hold, 2), settled screenedDb (hold.run seededTransitions screenedDb 2))] ⟨rfl, trivial⟩
  exact ⟨once, cc, hfirst, hall.1 hold 2 3 "hold-1" cc once hcc rfl hfirst, hall.2⟩

-- The retry finds the candidate at HOLD, where no rule leads from HOLD to HOLD.
theorem hold_not_replayed : ∃ once, hold.run seededTransitions screenedDb 2 = .ok (once, true) ∧
      hold.run seededTransitions once 3 ≠ .ok (once, false) := by
  obtain ⟨once, hfirst, hsecond⟩ := retried_some _ _ _ _ _ _ hold_retried
  refine ⟨once, hfirst, fun hok => ?_⟩
  exact absurd (hsecond.symm.trans hok) (by simp)

end Replay

end AiHiring
