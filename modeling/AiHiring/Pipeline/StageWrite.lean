import AiHiring.Library.Run
import AiHiring.Pipeline.Writers

namespace AiHiring

open Library PipelineTransitionService

-- One call of a stage writer with what its caller supplies. The manual re-score
-- that callers of `transition_stage` start after their commit is a call too.
inductive StageWrite where
  | transitionToScreening (cc : Uuid)
  | transitionOnAiSuccess (cc : Uuid) (toStage : PipelineStage) (decisionType : DecisionType)
      (changeReason : String) (scoresSnapshot : Option Dict) (decisionReason : Option String)
      (decisionDetails : Option Dict)
  | transitionToRejected (cc : Uuid) (changeReason : String) (scoresSnapshot : Option Dict)
      (decisionSource : DecisionSource) (decisionReason : Option String)
      (decisionDetails : Option Dict) (decisionByUserId : Option String)
  | applyHrOverride (cc : Uuid) (changedBy changeReason : String)
      (decisionReason : Option String)
  | transition (cc : Uuid) (toStage : PipelineStage) (actor : Actor)
      (reason idempotencyKey : Option String) (env : RescoreEnv)
  | transitionStage (cc : Uuid) (withRepo : Bool) (request : StageRequest)
  | revertOverride (cc : Uuid) (withAiRepo : Bool) (reason actorId : String)
      (actorRole : Option String)
  | overrideCandidateStage (campaignId cc : Uuid) (targetStage : Option String)
      (reason actorId : String) (actorRole : Option String) (env : RescoreEnv)
  | flagCandidateForReview (campaignId cc : Uuid) (reason actorId : String)
      (actorRole : Option String)
  | manualRescore (cc : Uuid) (env : RescoreEnv)

namespace StageWrite

def candidate : StageWrite → Uuid
  | transitionToScreening cc => cc
  | transitionOnAiSuccess cc _ _ _ _ _ _ => cc
  | transitionToRejected cc _ _ _ _ _ _ => cc
  | applyHrOverride cc _ _ _ => cc
  | transition cc _ _ _ _ _ => cc
  | transitionStage cc _ _ => cc
  | revertOverride cc _ _ _ _ => cc
  | overrideCandidateStage _ cc _ _ _ _ _ => cc
  | flagCandidateForReview _ cc _ _ _ => cc
  | manualRescore cc _ => cc

-- The writers that leave previous_stage as it was.
def Forgets : StageWrite → Prop
  | revertOverride .. => True
  | overrideCandidateStage .. => True
  | flagCandidateForReview .. => True
  | _ => False

-- The engines that carry the interview hooks.
def RunsHooks : StageWrite → Prop
  | transition .. => True
  | transitionStage .. => True
  | overrideCandidateStage .. => True
  | _ => False

-- The stage a write moves its candidate to; a re-score moves nobody.
def target (before : CampaignCandidate) : StageWrite → Option PipelineStage
  | transitionToScreening _ => some .screening
  | transitionOnAiSuccess _ toStage _ _ _ _ _ => some toStage
  | transitionToRejected .. => some .rejected
  | applyHrOverride .. => some .screening
  | transition _ toStage _ _ _ _ => some toStage
  | transitionStage _ _ request => some request.toStage
  | revertOverride .. => some .rejected
  | overrideCandidateStage _ _ targetStage _ _ _ _ =>
    (CampaignService.overrideTarget before.pipelineStage targetStage).toOption
  | flagCandidateForReview .. => some .fraudReview
  | manualRescore .. => none

-- The decision a write leaves, before a re-score clears it.
def decision (before : CampaignCandidate) : StageWrite → Option DecisionType
  | transitionOnAiSuccess _ _ decisionType _ _ _ _ => some decisionType
  | transitionToRejected .. => some .rejected
  | applyHrOverride .. => some .reset
  | transitionStage _ _ request => request.decisionType.or before.decisionType
  | revertOverride .. =>
    (OverrideRevertService.detail (before.decisionDetails.getD [])
      "overridden_decision_type").asString?.bind DecisionType.ofValue?
  | _ => before.decisionType

def withCandidate (db : Db) (cc : Uuid)
    (write : CampaignCandidate → Except ServiceError (Db × Bool)) :
    Except ServiceError (Db × Bool) :=
  match CampaignCandidateRepository.getById db cc with
  | none => .error (.notFound "Campaign candidate not found.")
  | some row => write row

variable (table : TransitionTable)

def run (db : Db) (now : Instant) : StageWrite → Except ServiceError (Db × Bool)
  | transitionToScreening cc => withCandidate db cc fun row =>
    .ok (StageTransitionService.transitionToScreening table db row now)
  | transitionOnAiSuccess cc toStage decisionType changeReason scoresSnapshot decisionReason
      decisionDetails => withCandidate db cc fun row =>
      .ok (StageTransitionService.transitionOnAiSuccess table db row toStage decisionType
        changeReason scoresSnapshot decisionReason decisionDetails now)
  | transitionToRejected cc changeReason scoresSnapshot decisionSource decisionReason
      decisionDetails decisionByUserId => withCandidate db cc fun row =>
      .ok (StageTransitionService.transitionToRejected table db row changeReason scoresSnapshot
        decisionSource decisionReason decisionDetails decisionByUserId now)
  | applyHrOverride cc changedBy changeReason decisionReason => withCandidate db cc fun row =>
    .ok (StageTransitionService.applyHrOverride table db row changedBy changeReason
      decisionReason now)
  | transition cc toStage actor reason idempotencyKey env =>
    StageTransitionService.transition table db cc toStage actor reason idempotencyKey env now
  | transitionStage cc withRepo request => withCandidate db cc fun row => do
    let (db, _) ← PipelineTransitionService.transitionStage table db withRepo row request now
    .ok (db, true)
  | revertOverride cc withAiRepo reason actorId actorRole => do
    let db ← OverrideRevertService.revertOverride db withAiRepo cc reason actorId actorRole now
    .ok (db, true)
  | overrideCandidateStage campaignId cc targetStage reason actorId actorRole env => do
    let db ← CampaignService.overrideCandidateStage db campaignId cc targetStage reason actorId
      actorRole env now
    .ok (db, true)
  | flagCandidateForReview campaignId cc reason actorId actorRole => do
    let db ← CampaignService.flagCandidateForReview db campaignId cc reason actorId actorRole
    .ok (db, true)
  | manualRescore cc env => withCandidate db cc fun row =>
    .ok ((enqueueManualRescore db row.id env).1, true)

-- A successful write: the call raised nothing and applied its change.
def Step (db : Db) (call : StageWrite × Instant) (db' : Db) : Prop :=
  run table db call.2 call.1 = .ok (db', true)

def next? (db : Db) (call : StageWrite × Instant) : Option Db :=
  match run table db call.2 call.1 with
  | .ok (db', true) => some db'
  | _ => none

variable {table} {db db' : Db} {now : Instant}

theorem next?_step (call : StageWrite × Instant) (h : next? table db call = some db') :
    Step table db call db' := by
  rw [Step]
  cases hrun : run table db call.2 call.1 with
  | error e => simp [next?, hrun] at h
  | ok result =>
    obtain ⟨last, applied⟩ := result
    cases applied with
    | false => simp [next?, hrun] at h
    | true =>
      simp only [next?, hrun, Option.some.injEq] at h
      rw [h]

theorem withCandidate_eq_ok (cc : Uuid)
    (write : CampaignCandidate → Except ServiceError (Db × Bool)) (result : Db × Bool) :
    withCandidate db cc write = .ok result ↔
      ∃ row, db.campaignCandidates.find? row.id = some row ∧ row.id = cc ∧
        write row = .ok result := by
  rw [withCandidate, CampaignCandidateRepository.getById]
  cases hrow : db.campaignCandidates.find? cc with
  | none =>
    simp only [reduceCtorEq, false_iff]
    rintro ⟨row, hfind, rfl, -⟩
    exact absurd (hrow.symm.trans hfind) (by simp)
  | some row =>
    obtain ⟨-, hid⟩ := (db.campaignCandidates.find?_eq_some _ _).mp hrow
    subst hid
    constructor
    · intro h
      exact ⟨row, hrow, rfl, h⟩
    · rintro ⟨other, hfind, hid, h⟩
      rw [hid, hrow] at hfind
      exact Option.some.inj hfind ▸ h

-- What a write that moves its candidate does, whichever writer it is.
structure Effect (db db' : Db) (call : StageWrite × Instant)
    (before after : CampaignCandidate) : Prop where
  moved : Moved db db' before after
  candidate : before.id = call.1.candidate
  forgets : call.1.Forgets → after.previousStage = before.previousStage
  advances : ¬call.1.Forgets → after.previousStage = some before.pipelineStage
  target : call.1.target before = some after.pipelineStage
  decision : after.decisionType = call.1.decision before ∨ after.pipelineStage = .screening
  unhooked : ¬call.1.RunsHooks → db'.interviewSchedules = db.interviewSchedules
  hooked : call.1.RunsHooks → db'.interviewSchedules =
    hookedRounds db.interviewSchedules before.id before.pipelineStage after.pipelineStage call.2

-- What a successful write can do: move its candidate, or re-score it.
theorem step_cases (call : StageWrite × Instant) (h : Step table db call db') :
    (∃ before after, Effect db db' call before after) ∨
      ∃ cc env before after, call.1 = manualRescore cc env ∧ Rescored db db' before after := by
  rcases call with ⟨call, now⟩
  cases call with
  | transitionToScreening cc =>
    obtain ⟨row, hrow, hid, hwrite⟩ := (withCandidate_eq_ok _ _ _).mp h
    obtain ⟨after, hmoved, hstage, hprevious, hdecision, hrounds⟩ :=
      StageTransitionService.transitionToScreening_ok table db db' now row hrow
        (Except.ok.inj hwrite)
    exact .inl ⟨row, after, hmoved, hid, False.elim, fun _ => hprevious,
      congrArg some hstage.symm, .inl hdecision, fun _ => hrounds, False.elim⟩
  | transitionOnAiSuccess cc toStage decisionType changeReason scores decisionReason details =>
    obtain ⟨row, hrow, hid, hwrite⟩ := (withCandidate_eq_ok _ _ _).mp h
    obtain ⟨after, hmoved, hstage, hprevious, hdecision, hrounds⟩ :=
      StageTransitionService.transitionOnAiSuccess_ok table db db' now row hrow _ _ _ _ _ _
        (Except.ok.inj hwrite)
    exact .inl ⟨row, after, hmoved, hid, False.elim, fun _ => hprevious,
      congrArg some hstage.symm, .inl hdecision, fun _ => hrounds, False.elim⟩
  | transitionToRejected cc changeReason scores source decisionReason details byUser =>
    obtain ⟨row, hrow, hid, hwrite⟩ := (withCandidate_eq_ok _ _ _).mp h
    obtain ⟨after, hmoved, hstage, hprevious, hdecision, hrounds⟩ :=
      StageTransitionService.transitionToRejected_ok table db db' now row hrow _ _ _ _ _ _
        (Except.ok.inj hwrite)
    exact .inl ⟨row, after, hmoved, hid, False.elim, fun _ => hprevious,
      congrArg some hstage.symm, .inl hdecision, fun _ => hrounds, False.elim⟩
  | applyHrOverride cc changedBy changeReason decisionReason =>
    obtain ⟨row, hrow, hid, hwrite⟩ := (withCandidate_eq_ok _ _ _).mp h
    obtain ⟨after, hmoved, hstage, hprevious, hdecision, hrounds⟩ :=
      StageTransitionService.applyHrOverride_ok table db db' now row hrow _ _ _
        (Except.ok.inj hwrite)
    exact .inl ⟨row, after, hmoved, hid, False.elim, fun _ => hprevious,
      congrArg some hstage.symm, .inl hdecision, fun _ => hrounds, False.elim⟩
  | transition cc toStage actor reason key env =>
    obtain ⟨row, after, hmoved, hid, hstage, hprevious, hdecision, hrounds, -⟩ :=
      StageTransitionService.transition_ok table db db' now _ _ _ _ _ _ h
    exact .inl ⟨row, after, hmoved, hid, False.elim, fun _ => hprevious,
      congrArg some hstage.symm, hdecision.imp_right hstage.trans,
      fun hno => absurd trivial hno, fun _ => hstage.symm ▸ hrounds⟩
  | transitionStage cc withRepo request =>
    obtain ⟨row, hrow, hid, hwrite⟩ := (withCandidate_eq_ok _ _ _).mp h
    obtain ⟨⟨last, after⟩, hmove, hdone⟩ := (bind_eq_ok _ _ _).mp hwrite
    obtain ⟨rfl, -⟩ := Prod.mk.inj (Except.ok.inj hdone)
    obtain ⟨hmoved, hstage, hprevious, hdecision, hrounds, -⟩ :=
      transitionStage_ok table db last now withRepo row after request hrow hmove
    exact .inl ⟨row, after, hmoved, hid, False.elim, fun _ => hprevious,
      congrArg some hstage.symm, .inl hdecision, fun hno => absurd trivial hno,
      fun _ => hstage.symm ▸ hrounds⟩
  | revertOverride cc withAiRepo reason actorId actorRole =>
    obtain ⟨last, hrevert, hdone⟩ := (bind_eq_ok _ _ _).mp h
    obtain ⟨rfl, -⟩ := Prod.mk.inj (Except.ok.inj hdone)
    obtain ⟨row, after, _, _, hmoved, hid, hstored, hstage, hprevious, hdecision, hrounds⟩ :=
      OverrideRevertService.revertOverride_ok db last now _ _ _ _ _ hrevert
    refine .inl ⟨row, after, hmoved, hid, fun _ => hprevious, fun hno => absurd trivial hno,
      congrArg some hstage.symm, .inl ?_, fun _ => hrounds, False.elim⟩
    obtain ⟨kind, hkind, hvalue⟩ := OverrideRevertService.storedDecision_ok _ _ _ hstored
    rw [hdecision, decision, hkind]
    exact hvalue.symm
  | overrideCandidateStage campaignId cc targetStage reason actorId actorRole env =>
    obtain ⟨last, hoverride, hdone⟩ := (bind_eq_ok _ _ _).mp h
    obtain ⟨rfl, -⟩ := Prod.mk.inj (Except.ok.inj hdone)
    obtain ⟨row, after, _, hmoved, hid, htarget, rfl, hprevious, hdecision, hrounds, -⟩ :=
      CampaignService.overrideCandidateStage_ok db last now _ _ _ _ _ _ _ hoverride
    refine .inl ⟨row, after, hmoved, hid, fun _ => hprevious, fun hno => absurd trivial hno,
      ?_, hdecision, fun hno => absurd trivial hno, fun _ => hrounds⟩
    rw [target, htarget]
    rfl
  | flagCandidateForReview campaignId cc reason actorId actorRole =>
    obtain ⟨last, hflag, hdone⟩ := (bind_eq_ok _ _ _).mp h
    obtain ⟨rfl, -⟩ := Prod.mk.inj (Except.ok.inj hdone)
    obtain ⟨row, after, hmoved, hid, hstage, hprevious, hdecision, hrounds⟩ :=
      CampaignService.flagCandidateForReview_ok db last _ _ _ _ _ hflag
    exact .inl ⟨row, after, hmoved, hid, fun _ => hprevious, fun hno => absurd trivial hno,
      congrArg some hstage.symm, .inl hdecision, fun _ => hrounds, False.elim⟩
  | manualRescore cc env =>
    obtain ⟨row, hrow, hid, hwrite⟩ := (withCandidate_eq_ok _ _ _).mp h
    obtain ⟨rfl, -⟩ := Prod.mk.inj (Except.ok.inj hwrite)
    obtain ⟨after, hrescored⟩ := enqueueManualRescore_spec db row env hrow
    exact .inr ⟨cc, env, row, after, rfl, hrescored⟩

end StageWrite

end AiHiring
