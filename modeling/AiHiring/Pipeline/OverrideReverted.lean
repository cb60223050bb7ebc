import AiHiring.Pipeline.Intake
import AiHiring.Pipeline.Writers

namespace AiHiring

open Library AllowedTransitionRepository CampaignCandidateRepository
open StageTransitionService (overriddenDecision)

namespace CampaignCandidateService

-- `_HR_OVERRIDE_CHANGE_REASON`
def hrOverrideChangeReason : String := "RECRUITER override of deterministic rejection"

-- The candidate as it is let back through, before its stage changes.
def letThrough (cc : CampaignCandidate) : CampaignCandidate :=
  { cc with
    deterministicPassed := some true
    aiEvaluation := some
      { CampaignCandidateAIEvaluationRepository.getOrCreate cc with
        aiEvaluationStatus := .pending } }

-- `stageTransitions` is the table of the stage transition service, where there is one.
def applyHrOverride (stageTransitions : Option TransitionTable) (db : Db)
    (campaignCandidateId : Uuid) (overrideReason actorId : String) (actorRole : Option String)
    (now : Instant) : Except ServiceError Db :=
  match getById db campaignCandidateId with
  | none => .error (.campaign "Campaign candidate not found." 404)
  | some cc =>
    if cc.pipelineStage ≠ .rejected then
      .error (.campaign
        "HR override can only be applied to a candidate currently in the REJECTED stage." 409)
    else if cc.decisionType ≠ some .rejected ∨
        (cc.decisionSource ≠ some .deterministic ∧ cc.decisionSource ≠ some .semantic) then
      .error (.campaign ("HR override is only available for candidates rejected at the " ++
        "deterministic or semantic layer.") 409)
    else
      let cc := letThrough cc
      let db := update db cc
      match stageTransitions with
      | none => .error (.campaign "Stage transition service is not configured." 500)
      | some table =>
        let (db, transitioned) := StageTransitionService.applyHrOverride table db cc actorId
          hrOverrideChangeReason (some overrideReason) now
        if !transitioned then
          .error (.campaign
            "Stage transition REJECTED -> SCREENING is not allowed - override not applied." 409)
        else
          let overridden := overriddenDecision cc
          .ok (AuditService.log db (some actorId) actorRole .deterministicOverrideApplied
            .campaignCandidate cc.id (some cc.campaignId)
            (some [("override_reason", .str overrideReason), ("original_rejection_reason",
                OverrideRevertService.detail overridden "overridden_decision_reason"),
              ("overridden_layer",
                OverrideRevertService.detail overridden "overridden_decision_source")]))

end CampaignCandidateService

namespace OverrideReverted

open CampaignCandidateService OverrideRevertService

-- What a deterministic or semantic rejection leaves in `deterministic_passed`.
def RejectionRecorded (cc : CampaignCandidate) : Prop :=
  (cc.decisionSource = some .deterministic → cc.deterministicPassed = some false) ∧
    (cc.decisionSource = some .semantic → cc.deterministicPassed = some true)

structure Restored (before after : CampaignCandidate) : Prop where
  pipelineStage : after.pipelineStage = before.pipelineStage
  previousStage : after.previousStage = before.previousStage
  decisionType : after.decisionType = before.decisionType
  decisionSource : after.decisionSource = before.decisionSource
  decisionReason : after.decisionReason = before.decisionReason
  deterministicPassed : after.deterministicPassed = before.deterministicPassed

-- A revert goes through, puts the candidate back as it was, and a second override
-- passes the table check.
def Undone (table : TransitionTable) (before : CampaignCandidate) : Except ServiceError Db → Prop
  | .error _ => False
  | .ok db => ∃ after, db.campaignCandidates.find? before.id = some after ∧
      Restored before after ∧
      isTransitionAllowed table after.pipelineStage .screening after.previousStage = true

def overridden (cc : CampaignCandidate) (overrideReason actorId : String) (now : Instant) :
    CampaignCandidate :=
  ((letThrough cc).movedTo .screening).withDecision .reset (some .recruiter)
    (some overrideReason) (some (overriddenDecision cc)) (some actorId) now

section Rules

variable {table : TransitionTable} {db db' : Db} {cc : CampaignCandidate}
  {overrideReason actorId : String} {actorRole : Option String} {now : Instant}

theorem applyHrOverride_ok (hcc : db.campaignCandidates.find? cc.id = some cc)
    (h : applyHrOverride (some table) db cc.id overrideReason actorId actorRole now = .ok db') :
    cc.pipelineStage = .rejected ∧ cc.decisionType = some .rejected ∧
      (cc.decisionSource = some .deterministic ∨ cc.decisionSource = some .semantic) ∧
      isTransitionAllowed table .rejected .screening cc.previousStage = true ∧
      db'.campaignCandidates.find? cc.id = some (overridden cc overrideReason actorId now) := by
  have hfound : getById db cc.id = some cc := hcc
  simp only [applyHrOverride, hfound, raise_eq_ok, not_not] at h
  obtain ⟨hstage, hdecision, h⟩ := h
  rw [not_or, not_and_or, not_not, not_not, not_not] at hdecision
  rw [StageTransitionService.applyHrOverride] at h
  have hstill : (letThrough cc).pipelineStage = .rejected := hstage
  have hprevious : (letThrough cc).previousStage = cc.previousStage := rfl
  by_cases hallowed : isTransitionAllowed table .rejected .screening cc.previousStage = true
  · simp only [hstill, hprevious, hallowed, Bool.not_true, Bool.false_eq_true, if_false,
      Except.ok.injEq] at h
    refine ⟨hstage, hdecision.1, hdecision.2, hallowed, ?_⟩
    obtain ⟨-, rfl⟩ := h
    have hlet : (db.campaignCandidates.replace (letThrough cc)).find? cc.id =
        some (letThrough cc) :=
      db.campaignCandidates.find?_replace_self (letThrough cc) cc hcc
    exact Table.find?_replace_self _ (overridden cc overrideReason actorId now) (letThrough cc) hlet
  · simp [hstill, hprevious, hallowed] at h

theorem detail_overriddenDecision (cc : CampaignCandidate) :
    let details := overriddenDecision cc
    detail details "overridden_decision_type" =
        .ofString? (cc.decisionType.map DecisionType.value) ∧
      detail details "overridden_decision_source" =
        .ofString? (cc.decisionSource.map DecisionSource.value) ∧
      detail details "overridden_decision_reason" = .ofString? cc.decisionReason :=
  ⟨rfl, rfl, rfl⟩

theorem storedDecision_overriddenDecision {source : DecisionSource}
    (htype : cc.decisionType = some .rejected) (hsource : cc.decisionSource = some source) :
    storedDecision (overriddenDecision cc) = .ok (.rejected, source) := by
  obtain ⟨hstashed, hstashedSource, -⟩ := detail_overriddenDecision cc
  rw [htype] at hstashed
  rw [hsource] at hstashedSource
  change _ = Json.str DecisionType.rejected.value at hstashed
  change _ = Json.str source.value at hstashedSource
  have htruthy : source.value ≠ "" := by cases source <;> decide
  have htypeTruthy : DecisionType.rejected.value ≠ "" := by decide
  simp [storedDecision, hstashed, hstashedSource, Json.truthy, Json.asString?, htruthy, htypeTruthy]

theorem detail_reason : (detail (overriddenDecision cc)
    "overridden_decision_reason").asString? = cc.decisionReason := by
  rw [(detail_overriddenDecision cc).2.2]
  cases cc.decisionReason <;> rfl

theorem revertOverride_overridden {source : DecisionSource} (withAiRepo : Bool)
    (clearReason clearedBy : String) (clearedByRole : Option String) (later : Instant)
    (htype : cc.decisionType = some .rejected) (hsource : cc.decisionSource = some source)
    (hfound : db'.campaignCandidates.find? cc.id =
      some (overridden cc overrideReason actorId now)) :
    ∃ db'' after, revertOverride db' withAiRepo cc.id clearReason clearedBy clearedByRole later =
        .ok db'' ∧
      db''.campaignCandidates.find? cc.id = some after ∧
      after.pipelineStage = .rejected ∧ after.previousStage = some cc.pipelineStage ∧
      after.decisionType = some .rejected ∧ after.decisionSource = some source ∧
      after.decisionReason = cc.decisionReason ∧
      after.deterministicPassed = if source = .deterministic then some false else some true := by
  have hstored := storedDecision_overriddenDecision htype hsource
  let row := overridden cc overrideReason actorId now
  let restored := reverted row (overriddenDecision cc) clearReason clearedBy
    .rejected source later
  let last := if withAiRepo then skipAiEvaluation restored else restored
  have hlast : last.id = cc.id ∧ last.pipelineStage = restored.pipelineStage ∧
      last.previousStage = restored.previousStage ∧ last.decisionType = restored.decisionType ∧
      last.decisionSource = restored.decisionSource ∧
      last.decisionReason = restored.decisionReason ∧
      last.deterministicPassed = restored.deterministicPassed := by
    cases withAiRepo with
    | false => exact ⟨rfl, rfl, rfl, rfl, rfl, rfl, rfl⟩
    | true =>
      change (skipAiEvaluation restored).id = cc.id ∧ _
      unfold last skipAiEvaluation
      split_ifs <;> exact ⟨rfl, rfl, rfl, rfl, rfl, rfl, rfl⟩
  obtain ⟨hid, hstage, hprevious, hdecision, hdecisionSource, hreason, hpassed⟩ := hlast
  have hrow : getById db' cc.id = some row := hfound
  have hrun : ∃ db'', revertOverride db' withAiRepo cc.id clearReason clearedBy clearedByRole
      later = .ok db'' ∧ db''.campaignCandidates = db'.campaignCandidates.replace last := by
    have hreset : ¬row.decisionType ≠ some .reset := not_not.mpr rfl
    have hscreening : ¬row.pipelineStage ≠ .screening := not_not.mpr rfl
    simp only [revertOverride, hrow, if_neg hreset, if_neg hscreening]
    exact ⟨_, (bind_eq_ok _ _ _).mpr ⟨(.rejected, source), hstored, rfl⟩, rfl⟩
  obtain ⟨db'', hok, hcandidates⟩ := hrun
  refine ⟨db'', last, hok, ?_, hstage, hprevious, hdecision, hdecisionSource, ?_, ?_⟩
  · rw [hcandidates, ← hid]
    exact db'.campaignCandidates.find?_replace_self last row (by rw [hid]; exact hfound)
  · exact hreason.trans detail_reason
  · exact hpassed

end Rules

-- A revert right after an override undoes it exactly for the candidates whose
-- previous stage was REJECTED already.
theorem override_undone_iff (table : TransitionTable) (db db' : Db) (cc : CampaignCandidate)
    (overrideReason actorId : String) (actorRole : Option String) (now : Instant)
    (withAiRepo : Bool) (clearReason clearedBy : String) (clearedByRole : Option String)
    (later : Instant) (hcc : db.campaignCandidates.find? cc.id = some cc)
    (hrecorded : RejectionRecorded cc)
    (haccepted : CampaignCandidateService.applyHrOverride (some table) db cc.id overrideReason
      actorId actorRole now = .ok db') :
    Undone table cc (revertOverride db' withAiRepo cc.id clearReason clearedBy clearedByRole
      later) ↔ cc.previousStage = some .rejected := by
  obtain ⟨hstage, htype, hsource, hallowed, hfound⟩ := applyHrOverride_ok hcc haccepted
  obtain ⟨source, hsome, hpassed⟩ : ∃ source, cc.decisionSource = some source ∧
      cc.deterministicPassed = if source = .deterministic then some false else some true := by
    rcases hsource with hdeterministic | hsemantic
    · exact ⟨_, hdeterministic, hrecorded.1 hdeterministic⟩
    · exact ⟨_, hsemantic, hrecorded.2 hsemantic⟩
  obtain ⟨db'', after, hrun, hafter, hafterStage, hprevious, hafterType, hafterSource, hreason,
    hafterPassed⟩ := revertOverride_overridden withAiRepo clearReason clearedBy clearedByRole later
      htype hsome hfound
  rw [hrun]
  constructor
  · intro h
    obtain ⟨found, hagain, hrestored, -⟩ := h
    cases hagain.symm.trans hafter
    rw [← hrestored.previousStage, hprevious, hstage]
  · intro hrejected
    refine ⟨after, hafter, ⟨hafterStage.trans hstage.symm, ?_, hafterType.trans htype.symm,
      hafterSource.trans hsome.symm, hreason, hafterPassed.trans hpassed.symm⟩, ?_⟩
    · rw [hprevious, hstage, hrejected]
    · rw [hafterStage, hprevious, hstage, ← hrejected]
      exact hallowed

def screenedOut : CampaignCandidate :=
  { newCandidate 0 0 0 0 with
    pipelineStage := .rejected
    previousStage := some .screening
    deterministicPassed := some false
    decisionType := some .rejected
    decisionSource := some .deterministic
    decisionReason := some "Score below threshold" }

def screenedOutDb : Db :=
  { freshDb with campaignCandidates := freshDb.campaignCandidates.replace screenedOut }

theorem override_undone_iff_screenedOut :
    ∃ db', CampaignCandidateService.applyHrOverride (some seededTransitions) screenedOutDb 0
        "Strong portfolio" "recruiter" none 5 = .ok db' ∧
      (Undone seededTransitions screenedOut
          (revertOverride db' true 0 "Applied in error" "recruiter" none 6) ↔
        screenedOut.previousStage = some .rejected) :=
  ⟨_, rfl, override_undone_iff seededTransitions screenedOutDb _ screenedOut "Strong portfolio"
    "recruiter" none 5 true "Applied in error" "recruiter" none 6 rfl ⟨fun _ => rfl, by decide⟩ rfl⟩

theorem override_not_undone : RejectionRecorded screenedOut ∧
      ∃ db', CampaignCandidateService.applyHrOverride (some seededTransitions) screenedOutDb 0
          "Strong portfolio" "recruiter" none 5 = .ok db' ∧
        ¬Undone seededTransitions screenedOut
          (revertOverride db' true 0 "Applied in error" "recruiter" none 6) := by
  refine ⟨⟨fun _ => rfl, by decide⟩, _, rfl, ?_⟩
  intro hundone
  obtain ⟨after, hafter, hrestored, -⟩ := hundone
  have hprevious := hrestored.previousStage
  rw [← Option.some.inj hafter] at hprevious
  exact absurd hprevious (by decide)

end OverrideReverted

end AiHiring
