import AiHiring.Pipeline.Repository

namespace AiHiring

section InterviewHooks

open InterviewScheduleRepository

-- `_INTERVIEW_EXIT_CASCADE_STAGES`
def interviewExitCascadeStages : List PipelineStage := [.selected, .rejected, .shortlisted]

-- The block that each of the three stage engines carries a copy of: entering
-- INTERVIEW creates round 1, leaving it for good and returning to SCREENING
-- cancel the active rounds.
def interviewHooks (db : Db) (campaignCandidateId : Uuid) (fromStage toStage : PipelineStage)
    (changedBy changedByRole : Option String) (now : Instant) : Except ServiceError Db := do
  let db :=
    if toStage = .interview then getOrCreatePending db campaignCandidateId now else db
  let db ←
    if fromStage = .interview ∧ toStage ∈ interviewExitCascadeStages then
      cancelActiveRounds db campaignCandidateId
        s!"Candidate outcome finalized: {toStage.value}" changedBy changedByRole now
    else
      .ok db
  if toStage = .screening ∧ fromStage ≠ .uploaded then
    cancelActiveRounds db campaignCandidateId
      "Candidate returned to SCREENING for re-evaluation" changedBy changedByRole now
  else
    .ok db

def cascades (fromStage toStage : PipelineStage) : Prop :=
  (fromStage = .interview ∧ toStage ∈ interviewExitCascadeStages) ∨
    (toStage = .screening ∧ fromStage ≠ .uploaded)

instance (fromStage toStage : PipelineStage) : Decidable (cascades fromStage toStage) :=
  inferInstanceAs (Decidable (_ ∨ _))

def cascadeReason (toStage : PipelineStage) : String :=
  if toStage = .screening then "Candidate returned to SCREENING for re-evaluation"
  else s!"Candidate outcome finalized: {toStage.value}"

def withPending (rounds : Rounds) (campaignCandidateId : Uuid) (now : Instant) : Rounds :=
  if rounds.rows.any fun r => r.campaignCandidateId = campaignCandidateId then rounds
  else addRound rounds campaignCandidateId 1 now

def hookedRounds (rounds : Rounds) (campaignCandidateId : Uuid)
    (fromStage toStage : PipelineStage) (now : Instant) : Rounds :=
  if toStage = .interview then withPending rounds campaignCandidateId now
  else if cascades fromStage toStage then
    rounds.modify (cancelledIn campaignCandidateId (cascadeReason toStage) now)
      (cancelledIn_id campaignCandidateId (cascadeReason toStage) now)
  else rounds

theorem getOrCreatePending_eq (db : Db) (campaignCandidateId : Uuid) (now : Instant) :
    getOrCreatePending db campaignCandidateId now =
      { db with interviewSchedules :=
          withPending db.interviewSchedules campaignCandidateId now } := by
  have hany : (db.interviewSchedules.rows.any fun r =>
      r.campaignCandidateId = campaignCandidateId) = true ↔
        getByCampaignCandidateId db campaignCandidateId ≠ none := by
    rw [getByCampaignCandidateId, Ne, List.head?_eq_none_iff, List.eq_nil_iff_forall_not_mem]
    simp [mem_getAll]
  rw [getOrCreatePending, withPending]
  cases hfound : getByCampaignCandidateId db campaignCandidateId with
  | none => rw [if_neg (fun h => hany.mp h hfound)]
  | some found => rw [if_pos (hany.mpr (by simp [hfound]))]

variable (db : Db) (campaignCandidateId : Uuid) (fromStage toStage : PipelineStage)
variable (changedBy changedByRole : Option String) (now : Instant)

theorem interviewHooks_eq :
    interviewHooks db campaignCandidateId fromStage toStage changedBy changedByRole now =
      if toStage = .interview then .ok (getOrCreatePending db campaignCandidateId now)
      else if cascades fromStage toStage then
        cancelActiveRounds db campaignCandidateId (cascadeReason toStage) changedBy
          changedByRole now
      else .ok db := by
  by_cases hto : toStage = .interview
  · simp [interviewHooks, hto, interviewExitCascadeStages, bind, Except.bind]
  · by_cases hexit : fromStage = .interview ∧ toStage ∈ interviewExitCascadeStages
    · have hscreening : toStage ≠ .screening := by
        rintro rfl
        exact absurd hexit.2 (by decide)
      have hcascade : cascades fromStage toStage := .inl hexit
      have hlast : ¬(toStage = .screening ∧ fromStage ≠ .uploaded) := fun h => hscreening h.1
      simp only [interviewHooks, if_neg hto, if_pos hexit, if_pos hcascade, if_neg hlast,
        cascadeReason, if_neg hscreening]
      cases cancelActiveRounds db campaignCandidateId
        s!"Candidate outcome finalized: {toStage.value}" changedBy changedByRole now <;> rfl
    · by_cases hscreening : toStage = .screening ∧ fromStage ≠ .uploaded
      · have hcascade : cascades fromStage toStage := .inr hscreening
        simp only [interviewHooks, if_neg hto, if_neg hexit, if_pos hcascade, if_pos hscreening,
          cascadeReason, if_pos hscreening.1]
        rfl
      · have hcascade : ¬cascades fromStage toStage := not_or.mpr ⟨hexit, hscreening⟩
        simp only [interviewHooks, if_neg hto, if_neg hexit, if_neg hcascade, if_neg hscreening]
        rfl

theorem interviewHooks_ok (db' : Db)
    (h : interviewHooks db campaignCandidateId fromStage toStage changedBy changedByRole now =
      .ok db') :
    db' = { db with
      interviewSchedules :=
        hookedRounds db.interviewSchedules campaignCandidateId fromStage toStage now
      interviewHistory := db'.interviewHistory } := by
  rw [interviewHooks_eq] at h
  rw [hookedRounds]
  split_ifs at h ⊢
  · rw [← Except.ok.inj h, getOrCreatePending_eq]
  · exact cancelActiveRounds_ok _ _ _ _ _ _ _ h
  · rw [← Except.ok.inj h]

theorem interviewHooks_attributed (by_ role : String) :
    ∃ db', interviewHooks db campaignCandidateId fromStage toStage (some by_) (some role) now =
      .ok db' := by
  rw [interviewHooks_eq]
  split_ifs
  · exact ⟨_, rfl⟩
  · exact cancelActiveRounds_attributed _ _ _ _ _ _
  · exact ⟨db, rfl⟩

end InterviewHooks

section ManualCandidateRescore

structure Candidate where
  isPiiDeleted : Bool

inductive ParseStatus where
  | pending
  | parsing
  | parsed
  | failed
  deriving DecidableEq, Repr

structure Resume where
  parseStatus : ParseStatus

inductive RescoreFault where
  | beforeCommit
  | atDispatch

-- What the re-score reads outside the stage tables, and where it raises.
structure RescoreEnv where
  candidate : Option Candidate
  resume : Option Resume
  fault : Option RescoreFault

def scoreableCampaignStatuses : List CampaignStatus := [.active, .paused]

def reevaluationEligibleStages : List PipelineStage := [.uploaded, .screening]

def CampaignStatus.value : CampaignStatus → String
  | .active => "ACTIVE"
  | .paused => "PAUSED"
  | .closed => "CLOSED"

structure ReEvaluationDecision where
  allowed : Bool
  skipReason : Option String

def CandidateReEvaluationValidator.evaluate (campaignCandidate : CampaignCandidate)
    (candidate : Option Candidate) (campaign : Option HiringCampaign) : ReEvaluationDecision :=
  match candidate with
  | none => { allowed := false, skipReason := some "Candidate record not found." }
  | some candidate =>
    if candidate.isPiiDeleted then
      { allowed := false,
        skipReason := some "Candidate has been erased (is_pii_deleted=True) - not active." }
    else
      match campaign with
      | none => { allowed := false, skipReason := some "Hiring campaign not found." }
      | some campaign =>
        if campaign.status ∉ scoreableCampaignStatuses then
          { allowed := false,
            skipReason := some (s!"Campaign status '{campaign.status.value}' does not " ++
              "allow reprocessing (only ACTIVE, PAUSED do).") }
        else if campaignCandidate.pipelineStage ∉ reevaluationEligibleStages then
          { allowed := false,
            skipReason := some ("Candidate pipeline_stage is " ++
              s!"'{campaignCandidate.pipelineStage.value}' - automatic re-evaluation " ++
              "only applies to candidates still before SHORTLISTED.") }
        else
          { allowed := true, skipReason := none }

open CampaignCandidateRepository CampaignCandidateAIEvaluationRepository in
-- Runs after the commit of the move. Its own commit comes before the dispatch,
-- so a dispatch that raises keeps the reset.
def enqueueManualRescore (db : Db) (campaignCandidateId : Uuid) (env : RescoreEnv) : Db × Bool :=
  match getById db campaignCandidateId with
  | none => (db, false)
  | some cc =>
    let campaign := CampaignRepository.getById db cc.campaignId
    if !(CandidateReEvaluationValidator.evaluate cc env.candidate campaign).allowed then
      (db, false)
    else if env.resume.map Resume.parseStatus ≠ some .parsed then
      (db, false)
    else
      let cc := { resetForRescore cc with aiEvaluation := some (reset (getOrCreate cc)) }
      match env.fault with
      | none => (update db cc, true)
      | some .beforeCommit => (db, false)
      | some .atDispatch => (update db cc, false)

def rescoreDue (fromStage toStage : PipelineStage) : Prop :=
  toStage = .screening ∧ fromStage ≠ .uploaded

instance (fromStage toStage : PipelineStage) : Decidable (rescoreDue fromStage toStage) :=
  inferInstanceAs (Decidable (_ ∧ _))

def rescoreAfter (db : Db) (campaignCandidateId : Uuid) (fromStage toStage : PipelineStage)
    (env : RescoreEnv) : Db :=
  if rescoreDue fromStage toStage then (enqueueManualRescore db campaignCandidateId env).1
  else db

-- A re-score leaves the candidate where the move put it; it can only clear the
-- decision.
structure Rescored (db db' : Db) (before after : CampaignCandidate) : Prop where
  found : db.campaignCandidates.find? before.id = some before
  db : db' = { db with campaignCandidates := db.campaignCandidates.replace after }
  sameId : after.id = before.id
  sameCampaign : after.campaignId = before.campaignId
  sameStage : after.pipelineStage = before.pipelineStage
  samePrevious : after.previousStage = before.previousStage
  decision : after = before ∨ after.decisionType = none

namespace Rescored

variable {db db' : Db} {before after : CampaignCandidate}

theorem find?_self (h : Rescored db db' before after) :
    db'.campaignCandidates.find? before.id = some after := by
  rw [h.db, ← h.sameId]
  exact db.campaignCandidates.find?_replace_self after before (h.sameId ▸ h.found)

theorem find?_other (h : Rescored db db' before after) (id : Uuid) (hne : id ≠ before.id) :
    db'.campaignCandidates.find? id = db.campaignCandidates.find? id := by
  rw [h.db]
  exact db.campaignCandidates.find?_replace_ne after id (h.sameId ▸ hne)

end Rescored

theorem enqueueManualRescore_spec (db : Db) (cc : CampaignCandidate) (env : RescoreEnv)
    (hcc : db.campaignCandidates.find? cc.id = some cc) :
    ∃ after, Rescored db (enqueueManualRescore db cc.id env).1 cc after := by
  have hsame : Rescored db db cc cc :=
    ⟨hcc, by rw [db.campaignCandidates.replace_found cc hcc], rfl, rfl, rfl, rfl, .inl rfl⟩
  have hcall : CampaignCandidateRepository.getById db cc.id = some cc := hcc
  rw [enqueueManualRescore, hcall]
  dsimp only
  split_ifs
  · exact ⟨cc, hsame⟩
  · exact ⟨cc, hsame⟩
  · cases env.fault with
    | none => exact ⟨_, hcc, rfl, rfl, rfl, rfl, rfl, .inr rfl⟩
    | some fault =>
      cases fault with
      | beforeCommit => exact ⟨cc, hsame⟩
      | atDispatch => exact ⟨_, hcc, rfl, rfl, rfl, rfl, rfl, .inr rfl⟩

theorem rescoreAfter_spec (db : Db) (cc : CampaignCandidate)
    (fromStage toStage : PipelineStage) (env : RescoreEnv)
    (hcc : db.campaignCandidates.find? cc.id = some cc) :
    ∃ after, Rescored db (rescoreAfter db cc.id fromStage toStage env) cc after ∧
      (after = cc ∨ rescoreDue fromStage toStage) := by
  by_cases hdue : rescoreDue fromStage toStage
  · rw [rescoreAfter, if_pos hdue]
    obtain ⟨after, hafter⟩ := enqueueManualRescore_spec db cc env hcc
    exact ⟨after, hafter, .inr hdue⟩
  · rw [rescoreAfter, if_neg hdue]
    exact ⟨cc, ⟨hcc, by rw [db.campaignCandidates.replace_found cc hcc], rfl, rfl, rfl, rfl,
      .inl rfl⟩, .inl rfl⟩

end ManualCandidateRescore

end AiHiring
