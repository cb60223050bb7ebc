import AiHiring.Pipeline.Intake
import AiHiring.Pipeline.Writers

namespace AiHiring

open AllowedTransitionRepository PipelineTransitionService

namespace CampaignCandidateService

structure ResubmissionInfo where
  (campaignCandidateId candidateId : Uuid)
  currentPipelineStage : PipelineStage
  currentResumeId : Uuid
  (canUpdateResume requiresHrConfirmation : Bool)

-- `set(transition.allowed_roles) == {"HR_ADMIN"}`
def onlyHrAdmin (allowedRoles : List String) : Bool :=
  allowedRoles ≠ [] ∧ ∀ role ∈ allowedRoles, role = "HR_ADMIN"

-- The row is asked for without the candidate's previous stage.
def buildResubmissionInfo (allowedTransitionRepo : Option TransitionTable)
    (cc : CampaignCandidate) : Option ResubmissionInfo :=
  match allowedTransitionRepo with
  | none => none
  | some table =>
    let transition := get table cc.pipelineStage .uploaded none
    some
      { campaignCandidateId := cc.id
        candidateId := cc.candidateId
        currentPipelineStage := cc.pipelineStage
        currentResumeId := cc.resumeId
        canUpdateResume := transition.isSome
        requiresHrConfirmation := transition.any fun row => onlyHrAdmin row.allowedRoles }

def resubmissionRequest (actorId : String) (actorRole reason : Option String) : StageRequest where
  toStage := .uploaded
  changedBy := some actorId
  actorRole := actorRole
  reason := reason
  source := .manual
  decisionType := none
  decisionSource := none
  decisionDetails := none

-- The stage check of `update_resume_for_resubmission`.
def resubmissionStage (table : TransitionTable) (db : Db) (cc : CampaignCandidate)
    (actorId : String) (actorRole reason : Option String) (now : Instant) :
    Except ServiceError (Db × CampaignCandidate) :=
  transitionStage table db true cc (resubmissionRequest actorId actorRole reason) now

end CampaignCandidateService

namespace Resubmission

open CampaignCandidateService

-- Some role that a request can carry is on the row.
def Usable (row : AllowedTransition) : Prop := ∃ role ∈ row.allowedRoles, role ≠ ""

-- What the stage's own row says is what the row of the candidate's previous stage says.
def SameRule (table : TransitionTable) (cc : CampaignCandidate) : Prop :=
  match cc.previousStage.bind (exact table cc.pipelineStage .uploaded) with
  | some row => (wildcard table cc.pipelineStage .uploaded).isSome ↔ Usable row
  | none => ∀ row, wildcard table cc.pipelineStage .uploaded = some row → Usable row

def Offered (table : TransitionTable) (cc : CampaignCandidate) : Prop :=
  ∃ info, buildResubmissionInfo (some table) cc = some info ∧ info.canUpdateResume = true

section Rules

variable {table : TransitionTable} {db : Db} {cc : CampaignCandidate} {actorId reason : String}
  {now : Instant}

theorem offered_iff : Offered table cc ↔ (wildcard table cc.pipelineStage .uploaded).isSome := by
  constructor
  · intro h
    obtain ⟨info, hinfo, hcan⟩ := h
    cases hinfo
    exact hcan
  · exact fun h => ⟨_, rfl, h⟩

theorem get_eq (previousStage : Option PipelineStage) (fromStage toStage : PipelineStage) :
    get table fromStage toStage previousStage =
      (previousStage.bind (exact table fromStage toStage)).or
        (wildcard table fromStage toStage) := by
  cases previousStage with
  | none => rfl
  | some previous =>
    simp only [AllowedTransitionRepository.get, Option.bind_some]
    cases exact table fromStage toStage previous <;> rfl

theorem effectiveRole_resubmission (actorRole : Option String) :
    effectiveRole (resubmissionRequest actorId actorRole (some reason)) ≠ "" := by
  unfold effectiveRole
  cases actorRole with
  | none =>
    change TransitionSource.manual.value ≠ ""
    decide
  | some role =>
    by_cases hrole : role = ""
    · simp [resubmissionRequest, hrole, TransitionSource.value]
    · simp [resubmissionRequest, hrole]

theorem accepted_iff (hreason : reason ≠ "") (actorRole : Option String) :
    (∃ result, resubmissionStage table db cc actorId actorRole (some reason) now = .ok result) ↔
      ∃ row, get table cc.pipelineStage .uploaded cc.previousStage = some row ∧
        effectiveRole (resubmissionRequest actorId actorRole (some reason)) ∈
          row.allowedRoles := by
  let request := resubmissionRequest actorId actorRole (some reason)
  have hattributed := transitionStage_attributed table db now true cc request actorId rfl
  have hgiven : reasonMissing request.reason = false := by
    simp [request, resubmissionRequest, reasonMissing, hreason]
  cases hpermit : permit table cc request with
  | error e =>
    rw [hpermit] at hattributed
    constructor
    · intro h
      obtain ⟨result, hresult⟩ := h
      exact absurd (hattributed.symm.trans hresult) (by simp)
    · intro h
      obtain ⟨row, hrow, hrole⟩ := h
      have hok := (permit_eq_ok table cc request row).mpr ⟨hrow, hrole, fun _ => hgiven⟩
      exact absurd (hpermit.symm.trans hok) (by simp)
  | ok row =>
    rw [hpermit] at hattributed
    obtain ⟨hrow, hrole, -⟩ := (permit_eq_ok table cc request row).mp hpermit
    exact iff_of_true hattributed ⟨row, hrow, hrole⟩

theorem exists_accepted_iff (hreason : reason ≠ "") : (∃ actorRole result,
        resubmissionStage table db cc actorId actorRole (some reason) now = .ok result) ↔
      ∃ row, get table cc.pipelineStage .uploaded cc.previousStage = some row ∧ Usable row := by
  constructor
  · intro h
    obtain ⟨actorRole, haccepted⟩ := h
    obtain ⟨row, hrow, hrole⟩ := (accepted_iff hreason actorRole).mp haccepted
    exact ⟨row, hrow, _, hrole, effectiveRole_resubmission actorRole⟩
  · intro h
    obtain ⟨row, hrow, role, hrole, hne⟩ := h
    refine ⟨some role, (accepted_iff hreason (some role)).mpr ⟨row, hrow, ?_⟩⟩
    have hrequested : effectiveRole (resubmissionRequest actorId (some role) (some reason)) =
        role := if_neg hne
    rwa [hrequested]

end Rules

-- The offer agrees with the engine exactly for the candidates for whom the row of
-- their previous stage and the stage's own row say the same.
theorem offer_agrees_iff (table : TransitionTable) (db : Db) (cc : CampaignCandidate)
    (actorId reason : String) (now : Instant) (hreason : reason ≠ "") :
    (Offered table cc ↔ ∃ actorRole result,
        resubmissionStage table db cc actorId actorRole (some reason) now = .ok result) ↔
      SameRule table cc := by
  rw [offered_iff, exists_accepted_iff hreason, get_eq, SameRule]
  cases cc.previousStage.bind (exact table cc.pipelineStage .uploaded) with
  | some row => simp
  | none =>
    rw [Option.none_or]
    cases wildcard table cc.pipelineStage .uploaded with
    | none => simp
    | some row => simp

def heldCandidate : CampaignCandidate :=
  { CampaignCandidateService.newCandidate 0 0 0 0 with
    pipelineStage := .hold, previousStage := some .shortlisted }

theorem offer_agrees_iff_held : (Offered seededTransitions heldCandidate ↔ ∃ actorRole result,
        resubmissionStage seededTransitions freshDb heldCandidate "recruiter" actorRole
          (some "New resume") 1 = .ok result) ↔
      SameRule seededTransitions heldCandidate :=
  offer_agrees_iff seededTransitions freshDb heldCandidate "recruiter" "New resume" 1 (by decide)

theorem held_not_offered : ¬Offered seededTransitions heldCandidate ∧
      ∃ actorRole result, resubmissionStage seededTransitions freshDb heldCandidate "recruiter"
        actorRole (some "New resume") 1 = .ok result := by
  constructor
  · rw [offered_iff]
    decide +kernel
  · exact ⟨some "RECRUITER", _, rfl⟩

end Resubmission

end AiHiring
