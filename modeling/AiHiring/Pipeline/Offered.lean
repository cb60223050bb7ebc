import AiHiring.Pipeline.BulkStageMove
import AiHiring.Pipeline.Intake
import AiHiring.Pipeline.StageWrite

namespace AiHiring

open Library

namespace Offered

open AllowedTransitionRepository BulkStageMoveService PipelineTransitionService

-- A role looks at the moves the board offers it for one candidate, and tries one.
structure Visit where
  (campaignId candidate : Uuid)
  (actorId role : String)
  env : RescoreEnv
  now : Instant

variable (table : TransitionTable) (db : Db) (visit : Visit)

def Listed (stage : PipelineStage) (requiresReason : Bool) : Prop :=
  ∃ offer, getAllowedTransitions table db visit.campaignId visit.candidate (some visit.role) =
      .ok offer ∧
    ∃ entry ∈ offer.allowedTransitions,
      entry.toStage = stage.value ∧ entry.requiresReason = requiresReason

def attempt (stage : PipelineStage) (reason : Option String) :
    Except ServiceError (Db × SingleStageMoveResult) :=
  moveOne table db visit.campaignId visit.candidate stage.value reason visit.actorId
    (some visit.role) visit.env visit.now

def Accepted (stage : PipelineStage) (reason : Option String) : Prop :=
  ∃ result, attempt table db visit stage reason = .ok result

def RefusedForReason (stage : PipelineStage) (reason : Option String) : Prop :=
  ∃ fromStage toStage, attempt table db visit stage reason =
    .error (.reasonRequired fromStage toStage)

-- The stage is offered exactly when it is accepted, and a reason is asked for
-- exactly when it is missed.
structure OfferedAsAccepted (stage : PipelineStage) : Prop where
  offered : ∀ reason, NonBlank reason →
    ((∃ requiresReason, Listed table db visit stage requiresReason) ↔
      Accepted table db visit stage (some reason))
  asked : ∀ requiresReason, Listed table db visit stage requiresReason →
    ∀ reason, reasonMissing reason = true →
      (requiresReason = true ↔ RefusedForReason table db visit stage reason)

-- The governing row for staying where the candidate is lists the role.
def SelfLoop (cc : CampaignCandidate) (role : String) : Prop :=
  ∃ row, get table cc.pipelineStage cc.pipelineStage cc.previousStage = some row ∧
    role ∈ row.allowedRoles

variable {table db visit}
variable {cc : CampaignCandidate} {stage : PipelineStage}

theorem listed_iff (hload : loadInCampaign db visit.campaignId visit.candidate = .ok cc)
    (requiresReason : Bool) :
    Listed table db visit stage requiresReason ↔
      ∃ row, get table cc.pipelineStage stage cc.previousStage = some row ∧
        visit.role ∈ row.allowedRoles ∧ row.requiresReason = requiresReason := by
  have hoffer : getAllowedTransitions table db visit.campaignId visit.candidate
      (some visit.role) = .ok
        { campaignCandidateId := cc.id
          currentStage := cc.pipelineStage.value
          previousStage := cc.previousStage.map PipelineStage.value
          allowedTransitions :=
            (((listEligible table cc.pipelineStage cc.previousStage).filter
              fun row => visit.role ∈ row.allowedRoles).map
                AllowedTransitionResponse.ofRow).insertionSort
              fun r s => r.toStage ≤ s.toStage } := by
    rw [getAllowedTransitions, hload]
    rfl
  rw [Listed, hoffer]
  constructor
  · rintro ⟨offer, hok, entry, hentry, hto, hrequires⟩
    rw [← Except.ok.inj hok, (List.perm_insertionSort _ _).mem_iff] at hentry
    obtain ⟨row, hrow, rfl⟩ := List.mem_map.mp hentry
    obtain ⟨hlisted, hrole⟩ := List.mem_filter.mp hrow
    obtain rfl : row.toStage = stage := (PipelineStage.value_inj _ _).mp hto
    exact ⟨row, (mem_listEligible _ _ _ _).mp hlisted, of_decide_eq_true hrole, hrequires⟩
  · rintro ⟨row, hget, hrole, hrequires⟩
    obtain ⟨-, -, rfl, -⟩ := get_some _ _ _ _ _ hget
    refine ⟨_, rfl, AllowedTransitionResponse.ofRow row, ?_, rfl, hrequires⟩
    rw [(List.perm_insertionSort _ _).mem_iff]
    refine List.mem_map.mpr ⟨row, List.mem_filter.mpr ⟨?_, decide_eq_true hrole⟩, rfl⟩
    exact (mem_listEligible _ _ _ _).mpr hget

variable (table) in
theorem attempt_same_stage (hload : loadInCampaign db visit.campaignId visit.candidate = .ok cc)
    (reason : Option String) :
    attempt table db visit cc.pipelineStage reason =
      .error (.campaign "Candidate is already in that stage." 409) := by
  simp [attempt, moveOne, parseStage, hload, bind, Except.bind]

variable (table) in
-- Any other move is refused by the permission or not at all.
theorem attempt_other_stage (hload : loadInCampaign db visit.campaignId visit.candidate = .ok cc)
    (hne : cc.pipelineStage ≠ stage) (reason : Option String) :
    match permit table cc (manualRequest stage visit.actorId (some visit.role) reason) with
    | .ok _ => Accepted table db visit stage reason
    | .error e => attempt table db visit stage reason = .error e := by
  have hstage := transitionStage_attributed table db visit.now true cc
    (manualRequest stage visit.actorId (some visit.role) reason) visit.actorId rfl
  cases hpermit : permit table cc
      (manualRequest stage visit.actorId (some visit.role) reason) with
  | error e =>
    simp only [hpermit] at hstage
    simp [attempt, moveOne, parseStage, hload, hne, hstage, bind, Except.bind]
  | ok row =>
    simp only [hpermit] at hstage
    obtain ⟨result, hresult⟩ := hstage
    simp [Accepted, attempt, moveOne, parseStage, hload, hne, hresult, bind, Except.bind]

theorem effectiveRole_manual (actorId role : String) (reason : Option String) (hrole : role ≠ "") :
    effectiveRole (manualRequest stage actorId (some role) reason) = role := by
  simp [effectiveRole, manualRequest, hrole]

theorem permit_listed {row : AllowedTransition} (hrole : visit.role ≠ "")
    (hget : get table cc.pipelineStage stage cc.previousStage = some row)
    (hlists : visit.role ∈ row.allowedRoles) (reason : Option String) :
    permit table cc (manualRequest stage visit.actorId (some visit.role) reason) =
      if row.requiresReason ∧ reasonMissing reason then
        .error (.reasonRequired cc.pipelineStage stage)
      else .ok row := by
  rw [permit, effectiveRole_manual _ _ _ hrole]
  simp only [manualRequest, hget, hlists, not_true, if_false]
  rfl

theorem accepted_iff (hload : loadInCampaign db visit.campaignId visit.candidate = .ok cc)
    (hrole : visit.role ≠ "") (hne : cc.pipelineStage ≠ stage) (reason : String)
    (hreason : NonBlank reason) :
    Accepted table db visit stage (some reason) ↔
      ∃ row, get table cc.pipelineStage stage cc.previousStage = some row ∧
        visit.role ∈ row.allowedRoles := by
  have hgiven : reasonMissing (some reason) = false := by simp [reasonMissing, hreason.ne_empty]
  have hattempt := attempt_other_stage table hload hne (some reason)
  constructor
  · rintro ⟨result, hresult⟩
    cases hpermit : permit table cc
        (manualRequest stage visit.actorId (some visit.role) (some reason)) with
    | error e =>
      simp only [hpermit] at hattempt
      exact absurd (hattempt.symm.trans hresult) (by simp)
    | ok row =>
      obtain ⟨hget, hlists, -⟩ := (permit_eq_ok _ _ _ _).mp hpermit
      rw [effectiveRole_manual _ _ _ hrole] at hlists
      exact ⟨row, hget, hlists⟩
  · rintro ⟨row, hget, hlists⟩
    rw [permit_listed hrole hget hlists, hgiven] at hattempt
    simpa using hattempt

theorem refused_iff {row : AllowedTransition}
    (hload : loadInCampaign db visit.campaignId visit.candidate = .ok cc)
    (hrole : visit.role ≠ "") (hne : cc.pipelineStage ≠ stage)
    (hget : get table cc.pipelineStage stage cc.previousStage = some row)
    (hlists : visit.role ∈ row.allowedRoles) (reason : Option String)
    (hmissing : reasonMissing reason = true) :
    RefusedForReason table db visit stage reason ↔ row.requiresReason = true := by
  have hattempt := attempt_other_stage table hload hne reason
  rw [permit_listed hrole hget hlists, hmissing] at hattempt
  by_cases hrequires : row.requiresReason = true
  · simp only [hrequires, and_self, if_true] at hattempt
    exact ⟨fun _ => hrequires, fun _ => ⟨_, _, hattempt⟩⟩
  · simp only [hrequires, Bool.false_eq_true, false_and, if_false] at hattempt
    obtain ⟨result, hresult⟩ := hattempt
    refine ⟨?_, fun h => absurd h hrequires⟩
    rintro ⟨fromStage, toStage, hrefused⟩
    exact absurd (hresult.symm.trans hrefused) (by simp)

variable (table) in
theorem offeredAsAccepted_of_ne
    (hload : loadInCampaign db visit.campaignId visit.candidate = .ok cc)
    (hrole : visit.role ≠ "") (hne : cc.pipelineStage ≠ stage) :
    OfferedAsAccepted table db visit stage := by
  constructor
  · intro reason hreason
    simp only [listed_iff hload, accepted_iff hload hrole hne reason hreason]
    constructor
    · rintro ⟨_, row, hget, hlists, -⟩
      exact ⟨row, hget, hlists⟩
    · rintro ⟨row, hget, hlists⟩
      exact ⟨row.requiresReason, row, hget, hlists, rfl⟩
  · intro requiresReason hlisted reason hmissing
    obtain ⟨row, hget, hlists, rfl⟩ := (listed_iff hload requiresReason).mp hlisted
    exact (refused_iff hload hrole hne hget hlists reason hmissing).symm

theorem offeredAsAccepted_same_stage
    (hload : loadInCampaign db visit.campaignId visit.candidate = .ok cc) :
    OfferedAsAccepted table db visit cc.pipelineStage ↔ ¬SelfLoop table cc visit.role := by
  have hnever (reason : Option String) : ¬Accepted table db visit cc.pipelineStage reason := by
    rintro ⟨result, hresult⟩
    rw [attempt_same_stage table hload] at hresult
    simp at hresult
  have hself : (∃ requiresReason, Listed table db visit cc.pipelineStage requiresReason) ↔
      SelfLoop table cc visit.role := by
    simp only [listed_iff hload]
    constructor
    · rintro ⟨_, row, hget, hlists, -⟩
      exact ⟨row, hget, hlists⟩
    · rintro ⟨row, hget, hlists⟩
      exact ⟨row.requiresReason, row, hget, hlists, rfl⟩
  constructor
  · intro hoffered hloop
    have hblank : NonBlank "again" := by decide
    exact hnever _ ((hoffered.offered "again" hblank).mp (hself.mpr hloop))
  · intro hno
    constructor
    · intro reason _
      exact ⟨fun hlisted => absurd (hself.mp hlisted) hno, fun h => absurd h (hnever _)⟩
    · intro requiresReason hlisted
      exact absurd (hself.mp ⟨requiresReason, hlisted⟩) hno

-- The offer and the answer part only on a self-loop: a governing row for the
-- stage the candidate is already at, which the list shows and the move refuses.
theorem offeredAsAccepted_iff (table : TransitionTable) (db : Db) (visit : Visit)
    (cc : CampaignCandidate)
    (hload : loadInCampaign db visit.campaignId visit.candidate = .ok cc)
    (hrole : visit.role ≠ "") (stage : PipelineStage) :
    OfferedAsAccepted table db visit stage ↔
      ¬(stage = cc.pipelineStage ∧ SelfLoop table cc visit.role) := by
  by_cases hstage : stage = cc.pipelineStage
  · subst hstage
    rw [offeredAsAccepted_same_stage hload]
    simp
  · have hoffered := offeredAsAccepted_of_ne table hload hrole (Ne.symm hstage)
    exact ⟨fun _ h => hstage h.1, fun _ => hoffered⟩

def reviewer : Visit where
  campaignId := 0
  candidate := 0
  actorId := "manager"
  role := "HIRING_MANAGER"
  env := idle
  now := 9

theorem offeredAsAccepted_iff_fresh :
    OfferedAsAccepted seededTransitions freshDb reviewer .uploaded ↔
      ¬(PipelineStage.uploaded = .uploaded ∧
        SelfLoop seededTransitions (CampaignCandidateService.newCandidate 0 0 0 0)
          "HIRING_MANAGER") :=
  offeredAsAccepted_iff seededTransitions freshDb reviewer
    (CampaignCandidateService.newCandidate 0 0 0 0) rfl (by decide) .uploaded

def heldAgain : List (StageWrite × Instant) :=
  let manager : Actor := { roles := ["HIRING_MANAGER"], id := some "manager" }
  [(.transitionToScreening 0, 1), (.transition 0 .hold recruiter none none idle, 2),
   (.transition 0 .shortlisted recruiter none none idle, 3),
   (.flagCandidateForReview 0 0 "Duplicate profile" "recruiter" (some "RECRUITER"), 4),
   (.transition 0 .hold manager (some "Cleared") none idle, 5)]

def heldDb : Db := final freshDb (execute (StageWrite.next? seededTransitions) freshDb heldAgain)

-- The board offers the hiring manager HOLD for this candidate and refuses it.
theorem offered_hold_refused : reviewer.role ≠ "" ∧ (∃ cc, loadInCampaign heldDb 0 0 = .ok cc) ∧
      ¬∀ stage, OfferedAsAccepted seededTransitions heldDb reviewer stage := by
  obtain ⟨cc, hload⟩ : ∃ cc, loadInCampaign heldDb 0 0 = .ok cc := ⟨_, rfl⟩
  have hplace : cc.pipelineStage = .hold ∧ cc.previousStage = some .fraudReview := by
    have h := congrArg (Option.map fun cc => (cc.pipelineStage, cc.previousStage))
      (congrArg Except.toOption hload)
    have hpair := h.symm.trans (by decide +kernel : _ = some (.hold, some .fraudReview))
    exact Prod.mk.inj (Option.some.inj hpair)
  refine ⟨by decide, ⟨cc, hload⟩, fun hall => ?_⟩
  have hloop : SelfLoop seededTransitions cc reviewer.role := by
    rw [SelfLoop, hplace.1, hplace.2]
    exact ⟨_, rfl, by decide⟩
  exact (offeredAsAccepted_same_stage hload).mp (hall cc.pipelineStage) hloop

end Offered

end AiHiring
