import AiHiring.Pipeline.Intake
import AiHiring.Pipeline.StageWrite

namespace AiHiring

open Library

namespace Decision

-- The label of an override stands on a rejection.
def Mislabelled (cc : CampaignCandidate) : Prop :=
  cc.pipelineStage = .rejected ∧ cc.decisionType = some .reset

def Clean (db : Db) : Prop := ∀ cc ∈ db.campaignCandidates.rows, ¬Mislabelled cc

def Overridden (db : Db) (id : Uuid) : Prop :=
  ∃ cc, db.campaignCandidates.find? id = some cc ∧ cc.decisionType = some .reset

-- The decision that the candidate's last override replaced was an override too.
def ReplacedOverride (db : Db) (id : Uuid) : Prop :=
  ∃ cc, db.campaignCandidates.find? id = some cc ∧
    OverrideRevertService.detail (cc.decisionDetails.getD []) "overridden_decision_type" =
      .str DecisionType.reset.value

-- A call that rejects a candidate and leaves, or writes, the label of an override.
def Mislabels (db : Db) : StageWrite → Prop
  | .transitionOnAiSuccess _ toStage decisionType _ _ _ _ =>
    toStage = .rejected ∧ decisionType = .reset
  | .transition cc toStage _ _ _ _ => toStage = .rejected ∧ Overridden db cc
  | .transitionStage cc _ request =>
    request.toStage = .rejected ∧ (request.decisionType = some .reset ∨
      (request.decisionType = none ∧ Overridden db cc))
  | .revertOverride cc _ _ _ _ => ReplacedOverride db cc
  | _ => False

variable {table : TransitionTable} {db db' : Db} {before after : CampaignCandidate}

theorem overridden_iff (hfind : db.campaignCandidates.find? before.id = some before) :
    Overridden db before.id ↔ before.decisionType = some .reset := by
  constructor
  · rintro ⟨cc, hcc, hreset⟩
    rwa [Option.some.inj (hfind.symm.trans hcc)]
  · intro hreset
    exact ⟨before, hfind, hreset⟩

theorem replacedOverride_iff (hfind : db.campaignCandidates.find? before.id = some before) :
    ReplacedOverride db before.id ↔
      OverrideRevertService.detail (before.decisionDetails.getD []) "overridden_decision_type" =
        .str DecisionType.reset.value := by
  constructor
  · rintro ⟨cc, hcc, hdetail⟩
    rwa [Option.some.inj (hfind.symm.trans hcc)]
  · intro hdetail
    exact ⟨before, hfind, hdetail⟩

-- A stored decision reads as RESET only where its text says so.
theorem stored_reset_iff (stored : Json) :
    stored.asString?.bind DecisionType.ofValue? = some .reset ↔
      stored = .str DecisionType.reset.value := by
  constructor
  · intro h
    obtain ⟨kind, hkind, htype⟩ := Option.bind_eq_some_iff.mp h
    rw [(Json.asString?_eq_some _ _).mp hkind, DecisionType.value_of_ofValue? kind _ htype]
  · rintro rfl
    rfl

theorem clean_moved (h : Moved db db' before after) (hclean : Clean db) :
    Clean db' ↔ ¬Mislabelled after := by
  obtain ⟨hfound, hid⟩ := (db.campaignCandidates.find?_eq_some _ _).mp h.found
  constructor
  · intro hall
    obtain ⟨hafter, -⟩ := (db'.campaignCandidates.find?_eq_some _ _).mp h.find?_self
    exact hall after hafter
  · intro hlabel cc hcc
    rw [h.candidates, Table.mem_replace] at hcc
    rcases hcc with ⟨hold, -⟩ | ⟨rfl, -⟩
    · exact hclean cc hold
    · exact hlabel

theorem clean_rescored (h : Rescored db db' before after) (hclean : Clean db) : Clean db' := by
  obtain ⟨hfound, -⟩ := (db.campaignCandidates.find?_eq_some _ _).mp h.found
  intro cc hcc
  rw [h.db, Table.mem_replace] at hcc
  rcases hcc with ⟨hold, -⟩ | ⟨rfl, -⟩
  · exact hclean cc hold
  · rcases h.decision with hsame | hnone
    · exact hsame ▸ hclean before hfound
    · rintro ⟨-, hreset⟩
      exact absurd (hnone.symm.trans hreset) (by simp)

theorem mislabelled_iff (call : StageWrite × Instant)
    (h : StageWrite.Effect db db' call before after) :
    Mislabelled after ↔ Mislabels db call.1 := by
  have hplace : Mislabelled after ↔
      call.1.target before = some .rejected ∧ call.1.decision before = some .reset := by
    rw [Mislabelled, h.target, Option.some.injEq]
    apply and_congr_right
    intro hrejected
    have hno : after.pipelineStage ≠ .screening := by rw [hrejected]; decide
    rw [h.decision.resolve_right hno]
  rw [hplace]
  have hoverridden := overridden_iff h.moved.found
  rw [h.candidate] at hoverridden
  rcases call with ⟨call, now⟩
  cases call with
  | transition cc toStage actor reason key env =>
    simp only [Mislabels, StageWrite.target, StageWrite.decision, Option.some.injEq]
    rw [← hoverridden]
    rfl
  | transitionStage cc withRepo request =>
    simp only [Mislabels, StageWrite.target, StageWrite.decision, Option.some.injEq]
    change _ ↔ _ ∧ (_ ∨ (_ ∧ Overridden db cc))
    change Overridden db cc ↔ _ at hoverridden
    rw [hoverridden]
    cases request.decisionType <;> simp
  | revertOverride cc withAiRepo reason actorId actorRole =>
    have hreplaced := replacedOverride_iff h.moved.found
    rw [h.candidate, ← stored_reset_iff] at hreplaced
    exact ⟨fun hlabel => hreplaced.mpr hlabel.2, fun hstored => ⟨rfl, hreplaced.mp hstored⟩⟩
  | overrideCandidateStage campaignId cc targetStage reason actorId actorRole env =>
    -- an override never rejects
    refine ⟨fun hlabel => ?_, False.elim⟩
    have hrejects := hlabel.1
    cases htarget : CampaignService.overrideTarget before.pipelineStage targetStage with
    | error e => simp [StageWrite.target, htarget, Except.toOption] at hrejects
    | ok target =>
      have hallowed := CampaignService.overrideTarget_allowed _ _ _ htarget
      simp only [StageWrite.target, htarget, Except.toOption, Option.some.injEq] at hrejects
      exact hallowed (hrejects ▸ by decide)
  | _ => simp [Mislabels, StageWrite.target, StageWrite.decision]

theorem clean_step (call : StageWrite × Instant) (hclean : Clean db)
    (h : StageWrite.Step table db call db') : Clean db' ↔ ¬Mislabels db call.1 := by
  rcases StageWrite.step_cases call h with
    ⟨before, after, heffect⟩ | ⟨cc, env, before, after, hcall, hrescored⟩
  · rw [clean_moved heffect.moved hclean, mislabelled_iff call heffect]
  · rw [hcall]
    exact ⟨fun _ => id, fun _ => clean_rescored hrescored hclean⟩

-- No rejection carries the label of an override in any state of a run exactly
-- when no step rejects an overridden candidate and keeps its label, or writes the
-- label with the rejection.
theorem clean_throughout_iff (table : TransitionTable) (db : Db) (hclean : Clean db)
    (path : List ((StageWrite × Instant) × Db)) (hp : Path (StageWrite.Step table) db path) :
    (∀ t ∈ visited db path, Clean t) ↔ EveryStep (fun s call _ => ¬Mislabels s call.1) db path := by
  -- no invariant is needed beside the property itself
  have hany : (fun _ : Db => True) db := trivial
  exact hp.visited_iff_everyStep hany (fun _ _ _ _ _ => trivial) hclean
    (fun _ call _ _ hgood hs => clean_step call hgood hs)

theorem freshDb_clean : Clean freshDb := by
  intro cc hcc hlabel
  rw [List.mem_singleton.mp hcc] at hlabel
  exact absurd hlabel.1 (by decide)

def rejectedAgain : List (StageWrite × Instant) :=
  [(.transitionToScreening 0, 1),
   (.transitionToRejected 0 "Deterministic filter rejection" none .deterministic none none none, 2),
   (.applyHrOverride 0 "recruiter" "HR override" none, 3),
   (.transition 0 .rejected recruiter (some "Not a fit after all") none idle, 4)]

def rejectedAgainRun : List ((StageWrite × Instant) × Db) :=
  execute (StageWrite.next? seededTransitions) freshDb rejectedAgain

theorem rejectedAgainRun_path : Path (StageWrite.Step seededTransitions) freshDb rejectedAgainRun :=
  execute_path (StageWrite.next? seededTransitions)
    (fun _ call _ h => StageWrite.next?_step call h) freshDb rejectedAgain

theorem clean_throughout_iff_rejectedAgain : (∀ t ∈ visited freshDb rejectedAgainRun, Clean t) ↔
      EveryStep (fun s call _ => ¬Mislabels s call.1) freshDb rejectedAgainRun :=
  clean_throughout_iff seededTransitions freshDb freshDb_clean rejectedAgainRun
    rejectedAgainRun_path

theorem not_clean_after_rejection :
    Created freshDb 0 ∧ Path (StageWrite.Step seededTransitions) freshDb rejectedAgainRun ∧
      ¬∀ t ∈ visited freshDb rejectedAgainRun, Clean t := by
  refine ⟨freshDb_created, rejectedAgainRun_path, fun hall => ?_⟩
  obtain ⟨cc, hcc⟩ : ∃ cc, (final freshDb rejectedAgainRun).campaignCandidates.find? 0 =
      some cc := ⟨_, rfl⟩
  have hlabel : cc.pipelineStage = .rejected ∧ cc.decisionType = some .reset := by
    have h := congrArg (Option.map fun cc => (cc.pipelineStage, cc.decisionType)) hcc
    have hpair := h.symm.trans (by decide +kernel : _ = some (.rejected, some .reset))
    exact Prod.mk.inj (Option.some.inj hpair)
  obtain ⟨hmem, -⟩ := (Table.find?_eq_some _ _ _).mp hcc
  exact hall _ (final_mem_visited _ _) cc hmem hlabel

end Decision

end AiHiring
