import AiHiring.Campaign.Model

namespace AiHiring

open Library

structure CampaignUpdateRequest where
  name : Option String
  status : Option CampaignStatus
  deadline : Option Instant
  clearDeadline : Bool
  maxCandidates : Option ℤ
  clearMaxCandidates : Bool
  hiringManagerId : Option String
  (promptTemplateId aiEvaluatePromptId : Option Uuid)
  (weightDeterministic weightSemantic weightAi semanticThreshold aiThreshold : Option ℚ)
  deterministicThreshold : Option ℚ
  confirmScoringChange : Bool

-- One of `_SCORING_FIELDS`.
structure ScoringField where
  name : String
  requested : CampaignUpdateRequest → Option ℚ
  current : CampaignRow → ℚ

def scoringFields : List ScoringField :=
  [⟨"weight_deterministic", (·.weightDeterministic), (·.weightDeterministic)⟩,
   ⟨"weight_semantic", (·.weightSemantic), (·.weightSemantic)⟩,
   ⟨"weight_ai", (·.weightAi), (·.weightAi)⟩,
   ⟨"semantic_threshold", (·.semanticThreshold), (·.semanticThreshold)⟩,
   ⟨"ai_threshold", (·.aiThreshold), (·.aiThreshold)⟩,
   ⟨"deterministic_threshold", (·.deterministicThreshold), (·.deterministicThreshold)⟩]

structure Edited where
  campaign : CampaignRow
  changes : List String

abbrev Checked := Except CampaignException

namespace CampaignService

open CampaignDb

variable (lower : String → String) (db : CampaignDb) (now : Instant)
  (request : CampaignUpdateRequest)

def changed (e : Edited) (field : String) (campaign : CampaignRow) : Edited :=
  ⟨campaign, e.changes ++ [field]⟩

def editStatus (e : Edited) : Checked Edited :=
  match request.status with
  | none => .ok e
  | some status =>
    if status = e.campaign.status then .ok e
    else if (e.campaign.status = .active ∧ status = .paused) ∨
        (e.campaign.status = .paused ∧ status = .active) then
      .ok (changed e "status"
        { e.campaign with toHiringCampaign := { e.campaign.toHiringCampaign with
            status := status } })
    else .error ⟨s!"Unsupported status transition {e.campaign.status.value} → " ++
      s!"{status.value}.", 422⟩

def editName (e : Edited) : Checked Edited :=
  match request.name with
  | none => .ok e
  | some name =>
    if name = e.campaign.name then .ok e
    else if (getByName db lower e.campaign.orgId name).any fun duplicate =>
        duplicate.id ≠ e.campaign.id then
      .error ⟨s!"Campaign name '{name}' already exists in this organization", 409⟩
    else .ok (changed e "name"
      { e.campaign with toHiringCampaign := { e.campaign.toHiringCampaign with name := name } })

def withMaxCandidates (e : Edited) (maxCandidates : Option ℤ) : Edited :=
  changed e "max_candidates"
    { e.campaign with toHiringCampaign := { e.campaign.toHiringCampaign with
        maxCandidates := maxCandidates } }

def editMaxCandidates (e : Edited) : Checked Edited :=
  if request.clearMaxCandidates then
    if e.campaign.maxCandidates = none then .ok e else .ok (withMaxCandidates e none)
  else
    match request.maxCandidates with
    | none => .ok e
    | some maxCandidates =>
      if some maxCandidates = e.campaign.maxCandidates then .ok e
      else
        let selectedCount := getSelectedCount db e.campaign.id
        if maxCandidates < selectedCount then
          .error ⟨s!"Cannot set openings to {maxCandidates}: the campaign " ++
            s!"has already selected {selectedCount} candidate(s).", 422⟩
        else .ok (withMaxCandidates e (some maxCandidates))

def editDeadline (e : Edited) : Checked Edited :=
  if request.clearDeadline then
    if e.campaign.deadline = none then .ok e
    else .ok (changed e "deadline" { e.campaign with deadline := none })
  else
    match request.deadline with
    | none => .ok e
    | some deadline =>
      if some deadline = e.campaign.deadline then .ok e
      else if deadline ≤ now then .error ⟨"Campaign deadline must be a future date", 422⟩
      else .ok (changed e "deadline" { e.campaign with deadline := some deadline })

-- `validate_prompt_template_selection` for a given task type and its label.
def validatePromptTemplateSelection (promptTemplateId : Uuid) (taskType label : String) :
    Checked PromptTemplate :=
  match db.promptTemplates.find? promptTemplateId with
  | none => .error ⟨"Selected Prompt Template does not exist.", 422⟩
  | some prompt =>
    if !prompt.active then .error ⟨"Selected Prompt Template is inactive.", 422⟩
    else if prompt.taskType ≠ taskType then
      .error ⟨s!"Selected Prompt Template is not a {label} prompt.", 422⟩
    else .ok prompt

def editPromptTemplate (e : Edited) : Checked Edited :=
  match request.promptTemplateId with
  | none => .ok e
  | some promptTemplateId =>
    if promptTemplateId = e.campaign.promptTemplateId then .ok e
    else do
      let newPrompt ← validatePromptTemplateSelection db promptTemplateId "RESUME_PARSE"
        "Resume Parsing"
      return changed e "prompt_template_id"
        { e.campaign with promptTemplateId := newPrompt.id }

def editAiEvaluatePrompt (e : Edited) : Checked Edited :=
  match request.aiEvaluatePromptId with
  | none => .ok e
  | some aiEvaluatePromptId =>
    if some aiEvaluatePromptId = e.campaign.aiEvaluatePromptId then .ok e
    else do
      let newPrompt ← validatePromptTemplateSelection db aiEvaluatePromptId "AI_EVALUATE"
        "AI Evaluation"
      return changed e "ai_evaluate_prompt_id"
        { e.campaign with aiEvaluatePromptId := some newPrompt.id }

def editHiringManager (e : Edited) : Checked Edited :=
  match request.hiringManagerId with
  | none => .ok e
  | some hiringManagerId =>
    if hiringManagerId = e.campaign.hiringManagerId then .ok e
    else
      match getUser db hiringManagerId with
      | none => .error ⟨s!"User '{hiringManagerId}' not found.", 404⟩
      | some newManager =>
        if newManager.role ≠ .hiringManager then
          .error ⟨s!"User '{hiringManagerId}' does not have the HIRING_MANAGER role.", 422⟩
        else if !newManager.isActive then
          .error ⟨s!"User '{hiringManagerId}' is not an active user.", 422⟩
        else .ok (changed e "hiring_manager_id"
          { e.campaign with toHiringCampaign := { e.campaign.toHiringCampaign with
              hiringManagerId := hiringManagerId } })

def validateScoringWeights (weights : List ℚ) : Checked Unit :=
  let minLayerWeight := db.minLayerWeight.getD ("5.00", 5)
  if weights.any fun w => w < 0 ∨ w > 100 then
    .error ⟨"Each scoring weight must be between 0 and 100.", 422⟩
  else if weights.sum ≠ 100 then .error ⟨"Scoring weights must sum to 100.00", 422⟩
  else if weights.any fun w => w < minLayerWeight.2 then
    .error ⟨s!"Each scoring layer must be at least {minLayerWeight.1}%.", 400⟩
  else .ok ()

variable (campaign : CampaignRow)

def scoringChanges : List String :=
  (scoringFields.filter fun field =>
    (field.requested request).any fun value => field.current campaign ≠ value).map (·.name)

-- A value that is no change is the current one, so all of them may be written.
def withScoring : CampaignRow :=
  { campaign with
    weightDeterministic := request.weightDeterministic.getD campaign.weightDeterministic
    weightSemantic := request.weightSemantic.getD campaign.weightSemantic
    weightAi := request.weightAi.getD campaign.weightAi
    semanticThreshold := request.semanticThreshold.getD campaign.semanticThreshold
    aiThreshold := request.aiThreshold.getD campaign.aiThreshold
    deterministicThreshold := request.deterministicThreshold.getD campaign.deterministicThreshold }

def editScoring (e : Edited) : Checked Edited :=
  let changes := scoringChanges request e.campaign
  if changes = [] then .ok e
  else if e.campaign.status = .active ∧ !request.confirmScoringChange then
    .error ⟨"Changing scoring configuration will only affect candidates submitted " ++
      "after this change. Existing candidate scores will not be recalculated. " ++
      "Re-submit with confirm_scoring_change=true to proceed.", 422⟩
  else
    let campaign := withScoring request e.campaign
    match validateScoringWeights db
        [campaign.weightDeterministic, campaign.weightSemantic, campaign.weightAi] with
    | .error error => .error error
    | .ok () => .ok ⟨campaign, e.changes ++ changes⟩

-- What an edit is about.
inductive Aspect where
  | status
  | name
  | maxCandidates
  | deadline
  | promptTemplate
  | aiEvaluatePrompt
  | hiringManager
  | scoring
  deriving DecidableEq

def edits : List (Aspect × (Edited → Checked Edited)) :=
  [(.status, editStatus request), (.name, editName lower db request),
   (.maxCandidates, editMaxCandidates db request), (.deadline, editDeadline now request),
   (.promptTemplate, editPromptTemplate db request),
   (.aiEvaluatePrompt, editAiEvaluatePrompt db request),
   (.hiringManager, editHiringManager db request), (.scoring, editScoring db request)]

-- Everything up to the first flush: the checks of the request, field by field.
def checkUpdate : Checked CampaignRow :=
  if campaign.status = .closed then
    .error ⟨"Closed campaigns cannot be edited. Reopen the campaign to make changes.", 403⟩
  else do
    let e ← (edits lower db now request).foldlM (fun e edit => edit.2 e) ⟨campaign, []⟩
    if e.changes = [] then .error ⟨"No changes supplied", 422⟩
    else return { e.campaign with toHiringCampaign := { e.campaign.toHiringCampaign with
      updatedAt := now } }

-- Two versions of a row agree on what an edit is about.
def Aspect.Agrees (c c' : CampaignRow) : Aspect → Prop
  | status => c.status = c'.status
  | name => c.name = c'.name
  | maxCandidates => c.maxCandidates = c'.maxCandidates
  | deadline => c.deadline = c'.deadline
  | promptTemplate => c.promptTemplateId = c'.promptTemplateId
  | aiEvaluatePrompt => c.aiEvaluatePromptId = c'.aiEvaluatePromptId
  | hiringManager => c.hiringManagerId = c'.hiringManagerId
  | scoring => c.weightDeterministic = c'.weightDeterministic ∧
      c.weightSemantic = c'.weightSemantic ∧ c.weightAi = c'.weightAi ∧
      c.semanticThreshold = c'.semanticThreshold ∧ c.aiThreshold = c'.aiThreshold ∧
      c.deterministicThreshold = c'.deterministicThreshold

theorem Aspect.agrees_refl (c : CampaignRow) (aspect : Aspect) : aspect.Agrees c c := by
  cases aspect <;> simp [Agrees]

theorem Aspect.Agrees.symm {c c' : CampaignRow} {aspect : Aspect} (h : aspect.Agrees c c') :
    aspect.Agrees c' c := by
  cases aspect with
  | scoring =>
    obtain ⟨h1, h2, h3, h4, h5, h6⟩ := h
    exact ⟨h1.symm, h2.symm, h3.symm, h4.symm, h5.symm, h6.symm⟩
  | _ => exact Eq.symm h

theorem Aspect.Agrees.trans {c c' c'' : CampaignRow} {aspect : Aspect} (h : aspect.Agrees c c')
    (h' : aspect.Agrees c' c'') : aspect.Agrees c c'' := by
  cases aspect <;> simp_all [Agrees]

-- An edit changes the row in what it is about, and says so, or leaves it alone.
structure Touches (aspect : Aspect) (e e' : Edited) : Prop where
  id : e'.campaign.id = e.campaign.id
  others : ∀ other, other ≠ aspect → other.Agrees e.campaign e'.campaign
  named : e' = e ∨ ¬aspect.Agrees e.campaign e'.campaign

theorem touches_refl (aspect : Aspect) (e : Edited) : Touches aspect e e :=
  ⟨rfl, fun other _ => other.agrees_refl e.campaign, .inl rfl⟩

section Touched

variable {lower db now request} {e e' : Edited}

-- An edit writes one new value: the rest of the row agrees field by field.
theorem touches_editStatus (h : editStatus request e = .ok e') : Touches .status e e' := by
  unfold editStatus at h
  split at h
  · cases h
    exact touches_refl _ e
  · split_ifs at h with hsame
    · cases h
      exact touches_refl _ e
    · cases h
      refine ⟨rfl, fun other hother => ?_, .inr fun hagrees => hsame hagrees.symm⟩
      cases other <;> first
        | exact absurd rfl hother
        | exact Eq.refl _
        | exact ⟨rfl, rfl, rfl, rfl, rfl, rfl⟩

theorem touches_editName (h : editName lower db request e = .ok e') : Touches .name e e' := by
  unfold editName at h
  split at h
  · cases h
    exact touches_refl _ e
  · split_ifs at h with hsame
    · cases h
      exact touches_refl _ e
    · cases h
      refine ⟨rfl, fun other hother => ?_, .inr fun hagrees => hsame hagrees.symm⟩
      cases other <;> first
        | exact absurd rfl hother
        | exact Eq.refl _
        | exact ⟨rfl, rfl, rfl, rfl, rfl, rfl⟩

theorem touches_withMaxCandidates {maxCandidates : Option ℤ}
    (h : maxCandidates ≠ e.campaign.maxCandidates) :
    Touches .maxCandidates e (withMaxCandidates e maxCandidates) := by
  refine ⟨rfl, fun other hother => ?_, .inr fun hagrees => h hagrees.symm⟩
  cases other <;> first
    | exact absurd rfl hother
    | exact Eq.refl _
    | exact ⟨rfl, rfl, rfl, rfl, rfl, rfl⟩

theorem touches_editMaxCandidates (h : editMaxCandidates db request e = .ok e') :
    Touches .maxCandidates e e' := by
  unfold editMaxCandidates at h
  split_ifs at h with hclear hnone
  · cases h
    exact touches_refl _ e
  · cases h
    exact touches_withMaxCandidates fun hsame => hnone hsame.symm
  · split at h
    · cases h
      exact touches_refl _ e
    · simp only at h
      split_ifs at h with hsame
      · cases h
        exact touches_refl _ e
      · cases h
        exact touches_withMaxCandidates hsame

theorem touches_withDeadline {deadline : Option Instant} (h : deadline ≠ e.campaign.deadline) :
    Touches .deadline e (changed e "deadline" { e.campaign with deadline := deadline }) := by
  refine ⟨rfl, fun other hother => ?_, .inr fun hagrees => h hagrees.symm⟩
  cases other <;> first
    | exact absurd rfl hother
    | exact Eq.refl _
    | exact ⟨rfl, rfl, rfl, rfl, rfl, rfl⟩

theorem touches_editDeadline (h : editDeadline now request e = .ok e') :
    Touches .deadline e e' := by
  unfold editDeadline at h
  split_ifs at h with hclear hnone
  · cases h
    exact touches_refl _ e
  · cases h
    exact touches_withDeadline fun hsame => hnone hsame.symm
  · split at h
    · cases h
      exact touches_refl _ e
    · split_ifs at h with hsame
      · cases h
        exact touches_refl _ e
      · cases h
        exact touches_withDeadline hsame

theorem validatePromptTemplateSelection_id {promptTemplateId : Uuid} {taskType label : String}
    {prompt : PromptTemplate}
    (h : validatePromptTemplateSelection db promptTemplateId taskType label = .ok prompt) :
    prompt.id = promptTemplateId := by
  unfold validatePromptTemplateSelection at h
  split at h
  · simp at h
  · next found hfind =>
      split_ifs at h
      cases h
      exact ((db.promptTemplates.find?_eq_some _ _).mp hfind).2

theorem touches_editPromptTemplate (h : editPromptTemplate db request e = .ok e') :
    Touches .promptTemplate e e' := by
  unfold editPromptTemplate at h
  split at h
  · cases h
    exact touches_refl _ e
  · split_ifs at h with hsame
    · cases h
      exact touches_refl _ e
    · obtain ⟨newPrompt, hprompt, h⟩ := (bind_eq_ok _ _ _).mp h
      have hid := validatePromptTemplateSelection_id hprompt
      cases h
      refine ⟨rfl, fun other hother => ?_, .inr fun hagrees => hsame (hid ▸ hagrees.symm)⟩
      cases other <;> first
        | exact absurd rfl hother
        | exact Eq.refl _
        | exact ⟨rfl, rfl, rfl, rfl, rfl, rfl⟩

theorem touches_editAiEvaluatePrompt (h : editAiEvaluatePrompt db request e = .ok e') :
    Touches .aiEvaluatePrompt e e' := by
  unfold editAiEvaluatePrompt at h
  split at h
  · cases h
    exact touches_refl _ e
  · split_ifs at h with hsame
    · cases h
      exact touches_refl _ e
    · obtain ⟨newPrompt, hprompt, h⟩ := (bind_eq_ok _ _ _).mp h
      have hid := validatePromptTemplateSelection_id hprompt
      cases h
      refine ⟨rfl, fun other hother => ?_, .inr fun hagrees => hsame (hid ▸ hagrees.symm)⟩
      cases other <;> first
        | exact absurd rfl hother
        | exact Eq.refl _
        | exact ⟨rfl, rfl, rfl, rfl, rfl, rfl⟩

theorem touches_editHiringManager (h : editHiringManager db request e = .ok e') :
    Touches .hiringManager e e' := by
  unfold editHiringManager at h
  split at h
  · cases h
    exact touches_refl _ e
  · split_ifs at h with hsame
    · cases h
      exact touches_refl _ e
    · split at h
      · simp at h
      · split_ifs at h
        cases h
        refine ⟨rfl, fun other hother => ?_, .inr fun hagrees => hsame hagrees.symm⟩
        cases other <;> first
          | exact absurd rfl hother
          | exact Eq.refl _
          | exact ⟨rfl, rfl, rfl, rfl, rfl, rfl⟩

theorem not_agrees_withScoring {campaign : CampaignRow} (h : scoringChanges request campaign ≠ []) :
    ¬Aspect.scoring.Agrees campaign (withScoring request campaign) := by
  intro hagrees
  obtain ⟨h1, h2, h3, h4, h5, h6⟩ := hagrees
  refine h (List.map_eq_nil_iff.mpr (List.filter_eq_nil_iff.mpr ?_))
  have hnone {requested : Option ℚ} {current : ℚ} (hsame : current = requested.getD current) :
      ¬(requested.any fun value => current ≠ value) = true := by
    cases requested with
    | none => simp
    | some value => simpa using hsame
  intro field hfield
  simp only [scoringFields, List.mem_cons, List.not_mem_nil, or_false] at hfield
  rcases hfield with rfl | rfl | rfl | rfl | rfl | rfl
  · exact hnone h1
  · exact hnone h2
  · exact hnone h3
  · exact hnone h4
  · exact hnone h5
  · exact hnone h6

theorem touches_editScoring (h : editScoring db request e = .ok e') : Touches .scoring e e' := by
  unfold editScoring at h
  simp only at h
  split_ifs at h with hnone
  · cases h
    exact touches_refl _ e
  · split at h
    · simp at h
    · cases h
      refine ⟨rfl, fun other hother => ?_, .inr (not_agrees_withScoring hnone)⟩
      cases other <;> first
        | exact absurd rfl hother
        | exact Eq.refl _

theorem nodup_edits (lower : String → String) (db : CampaignDb) (now : Instant)
    (request : CampaignUpdateRequest) : ((edits lower db now request).map (·.1)).Nodup := by
  simp [edits]

theorem touches_edits :
    ∀ edit ∈ edits lower db now request, ∀ e e', edit.2 e = .ok e' → Touches edit.1 e e' := by
  simp only [edits, List.forall_mem_cons]
  exact ⟨fun _ _ => touches_editStatus, fun _ _ => touches_editName,
    fun _ _ => touches_editMaxCandidates, fun _ _ => touches_editDeadline,
    fun _ _ => touches_editPromptTemplate, fun _ _ => touches_editAiEvaluatePrompt,
    fun _ _ => touches_editHiringManager, fun _ _ => touches_editScoring, by simp⟩

-- Edits of different aspects do not undo each other: what any of them changed
-- differs at the end.
theorem foldlM_touches {steps : List (Aspect × (Edited → Checked Edited))}
    (hsteps : ∀ edit ∈ steps, ∀ e e', edit.2 e = .ok e' → Touches edit.1 e e')
    (hnodup : (steps.map (·.1)).Nodup)
    (h : steps.foldlM (fun e edit => edit.2 e) e = .ok e') :
    e'.campaign.id = e.campaign.id ∧
      (∀ other, other ∉ steps.map (·.1) → other.Agrees e.campaign e'.campaign) ∧
      (e' = e ∨ ∃ aspect ∈ steps.map (·.1), ¬aspect.Agrees e.campaign e'.campaign) := by
  induction steps generalizing e with
  | nil =>
    obtain rfl := (foldlM_nil_eq_ok _ _ _).mp h
    exact ⟨rfl, fun other _ => other.agrees_refl e.campaign, .inl rfl⟩
  | cons step rest ih =>
    obtain ⟨mid, hmid, hrest⟩ := (foldlM_cons_eq_ok _ _ _ _ _).mp h
    rw [List.forall_mem_cons] at hsteps
    rw [List.map_cons, List.nodup_cons] at hnodup
    have htouch := hsteps.1 e mid hmid
    obtain ⟨hid, hothers, hnamed⟩ := ih hsteps.2 hnodup.2 hrest
    refine ⟨hid.trans htouch.id, ?_, ?_⟩
    · intro other hother
      rw [List.map_cons, List.mem_cons, not_or] at hother
      exact (htouch.others other hother.1).trans (hothers other hother.2)
    · rcases htouch.named with rfl | hchanged
      · rcases hnamed with rfl | ⟨aspect, haspect, hdiffers⟩
        · exact .inl rfl
        · exact .inr ⟨aspect, List.mem_cons_of_mem _ haspect, hdiffers⟩
      · refine .inr ⟨step.1, List.mem_cons_self, fun hagrees => hchanged ?_⟩
        -- the steps that follow leave what this one is about
        exact hagrees.trans (hothers step.1 hnodup.1).symm

theorem checkUpdate_ok {campaign updated : CampaignRow}
    (h : checkUpdate lower db now request campaign = .ok updated) :
    updated.id = campaign.id ∧ updated ≠ campaign ∧ campaign.status ≠ .closed := by
  unfold checkUpdate at h
  split_ifs at h with hclosed
  obtain ⟨e, he, h⟩ := (bind_eq_ok _ _ _).mp h
  split_ifs at h with hnone
  cases h
  obtain ⟨hid, -, hnamed⟩ := foldlM_touches touches_edits (nodup_edits lower db now request) he
  refine ⟨hid, ?_, hclosed⟩
  intro hsame
  rcases hnamed with rfl | ⟨aspect, -, hdiffers⟩
  · exact hnone rfl
  · apply hdiffers
    rw [← hsame]
    cases aspect <;> simp [Aspect.Agrees]

end Touched

def findCampaign (campaignId : Uuid) : Checked CampaignRow :=
  match db.campaigns.find? campaignId with
  | none => .error ⟨s!"Campaign '{text campaignId}' not found", 404⟩
  | some campaign => .ok campaign

def pausedNow : Bool :=
  campaign.status = .active ∧ request.status = some .paused

def resumedNow : Bool :=
  campaign.status = .paused ∧ request.status = some .active

variable (faults : Faults) (newTaskId : Uuid → String)

-- The log is found again under its task id, so the message carries it.
def resubmission (task : CeleryTaskLog) : List (String × String) :=
  [("campaign_candidate_id", (task.campaignCandidateId.map text).getD "None")]

variable (campaignId : Uuid)

def isResubmitted (log : CeleryTaskLog) : Bool :=
  log.status = .paused ∧ ofCampaign db campaignId log ∧ log.taskType = deterministicScoreTaskType

def resubmitPausedTasks : Sending Message UpdateError CampaignDb := do
  Sending.forEach (getPausedTasks db campaignId) fun task =>
    if task.taskType ≠ deterministicScoreTaskType then pure ()
    else applyAsync faults calculateDeterministicScoreTask (resubmission task) task.taskId
  return setStatus db (isResubmitted db campaignId) .queued

def withTaskId (resumes : List ResumeRow) (r : ResumeRow) : ResumeRow :=
  if r.id ∈ resumes.map (·.id) then { r with taskId := some (newTaskId r.id) } else r

theorem withTaskId_id (resumes : List ResumeRow) (r : ResumeRow) :
    (withTaskId newTaskId resumes r).id = r.id := by
  unfold withTaskId
  split_ifs <;> rfl

def enqueuePendingResumeParses : Sending Message UpdateError CampaignDb := do
  let resumes := getPendingResumes db campaignId
  Sending.forEach resumes fun resume =>
    applyAsync faults processResumeDocument [("resume_id", text resume.id)] (newTaskId resume.id)
  return { db with
    resumes := db.resumes.modify (withTaskId newTaskId resumes) (withTaskId_id newTaskId resumes) }

-- What a change of the status does to the campaign's work.
def moveTasks (campaign : CampaignRow) :
    Sending Message UpdateError CampaignDb :=
  if pausedNow request campaign then pure (suspendQueuedTasks db campaignId)
  else if resumedNow request campaign then do
    let db ← resubmitPausedTasks db faults campaignId
    enqueuePendingResumeParses db faults newTaskId campaignId
  else pure db

def record : Sending Message UpdateError Unit :=
  if faults.record then Sending.raise .failure else pure ()

-- The open transaction of `update_campaign`, up to its commit.
def applyUpdate (campaign updated : CampaignRow) :
    Sending Message UpdateError CampaignDb := do
  let db' ← moveTasks { db with campaigns := db.campaigns.replace updated } request faults
    newTaskId campaignId campaign
  record faults
  return db'

-- What a call leaves behind: what it returns or raises, the tables as committed
-- and the messages that are out.
structure UpdateOutcome where
  result : Except UpdateError CampaignRow
  db : CampaignDb
  sent : List Message

def updateCampaign : UpdateOutcome :=
  match findCampaign db campaignId with
  | .error e => ⟨.error (.campaign e), db, []⟩
  | .ok campaign =>
    match checkUpdate lower db now request campaign with
    | .error e => ⟨.error (.campaign e), db, []⟩
    | .ok updated =>
      if faults.prepare then ⟨.error .failure, db, []⟩
      else
        let applied := applyUpdate db request faults newTaskId campaignId campaign updated
        match applied.result with
        -- rolled back
        | .error e => ⟨.error e, db, applied.sent⟩
        | .ok db' =>
          if faults.respond then ⟨.error .failure, db', applied.sent⟩
          else ⟨.ok updated, db', applied.sent⟩

end CampaignService

end AiHiring
