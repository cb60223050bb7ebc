import AiHiring.Campaign.ScoringViews
import AiHiring.Library.Rounding
import AiHiring.Library.Run

namespace AiHiring

open Library

-- `decimal_places` of a schema.
def HasDecimals (n : ℕ) (q : ℚ) : Prop := (q * 10 ^ n).den = 1

instance (n : ℕ) (q : ℚ) : Decidable (HasDecimals n q) := inferInstanceAs (Decidable (_ = _))

-- The decimal number that a float is written as: a percentage of two decimals survives.
structure PythonFloat where
  float : ℚ → ℚ
  exact : ∀ q, 0 ≤ q → q ≤ 100 → HasDecimals 2 q → float q = q

structure Weights where
  (deterministic semantic ai : ℚ)
  deriving DecidableEq

def Weights.toList (w : Weights) : List ℚ := [w.deterministic, w.semantic, w.ai]

def Weights.AtLeast (w : Weights) (least : ℚ) : Prop := ∀ weight ∈ w.toList, least ≤ weight

instance (w : Weights) (least : ℚ) : Decidable (w.AtLeast least) :=
  inferInstanceAs (Decidable (∀ weight ∈ w.toList, _))

def CampaignRow.weights (c : CampaignRow) : Weights :=
  ⟨c.weightDeterministic, c.weightSemantic, c.weightAi⟩

def IsPercentage (q : ℚ) : Prop := 0 ≤ q ∧ q ≤ 100 ∧ HasDecimals 2 q

instance (q : ℚ) : Decidable (IsPercentage q) := inferInstanceAs (Decidable (_ ∧ _ ∧ _))

-- What the schema of a PATCH asks of the weights; the rest it asks does not matter here.
def CampaignUpdateRequest.Accepted (r : CampaignUpdateRequest) : Prop :=
  ∀ requested ∈ [r.weightDeterministic, r.weightSemantic, r.weightAi],
    ∀ q ∈ requested, IsPercentage q

def CampaignScoringUpdateRequest.fields (r : CampaignScoringUpdateRequest) :
    CampaignUpdateRequest where
  name := none
  status := none
  deadline := none
  clearDeadline := false
  maxCandidates := none
  clearMaxCandidates := false
  hiringManagerId := none
  promptTemplateId := none
  aiEvaluatePromptId := none
  weightDeterministic := some r.weightDeterministic
  weightSemantic := some r.weightSemantic
  weightAi := some r.weightAi
  semanticThreshold := some r.semanticThreshold
  aiThreshold := some r.aiThreshold
  deterministicThreshold := some r.deterministicThreshold
  confirmScoringChange := false

-- A row of campaign_weight_configuration_history.
structure WeightHistoryRow where
  (old new : Weights)
  (changedBy formulaVersion : String)

def compositeScoreFormulaVersion : String := "v1"

-- A campaign with its history. What its creation stored is kept beside them.
structure Ledger where
  campaign : Option CampaignRow
  history : List WeightHistoryRow
  created : Option Weights

def Ledger.empty : Ledger := ⟨none, [], none⟩

-- What a call finds besides the campaign. `fails` says that a statement up to the
-- commit raises; what raises after the commit changes nothing any more.
structure Around where
  source : ScoringDb
  now : Instant
  (newId orgId : Uuid)
  actor : String
  fails : Bool

namespace CampaignRow

-- The scoring columns: NUMERIC(5, 4) for the semantic threshold, NUMERIC(5, 2) for the others.
def numeric (scale : ℕ) (q : ℚ) : ℚ := Rounding.awayFromZero scale q

def mapScoring (c : CampaignRow) (column : ℕ → ℚ → ℚ) : CampaignRow :=
  { c with
    weightDeterministic := column 2 c.weightDeterministic
    weightSemantic := column 2 c.weightSemantic
    weightAi := column 2 c.weightAi
    semanticThreshold := column 4 c.semanticThreshold
    aiThreshold := column 2 c.aiThreshold
    deterministicThreshold := column 2 c.deterministicThreshold }

def fits (scale : ℕ) (q : ℚ) : Bool := |q| < 10 ^ (5 - scale)

-- What the columns and `chk_weights_sum_100` accept.
def storable (c : CampaignRow) : Bool :=
  fits 2 c.weightDeterministic ∧ fits 2 c.weightSemantic ∧ fits 2 c.weightAi ∧
    fits 4 c.semanticThreshold ∧ fits 2 c.aiThreshold ∧ fits 2 c.deterministicThreshold ∧
    c.weights.toList.sum = 100

end CampaignRow

namespace WeightHistory

open CampaignService

def weightFields : List String := ["weight_deterministic", "weight_semantic", "weight_ai"]

def weightFieldsChanged (request : CampaignUpdateRequest) (campaign : CampaignRow) : Bool :=
  (scoringChanges request campaign).any fun field => field ∈ weightFields

section Calls

variable (lower : String → String) (python : PythonFloat) (around : Around)

-- The row as it is read back: its amounts pass through a float and their columns.
def createdRow (request : CampaignCreateRequest) (prompts : PromptTemplate × PromptTemplate) :
    CampaignRow :=
  (newCampaign request around.orgId around.now prompts around.newId).mapScoring fun scale q =>
    CampaignRow.numeric scale (python.float q)

def createCampaign (request : CampaignCreateRequest) (ledger : Ledger) :
    Except WriteError Ledger :=
  match checkCreate lower around.source request around.orgId around.now with
  | .error e => .error (.campaign e)
  | .ok prompts =>
    let row := createdRow python around request prompts
    if around.fails ∨ !row.storable then .error .failure
    else
      match ledger.campaign with
      -- another campaign than this one
      | some _ => .ok ledger
      | none => .ok { ledger with campaign := some row, created := some row.weights }

-- `_record_weight_configuration_change`, for the row as it is read back.
def recordWeightConfigurationChange (campaign row : CampaignRow) : WeightHistoryRow where
  old := campaign.weights
  new := row.weights
  changedBy := around.actor
  formulaVersion := compositeScoreFormulaVersion

def write (ledger : Ledger) (campaign row : CampaignRow) (changed : Bool) :
    Except WriteError Ledger :=
  if around.fails ∨ !row.storable then .error .failure
  else .ok { ledger with
    campaign := some row
    history := if changed then
        ledger.history ++ [recordWeightConfigurationChange around campaign row]
      else ledger.history }

def notFound (message : String) : Except WriteError Ledger := .error (.campaign ⟨message, 404⟩)

def updateScoringConfiguration (campaignId : Uuid) (request : CampaignScoringUpdateRequest)
    (ledger : Ledger) : Except WriteError Ledger :=
  match ledger.campaign with
  | none => notFound s!"Campaign with ID '{text campaignId}' not found"
  | some campaign =>
    match validateScoringWeights around.source.db
        [request.weightDeterministic, request.weightSemantic, request.weightAi] with
    | .error e => .error (.campaign e)
    | .ok () =>
      let row := withScoringConfiguration request around.now campaign
      write around ledger campaign (row.mapScoring CampaignRow.numeric)
        (weightFieldsChanged request.fields campaign)

def resetScoringToDefaults (campaignId : Uuid) (ledger : Ledger) : Except WriteError Ledger :=
  match ledger.campaign with
  | none => notFound s!"Campaign '{text campaignId}' not found"
  | some campaign =>
    let request := defaultsRequest around.source.configs campaign
    if !CampaignScoringUpdateRequest.isValid request then .error .validation
    else updateScoringConfiguration around campaignId request ledger

-- A field that changed is set to a float; the others stay as they are.
def written (scale : ℕ) (requested : Option ℚ) (current : ℚ) : ℚ :=
  match requested with
  | none => current
  | some value =>
    if current = value then current else CampaignRow.numeric scale (python.float value)

def writtenRow (request : CampaignUpdateRequest) (campaign updated : CampaignRow) : CampaignRow :=
  { updated with
    weightDeterministic := written python 2 request.weightDeterministic campaign.weightDeterministic
    weightSemantic := written python 2 request.weightSemantic campaign.weightSemantic
    weightAi := written python 2 request.weightAi campaign.weightAi
    semanticThreshold := written python 4 request.semanticThreshold campaign.semanticThreshold
    aiThreshold := written python 2 request.aiThreshold campaign.aiThreshold
    deterministicThreshold := written python 2 request.deterministicThreshold
      campaign.deterministicThreshold }

def updateCampaign (campaignId : Uuid) (request : CampaignUpdateRequest) (ledger : Ledger) :
    Except WriteError Ledger :=
  match ledger.campaign with
  | none => notFound s!"Campaign '{text campaignId}' not found"
  | some campaign =>
    match checkUpdate lower around.source.db around.now request campaign with
    | .error e => .error (.campaign e)
    | .ok updated =>
      write around ledger campaign (writtenRow python request campaign updated)
        (weightFieldsChanged request campaign)

end Calls

inductive Call where
  | createCampaign (request : CampaignCreateRequest)
  | updateScoringConfiguration (campaignId : Uuid)
      (request : { r : CampaignScoringUpdateRequest // CampaignScoringUpdateRequest.isValid r })
  | resetScoringToDefaults (campaignId : Uuid)
  | updateCampaign (campaignId : Uuid) (request : { r : CampaignUpdateRequest // r.Accepted })

section Runs

variable (lower : String → String) (python : PythonFloat) (minLayerWeight : Option (String × ℚ))

-- MIN_LAYER_WEIGHT is the same for every call.
def Around.fixed (around : Around) : Around :=
  { around with
    source := { around.source with
      db := { around.source.db with minLayerWeight := minLayerWeight } } }

def perform (around : Around) (ledger : Ledger) : Call → Except WriteError Ledger
  | .createCampaign request => createCampaign lower python around request ledger
  | .updateScoringConfiguration campaignId request =>
    updateScoringConfiguration around campaignId request ledger
  | .resetScoringToDefaults campaignId => resetScoringToDefaults around campaignId ledger
  | .updateCampaign campaignId request =>
    updateCampaign lower python around campaignId request ledger

def next (ledger : Ledger) (call : Around × Call) : Ledger :=
  match perform lower python (Around.fixed minLayerWeight call.1) ledger call.2 with
  | .ok ledger' => ledger'
  | .error _ => ledger

def ledgerRun (calls : List (Around × Call)) : List ((Around × Call) × Ledger) :=
  execute (fun ledger call => some (next lower python minLayerWeight ledger call)) .empty calls

end Runs

def leastWeight (minLayerWeight : Option (String × ℚ)) : ℚ := (minLayerWeight.getD ("5.00", 5)).2

def Valid (least : ℚ) (ledger : Ledger) : Prop :=
  ∀ campaign, ledger.campaign = some campaign →
    campaign.weights.toList.sum = 100 ∧ campaign.weights.AtLeast least

def trail (created : Weights) (history : List WeightHistoryRow) : List (Option Weights × Weights) :=
  (none, created) :: history.map fun row => (some row.old, row.new)

-- From the triple set at creation, each row leaves the triple that the one before it
-- reached, and the last one reaches the current triple.
def IsChain (ledger : Ledger) : Prop :=
  ∀ campaign, ledger.campaign = some campaign →
    ∃ created, ledger.created = some created ∧ Chained (trail created ledger.history) ∧
      here (trail created ledger.history) = some campaign.weights

-- A call adds at most one row, and one exactly when it changed a weight.
def Records (ledger : Ledger) (_call : Around × Call) (ledger' : Ledger) : Prop :=
  (ledger'.history ≠ ledger.history ↔ ∃ campaign campaign', ledger.campaign = some campaign ∧
    ledger'.campaign = some campaign' ∧ campaign'.weights ≠ campaign.weights) ∧
  (ledger'.history = ledger.history ∨ ∃ row, ledger'.history = ledger.history ++ [row])

def createdWeights (python : PythonFloat) (request : CampaignCreateRequest) : Weights :=
  ⟨CampaignRow.numeric 2 (python.float request.weightDeterministic),
    CampaignRow.numeric 2 (python.float request.weightSemantic),
    CampaignRow.numeric 2 (python.float request.weightAi)⟩

-- The request that creates the campaign gives each weight its minimum.
def CreatesWithin (lower : String → String) (python : PythonFloat)
    (minLayerWeight : Option (String × ℚ)) (ledger : Ledger) (call : Around × Call)
    (_ledger' : Ledger) : Prop :=
  ∀ request, call.2 = .createCampaign request → ledger.campaign = none →
    (createCampaign lower python (Around.fixed minLayerWeight call.1) request ledger).isOk = true →
      (createdWeights python request).AtLeast (leastWeight minLayerWeight)

section Stored

variable {python : PythonFloat} {request : CampaignUpdateRequest} {campaign updated : CampaignRow}

theorem numeric_of_hasDecimals {scale : ℕ} {q : ℚ} (h : HasDecimals scale q) :
    CampaignRow.numeric scale q = q := by
  have hpow : (10 : ℚ) ^ scale ≠ 0 := by positivity
  have hq : q = ((q * 10 ^ scale).num : ℚ) / 10 ^ scale := by
    rw [Rat.coe_int_num_of_den_eq_one h, mul_div_cancel_right₀ q hpow]
  rw [CampaignRow.numeric, hq, Rounding.awayFromZero_fixes]

theorem numeric_float {q : ℚ} (h : IsPercentage q) :
    CampaignRow.numeric 2 (python.float q) = q := by
  rw [python.exact q h.1 h.2.1 h.2.2, numeric_of_hasDecimals h.2.2]

theorem written_of_accepted {requested : Option ℚ} (h : ∀ q ∈ requested, IsPercentage q)
    (current : ℚ) : written python 2 requested current = requested.getD current := by
  cases requested with
  | none => rfl
  | some value =>
    rw [written]
    split_ifs with hsame
    · exact hsame
    · exact numeric_float (h value rfl)

theorem weights_writtenRow (h : request.Accepted) :
    (writtenRow python request campaign updated).weights =
      (withScoring request campaign).weights := by
  simp only [CampaignUpdateRequest.Accepted, List.forall_mem_cons] at h
  simp only [writtenRow, CampaignRow.weights, withScoring]
  rw [written_of_accepted h.1, written_of_accepted h.2.1, written_of_accepted h.2.2.1]

theorem isPercentage_of_fits {q : ℚ} (h : CampaignService.fits q 100 2 = true) :
    IsPercentage q := by
  simpa [CampaignService.fits, IsPercentage, HasDecimals] using h

theorem weights_ofScoringRequest {full : CampaignScoringUpdateRequest}
    (h : CampaignScoringUpdateRequest.isValid full = true) (now : Instant) (c : CampaignRow) :
    ((withScoringConfiguration full now c).mapScoring CampaignRow.numeric).weights =
      ⟨full.weightDeterministic, full.weightSemantic, full.weightAi⟩ := by
  simp only [CampaignScoringUpdateRequest.isValid, Bool.and_eq_true] at h
  obtain ⟨⟨⟨⟨⟨hdeterministic, hsemantic⟩, hai⟩, -⟩, -⟩, -⟩ := h
  simp only [CampaignRow.weights, CampaignRow.mapScoring, withScoringConfiguration]
  rw [numeric_of_hasDecimals (isPercentage_of_fits hdeterministic).2.2,
    numeric_of_hasDecimals (isPercentage_of_fits hsemantic).2.2,
    numeric_of_hasDecimals (isPercentage_of_fits hai).2.2]

theorem weightFieldsChanged_iff (request : CampaignUpdateRequest) (campaign : CampaignRow) :
    weightFieldsChanged request campaign = true ↔
      (withScoring request campaign).weights ≠ campaign.weights := by
  have hfield (requested : Option ℚ) (current : ℚ) :
      (requested.any fun value => current ≠ value) = true ↔ requested.getD current ≠ current := by
    cases requested with
    | none => simp
    | some value =>
      simp only [Option.any_some, decide_eq_true_eq, Option.getD_some]
      exact ne_comm
  have hnames : weightFieldsChanged request campaign = true ↔
      ∃ field ∈ scoringFields, field.name ∈ weightFields ∧
        ((field.requested request).any fun value => field.current campaign ≠ value) = true := by
    simp only [weightFieldsChanged, scoringChanges, List.any_map, List.any_eq_true,
      List.mem_filter, Function.comp_apply, decide_eq_true_eq]
    constructor
    · rintro ⟨field, ⟨hmem, hchanged⟩, hname⟩
      exact ⟨field, hmem, hname, hchanged⟩
    · rintro ⟨field, hmem, hname, hchanged⟩
      exact ⟨field, ⟨hmem, hchanged⟩, hname⟩
  rw [hnames]
  simp only [scoringFields, List.mem_cons, List.not_mem_nil, or_false, exists_eq_or_imp,
    exists_eq_left, hfield, weightFields, CampaignRow.weights, withScoring, ne_eq,
    Weights.mk.injEq]
  simp
  tauto

theorem validateScoringWeights_ok {db : CampaignDb} {weights : List ℚ}
    (h : validateScoringWeights db weights = .ok ()) :
    weights.sum = 100 ∧ ∀ w ∈ weights, leastWeight db.minLayerWeight ≤ w := by
  unfold validateScoringWeights at h
  dsimp only at h
  split_ifs at h with hrange hsum hleast
  refine ⟨not_not.mp hsum, fun w hw => ?_⟩
  by_contra hlt
  apply hleast
  rw [List.any_eq_true]
  exact ⟨w, hw, decide_eq_true (not_le.mp hlt)⟩

end Stored

section Step

-- What a call can do to a campaign and its history.
inductive Moves (least : ℚ) (ledger : Ledger) : Ledger → Prop
  | stays : Moves least ledger ledger
  | creates (row : CampaignRow) (hnone : ledger.campaign = none)
      (hsum : row.weights.toList.sum = 100) :
      Moves least ledger { ledger with campaign := some row, created := some row.weights }
  | keeps (campaign row : CampaignRow) (hsome : ledger.campaign = some campaign)
      (hsame : row.weights = campaign.weights) :
      Moves least ledger { ledger with campaign := some row }
  | changes (campaign row : CampaignRow) (entry : WeightHistoryRow)
      (hsome : ledger.campaign = some campaign) (hdiffers : row.weights ≠ campaign.weights)
      (hsum : row.weights.toList.sum = 100) (hleast : row.weights.AtLeast least)
      (hold : entry.old = campaign.weights) (hnew : entry.new = row.weights) :
      Moves least ledger { ledger with
        campaign := some row
        history := ledger.history ++ [entry] }

variable {lower : String → String} {python : PythonFloat} {around : Around}
  {ledger ledger' : Ledger}

theorem storable_sum {row : CampaignRow} (h : row.storable = true) :
    row.weights.toList.sum = 100 := by
  simp only [CampaignRow.storable, decide_eq_true_eq] at h
  exact h.2.2.2.2.2.2

theorem createCampaign_ok {request : CampaignCreateRequest}
    (h : createCampaign lower python around request ledger = .ok ledger') :
    (∀ campaign, ledger.campaign = some campaign → ledger' = ledger) ∧
      (ledger.campaign = none → ∃ row, row.weights = createdWeights python request ∧
        row.weights.toList.sum = 100 ∧
        ledger' = { ledger with campaign := some row, created := some row.weights }) := by
  unfold createCampaign at h
  split at h
  · simp at h
  · next prompts hcheck =>
      dsimp only at h
      split_ifs at h with hfails
      rw [not_or] at hfails
      have hstorable : (createdRow python around request prompts).storable = true := by
        simpa using hfails.2
      split at h
      · next campaign hsome =>
          refine ⟨fun _ _ => (Except.ok.inj h).symm, fun hnone => ?_⟩
          exact absurd (hsome.symm.trans hnone) (by simp)
      · next hnone =>
          refine ⟨fun campaign hsome => absurd (hnone.symm.trans hsome) (by simp), fun _ => ?_⟩
          exact ⟨_, rfl, storable_sum hstorable, (Except.ok.inj h).symm⟩

theorem write_moves {least : ℚ} {campaign row : CampaignRow} {changed : Bool}
    (hsome : ledger.campaign = some campaign)
    (hchanged : changed = true ↔ row.weights ≠ campaign.weights)
    (hleast : row.weights ≠ campaign.weights → row.weights.AtLeast least)
    (h : write around ledger campaign row changed = .ok ledger') :
    Moves least ledger ledger' := by
  unfold write at h
  split_ifs at h with hfails hwrites
  · cases h
    rw [not_or] at hfails
    have hsum : row.weights.toList.sum = 100 := storable_sum (by simpa using hfails.2)
    have hdiffers : row.weights ≠ campaign.weights := hchanged.mp hwrites
    exact .changes campaign row _ hsome hdiffers hsum (hleast hdiffers) rfl rfl
  · cases h
    have hsame : row.weights = campaign.weights := not_not.mp fun hne => hwrites (hchanged.mpr hne)
    exact .keeps campaign row hsome hsame

theorem updateScoringConfiguration_moves {campaignId : Uuid}
    {request : CampaignScoringUpdateRequest}
    (hvalid : CampaignScoringUpdateRequest.isValid request = true)
    (h : updateScoringConfiguration around campaignId request ledger = .ok ledger') :
    Moves (leastWeight around.source.db.minLayerWeight) ledger ledger' := by
  unfold updateScoringConfiguration at h
  split at h
  · simp [notFound] at h
  · next campaign hsome =>
      split at h
      · simp at h
      · next hchecked =>
          have hrequested : (withScoring request.fields campaign).weights =
              ⟨request.weightDeterministic, request.weightSemantic, request.weightAi⟩ := rfl
          refine write_moves hsome ?_ (fun _ => ?_) h
          · rw [weightFieldsChanged_iff, weights_ofScoringRequest hvalid, hrequested]
          · rw [weights_ofScoringRequest hvalid]
            exact (validateScoringWeights_ok hchecked).2

theorem resetScoringToDefaults_moves {campaignId : Uuid}
    (h : resetScoringToDefaults around campaignId ledger = .ok ledger') :
    Moves (leastWeight around.source.db.minLayerWeight) ledger ledger' := by
  unfold resetScoringToDefaults at h
  split at h
  · simp [notFound] at h
  · next campaign hsome =>
      dsimp only at h
      split_ifs at h with hinvalid
      exact updateScoringConfiguration_moves (by simpa using hinvalid) h

-- The edits before the last leave the weights; the last one checks what it merges.
theorem checkUpdate_weights {db : CampaignDb} {now : Instant} {request : CampaignUpdateRequest}
    {campaign updated : CampaignRow} (h : checkUpdate lower db now request campaign = .ok updated) :
    (withScoring request campaign).weights = campaign.weights ∨
      (withScoring request campaign).weights.AtLeast (leastWeight db.minLayerWeight) := by
  unfold checkUpdate at h
  split_ifs at h
  obtain ⟨e, he, -⟩ := (bind_eq_ok _ _ _).mp h
  have hedits : edits lower db now request =
      (edits lower db now request).take 7 ++ [(.scoring, editScoring db request)] := rfl
  rw [hedits, List.foldlM_append, bind_eq_ok] at he
  obtain ⟨before, hbefore, hscoring⟩ := he
  have hnodup : (((edits lower db now request).take 7).map (·.1)).Nodup :=
    List.map_take ▸ (nodup_edits lower db now request).sublist (List.take_sublist _ _)
  obtain ⟨-, hothers, -⟩ := foldlM_touches
    (fun edit hedit => touches_edits edit (List.mem_of_mem_take hedit)) hnodup hbefore
  obtain ⟨hdeterministic, hsemantic, hai, hthresholds⟩ := hothers .scoring (by simp [edits])
  have hweights : (withScoring request before.campaign).weights =
      (withScoring request campaign).weights := by
    simp only [withScoring, CampaignRow.weights]
    rw [← hdeterministic, ← hsemantic, ← hai]
  obtain ⟨last, hlast, -⟩ := (foldlM_cons_eq_ok _ _ _ _ _).mp hscoring
  dsimp only at hlast
  rw [editScoring] at hlast
  dsimp only at hlast
  split_ifs at hlast with hnone
  · left
    have hunchanged : ¬weightFieldsChanged request before.campaign = true := by
      simp [weightFieldsChanged, hnone]
    rw [weightFieldsChanged_iff, not_not, hweights] at hunchanged
    rw [hunchanged]
    simp only [CampaignRow.weights]
    rw [← hdeterministic, ← hsemantic, ← hai]
  · right
    split at hlast
    · simp at hlast
    · next hvalid =>
        rw [← hweights]
        exact (validateScoringWeights_ok hvalid).2

theorem updateCampaign_moves {campaignId : Uuid} {request : CampaignUpdateRequest}
    (haccepted : request.Accepted)
    (h : updateCampaign lower python around campaignId request ledger = .ok ledger') :
    Moves (leastWeight around.source.db.minLayerWeight) ledger ledger' := by
  unfold updateCampaign at h
  split at h
  · simp [notFound] at h
  · next campaign hsome =>
      split at h
      · simp at h
      · next updated hupdated =>
          refine write_moves hsome ?_ (fun hdiffers => ?_) h
          · rw [weightFieldsChanged_iff, weights_writtenRow haccepted]
          · rw [weights_writtenRow haccepted] at hdiffers ⊢
            exact (checkUpdate_weights hupdated).resolve_left hdiffers

variable {minLayerWeight : Option (String × ℚ)}

theorem next_moves (call : Around × Call) :
    Moves (leastWeight minLayerWeight) ledger (next lower python minLayerWeight ledger call) := by
  unfold next
  split
  · next ledger' hperform =>
      have hleast : leastWeight (Around.fixed minLayerWeight call.1).source.db.minLayerWeight =
          leastWeight minLayerWeight := rfl
      rw [← hleast]
      cases hcall : call.2 with
      | createCampaign request =>
        rw [hcall, perform] at hperform
        obtain ⟨hother, hnew⟩ := createCampaign_ok hperform
        cases hcampaign : ledger.campaign with
        | none =>
          obtain ⟨row, -, hsum, rfl⟩ := hnew hcampaign
          exact .creates row hcampaign hsum
        | some campaign =>
          rw [hother campaign hcampaign]
          exact .stays
      | updateScoringConfiguration campaignId request =>
        rw [hcall, perform] at hperform
        exact updateScoringConfiguration_moves request.2 hperform
      | resetScoringToDefaults campaignId =>
        rw [hcall, perform] at hperform
        exact resetScoringToDefaults_moves hperform
      | updateCampaign campaignId request =>
        rw [hcall, perform] at hperform
        exact updateCampaign_moves request.2 hperform
  · exact .stays

end Step

section Invariant

structure Sound (ledger : Ledger) : Prop where
  fresh : ledger.campaign = none → ledger.history = []
  total : ∀ campaign, ledger.campaign = some campaign → campaign.weights.toList.sum = 100
  chain : IsChain ledger

variable {least : ℚ} {ledger ledger' : Ledger}

theorem sound_empty : Sound .empty :=
  ⟨fun _ => rfl, fun _ h => absurd h (by simp [Ledger.empty]),
    fun _ h => absurd h (by simp [Ledger.empty])⟩

theorem trail_snoc (created : Weights) (history : List WeightHistoryRow) (row : WeightHistoryRow) :
    trail created (history ++ [row]) = trail created history ++ [(some row.old, row.new)] := by
  simp [trail]

theorem sound_moves (h : Sound ledger) (hmoves : Moves least ledger ledger') : Sound ledger' := by
  cases hmoves with
  | stays => exact h
  | creates row hnone hsum =>
    refine ⟨fun hcampaign => absurd hcampaign (by simp), fun campaign hcampaign => ?_,
      fun campaign hcampaign => ?_⟩
    · cases hcampaign
      exact hsum
    · cases hcampaign
      refine ⟨row.weights, rfl, ?_, ?_⟩
      · simp [h.fresh hnone, trail, Chained]
      · simp [h.fresh hnone, trail, here]
  | keeps campaign row hsome hsame =>
    refine ⟨fun hcampaign => absurd hcampaign (by simp), fun found hfound => ?_,
      fun found hfound => ?_⟩
    · cases hfound
      rw [hsame]
      exact h.total campaign hsome
    · cases hfound
      rw [hsame]
      exact h.chain campaign hsome
  | changes campaign row entry hsome hdiffers hsum hleast hold hnew =>
    refine ⟨fun hcampaign => absurd hcampaign (by simp), fun found hfound => ?_,
      fun found hfound => ?_⟩
    · cases hfound
      exact hsum
    · cases hfound
      obtain ⟨created, hcreated, hchained, hhere⟩ := h.chain campaign hsome
      refine ⟨created, hcreated, ?_, ?_⟩
      · rw [trail_snoc, chained_snoc]
        refine ⟨hchained, fun place hplace => ?_⟩
        rw [hhere] at hplace
        rw [hold, hplace]
      · rw [trail_snoc, here_snoc, hnew]

theorem records_moves (call : Around × Call) (hmoves : Moves least ledger ledger') :
    Records ledger call ledger' := by
  cases hmoves with
  | stays =>
    refine ⟨⟨fun h => absurd rfl h, ?_⟩, .inl rfl⟩
    rintro ⟨campaign, campaign', hsome, hsome', hdiffers⟩
    cases hsome.symm.trans hsome'
    exact absurd rfl hdiffers
  | creates row hnone hsum =>
    refine ⟨⟨fun h => absurd rfl h, ?_⟩, .inl rfl⟩
    rintro ⟨campaign, campaign', hsome, -⟩
    exact absurd (hnone.symm.trans hsome) (by simp)
  | keeps campaign row hsome hsame =>
    refine ⟨⟨fun h => absurd rfl h, ?_⟩, .inl rfl⟩
    rintro ⟨found, found', hfound, hfound', hdiffers⟩
    cases hsome.symm.trans hfound
    cases hfound'
    exact absurd hsame hdiffers
  | changes campaign row entry hsome hdiffers hsum hleast hold hnew =>
    exact ⟨⟨fun _ => ⟨campaign, row, hsome, rfl, hdiffers⟩, fun _ => by simp⟩, .inr ⟨entry, rfl⟩⟩

end Invariant

section Runs

variable {lower : String → String} {python : PythonFloat} {minLayerWeight : Option (String × ℚ)}
  {ledger : Ledger}

theorem valid_moves {least : ℚ} {ledger' : Ledger} (hvalid : Valid least ledger)
    {before : CampaignRow} (hsome : ledger.campaign = some before)
    (hmoves : Moves least ledger ledger') : Valid least ledger' := by
  cases hmoves with
  | stays => exact hvalid
  | creates row hnone hsum => exact absurd (hsome.symm.trans hnone) (by simp)
  | keeps campaign row hcampaign hsame =>
    intro found hfound
    cases hfound
    rw [hsame]
    exact hvalid campaign hcampaign
  | changes campaign row entry hcampaign hdiffers hsum hleast hold hnew =>
    intro found hfound
    cases hfound
    exact ⟨hsum, hleast⟩

theorem next_none (hnone : ledger.campaign = none) (call : Around × Call) :
    (next lower python minLayerWeight ledger call = ledger ∧
      ∀ request, call.2 = .createCampaign request →
        (createCampaign lower python (Around.fixed minLayerWeight call.1) request ledger).isOk =
          false) ∨
      ∃ request row, call.2 = .createCampaign request ∧
        (createCampaign lower python (Around.fixed minLayerWeight call.1) request ledger).isOk =
          true ∧
        row.weights = createdWeights python request ∧ row.weights.toList.sum = 100 ∧
        next lower python minLayerWeight ledger call =
          { ledger with campaign := some row, created := some row.weights } := by
  unfold next
  cases hcall : call.2 with
  | createCampaign request =>
    rw [perform]
    cases hperform : createCampaign lower python (Around.fixed minLayerWeight call.1) request
        ledger with
    | error e =>
      refine .inl ⟨rfl, fun other hother => ?_⟩
      obtain rfl := Call.createCampaign.inj hother
      rw [hperform]
      rfl
    | ok ledger' =>
      obtain ⟨row, hweights, hsum, hledger'⟩ := (createCampaign_ok hperform).2 hnone
      exact .inr ⟨request, row, rfl, by rw [hperform]; rfl, hweights, hsum, hledger'⟩
  | updateScoringConfiguration campaignId request =>
    refine .inl ⟨?_, fun _ hother => absurd hother (by simp)⟩
    simp [perform, updateScoringConfiguration, hnone, notFound]
  | resetScoringToDefaults campaignId =>
    refine .inl ⟨?_, fun _ hother => absurd hother (by simp)⟩
    simp [perform, resetScoringToDefaults, hnone, notFound]
  | updateCampaign campaignId request =>
    refine .inl ⟨?_, fun _ hother => absurd hother (by simp)⟩
    simp [perform, updateCampaign, hnone, notFound]

theorem valid_next (hvalid : Valid (leastWeight minLayerWeight) ledger) (call : Around × Call) :
    Valid (leastWeight minLayerWeight) (next lower python minLayerWeight ledger call) ↔
      CreatesWithin lower python minLayerWeight ledger call
        (next lower python minLayerWeight ledger call) := by
  cases hcampaign : ledger.campaign with
  | some before =>
    have hmoves : Moves (leastWeight minLayerWeight) ledger
      (next lower python minLayerWeight ledger call) := next_moves call
    refine ⟨fun _ request _ hnone => ?_, fun _ => valid_moves hvalid hcampaign hmoves⟩
    exact absurd (hcampaign.symm.trans hnone) (by simp)
  | none =>
    obtain ⟨hstays, hrefused⟩ | ⟨request, row, hcall, hok, hweights, hsum, hcreated⟩ :=
      next_none hcampaign call
    · refine ⟨fun _ request hcall _ hok => ?_, fun _ => hstays.symm ▸ hvalid⟩
      exact absurd (hok.symm.trans (hrefused request hcall)) (by simp)
    · constructor
      · intro hnext other hother _ _
        obtain rfl : request = other := Call.createCampaign.inj (hcall.symm.trans hother)
        exact hweights ▸ (hnext row (by rw [hcreated])).2
      · intro hcreates found hfound
        rw [hcreated] at hfound
        cases hfound
        exact ⟨hsum, hweights ▸ hcreates request hcall hcampaign hok⟩

-- What the runs of a ledger are made of.
def Follows (lower : String → String) (python : PythonFloat)
    (minLayerWeight : Option (String × ℚ)) (ledger : Ledger) (call : Around × Call)
    (ledger' : Ledger) : Prop :=
  next lower python minLayerWeight ledger call = ledger'

theorem ledgerRun_path (calls : List (Around × Call)) :
    Path (Follows lower python minLayerWeight) .empty
      (ledgerRun lower python minLayerWeight calls) :=
  execute_path (fun ledger call => some (next lower python minLayerWeight ledger call))
    (fun _ _ _ h => Option.some.inj h) .empty calls

theorem valid_empty (least : ℚ) : Valid least .empty :=
  fun _ h => absurd h (by simp [Ledger.empty])

end Runs

-- In every run each call leaves a history row exactly when it changed a weight, and the
-- rows are a chain from the creation to the current weights. The weights are valid
-- throughout exactly when the creation respects the minimum, which it does not check.
theorem weight_history_iff (lower : String → String) (python : PythonFloat)
    (minLayerWeight : Option (String × ℚ)) (calls : List (Around × Call)) :
    ((∀ ledger ∈ visited .empty (ledgerRun lower python minLayerWeight calls),
        Valid (leastWeight minLayerWeight) ledger ∧ IsChain ledger) ∧
      EveryStep Records .empty (ledgerRun lower python minLayerWeight calls)) ↔
      EveryStep (CreatesWithin lower python minLayerWeight) .empty
        (ledgerRun lower python minLayerWeight calls) := by
  have hpath : Path (Follows lower python minLayerWeight) .empty
      (ledgerRun lower python minLayerWeight calls) := ledgerRun_path calls
  have hkeep : ∀ ledger call ledger', Sound ledger →
      Follows lower python minLayerWeight ledger call ledger' → Sound ledger' := by
    rintro ledger call _ h rfl
    exact sound_moves h (next_moves call)
  have hsound := hpath.invariant sound_empty hkeep
  have hvalid := hpath.visited_iff_everyStep sound_empty hkeep
    (valid_empty (leastWeight minLayerWeight)) fun ledger call ledger' _ h hstep =>
      hstep ▸ valid_next h call
  have hrecords := hpath.everyStep sound_empty hkeep fun ledger call ledger' _ hstep =>
    records_moves call (hstep ▸ next_moves call)
  constructor
  · rintro ⟨hall, -⟩
    exact hvalid.mp fun ledger hledger => (hall ledger hledger).1
  · intro hevery
    exact ⟨fun ledger hledger => ⟨hvalid.mpr hevery ledger hledger, (hsound ledger hledger).chain⟩,
      hrecords⟩

def exactFloat : PythonFloat := ⟨id, fun _ _ _ _ => rfl⟩

def resumeParse (id : Uuid) : PromptTemplate := ⟨id, "RESUME_PARSE", "Resume", true⟩

def aiEvaluate (id : Uuid) : PromptTemplate := ⟨id, "AI_EVALUATE", "Evaluation", true⟩

def promptsOnly : CampaignDb where
  campaigns := Table.empty
  campaignCandidates := Table.empty
  taskLogs := Table.empty
  resumes := Table.empty
  users := []
  promptTemplates := (Table.empty.insert resumeParse fun _ => rfl).insert aiEvaluate fun _ => rfl
  minLayerWeight := none

def openJd : LinkedJd := ⟨"Engineer", true, none, 0, 0⟩

def morning : Around where
  source := ⟨promptsOnly, id, fun _ => some openJd, []⟩
  now := 0
  newId := 0
  orgId := 0
  actor := "hr"
  fails := false

def lopsided : CampaignCreateRequest where
  name := "Backend"
  jdId := 0
  maxCandidates := none
  deadline := none
  weightDeterministic := 0
  weightSemantic := 0
  weightAi := 100
  semanticThreshold := 1 / 2
  aiThreshold := 50
  deterministicThreshold := 70
  hiringManagerId := "hm"
  promptTemplateId := 0
  aiEvaluatePromptId := 1

theorem creation_below_minimum :
    ¬∀ (lower : String → String) (python : PythonFloat) (minLayerWeight : Option (String × ℚ))
      (calls : List (Around × Call)),
      (∀ ledger ∈ visited .empty (ledgerRun lower python minLayerWeight calls),
        Valid (leastWeight minLayerWeight) ledger ∧ IsChain ledger) ∧
      EveryStep Records .empty (ledgerRun lower python minLayerWeight calls) := by
  intro h
  let created := next id exactFloat none .empty (morning, .createCampaign lopsided)
  have hvisited : created ∈ visited .empty
      (ledgerRun id exactFloat none [(morning, .createCampaign lopsided)]) :=
    List.mem_cons_of_mem _ List.mem_cons_self
  have hweights : created.campaign.map CampaignRow.weights = some ⟨0, 0, 100⟩ := by
    decide +kernel
  obtain ⟨campaign, hcampaign, hfound⟩ := Option.map_eq_some_iff.mp hweights
  have hleast := ((h id exactFloat none _).1 created hvisited).1 campaign hcampaign
  rw [hfound] at hleast
  exact absurd hleast.2 (by decide)

end WeightHistory

end AiHiring
