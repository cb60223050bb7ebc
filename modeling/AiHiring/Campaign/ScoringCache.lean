import AiHiring.Campaign.ScoringViews

namespace AiHiring.ScoringCache

open Library CampaignService

inductive ScoringEvent where
  | createCampaign (request : CampaignCreateRequest) (orgId : Uuid) (now : Instant)
      (fault : Bool)
  | updateCampaign (campaignId : Uuid) (request : CampaignUpdateRequest) (now : Instant)
      (faults : Faults) (newTaskId : Uuid → String)
  | updateScoringConfiguration (campaignId : Uuid) (request : CampaignScoringUpdateRequest)
      (now : Instant) (fault stores : Bool)
  | resetScoringToDefaults (campaignId : Uuid) (now : Instant) (fault stores : Bool)
  | updatePlatformDefaultWeights (request : PlatformDefaultWeightsUpdateRequest) (fault : Bool)
  | closeCampaign (campaignId : Uuid) (now : Instant) (fault : Bool)
  | reopenCampaign (campaignId : Uuid) (now : Instant) (fault : Bool)
  | expire (key : ScoringKey)
  | getScoringConfiguration (campaignId : Uuid) (stores : Bool)
  | getPlatformScoringDefaults (stores : Bool)

section Statements

variable (lower : String → String) (w : CachedScoring)

def next : ScoringEvent → CachedScoring
  | .createCampaign request orgId now fault => (createCampaign w lower request orgId now fault).2
  | .updateCampaign campaignId request now faults newTaskId =>
    (updateCampaignViews w lower campaignId request now faults newTaskId).2
  | .updateScoringConfiguration campaignId request now fault stores =>
    (updateScoringConfiguration w campaignId request now fault stores).2
  | .resetScoringToDefaults campaignId now fault stores =>
    (resetScoringToDefaults w campaignId now fault stores).2
  | .updatePlatformDefaultWeights request fault => (updatePlatformDefaultWeights w request fault).2
  | .closeCampaign campaignId now fault => (closeCampaign w campaignId now fault).2
  | .reopenCampaign campaignId now fault => (reopenCampaign w campaignId now fault).2
  | .expire key => w.write w.source [key]
  | .getScoringConfiguration campaignId stores => (getScoringConfiguration w stores campaignId).2
  | .getPlatformScoringDefaults stores => (getPlatformScoringDefaults w stores).2

def Step (event : ScoringEvent) (t : CachedScoring) : Prop := t = next lower w event

-- A read now, of any campaign or of the defaults, returns what would be loaded.
structure Current : Prop where
  campaigns : ∀ campaignId stores,
    (getScoringConfiguration w stores campaignId).1 = loadScoringConfiguration w.source campaignId
  defaults : ∀ stores,
    (getPlatformScoringDefaults w stores).1 = .ok (loadPlatformScoringDefaults w.source.configs)

-- An edit returns what would be loaded after it.
def ReadsBack (t : CachedScoring) (campaignId : Uuid)
    (result : Except WriteError CampaignScoringConfiguration) : Prop :=
  ∀ view, result = .ok view →
    loadScoringConfiguration t.source campaignId = .ok { view with warning := none }

-- The views that a step returns are those that would be loaded at that moment.
def Served (event : ScoringEvent) (t : CachedScoring) : Prop :=
  match event with
  | .getScoringConfiguration campaignId stores =>
    (getScoringConfiguration w stores campaignId).1 = loadScoringConfiguration w.source campaignId
  | .getPlatformScoringDefaults stores =>
    (getPlatformScoringDefaults w stores).1 = .ok (loadPlatformScoringDefaults w.source.configs)
  | .updateScoringConfiguration campaignId request now fault stores =>
    ReadsBack t campaignId (updateScoringConfiguration w campaignId request now fault stores).1
  | .resetScoringToDefaults campaignId now fault stores =>
    ReadsBack t campaignId (resetScoringToDefaults w campaignId now fault stores).1
  | _ => True

-- A default that is stored differs from the one requested.
def ChangesDefaults (configs : PlatformConfigRows) (request : PlatformDefaultWeightsUpdateRequest) :
    Prop :=
  ∃ key value old, (key, value) ∈ platformUpdates request ∧ configs.lookup key = some old ∧
    old ≠ value

-- Defaults change while no campaign's view is cached.
def Careful (event : ScoringEvent) (_ : CachedScoring) : Prop :=
  match event with
  | .updatePlatformDefaultWeights request fault =>
    fault = false →
    validateScoringWeights w.source.db
      [request.weightDeterministic, request.weightSemantic, request.weightAi] = .ok () →
    ChangesDefaults w.source.configs request →
      ∀ campaignId, w.entries (.campaignScoring campaignId) = none
  | _ => True

end Statements

abbrev Coherent (w : CachedScoring) : Prop := Cached.Coherent loadView w

variable {lower : String → String} {w : CachedScoring}

theorem current_iff : Current w ↔ Coherent w := by
  rw [Coherent, Cached.coherent_iff_get]
  constructor
  · intro h key stores
    cases key with
    | campaignScoring campaignId => exact h.campaigns campaignId stores
    | campaignPlatformDefaults => exact h.defaults stores
  · intro h
    exact ⟨fun campaignId => h (.campaignScoring campaignId), h .campaignPlatformDefaults⟩

section Campaigns

variable {source : ScoringDb} {campaignId : Uuid} {campaign : CampaignRow}

theorem load_ok {view : CampaignScoringConfiguration}
    (h : loadScoringConfiguration source campaignId = .ok view) :
    ∃ campaign, source.db.campaigns.find? campaignId = some campaign ∧
      view = scoringView source.configs campaign := by
  unfold loadScoringConfiguration at h
  cases hfind : source.db.campaigns.find? campaignId with
  | none => simp [hfind] at h
  | some campaign =>
    simp only [hfind] at h
    exact ⟨campaign, rfl, (Except.ok.inj h).symm⟩

theorem coherent_commit (h : Coherent w) {changed : Option Uuid}
    (hconfigs : source.configs = w.source.configs)
    (hothers : ∀ id campaign, changed ≠ some id → w.source.db.campaigns.find? id = some campaign →
      source.db.campaigns.find? id = some campaign) :
    Coherent (commitCampaign w source changed) := by
  refine h.write_iff.mpr fun key hkey hcached => ?_
  cases key with
  | campaignScoring id =>
    obtain ⟨view, hview⟩ := Option.ne_none_iff_exists'.mp hcached
    obtain ⟨campaign, hfind, -⟩ := load_ok (h _ view hview)
    have hne : changed ≠ some id := by
      rintro rfl
      simp at hkey
    have hkept := hothers id campaign hne hfind
    show loadScoringConfiguration source id = loadScoringConfiguration w.source id
    simp only [loadScoringConfiguration, hfind, hkept, hconfigs]
  | campaignPlatformDefaults =>
    show Except.ok (loadPlatformScoringDefaults source.configs) = Except.ok _
    rw [hconfigs]

theorem coherent_replace (h : Coherent w) (updated : CampaignRow)
    (hfind : w.source.db.campaigns.find? campaignId = some campaign)
    (hid : updated.id = campaign.id) (hconfigs : source.configs = w.source.configs)
    (hcampaigns : source.db.campaigns = w.source.db.campaigns.replace updated) :
    Coherent (commitCampaign w source (some campaignId)) := by
  refine coherent_commit h hconfigs fun id other hne hother => ?_
  have hkey : campaign.id = campaignId := ((Table.find?_eq_some _ _ _).mp hfind).2
  have hother_ne : id ≠ updated.id := by
    rw [hid, hkey]
    exact fun heq => hne (heq ▸ rfl)
  rw [hcampaigns]
  exact (Table.find?_replace_ne w.source.db.campaigns updated id hother_ne).trans hother

end Campaigns

theorem coherent_create (h : Coherent w) (request : CampaignCreateRequest) (orgId : Uuid)
    (now : Instant) (fault : Bool) :
    Coherent (createCampaign w lower request orgId now fault).2 := by
  unfold createCampaign
  cases checkCreate lower w.source request orgId now with
  | error e => exact h
  | ok prompts =>
    cases fault with
    | true => exact h
    | false =>
      refine coherent_commit h rfl fun id campaign _ hfind => ?_
      have hold : id ≠ w.source.db.campaigns.next := by
        rintro rfl
        simp [Table.find?_next] at hfind
      simp [Table.find?_insert, hold, hfind]

theorem updateCampaign_campaigns {db : CampaignDb} {now : Instant}
    {request : CampaignUpdateRequest} {faults : Faults} {newTaskId : Uuid → String}
    {campaignId id : Uuid} (hne : id ≠ campaignId) :
    (updateCampaign lower db now request faults newTaskId campaignId).db.campaigns.find? id =
      db.campaigns.find? id := by
  by_cases haccepted : ∃ campaign updated, Accepted lower db now request campaignId campaign updated
  · obtain ⟨campaign, updated, haccepted⟩ := haccepted
    by_cases hprepare : faults.prepare = true
    · rw [updateCampaign_prepare haccepted hprepare]
    · rw [Bool.not_eq_true] at hprepare
      by_cases hlate : RaisesLate db request faults campaignId campaign
      · obtain ⟨sent, e, hupdate, -⟩ := updateCampaign_late newTaskId haccepted hprepare hlate
        rw [hupdate]
      · have hstuck : ¬Stuck db request faults campaignId campaign := fun h => hlate (.inr h)
        obtain ⟨sent, db', hmove, hcampaigns, -⟩ :=
          moveTasks_ok (withCampaign db updated) newTaskId hstuck
        rw [updateCampaign_ok haccepted hprepare hlate hmove]
        have hkey : campaign.id = campaignId :=
          ((Table.find?_eq_some _ _ _).mp (findCampaign_ok haccepted.1)).2
        have hother : id ≠ updated.id := by
          rw [(checkUpdate_ok haccepted.2).1, hkey]
          exact hne
        show db'.campaigns.find? id = _
        rw [hcampaigns]
        exact Table.find?_replace_ne _ _ _ hother
  · obtain ⟨e, hupdate⟩ := updateCampaign_refused faults newTaskId haccepted
    rw [hupdate]

theorem coherent_update (h : Coherent w) (campaignId : Uuid) (request : CampaignUpdateRequest)
    (now : Instant) (faults : Faults) (newTaskId : Uuid → String) :
    Coherent (updateCampaignViews w lower campaignId request now faults newTaskId).2 := by
  unfold updateCampaignViews
  dsimp only
  split_ifs with hcommitted
  · refine coherent_commit h rfl fun id campaign hne hfind => ?_
    have hother : id ≠ campaignId := fun heq => hne (heq ▸ rfl)
    exact (updateCampaign_campaigns hother).trans hfind
  · exact h

-- An edit is refused, or commits and reads its view back.
theorem updateScoringConfiguration_cases (campaignId : Uuid)
    (request : CampaignScoringUpdateRequest) (now : Instant) (fault stores : Bool) :
    let outcome := updateScoringConfiguration w campaignId request now fault stores
    (∃ e, outcome = (.error e, w)) ∨
      ∃ campaign count, w.source.db.campaigns.find? campaignId = some campaign ∧
        let read := getScoringConfiguration
          (commitCampaign w
            { w.source with
              db := { w.source.db with
                campaigns := w.source.db.campaigns.replace
                  (withScoringConfiguration request now campaign) } }
            (some campaignId))
          stores campaignId
        outcome = (warned count read.1, read.2) := by
  unfold updateScoringConfiguration
  dsimp only
  cases hfind : w.source.db.campaigns.find? campaignId with
  | none => exact .inl ⟨_, rfl⟩
  | some campaign =>
    cases validateScoringWeights w.source.db
        [request.weightDeterministic, request.weightSemantic, request.weightAi] with
    | error e => exact .inl ⟨_, rfl⟩
    | ok _ =>
      cases fault with
      | true => exact .inl ⟨_, rfl⟩
      | false => exact .inr ⟨campaign, _, rfl, rfl⟩

theorem warned_ok {count : ℕ} {view : CampaignScoringConfiguration}
    {read : Except CampaignException CampaignScoringConfiguration}
    (h : warned count read = .ok view) :
    ∃ loaded, read = .ok loaded ∧
      view = { loaded with warning := alreadyProcessedWarning count } := by
  cases read with
  | error e => simp [warned] at h
  | ok loaded => exact ⟨loaded, rfl, (Except.ok.inj h).symm⟩

theorem updateScoringConfiguration_spec (h : Coherent w) (campaignId : Uuid)
    (request : CampaignScoringUpdateRequest) (now : Instant) (fault stores : Bool) :
    let outcome := updateScoringConfiguration w campaignId request now fault stores
    Coherent outcome.2 ∧ ReadsBack outcome.2 campaignId outcome.1 := by
  intro outcome
  rcases updateScoringConfiguration_cases (w := w) campaignId request now fault stores with
    ⟨e, heq⟩ | ⟨campaign, count, hfind, heq⟩
  · rw [show outcome = (.error e, w) from heq]
    exact ⟨h, fun view hview => by simp at hview⟩
  · have hcommitted : Coherent (commitCampaign w
        { w.source with
          db := { w.source.db with
            campaigns := w.source.db.campaigns.replace
              (withScoringConfiguration request now campaign) } }
        (some campaignId)) :=
      coherent_replace h (withScoringConfiguration request now campaign) hfind rfl rfl rfl
    rw [show outcome = _ from heq]
    refine ⟨hcommitted.getOrSet _ stores, fun view hview => ?_⟩
    obtain ⟨loaded, hread, rfl⟩ := warned_ok hview
    have hload := (hcommitted.get_eq (.campaignScoring campaignId) stores).symm.trans hread
    obtain ⟨updated, -, rfl⟩ := load_ok hload
    show loadScoringConfiguration (Cached.getOrSet _ _ _ stores).2.source campaignId = _
    rw [Cached.getOrSet_source]
    exact hload

theorem resetScoringToDefaults_spec (h : Coherent w) (campaignId : Uuid) (now : Instant)
    (fault stores : Bool) :
    let outcome := resetScoringToDefaults w campaignId now fault stores
    Coherent outcome.2 ∧ ReadsBack outcome.2 campaignId outcome.1 := by
  unfold resetScoringToDefaults
  cases w.source.db.campaigns.find? campaignId with
  | none => exact ⟨h, by simp [ReadsBack]⟩
  | some campaign =>
    dsimp only
    split_ifs with hinvalid
    · exact ⟨h, by simp [ReadsBack]⟩
    · exact updateScoringConfiguration_spec h campaignId _ now fault stores

theorem coherent_close (h : Coherent w) (campaignId : Uuid) (now : Instant) (fault : Bool) :
    Coherent (closeCampaign w campaignId now fault).2 := by
  unfold closeCampaign
  dsimp only
  cases hfind : w.source.db.campaigns.find? campaignId with
  | none => exact h
  | some campaign =>
    dsimp only
    split_ifs
    · exact h
    · exact h
    · exact coherent_replace h (closed now campaign) hfind rfl rfl rfl

theorem coherent_reopen (h : Coherent w) (campaignId : Uuid) (now : Instant) (fault : Bool) :
    Coherent (reopenCampaign w campaignId now fault).2 := by
  unfold reopenCampaign
  dsimp only
  cases hfind : w.source.db.campaigns.find? campaignId with
  | none => exact h
  | some campaign =>
    dsimp only
    split_ifs
    · exact h
    · exact h
    · exact h
    · exact coherent_replace h (reopened now campaign) hfind rfl rfl rfl

section Platform

variable {configs : PlatformConfigRows} {request : PlatformDefaultWeightsUpdateRequest}

theorem lookup_updateConfigs (configs updates : PlatformConfigRows) (key : String) :
    (updateConfigs configs updates).lookup key =
      (configs.lookup key).map fun old => (updates.lookup key).getD old := by
  induction configs with
  | nil => rfl
  | cons row rest ih =>
    have hrow : updateConfigs (row :: rest) updates =
        (row.1, (updates.lookup row.1).getD row.2) :: updateConfigs rest updates := rfl
    rw [hrow, List.lookup_cons, List.lookup_cons]
    by_cases hkey : key = row.1
    · simp [hkey]
    · have hbeq : (key == row.1) = false := beq_false_of_ne hkey
      simp only [hbeq, ih]

theorem getD_update (stored : Option ℚ) (value default : ℚ) :
    ((stored.map fun old => ((some value : Option ℚ).getD old)).getD default) =
        stored.getD default ↔
      ∀ old, stored = some old → old = value := by
  cases stored with
  | none => simp
  | some old => simp [eq_comm]

theorem updatePlatformDefaultWeights_ok (hvalid : validateScoringWeights w.source.db
      [request.weightDeterministic, request.weightSemantic, request.weightAi] = .ok ()) :
    (updatePlatformDefaultWeights w request false).2 = w.write
        { w.source with
          configs := updateConfigs w.source.configs (platformUpdates request) }
        [.campaignPlatformDefaults] := by
  simp [updatePlatformDefaultWeights, hvalid]

theorem defaults_eq_iff :
    loadPlatformScoringDefaults (updateConfigs configs (platformUpdates request)) =
        loadPlatformScoringDefaults configs ↔
      ¬ChangesDefaults configs request := by
  have hdet : (platformUpdates request).lookup "CAMPAIGN_WEIGHT_DETERMINISTIC" =
      some request.weightDeterministic := rfl
  have hsem : (platformUpdates request).lookup "CAMPAIGN_WEIGHT_SEMANTIC" =
      some request.weightSemantic := rfl
  have hai : (platformUpdates request).lookup "CAMPAIGN_WEIGHT_AI" = some request.weightAi := rfl
  have hpass : (platformUpdates request).lookup "SEMANTIC_PASS_THRESHOLD" =
      some request.semanticThreshold := rfl
  have haiPass : (platformUpdates request).lookup "AI_PASS_THRESHOLD" =
      some request.aiThreshold := rfl
  simp only [loadPlatformScoringDefaults, lookup_updateConfigs, hdet, hsem, hai, hpass, haiPass,
    CampaignScoringDefaults.mk.injEq, getD_update]
  simp only [ChangesDefaults, not_exists, not_and, not_not]
  constructor
  · rintro ⟨h1, h2, h3, h4, h5⟩ key value old hmem
    simp only [platformUpdates, List.mem_cons, Prod.mk.injEq, List.not_mem_nil, or_false] at hmem
    rcases hmem with ⟨rfl, rfl⟩ | ⟨rfl, rfl⟩ | ⟨rfl, rfl⟩ | ⟨rfl, rfl⟩ | ⟨rfl, rfl⟩
    · exact h1 old
    · exact h2 old
    · exact h3 old
    · exact h4 old
    · exact h5 old
  · intro h
    have hfield (key : String) (value : ℚ) (hmem : (key, value) ∈ platformUpdates request) :
        ∀ old, configs.lookup key = some old → old = value :=
      fun old => h key value old hmem
    refine ⟨hfield _ _ ?_, hfield _ _ ?_, hfield _ _ ?_, hfield _ _ ?_, hfield _ _ ?_⟩ <;>
      simp [platformUpdates]

theorem coherent_platform_iff (h : Coherent w) (fault : Bool) (t : CachedScoring) :
    Coherent (updatePlatformDefaultWeights w request fault).2 ↔
      Careful w (.updatePlatformDefaultWeights request fault) t := by
  unfold updatePlatformDefaultWeights
  simp only [Careful]
  cases hvalid : validateScoringWeights w.source.db
      [request.weightDeterministic, request.weightSemantic, request.weightAi] with
  | error e => simp [h]
  | ok _ =>
    cases fault with
    | true => simp [h]
    | false =>
      simp only [Bool.false_eq_true, if_false, true_imp_iff]
      refine h.write_iff.trans ?_
      constructor
      · intro hsame hchanges campaignId
        by_contra hcached
        obtain ⟨view, hview⟩ := Option.ne_none_iff_exists'.mp hcached
        obtain ⟨campaign, hfind, -⟩ := load_ok (h _ view hview)
        have hload : loadScoringConfiguration _ campaignId =
            loadScoringConfiguration w.source campaignId :=
          hsame (.campaignScoring campaignId) (by simp) hcached
        simp only [loadScoringConfiguration, hfind, Except.ok.injEq, scoringView,
          CampaignScoringConfiguration.mk.injEq] at hload
        exact defaults_eq_iff.mp (by simpa using hload) hchanges
      · intro hcare key hkey hcached
        cases key with
        | campaignPlatformDefaults => simp at hkey
        | campaignScoring campaignId =>
          have hkept : ¬ChangesDefaults w.source.configs request :=
            fun hchanges => hcached (hcare hchanges campaignId)
          show loadScoringConfiguration _ campaignId = loadScoringConfiguration _ campaignId
          simp only [loadScoringConfiguration, scoringView, defaults_eq_iff.mpr hkept]

end Platform

theorem coherent_step_iff (h : Coherent w) {event : ScoringEvent} {t : CachedScoring}
    (hstep : Step lower w event t) : Coherent t ↔ Careful w event t := by
  obtain rfl := hstep
  cases event with
  | createCampaign request orgId now fault =>
    exact iff_of_true (coherent_create h request orgId now fault) trivial
  | updateCampaign campaignId request now faults newTaskId =>
    exact iff_of_true (coherent_update h campaignId request now faults newTaskId) trivial
  | updateScoringConfiguration campaignId request now fault stores =>
    exact iff_of_true
      (updateScoringConfiguration_spec h campaignId request now fault stores).1 trivial
  | resetScoringToDefaults campaignId now fault stores =>
    exact iff_of_true (resetScoringToDefaults_spec h campaignId now fault stores).1 trivial
  | updatePlatformDefaultWeights request fault => exact coherent_platform_iff h fault _
  | closeCampaign campaignId now fault =>
    exact iff_of_true (coherent_close h campaignId now fault) trivial
  | reopenCampaign campaignId now fault =>
    exact iff_of_true (coherent_reopen h campaignId now fault) trivial
  | expire key => exact iff_of_true (h.write_iff.mpr fun _ _ _ => rfl) trivial
  | getScoringConfiguration campaignId stores => exact iff_of_true (h.getOrSet _ stores) trivial
  | getPlatformScoringDefaults stores => exact iff_of_true (h.getOrSet _ stores) trivial

theorem served_step (h : Coherent w) {event : ScoringEvent} {t : CachedScoring}
    (hstep : Step lower w event t) : Served w event t := by
  obtain rfl := hstep
  cases event with
  | updateScoringConfiguration campaignId request now fault stores =>
    exact (updateScoringConfiguration_spec h campaignId request now fault stores).2
  | resetScoringToDefaults campaignId now fault stores =>
    exact (resetScoringToDefaults_spec h campaignId now fault stores).2
  | getScoringConfiguration campaignId stores => exact (current_iff.mpr h).campaigns _ stores
  | getPlatformScoringDefaults stores => exact (current_iff.mpr h).defaults stores
  | _ => trivial

-- Along a run from an empty cache every view is current exactly if no new defaults
-- meet a cached campaign; and then all that the run returns is current.
theorem views_current_iff (lower : String → String) (source : ScoringDb)
    (path : List (ScoringEvent × CachedScoring))
    (hp : Path (Step lower) (Cached.empty source) path) :
    ((∀ t ∈ visited (Cached.empty source) path, Current t) ↔
        EveryStep Careful (Cached.empty source) path) ∧
      (EveryStep Careful (Cached.empty source) path →
        EveryStep Served (Cached.empty source) path) := by
  have hempty : Coherent (Cached.empty source) := Cached.coherent_empty
  constructor
  · exact hp.visited_iff_everyStep_of hempty (fun _ h => current_iff.mpr h)
      (fun w event t h hcare hstep => (coherent_step_iff h hstep).mpr hcare)
      fun w event t h hstep hcurrent => (coherent_step_iff h hstep).mp (current_iff.mp hcurrent)
  · intro hcare
    exact hp.guarded_everyStep hempty hcare
      (fun w event t h hq hstep => (coherent_step_iff h hstep).mpr hq)
      fun w event t h _ hstep => served_step h hstep

def seededConfigs : PlatformConfigRows :=
  [("CAMPAIGN_WEIGHT_DETERMINISTIC", 30), ("CAMPAIGN_WEIGHT_SEMANTIC", 40),
   ("CAMPAIGN_WEIGHT_AI", 30), ("SEMANTIC_PASS_THRESHOLD", 13 / 20), ("AI_PASS_THRESHOLD", 50)]

def seededDb : ScoringDb where
  db := pausedDb
  jdOf _ := 0
  jds _ := none
  configs := seededConfigs

def newDefaults : PlatformDefaultWeightsUpdateRequest where
  weightDeterministic := 20
  weightSemantic := 50
  weightAi := 30
  semanticThreshold := 13 / 20
  aiThreshold := 50

def run (w : CachedScoring) (events : List ScoringEvent) : List (ScoringEvent × CachedScoring) :=
  execute (fun w event => some (next id w event)) w events

theorem run_path (w : CachedScoring) (events : List ScoringEvent) :
    Path (Step id) w (run w events) :=
  execute_path _ (fun _ _ _ h => (Option.some.inj h).symm) w events

def readAround : List ScoringEvent :=
  [.getScoringConfiguration 0 true, .updatePlatformDefaultWeights newDefaults false,
   .getScoringConfiguration 0 true]

def readAfter : List ScoringEvent :=
  [.getPlatformScoringDefaults true, .updatePlatformDefaultWeights newDefaults false,
   .getScoringConfiguration 0 true, .resetScoringToDefaults 0 1 false true,
   .getScoringConfiguration 0 true]

def readOnce : CachedScoring := next id (Cached.empty seededDb) (.getScoringConfiguration 0 true)

theorem newDefaults_valid : validateScoringWeights pausedDb [20, 50, 30] = .ok () := by
  have hmin : pausedDb.minLayerWeight = none := rfl
  simp only [validateScoringWeights, hmin, List.any_cons, List.any_nil, List.sum_cons,
    List.sum_nil, Option.getD_none]
  norm_num

-- The second read returns the old defaults out of the cache.
theorem stale_defaults_served :
    ¬∀ (source : ScoringDb) (path : List (ScoringEvent × CachedScoring)),
      Path (Step id) (Cached.empty source) path → EveryStep Served (Cached.empty source) path := by
  intro hall
  obtain ⟨-, -, hserved, -⟩ := hall seededDb _ (run_path _ readAround)
  have hupdate : next id readOnce (.updatePlatformDefaultWeights newDefaults false) = readOnce.write
        { seededDb with configs := updateConfigs seededConfigs (platformUpdates newDefaults) }
        [.campaignPlatformDefaults] :=
    updatePlatformDefaultWeights_ok newDefaults_valid
  change Served (next id readOnce (.updatePlatformDefaultWeights newDefaults false)) _ _ at hserved
  rw [hupdate] at hserved
  have hcached : Except.ok (scoringView seededConfigs (pausedCampaign 0)) =
      Except.ok (scoringView (updateConfigs seededConfigs (platformUpdates newDefaults))
        (pausedCampaign 0)) := hserved
  have hdefaults := congrArg (fun view => view.defaults.weightDeterministic) (Except.ok.inj hcached)
  have hvalues : (30 : ℚ) = 20 := hdefaults
  norm_num at hvalues

theorem views_current_iff_readAfter :
    Current (final (Cached.empty seededDb) (run (Cached.empty seededDb) readAfter)) := by
  refine (views_current_iff id seededDb _ (run_path _ readAfter)).1.mpr ?_ _ (final_mem_visited _ _)
  refine ⟨trivial, fun _ _ _ campaignId => rfl, trivial, trivial, trivial, trivial⟩

end AiHiring.ScoringCache
