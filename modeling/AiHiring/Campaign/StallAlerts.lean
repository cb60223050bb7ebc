import AiHiring.Library.Run
import AiHiring.Pipeline.Model

namespace AiHiring

open Library

namespace CampaignSchedulerService

-- A row of `get_stalled_candidates_batch`, as far as the sweep reads it.
structure StalledRow where
  (pipelineStage stallReason : String)

-- The entry STALLED_CANDIDATES_ALERT of the audit log.
structure StallAlert where
  actorId : Option String
  actorRole : String
  (entityId campaignId : Uuid)
  title : String
  (totalStalled previousTotal : ℕ)
  (byStage byReason : List (String × ℕ))

-- What one sweep finds, and whether one of its statements or its commit raises.
structure Sweep where
  campaigns : List HiringCampaign
  stalledByCampaign : Uuid → List StalledRow
  raises : Bool
  nodup : (campaigns.map (·.id)).Nodup

-- `counts[key] = counts.get(key, 0) + 1`
def tally (counts : List (String × ℕ)) (key : String) : List (String × ℕ) :=
  if counts.any (·.1 = key) then counts.map fun e => if e.1 = key then (key, e.2 + 1) else e
  else counts ++ [(key, 1)]

def alertsOf (campaignId : Uuid) (auditLog : List StallAlert) : List StallAlert :=
  auditLog.filter (·.campaignId = campaignId)

-- `get_latest_entry`: the entries are in the order of their `created_at`.
def getLatestEntry (auditLog : List StallAlert) (campaignId : Uuid) : Option StallAlert :=
  (alertsOf campaignId auditLog).getLast?

def previousCount (auditLog : List StallAlert) (campaignId : Uuid) : ℕ :=
  ((getLatestEntry auditLog campaignId).map (·.totalStalled)).getD 0

def stallAlert (previousCount : ℕ) (campaign : HiringCampaign) (stalled : List StalledRow) :
    Option StallAlert :=
  if stalled = [] then none
  else if stalled.length ≤ previousCount then none
  else some {
    actorId := none
    actorRole := "SYSTEM"
    entityId := campaign.id
    campaignId := campaign.id
    title := s!"{stalled.length} stalled candidate(s) in '{campaign.name}'"
    totalStalled := stalled.length
    previousTotal := previousCount
    byStage := (stalled.map (·.pipelineStage)).foldl tally []
    byReason := (stalled.map (·.stallReason)).foldl tally [] }

def alertStalled (sweep : Sweep) (auditLog : List StallAlert) (campaign : HiringCampaign) :
    List StallAlert :=
  auditLog ++ (stallAlert (previousCount auditLog campaign.id) campaign
    (sweep.stalledByCampaign campaign.id)).toList

-- The alerts raised, and the audit log: an exception rolls the alerts back.
def detectStalledCandidateAlerts (auditLog : List StallAlert) (sweep : Sweep) :
    Option ℕ × List StallAlert :=
  let activeCampaigns := sweep.campaigns.filter (·.status = .active)
  let alerted := activeCampaigns.foldl (alertStalled sweep) auditLog
  if sweep.raises then (none, auditLog) else (some (alerted.length - auditLog.length), alerted)

def Step (auditLog : List StallAlert) (sweep : Sweep) (auditLog' : List StallAlert) : Prop :=
  auditLog' = (detectStalledCandidateAlerts auditLog sweep).2

def stalledCount (campaignId : Uuid) (sweep : Sweep) : ℕ :=
  (sweep.stalledByCampaign campaignId).length

def StaysActive (campaignId : Uuid) (path : List (Sweep × List StallAlert)) : Prop :=
  ∀ entry ∈ path, ∃ campaign ∈ entry.1.campaigns,
    campaign.id = campaignId ∧ campaign.status = .active

-- A sweep that goes through raises one alert if the count has grown since the sweep
-- before it and none if not; one that fails leaves the audit log as it was.
def Surfaces (campaignId : Uuid) (path : List (Sweep × List StallAlert)) : Prop :=
  ∀ before previous auditLog sweep auditLog' after,
    path = before ++ (previous, auditLog) :: (sweep, auditLog') :: after →
      (sweep.raises = true → auditLog' = auditLog) ∧
      (sweep.raises = false → ∃ raised, alertsOf campaignId auditLog' =
        alertsOf campaignId auditLog ++ raised ∧ raised.length =
          if stalledCount campaignId previous < stalledCount campaignId sweep then 1 else 0)

def higher (campaignId : Uuid) (n : ℕ) (entry : Sweep × List StallAlert) : ℕ :=
  if entry.1.raises then n else max n (stalledCount campaignId entry.1)

-- The highest count of the sweeps that went through.
def highest (campaignId : Uuid) (path : List (Sweep × List StallAlert)) : ℕ :=
  path.foldl (higher campaignId) 0

-- A count above that of the sweep before is above all counts that went through, and
-- the other way round.
def NewHeights (campaignId : Uuid) (path : List (Sweep × List StallAlert)) : Prop :=
  ∀ before previous auditLog sweep auditLog' after,
    path = before ++ (previous, auditLog) :: (sweep, auditLog') :: after →
      sweep.raises = false → (stalledCount campaignId previous < stalledCount campaignId sweep ↔
          highest campaignId (before ++ [(previous, auditLog)]) < stalledCount campaignId sweep)

section Alerts

variable {campaignId : Uuid} {sweep : Sweep} {auditLog : List StallAlert}

theorem stallAlert_cases (n : ℕ) (campaign : HiringCampaign) (stalled : List StalledRow) :
    (stalled.length ≤ n ∧ stallAlert n campaign stalled = none) ∨
      n < stalled.length ∧ ∃ alert, stallAlert n campaign stalled = some alert ∧
        alert.campaignId = campaign.id ∧ alert.totalStalled = stalled.length := by
  unfold stallAlert
  split_ifs with hnone hle
  · exact .inl ⟨by simp [hnone], rfl⟩
  · exact .inl ⟨hle, rfl⟩
  · exact .inr ⟨by omega, _, rfl, rfl, rfl⟩

theorem alertsOf_alertStalled (campaign : HiringCampaign) :
    alertsOf campaignId (alertStalled sweep auditLog campaign) = alertsOf campaignId auditLog ++
      if campaign.id = campaignId then (stallAlert (previousCount auditLog campaignId) campaign
        (sweep.stalledByCampaign campaignId)).toList else [] := by
  rw [alertStalled, alertsOf, List.filter_append]
  by_cases hid : campaign.id = campaignId
  · subst hid
    rw [if_pos rfl]
    obtain ⟨-, hnone⟩ | ⟨-, alert, hsome, halert, -⟩ := stallAlert_cases
      (previousCount auditLog campaign.id) campaign (sweep.stalledByCampaign campaign.id)
    · rw [hnone]
      rfl
    · simp [hsome, halert, alertsOf]
  · rw [if_neg hid]
    obtain ⟨-, hnone⟩ | ⟨-, alert, hsome, halert, -⟩ := stallAlert_cases
      (previousCount auditLog campaign.id) campaign (sweep.stalledByCampaign campaign.id)
    · rw [hnone]
      rfl
    · simp [hsome, halert, hid, alertsOf]

theorem alertsOf_foldl (campaigns : List HiringCampaign)
    (hnot : campaignId ∉ campaigns.map (·.id)) :
    alertsOf campaignId (campaigns.foldl (alertStalled sweep) auditLog) =
      alertsOf campaignId auditLog := by
  induction campaigns generalizing auditLog with
  | nil => rfl
  | cons campaign rest ih =>
    rw [List.map_cons, List.mem_cons, not_or] at hnot
    rw [List.foldl_cons, ih hnot.2, alertsOf_alertStalled, if_neg (Ne.symm hnot.1), List.append_nil]

theorem previousCount_congr {other : List StallAlert}
    (h : alertsOf campaignId other = alertsOf campaignId auditLog) :
    previousCount other campaignId = previousCount auditLog campaignId := by
  rw [previousCount, previousCount, getLatestEntry, getLatestEntry, h]

-- By induction on the campaigns: only the campaign's own turn adds to its alerts.
theorem alertsOf_swept (campaigns : List HiringCampaign) (hnodup : (campaigns.map (·.id)).Nodup)
    (campaign : HiringCampaign) (hmem : campaign ∈ campaigns) :
    alertsOf campaign.id (campaigns.foldl (alertStalled sweep) auditLog) =
      alertsOf campaign.id auditLog ++ (stallAlert (previousCount auditLog campaign.id) campaign
          (sweep.stalledByCampaign campaign.id)).toList := by
  induction campaigns generalizing auditLog with
  | nil => simp at hmem
  | cons first rest ih =>
    obtain ⟨hfirst, hrest⟩ := List.nodup_cons.mp hnodup
    rw [List.foldl_cons]
    rcases List.mem_cons.mp hmem with rfl | hlater
    · rw [alertsOf_foldl rest hfirst, alertsOf_alertStalled, if_pos rfl]
    · have hne : first.id ≠ campaign.id := fun heq =>
        hfirst (List.mem_map.mpr ⟨campaign, hlater, heq.symm⟩)
      have hsame := @alertsOf_alertStalled campaign.id sweep auditLog first
      rw [if_neg hne, List.append_nil] at hsame
      rw [ih hrest hlater, hsame, previousCount_congr hsame]

-- What one sweep leaves of the alerts of an active campaign.
theorem step_alerts {auditLog' : List StallAlert} (h : Step auditLog sweep auditLog')
    (hactive : ∃ campaign ∈ sweep.campaigns, campaign.id = campaignId ∧ campaign.status = .active) :
    (sweep.raises = true → auditLog' = auditLog) ∧ (sweep.raises = false → ∃ raised,
        alertsOf campaignId auditLog' = alertsOf campaignId auditLog ++ raised ∧
        raised.length = (if previousCount auditLog campaignId < stalledCount campaignId sweep
          then 1 else 0) ∧
        previousCount auditLog' campaignId =
          max (previousCount auditLog campaignId) (stalledCount campaignId sweep)) := by
  obtain ⟨campaign, hmem, rfl, hstatus⟩ := hactive
  have hswept := @alertsOf_swept sweep auditLog (sweep.campaigns.filter (·.status = .active))
    ((List.filter_sublist.map _).nodup sweep.nodup) campaign
    (List.mem_filter.mpr ⟨hmem, decide_eq_true hstatus⟩)
  unfold Step detectStalledCandidateAlerts at h
  split_ifs at h with hraises
  · exact ⟨fun _ => h, fun hgoes => absurd (hraises.symm.trans hgoes) (by simp)⟩
  · refine ⟨fun hfails => absurd hfails hraises, fun _ => ?_⟩
    dsimp only at h
    rw [← h] at hswept
    refine ⟨_, hswept, ?_⟩
    change (_ = if _ < (sweep.stalledByCampaign campaign.id).length then _ else _) ∧
      _ = max _ (sweep.stalledByCampaign campaign.id).length
    obtain ⟨hle, hnone⟩ | ⟨hlt, alert, hsome, -, htotal⟩ := stallAlert_cases
      (previousCount auditLog campaign.id) campaign (sweep.stalledByCampaign campaign.id)
    · rw [hnone, Option.toList_none, List.append_nil] at hswept
      rw [hnone, if_neg (Nat.not_lt.mpr hle), previousCount_congr hswept]
      exact ⟨rfl, (max_eq_left hle).symm⟩
    · rw [hsome] at hswept
      rw [hsome, if_pos hlt, previousCount, getLatestEntry, hswept]
      exact ⟨rfl, by simpa [htotal] using (max_eq_right hlt.le).symm⟩

-- The last alert carries the highest count that went through.
theorem previousCount_final {path : List (Sweep × List StallAlert)}
    (hpath : Path Step auditLog path) (hactive : StaysActive campaignId path) (n : ℕ)
    (hn : previousCount auditLog campaignId = n) :
    previousCount (final auditLog path) campaignId = path.foldl (higher campaignId) n := by
  induction path generalizing auditLog n with
  | nil => exact hn
  | cons entry rest ih =>
    obtain ⟨sweep, auditLog'⟩ := entry
    obtain ⟨hfails, hgoes⟩ := step_alerts hpath.1 (hactive _ List.mem_cons_self)
    refine ih hpath.2 (fun e he => hactive e (List.mem_cons_of_mem _ he)) _ ?_
    cases hraises : sweep.raises with
    | true => simpa [higher, hraises, hfails hraises] using hn
    | false =>
      obtain ⟨-, -, -, hcount⟩ := hgoes hraises
      simpa [higher, hraises, hn] using hcount

end Alerts

def sweepOf (n : ℕ) : Sweep where
  campaigns := [⟨0, "Backend engineer", .active, some 1, "manager", 0⟩]
  stalledByCampaign := fun _ => List.replicate n ⟨"SCREENING", "SCREENING_OVERDUE"⟩
  raises := false
  nodup := List.nodup_singleton _

def sweeps (auditLog : List StallAlert) (counts : List ℕ) : List (Sweep × List StallAlert) :=
  execute (fun auditLog sweep => some (detectStalledCandidateAlerts auditLog sweep).2) auditLog
    (counts.map sweepOf)

theorem sweeps_path (auditLog : List StallAlert) (counts : List ℕ) :
    Path Step auditLog (sweeps auditLog counts) :=
  execute_path _ (fun _ _ _ h => (Option.some.inj h).symm) _ _

theorem sweeps_active (auditLog : List StallAlert) (counts : List ℕ) :
    StaysActive 0 (sweeps auditLog counts) := by
  induction counts generalizing auditLog with
  | nil => exact fun _ h => absurd h List.not_mem_nil
  | cons n rest ih =>
    intro entry hentry
    rcases List.mem_cons.mp hentry with rfl | hlater
    · exact ⟨_, List.mem_singleton_self _, rfl, rfl⟩
    · exact ih _ entry hlater

end CampaignSchedulerService

end AiHiring
