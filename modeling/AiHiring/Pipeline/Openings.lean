import AiHiring.Pipeline.Intake
import AiHiring.Pipeline.StageWrite

namespace AiHiring

open Library PipelineTransitionService
open CampaignRepository (getSelectedCount)

namespace Openings

-- Between the writes the campaign's row may be edited: reopened, resized.
inductive CampaignAction where
  | write (call : StageWrite) (now : Instant)
  | edit (campaign : HiringCampaign)

def Step (table : TransitionTable) (db : Db) (action : CampaignAction) (db' : Db) : Prop :=
  match action with
  | .write call now => StageWrite.Step table db (call, now) db'
  | .edit campaign => db' = CampaignRepository.update db campaign

def CapHolds (db : Db) (campaignId : Uuid) : Prop :=
  ∀ campaign maxCandidates, db.campaigns.find? campaignId = some campaign →
    campaign.maxCandidates = some maxCandidates → 0 < maxCandidates →
    maxCandidates ≤ getSelectedCount db campaignId →
    campaign.status = .closed

-- The three engines through which a candidate of a campaign is selected.
def Selects (db : Db) : StageWrite → Prop
  | .transition _ toStage _ _ _ _ => toStage = .selected
  | .transitionStage _ withRepo request => withRepo = true ∧ request.toStage = .selected
  | .overrideCandidateStage _ cc targetStage _ _ _ _ =>
    ∃ before, db.campaignCandidates.find? cc = some before ∧
      CampaignService.overrideTarget before.pipelineStage targetStage = .ok .selected
  | _ => False

-- Right after a move to SELECTED the cap of the candidate's campaign holds.
def Enforced (db : Db) (action : CampaignAction) (db' : Db) : Prop :=
  match action with
  | .write call _ => Selects db call →
      ∀ cc, db'.campaignCandidates.find? call.candidate = some cc → CapHolds db' cc.campaignId
  | .edit _ => True

def othersSelected (db : Db) (cc : CampaignCandidate) : ℕ :=
  db.campaignCandidates.rows.countP fun r =>
    decide (r.campaignId = cc.campaignId ∧ r.pipelineStage = .selected) && r.id ≠ cc.id

-- The move leaves an opening free, or finds the campaign closed.
def RoomLeft (db : Db) (cc : CampaignCandidate) : Prop :=
  ∀ campaign maxCandidates, db.campaigns.find? cc.campaignId = some campaign →
    campaign.maxCandidates = some maxCandidates → 0 < maxCandidates →
    campaign.status = .closed ∨ (othersSelected db cc + 1 : ℕ) < maxCandidates

-- What a selection through `transition` has to meet; nothing is asked of the others.
def Guarded (db : Db) : CampaignAction → Prop
  | .write (.transition id toStage _ _ _ _) _ => toStage = .selected →
      ∀ cc, db.campaignCandidates.find? id = some cc → RoomLeft db cc
  | _ => True

variable {table : TransitionTable} {db db' : Db} {before after : CampaignCandidate}

theorem selectedCount_moved (h : Moved db db' before after)
    (hselected : after.pipelineStage = .selected) :
    getSelectedCount db' after.campaignId = othersSelected db before + 1 := by
  have hfound : db.campaignCandidates.find? after.id = some before := h.sameId ▸ h.found
  have hcount := db.campaignCandidates.countP_replace after before
    (fun r => decide (r.campaignId = before.campaignId ∧ r.pipelineStage = .selected)) hfound
  have hcounted : decide (after.campaignId = before.campaignId ∧
      after.pipelineStage = .selected) = true := by
    simp [h.sameCampaign, hselected]
  rw [hcounted, if_pos rfl] at hcount
  rw [getSelectedCount, h.candidates, h.sameCampaign, hcount, othersSelected, h.sameId]

theorem unlimited_eq_false (campaign : HiringCampaign) (maxCandidates : ℤ)
    (hmax : campaign.maxCandidates = some maxCandidates) (hpos : 0 < maxCandidates) :
    campaign.unlimited = false := by
  have hne : maxCandidates ≠ 0 := by omega
  simp [HiringCampaign.unlimited, hmax, hne]

theorem closeIfAllPositionsFilled_capHolds (mid : Db) (campaignId : Uuid)
    (changedBy actorRole : Option String) (now : Instant)
    (hcandidates : db'.campaignCandidates = mid.campaignCandidates)
    (hcampaigns : db'.campaigns =
      (closeIfAllPositionsFilled mid true campaignId changedBy actorRole now).campaigns) :
    CapHolds db' campaignId := by
  intro campaign maxCandidates hfind hmax hpos hfull
  have hcount : getSelectedCount db' campaignId = getSelectedCount mid campaignId := by
    rw [getSelectedCount, getSelectedCount, hcandidates]
  rw [hcount] at hfull
  rw [hcampaigns] at hfind
  unfold closeIfAllPositionsFilled CampaignRepository.getById at hfind
  cases hbefore : mid.campaigns.find? campaignId with
  | none =>
    simp only [hbefore] at hfind
    exact absurd (hbefore.symm.trans hfind) (by simp)
  | some known =>
    obtain ⟨-, rfl⟩ := (mid.campaigns.find?_eq_some _ _).mp hbefore
    have hsame (h : mid.campaigns.find? known.id = some campaign) : campaign = known :=
      Option.some.inj (h.symm.trans hbefore)
    simp only [hbefore, Bool.not_true, Bool.false_eq_true, if_false] at hfind
    by_cases hunlimited : known.unlimited = true
    · rw [if_pos hunlimited] at hfind
      rw [← hsame hfind, unlimited_eq_false _ _ hmax hpos] at hunlimited
      simp at hunlimited
    · rw [if_neg hunlimited] at hfind
      by_cases hclosed : known.status = .closed
      · rw [if_pos hclosed] at hfind
        exact hsame hfind ▸ hclosed
      · rw [if_neg hclosed] at hfind
        by_cases hfilled : (!known.positionsFilled (getSelectedCount mid known.id)) = true
        · rw [if_pos hfilled] at hfind
          have hknown := hsame hfind
          subst hknown
          simp [HiringCampaign.positionsFilled, hmax, hfull] at hfilled
        · rw [if_neg hfilled] at hfind
          have hwritten := mid.campaigns.find?_replace_self
            { known with status := .closed, updatedAt := now } known hbefore
          have hclosing : campaign =
              { known with status := .closed, updatedAt := now } := by
            apply Option.some.inj
            rw [← hfind, ← hwritten]
            split_ifs <;> rfl
          rw [hclosing]

-- `transition` has no hook: the cap holds afterwards only if it left room.
theorem capHolds_moved_iff (h : Moved db db' before after)
    (hcampaigns : db'.campaigns = db.campaigns) (hselected : after.pipelineStage = .selected) :
    CapHolds db' after.campaignId ↔ RoomLeft db before := by
  unfold CapHolds RoomLeft
  rw [hcampaigns, selectedCount_moved h hselected, h.sameCampaign]
  constructor
  · intro hcap campaign maxCandidates hfind hmax hpos
    by_cases hfull : maxCandidates ≤ (othersSelected db before + 1 : ℕ)
    · exact .inl (hcap campaign maxCandidates hfind hmax hpos hfull)
    · right
      omega
  · intro hroom campaign maxCandidates hfind hmax hpos hfull
    rcases hroom campaign maxCandidates hfind hmax hpos with hclosed | hleft
    · exact hclosed
    · omega

theorem enforced_iff (action : CampaignAction) (h : Step table db action db') :
    Enforced db action db' ↔ Guarded db action := by
  cases action with
  | edit campaign => exact Iff.rfl
  | write call now =>
    cases call with
    | transition cc toStage actor reason key env =>
      obtain ⟨row, after, hmoved, rfl, hstage, -, -, -, hcampaigns, -⟩ :=
        StageTransitionService.transition_ok table db db' now _ _ _ _ _ _ h
      change (toStage = .selected → _) ↔ (toStage = .selected → _)
      apply imp_congr_right
      intro hselected
      have hiff := capHolds_moved_iff hmoved hcampaigns (hstage.trans hselected)
      constructor
      · intro hcap cc hcc
        rw [← Option.some.inj (hmoved.found.symm.trans hcc)]
        exact hiff.mp (hcap after hmoved.find?_self)
      · intro hroom cc hcc
        rw [← Option.some.inj (hmoved.find?_self.symm.trans hcc)]
        exact hiff.mpr (hroom row hmoved.found)
    | transitionStage cc withRepo request =>
      refine ⟨fun _ => trivial, fun _ => ?_⟩
      rintro ⟨rfl, hselected⟩ other hother
      obtain ⟨row, hrow, rfl, hwrite⟩ := (StageWrite.withCandidate_eq_ok _ _ _).mp h
      obtain ⟨⟨last, after⟩, hmove, hdone⟩ := (bind_eq_ok _ _ _).mp hwrite
      obtain ⟨rfl, -⟩ := Prod.mk.inj (Except.ok.inj hdone)
      obtain ⟨hmoved, -, -, -, -, mid, hcandidates, -, hcampaigns⟩ :=
        transitionStage_ok table db last now true row after request hrow hmove
      rw [if_pos hselected] at hcampaigns
      obtain rfl := Option.some.inj (hmoved.find?_self.symm.trans hother)
      rw [hmoved.sameCampaign]
      exact closeIfAllPositionsFilled_capHolds mid _ _ _ _ hcandidates.symm hcampaigns
    | overrideCandidateStage campaignId cc targetStage reason actorId actorRole env =>
      refine ⟨fun _ => trivial, fun _ => ?_⟩
      rintro ⟨found, hfound, hselected⟩ other hother
      obtain ⟨last, hoverride, hdone⟩ := (bind_eq_ok _ _ _).mp h
      obtain ⟨rfl, -⟩ := Prod.mk.inj (Except.ok.inj hdone)
      obtain ⟨row, after, target, hmoved, rfl, htarget, -, -, -, -, mid, hcandidates, -,
          hcampaigns⟩ :=
        CampaignService.overrideCandidateStage_ok db last now _ _ _ _ _ _ _ hoverride
      cases hmoved.found.symm.trans hfound
      obtain rfl : target = .selected := Except.ok.inj (htarget.symm.trans hselected)
      rw [if_pos rfl] at hcampaigns
      obtain rfl := Option.some.inj (hmoved.find?_self.symm.trans hother)
      rw [hmoved.sameCampaign]
      exact closeIfAllPositionsFilled_capHolds mid _ _ _ _ (hcandidates rfl).symm hcampaigns
    | _ => exact ⟨fun _ => trivial, fun _ => False.elim⟩

-- After every selection of a run the cap holds exactly when every selection made
-- through `transition` leaves an opening free or finds its campaign closed.
theorem cap_enforced_iff (table : TransitionTable) (db : Db) (path : List (CampaignAction × Db))
    (hp : Path (Step table) db path) :
    EveryStep Enforced db path ↔ EveryStep (fun s action _ => Guarded s action) db path := by
  have hany : (fun _ : Db => True) db := trivial
  exact hp.everyStep_congr hany (fun _ _ _ _ _ => trivial)
    (fun _ action _ _ hs => enforced_iff action hs)

def next? (table : TransitionTable) (db : Db) : CampaignAction → Option Db
  | .write call now => StageWrite.next? table db (call, now)
  | .edit campaign => some (CampaignRepository.update db campaign)

theorem next?_step (action : CampaignAction) (h : next? table db action = some db') :
    Step table db action db' := by
  cases action with
  | write call now => exact StageWrite.next?_step (call, now) h
  | edit campaign => exact (Option.some.inj h).symm

theorem execute_next?_path (start : Db) (actions : List CampaignAction) :
    Path (Step table) start (execute (next? table) start actions) :=
  execute_path (next? table) (fun _ action _ h => next?_step action h) start actions

def interviewRun : List (CampaignAction × Db) :=
  execute (next? seededTransitions) freshDb
    [.write (.transitionToScreening 0) 1,
     .write (.transition 0 .shortlisted recruiter none none idle) 2,
     .write (.transition 0 .interview recruiter none none idle) 3]

def selection : CampaignAction := .write (.transition 0 .selected recruiter none none idle) 4

def selectionRun : List (CampaignAction × Db) :=
  execute (next? seededTransitions) (final freshDb interviewRun) [selection]

theorem cap_enforced_iff_selection : EveryStep Enforced (final freshDb interviewRun) selectionRun ↔
      EveryStep (fun s action _ => Guarded s action) (final freshDb interviewRun) selectionRun :=
  cap_enforced_iff seededTransitions (final freshDb interviewRun) selectionRun
    (execute_next?_path _ _)

-- The campaign is full and still active.
theorem cap_missed_after_selection : Path (Step seededTransitions) freshDb interviewRun ∧
      Path (Step seededTransitions) (final freshDb interviewRun) selectionRun ∧
      ¬EveryStep Enforced (final freshDb interviewRun) selectionRun := by
  refine ⟨execute_next?_path _ _, execute_next?_path _ _, ?_⟩
  let view (t : Db) := ((t.campaignCandidates.find? 0).map
      fun cc => (cc.campaignId, cc.pipelineStage),
    (t.campaigns.find? 0).map fun campaign => (campaign.maxCandidates, campaign.status),
    getSelectedCount t 0)
  have hview : (next? seededTransitions (final freshDb interviewRun) selection).map view =
      some (some (0, .selected), some (some 1, .active), 1) := by decide +kernel
  obtain ⟨t, ht, hseen⟩ := Option.map_eq_some_iff.mp hview
  simp only [view, Prod.mk.injEq, Option.map_eq_some_iff] at hseen
  obtain ⟨⟨cc, hcc, hcampaign, -⟩, ⟨campaign, hfind, hmax, hactive⟩, hcount⟩ := hseen
  have hrun : selectionRun = [(selection, t)] := by
    simp only [selectionRun, execute, ht]
  rw [hrun]
  rintro ⟨henforced, -⟩
  have hcap := henforced rfl cc hcc campaign 1 (hcampaign ▸ hfind) hmax (by omega)
    (by rw [hcampaign, hcount]; rfl)
  exact absurd (hactive.symm.trans hcap) (by decide)

end Openings

end AiHiring
