import AiHiring.Pipeline.BulkMoves
import Mathlib.Data.List.Dedup

namespace AiHiring

open Library Transaction PipelineTransitionService BulkStageMoveService

namespace BulkRefinement

-- The same candidates, campaigns, stage histories and interview rounds.
structure Same (db db' : Db) : Prop where
  campaigns : db'.campaigns = db.campaigns
  candidates : db'.campaignCandidates = db.campaignCandidates
  history : db'.stageHistory = db.stageHistory
  rounds : db'.interviewSchedules = db.interviewSchedules

theorem Same.refl (db : Db) : Same db db := ⟨rfl, rfl, rfl, rfl⟩

theorem Same.symm {db db' : Db} (h : Same db db') : Same db' db :=
  ⟨h.campaigns.symm, h.candidates.symm, h.history.symm, h.rounds.symm⟩

theorem Same.trans {db db' db'' : Db} (h : Same db db') (h' : Same db' db'') : Same db db'' :=
  ⟨h'.campaigns.trans h.campaigns, h'.candidates.trans h.candidates,
    h'.history.trans h.history, h'.rounds.trans h.rounds⟩

section Moves

variable {table : TransitionTable} {db db' e e' : Db} {cc cc' : CampaignCandidate}
  {request : StageRequest} {now : Instant}

def movedRow (cc : CampaignCandidate) (request : StageRequest) (now : Instant) :
    CampaignCandidate := decided (cc.movedTo request.toStage) request now

def historyRow (cc : CampaignCandidate) (request : StageRequest) (id : Uuid) :
    CampaignCandidateStageHistory where
  id := id
  campaignCandidateId := cc.id
  fromStage := some cc.pipelineStage
  toStage := request.toStage
  changedBy := request.changedBy
  changeReason := request.reason
  transitionSource := request.source
  scoresSnapshot := request.decisionType.map fun decisionType =>
    decisionSnapshot none decisionType request.decisionSource request.reason request.decisionDetails
  idempotencyKey := none

theorem closeIfAllPositionsFilled_congr (campaignId : Uuid) (by_ role : Option String)
    (hcampaigns : e.campaigns = db.campaigns)
    (hcandidates : e.campaignCandidates = db.campaignCandidates) :
    (closeIfAllPositionsFilled e true campaignId by_ role now).campaigns =
      (closeIfAllPositionsFilled db true campaignId by_ role now).campaigns := by
  have hfound : CampaignRepository.getById e campaignId =
      CampaignRepository.getById db campaignId := by
    rw [CampaignRepository.getById, hcampaigns]
    rfl
  simp only [closeIfAllPositionsFilled, hfound]
  cases CampaignRepository.getById db campaignId with
  | none => simpa using hcampaigns
  | some campaign =>
    have hcount : CampaignRepository.getSelectedCount e campaign.id =
        CampaignRepository.getSelectedCount db campaign.id := by
      rw [CampaignRepository.getSelectedCount, hcandidates]
      rfl
    have hclosed (row : HiringCampaign) : (CampaignRepository.update e row).campaigns =
        (CampaignRepository.update db row).campaigns :=
      congrArg (fun campaigns => campaigns.replace row) hcampaigns
    simp only [hcount]
    split_ifs
    · exact hcampaigns
    · exact hcampaigns
    · exact hcampaigns
    · exact hcampaigns
    · exact hclosed _
    · exact hclosed _

structure MoveEffect (db e : Db) (cc : CampaignCandidate) (request : StageRequest)
    (now : Instant) : Prop where
  campaigns : e.campaigns = if request.toStage = .selected then
      (closeIfAllPositionsFilled
        { db with campaignCandidates := db.campaignCandidates.replace (movedRow cc request now) }
        true cc.campaignId request.changedBy request.actorRole now).campaigns
    else db.campaigns
  candidates : e.campaignCandidates = db.campaignCandidates.replace (movedRow cc request now)
  history : e.stageHistory = db.stageHistory.insert (historyRow cc request) fun _ => rfl
  rounds : e.interviewSchedules =
    hookedRounds db.interviewSchedules cc.id cc.pipelineStage request.toStage now

theorem recordStage_history (db : Db) (now : Instant) (fromStage : PipelineStage)
    (cc : CampaignCandidate) (request : StageRequest) :
    (recordStage db true fromStage cc request now).stageHistory = db.stageHistory.insert (fun id =>
        { id := id
          campaignCandidateId := cc.id
          fromStage := some fromStage
          toStage := request.toStage
          changedBy := request.changedBy
          changeReason := request.reason
          transitionSource := request.source
          scoresSnapshot := request.decisionType.map fun decisionType =>
            decisionSnapshot none decisionType request.decisionSource request.reason
              request.decisionDetails
          idempotencyKey := none }) fun _ => rfl := by
  obtain ⟨campaigns, auditLog, hclose⟩ := closeIfAllPositionsFilled_frame
    (CampaignCandidateRepository.update db cc) now true cc.campaignId request.changedBy
    request.actorRole
  simp only [recordStage, hclose]
  split_ifs <;> rfl

theorem movedRow_id (cc : CampaignCandidate) (request : StageRequest) (now : Instant) :
    (movedRow cc request now).id = cc.id := by
  obtain ⟨hid, -⟩ := decided_spec now (cc.movedTo request.toStage) request
  exact hid

theorem transitionStage_effect (h : transitionStage table db true cc request now = .ok (e, cc')) :
    MoveEffect db e cc request now := by
  simp only [transitionStage, CampaignCandidateRepository.updatePipelineStage, bind_eq_ok] at h
  obtain ⟨-, -, mid, hhooks, hdone⟩ := h
  obtain ⟨hdb, -⟩ := Prod.mk.inj (Except.ok.inj hdone)
  have hmid := interviewHooks_ok _ _ _ _ _ _ _ _ hhooks
  change recordStage mid true cc.pipelineStage (movedRow cc request now) request now = e at hdb
  obtain ⟨hcandidates, hrounds, -, hcampaigns⟩ :=
    recordStage_spec mid now true cc.pipelineStage (movedRow cc request now) request
  have hhistory := recordStage_history mid now cc.pipelineStage (movedRow cc request now) request
  rw [hdb] at hcandidates hrounds hcampaigns hhistory
  have hcampaign : (movedRow cc request now).campaignId = cc.campaignId :=
    (decided_spec now (cc.movedTo request.toStage) request).2.1
  -- the row is written twice, before and after the hooks
  have hid : (cc.movedTo request.toStage).id = (movedRow cc request now).id :=
    (movedRow_id cc request now).symm
  have hwritten : mid.campaignCandidates.replace (movedRow cc request now) =
      db.campaignCandidates.replace (movedRow cc request now) := by
    rw [hmid]
    exact db.campaignCandidates.replace_replace (cc.movedTo request.toStage)
      (movedRow cc request now) hid
  refine ⟨?_, hcandidates.trans hwritten, ?_, ?_⟩
  · rw [hcampaigns, hcampaign]
    have hsame : mid.campaigns = db.campaigns := by
      rw [hmid]
      rfl
    by_cases hselected : request.toStage = .selected
    · rw [if_pos hselected, if_pos hselected]
      exact closeIfAllPositionsFilled_congr _ _ _ hsame hwritten
    · rw [if_neg hselected, if_neg hselected]
      exact hsame
  · rw [hhistory, hmid]
    unfold historyRow
    simp only [movedRow_id]
    rfl
  · rw [hrounds, hmid]
    rfl

theorem MoveEffect.same (h : MoveEffect db e cc request now)
    (h' : MoveEffect db' e' cc request now) (hsame : Same db db') : Same e e' := by
  refine ⟨?_, ?_, ?_, ?_⟩
  · rw [h.campaigns, h'.campaigns]
    by_cases hselected : request.toStage = .selected
    · rw [if_pos hselected, if_pos hselected]
      exact closeIfAllPositionsFilled_congr _ _ _ hsame.campaigns
        (congrArg (fun rows => rows.replace (movedRow cc request now)) hsame.candidates)
    · rw [if_neg hselected, if_neg hselected]
      exact hsame.campaigns
  · rw [h.candidates, h'.candidates, hsame.candidates]
  · rw [h.history, h'.history, hsame.history]
  · rw [h.rounds, h'.rounds, hsame.rounds]

end Moves

variable (campaigns : Table HiringCampaign HiringCampaign.id)

section Rescores

variable {db db' e : Db} {cc : CampaignCandidate} {request : StageRequest} {now : Instant}
  {fromStage toStage : PipelineStage} {env : RescoreEnv} {ccId : Uuid}

open CampaignCandidateRepository CampaignCandidateAIEvaluationRepository in
def rescoredRow (env : RescoreEnv) (cc : CampaignCandidate) : CampaignCandidate :=
  if !(CandidateReEvaluationValidator.evaluate cc env.candidate
      (campaigns.find? cc.campaignId)).allowed then cc
  else if env.resume.map Resume.parseStatus ≠ some .parsed then cc
  else
    match env.fault with
    | some .beforeCommit => cc
    | _ => { resetForRescore cc with aiEvaluation := some (reset (getOrCreate cc)) }

def rescoredTable (candidates : Table CampaignCandidate CampaignCandidate.id) (ccId : Uuid)
    (fromStage toStage : PipelineStage) (env : RescoreEnv) :
    Table CampaignCandidate CampaignCandidate.id :=
  if rescoreDue fromStage toStage then
    match candidates.find? ccId with
    | none => candidates
    | some cc => candidates.replace (rescoredRow campaigns env cc)
  else
    candidates

theorem rescoredRow_id :
    (rescoredRow campaigns env cc).id = cc.id := by
  unfold rescoredRow
  split_ifs
  · rfl
  · rfl
  · split <;> rfl

theorem rescoreAfter_eq : rescoreAfter db ccId fromStage toStage env =
    { db with campaignCandidates :=
        rescoredTable db.campaigns db.campaignCandidates ccId fromStage toStage env } := by
  unfold rescoreAfter rescoredTable
  by_cases hdue : rescoreDue fromStage toStage
  · rw [if_pos hdue, if_pos hdue]
    cases hfound : db.campaignCandidates.find? ccId with
    | none => simp [enqueueManualRescore, CampaignCandidateRepository.getById, hfound]
    | some cc =>
      have hid : cc.id = ccId := ((db.campaignCandidates.find?_eq_some _ _).mp hfound).2
      have hsame : db.campaignCandidates.replace cc = db.campaignCandidates :=
        db.campaignCandidates.replace_found cc (by rw [hid]; exact hfound)
      have hcampaign : CampaignRepository.getById db cc.campaignId =
          db.campaigns.find? cc.campaignId := rfl
      simp only [enqueueManualRescore, CampaignCandidateRepository.getById, hfound, hcampaign,
        rescoredRow]
      split_ifs
      · rw [hsame]
      · rw [hsame]
      · cases env.fault with
        | none => rfl
        | some fault =>
          cases fault with
          | beforeCommit => simp only [hsame]
          | atDispatch => rfl
  · rw [if_neg hdue, if_neg hdue]

theorem rescoreAfter_same (h : Same db db') : Same (rescoreAfter db ccId fromStage toStage env)
      (rescoreAfter db' ccId fromStage toStage env) := by
  rw [rescoreAfter_eq, rescoreAfter_eq]
  refine ⟨h.campaigns, ?_, h.history, h.rounds⟩
  rw [h.campaigns, h.candidates]

theorem find?_rescoreAfter {other : Uuid} (hne : other ≠ ccId) :
    (rescoreAfter db ccId fromStage toStage env).campaignCandidates.find? other =
      db.campaignCandidates.find? other := by
  rw [rescoreAfter_eq]
  unfold rescoredTable
  by_cases hdue : rescoreDue fromStage toStage
  · rw [if_pos hdue]
    cases hfound : db.campaignCandidates.find? ccId with
    | none => rfl
    | some cc =>
      have hid : cc.id = ccId := ((db.campaignCandidates.find?_eq_some _ _).mp hfound).2
      refine Table.find?_replace_ne _ _ _ ?_
      rw [rescoredRow_id, hid]
      exact hne
  · rw [if_neg hdue]

theorem rescoreAfter_comm {other : Db} (hne : cc.id ≠ ccId) (hto : request.toStage = toStage)
    (h : MoveEffect db e cc request now)
    (h' : MoveEffect (rescoreAfter db ccId fromStage toStage env) other cc request now) :
    Same (rescoreAfter e ccId fromStage toStage env) other := by
  by_cases hdue : rescoreDue fromStage toStage
  · have hselected : request.toStage ≠ .selected := by
      rw [hto, hdue.1]
      decide
    have hcampaigns := h.campaigns
    have hcampaigns' := h'.campaigns
    rw [if_neg hselected] at hcampaigns hcampaigns'
    rw [rescoreAfter_eq] at hcampaigns' h' ⊢
    refine ⟨hcampaigns'.trans hcampaigns.symm, ?_, h'.history.trans h.history.symm,
      h'.rounds.trans h.rounds.symm⟩
    rw [h'.candidates]
    change (rescoredTable db.campaigns db.campaignCandidates ccId fromStage toStage env).replace _ =
      rescoredTable e.campaigns e.campaignCandidates ccId fromStage toStage env
    rw [hcampaigns, h.candidates]
    unfold rescoredTable
    have hother : (db.campaignCandidates.replace (movedRow cc request now)).find? ccId =
        db.campaignCandidates.find? ccId := by
      refine Table.find?_replace_ne _ _ _ ?_
      rw [movedRow_id]
      exact Ne.symm hne
    rw [if_pos hdue, if_pos hdue, hother]
    cases hfound : db.campaignCandidates.find? ccId with
    | none => rfl
    | some found =>
      have hid : found.id = ccId := ((db.campaignCandidates.find?_eq_some _ _).mp hfound).2
      refine Table.replace_comm _ _ _ ?_
      rw [rescoredRow_id, movedRow_id, hid]
      exact Ne.symm hne
  · rw [rescoreAfter, if_neg hdue] at h' ⊢
    exact h.same h' (Same.refl db)

end Rescores

section Batch

variable {table : TransitionTable} {request : StageRequest} {now : Uuid → Instant}
  {fromStage : PipelineStage} {rescores : Uuid → RescoreData} {db d e f : Db}
  {cc : CampaignCandidate}

def rescoreAll (fromStage toStage : PipelineStage) (rescores : Uuid → RescoreData)
    (candidates : List CampaignCandidate) (db : Db) : Db :=
  candidates.foldl (fun db cc => rescoreAfter db cc.id fromStage toStage (rescores cc.id).env) db

theorem rescoreAll_same (fromStage toStage : PipelineStage) (rescores : Uuid → RescoreData)
    (done : List CampaignCandidate) (h : Same d e) :
    Same (rescoreAll fromStage toStage rescores done d)
      (rescoreAll fromStage toStage rescores done e) := by
  induction done generalizing d e with
  | nil => exact h
  | cons first rest ih => exact ih (rescoreAfter_same h)

theorem moveCandidate_effect (h : moveCandidate table request now db cc = .ok e) :
    MoveEffect db e cc request (now cc.id) := by
  obtain ⟨⟨moved, after⟩, htransition, hmoved⟩ := (map_eq_ok _ _ _).mp h
  obtain rfl : moved = e := hmoved
  exact transitionStage_effect htransition

theorem moveCandidate_ok {by_ : String} (hby : request.changedBy = some by_) (d : Db)
    (h : moveCandidate table request now db cc = .ok e) :
    ∃ moved, moveCandidate table request now d cc = .ok moved := by
  obtain ⟨⟨moved, after⟩, htransition, -⟩ := (map_eq_ok _ _ _).mp h
  have hdb := transitionStage_attributed table db (now cc.id) true cc request by_ hby
  have hd := transitionStage_attributed table d (now cc.id) true cc request by_ hby
  cases hpermit : permit table cc request with
  | error raised =>
    rw [hpermit] at hdb
    rw [hdb] at htransition
    cases htransition
  | ok row =>
    rw [hpermit] at hd
    obtain ⟨result, hresult⟩ := hd
    exact ⟨result.1, (map_eq_ok _ _ _).mpr ⟨result, hresult, rfl⟩⟩

theorem rescoreAll_comm {by_ : String} (hby : request.changedBy = some by_)
    (done : List CampaignCandidate) (hnew : cc.id ∉ done.map CampaignCandidate.id)
    (hmoved : moveCandidate table request now d cc = .ok e)
    (hlate : moveCandidate table request now
      (rescoreAll fromStage request.toStage rescores done d) cc = .ok f) :
    Same (rescoreAll fromStage request.toStage rescores done e) f := by
  induction done generalizing d e with
  | nil =>
    have heq : e = f := Except.ok.inj (hmoved.symm.trans hlate)
    exact heq ▸ Same.refl e
  | cons first rest ih =>
    rw [List.map_cons, List.mem_cons, not_or] at hnew
    have hother := moveCandidate_ok hby
      (rescoreAfter d first.id fromStage request.toStage (rescores first.id).env) hmoved
    obtain ⟨g, hg⟩ := hother
    have hlast : Same (rescoreAll fromStage request.toStage rescores rest g) f :=
      ih hnew.2 hg hlate
    have hfirst := rescoreAfter_comm hnew.1 rfl (moveCandidate_effect hmoved)
      (moveCandidate_effect hg)
    exact (rescoreAll_same _ _ _ rest hfirst).trans hlast

end Batch

section Service

variable (table : TransitionTable) (campaignId : Uuid) (ccIds : List Uuid)
  (targetStage actorId reason : String)
  (actorRole : Option String) (rescores : Uuid → RescoreData) (now : Uuid → Instant)
  {fromStage toStage : PipelineStage} {db d e : Db} {cc : CampaignCandidate}

theorem moveOne_eq (env : RescoreEnv) (hparse : parseStage targetStage = .ok toStage)
    (hfound : e.campaignCandidates.find? cc.id = some cc) (hcampaign : cc.campaignId = campaignId)
    (hne : cc.pipelineStage ≠ toStage) :
    match moveCandidate table (manualRequest toStage actorId actorRole (some reason)) now e cc with
    | .error raised => (moveOne table e campaignId cc.id targetStage (some reason) actorId
        actorRole env (now cc.id)).map Prod.fst = .error raised
    | .ok moved => ∃ logged, Same moved logged ∧
        (moveOne table e campaignId cc.id targetStage (some reason) actorId actorRole env
          (now cc.id)).map Prod.fst =
          .ok (rescoreAfter logged cc.id cc.pipelineStage toStage env) := by
  have hload : loadInCampaign e campaignId cc.id = .ok cc := by
    have hcall : CampaignCandidateRepository.getById e cc.id = some cc := hfound
    simp only [loadInCampaign, hcall, hcampaign, ne_eq, not_true_eq_false, if_false]
  simp only [moveOne, hparse, hload, bind, Except.bind, if_neg hne, moveCandidate]
  cases transitionStage table e true cc
      (manualRequest toStage actorId actorRole (some reason)) (now cc.id) with
  | error raised => rfl
  | ok result =>
    refine ⟨_, ?_, rfl⟩
    exact ⟨rfl, rfl, rfl, rfl⟩

-- Both raise, or both return and the second ends where the first does after `finish`.
def Agree (finish : Db → Db) : Except ServiceError Db → Except ServiceError Db → Prop
  | .ok d, .ok e => Same (finish d) e
  | .error _, .error _ => True
  | _, _ => False

theorem distinct_around {done rest : List CampaignCandidate}
    (h : ((done ++ [cc] ++ rest).map CampaignCandidate.id).Nodup) :
    cc.id ∉ done.map CampaignCandidate.id ∧ ∀ other ∈ rest, other.id ≠ cc.id := by
  rw [List.map_append, List.map_append, List.map_singleton, List.append_assoc,
    List.nodup_append] at h
  obtain ⟨-, hrest, hdone⟩ := h
  rw [List.singleton_append, List.nodup_cons] at hrest
  constructor
  · intro hmem
    exact hdone _ hmem cc.id (by simp) rfl
  · intro other hother heq
    exact hrest.1 (heq ▸ List.mem_map_of_mem hother)

-- `done` has been moved on both sides, but re-scored on the second one only.
theorem moves_agree (hparse : parseStage targetStage = .ok toStage) (hne : fromStage ≠ toStage)
    (done rest : List CampaignCandidate)
    (hnodup : ((done ++ rest).map CampaignCandidate.id).Nodup)
    (hsame : Same (rescoreAll fromStage toStage rescores done d) e)
    (hrows : ∀ cc ∈ rest, e.campaignCandidates.find? cc.id = some cc ∧
      cc.campaignId = campaignId ∧ cc.pipelineStage = fromStage) :
    Agree (rescoreAll fromStage toStage rescores (done ++ rest)) (rest.foldlM
        (moveCandidate table (manualRequest toStage actorId actorRole (some reason)) now) d)
      (moveEach table e campaignId (rest.map CampaignCandidate.id) targetStage reason actorId
        actorRole rescores now) := by
  let request := manualRequest toStage actorId actorRole (some reason)
  have hby : request.changedBy = some actorId := rfl
  induction rest generalizing done d e with
  | nil =>
    rw [List.append_nil]
    exact hsame
  | cons cc rest ih =>
    obtain ⟨hfound, hcampaign, hstage⟩ := hrows cc List.mem_cons_self
    have hone := moveOne_eq table campaignId targetStage actorId reason actorRole now
      (rescores cc.id).env hparse hfound hcampaign (hstage ▸ hne)
    rw [List.foldlM_cons]
    change Agree _ _ (((moveOne table e campaignId cc.id targetStage (some reason) actorId
      actorRole (rescores cc.id).env (now cc.id)).map Prod.fst) >>= fun e =>
        moveEach table e campaignId (rest.map CampaignCandidate.id) targetStage reason actorId
          actorRole rescores now)
    cases hmove : moveCandidate table request now d cc with
    | error raised =>
      cases hlate : moveCandidate table request now e cc with
      | error late =>
        rw [hlate] at hone
        rw [hone]
        exact trivial
      | ok moved =>
        obtain ⟨other, hother⟩ := moveCandidate_ok hby d hlate
        rw [hmove] at hother
        cases hother
    | ok moved =>
      obtain ⟨late, hlate⟩ := moveCandidate_ok hby e hmove
      obtain ⟨middle, hmiddle⟩ := moveCandidate_ok hby
        (rescoreAll fromStage toStage rescores done d) hmove
      rw [hlate] at hone
      obtain ⟨logged, hlogged, hreturned⟩ := hone
      rw [hreturned, hstage]
      rw [List.append_cons] at hnodup ⊢
      obtain ⟨hearlier, hlater⟩ := distinct_around hnodup
      have hsplit : rescoreAll fromStage toStage rescores (done ++ [cc]) moved =
          rescoreAfter (rescoreAll fromStage toStage rescores done moved) cc.id fromStage
            toStage (rescores cc.id).env := by
        unfold rescoreAll
        rw [List.foldl_append]
        rfl
      have hmoved : Same (rescoreAll fromStage toStage rescores done moved) logged := by
        have hcomm := rescoreAll_comm hby done hearlier hmove hmiddle
        have hstep := (moveCandidate_effect hmiddle).same (moveCandidate_effect hlate) hsame
        exact (hcomm.trans hstep).trans hlogged
      refine ih (done ++ [cc]) hnodup ?_ ?_
      · rw [hsplit]
        exact rescoreAfter_same hmoved
      · intro other hother
        have hother' := hrows other (List.mem_cons_of_mem cc hother)
        have hdistinct : other.id ≠ cc.id := hlater other hother
        refine ⟨?_, hother'.2⟩
        rw [find?_rescoreAfter hdistinct, hlogged.candidates,
          (moveCandidate_effect hlate).candidates, Table.find?_replace_ne _ _ _ ?_]
        · exact hother'.1
        · rw [movedRow_id]
          exact hdistinct

theorem transitionAll_ends (request : StageRequest) (candidates : List CampaignCandidate)
    {post : Except ServiceError Unit → Db → List (Unit × Db) → Prop}
    {failed : List (Unit × Db) → Prop} {commits : List (Unit × Db)} (hfailed : failed commits)
    (hok : ∀ moved, candidates.foldlM (moveCandidate table request now) db = .ok moved →
      post (.ok ()) moved commits)
    (herror : ∀ raised view, candidates.foldlM (moveCandidate table request now) db =
      .error raised → post (.error raised) view commits) :
    Ends post failed (transitionAll table request now candidates) db commits := by
  induction candidates generalizing db with
  | nil => exact hok db rfl
  | cons cc rest ih =>
    rw [transitionAll, ends_query_bind]
    refine ⟨hfailed, ?_⟩
    simp only [List.foldlM_cons] at hok herror
    cases hmove : moveCandidate table request now db cc with
    | error raised =>
      rw [hmove] at herror
      simp only [id, hmove]
      exact herror raised db rfl
    | ok moved =>
      rw [hmove] at hok herror
      simp only [id, hmove]
      rw [ends_flush_bind]
      exact ⟨hfailed, ih hok herror⟩

-- The one commit of a batch is its last call: a run that raises has made none.
theorem moveAll_ends (db : Db) : Ends (fun result _ commits =>
        match result with
        | .ok moves => selection campaignId ccIds targetStage db = .ok moves ∧ ∃ moved,
            moves.candidates.foldlM (moveCandidate table
              (manualRequest moves.toStage actorId actorRole (some reason)) now) db = .ok moved ∧
            commits = [((), logBatch moved campaignId moves reason actorId actorRole)]
        | .error raised => commits = [] ∧ ∀ moves,
            selection campaignId ccIds targetStage db = .ok moves →
            moves.candidates.foldlM (moveCandidate table
              (manualRequest moves.toStage actorId actorRole (some reason)) now) db = .error raised)
      (fun commits => commits = [])
      (moveAll table campaignId ccIds targetStage reason actorId actorRole now) db [] := by
  rw [moveAll, ends_query_bind]
  refine ⟨rfl, ?_⟩
  cases hselected : selection campaignId ccIds targetStage db with
  | error raised =>
    refine ⟨rfl, ?_⟩
    intro moves hmoves
    cases hmoves
  | ok moves =>
    rw [ends_bind]
    refine transitionAll_ends table now _ _ rfl ?_ ?_
    · intro moved hmoved
      exact ⟨rfl, rfl, rfl, moved, hmoved, rfl⟩
    · intro raised view hraised
      refine ⟨rfl, ?_⟩
      intro other hother
      obtain rfl : moves = other := Except.ok.inj hother
      exact hraised

theorem bulkMove_spec (db : Db) (failIn : Option ℕ) :
    let bulk := bulkMove table db campaignId ccIds targetStage reason actorId actorRole rescores
      now failIn
    match bulk.1 with
    | .ok _ => ∃ moves moved, selection campaignId ccIds targetStage db = .ok moves ∧
        moves.candidates.foldlM (moveCandidate table
          (manualRequest moves.toStage actorId actorRole (some reason)) now) db = .ok moved ∧
        bulk.2 = rescoreAll moves.fromStage moves.toStage rescores moves.candidates
          (logBatch moved campaignId moves reason actorId actorRole)
    | .error _ => bulk.2 = db := by
  have hrun := (moveAll_ends table campaignId ccIds targetStage actorId reason actorRole now
    db).run failIn
  unfold bulkMove
  dsimp only
  cases hresult : ((moveAll table campaignId ccIds targetStage reason actorId actorRole now).run
      failIn db).result with
  | ok moves =>
    rw [hresult] at hrun
    obtain ⟨hselected, moved, hmoved, hcommits⟩ := hrun
    refine ⟨moves, moved, hselected, hmoved, ?_⟩
    rw [List.nil_append] at hcommits
    simp only [Finished.committed, hcommits]
    rfl
  | error error =>
    rw [hresult] at hrun
    have hcommits : ((moveAll table campaignId ccIds targetStage reason actorId actorRole
        now).run failIn db).commits = [] := by
      cases error with
      | database => exact hrun
      | error e => exact hrun.1
    simp only [Finished.committed, hcommits]
    rfl

theorem bulkMove_ok (failIn : Option ℕ) (result : BulkStageMoveResult)
    (h : (bulkMove table db campaignId ccIds targetStage reason actorId actorRole rescores now
      failIn).1 = .ok result) :
    ∃ moves moved, selection campaignId ccIds targetStage db = .ok moves ∧
      moves.candidates.foldlM (moveCandidate table
        (manualRequest moves.toStage actorId actorRole (some reason)) now) db = .ok moved ∧
      (bulkMove table db campaignId ccIds targetStage reason actorId actorRole rescores now
        failIn).2 = rescoreAll moves.fromStage moves.toStage rescores moves.candidates
          (logBatch moved campaignId moves reason actorId actorRole) := by
  have hspec := bulkMove_spec table campaignId ccIds targetStage actorId reason actorRole rescores
    now db failIn
  simp only [h] at hspec
  exact hspec

theorem bulkMove_raised (failIn : Option ℕ) (raised : Raised ServiceError)
    (h : (bulkMove table db campaignId ccIds targetStage reason actorId actorRole rescores now
      failIn).1 = .error raised) :
    (bulkMove table db campaignId ccIds targetStage reason actorId actorRole rescores now
      failIn).2 = db := by
  have hspec := bulkMove_spec table campaignId ccIds targetStage actorId reason actorRole rescores
    now db failIn
  simp only [h] at hspec
  exact hspec

-- Where every engine call goes through, so does a batch whose database calls do.
theorem bulkMove_returns {moves : Moves} {moved : Db}
    (hselected : selection campaignId ccIds targetStage db = .ok moves)
    (hmoved : moves.candidates.foldlM (moveCandidate table
      (manualRequest moves.toStage actorId actorRole (some reason)) now) db = .ok moved) :
    ∃ result, (bulkMove table db campaignId ccIds targetStage reason actorId actorRole rescores
      now none).1 = .ok result := by
  have hrun := (moveAll_ends table campaignId ccIds targetStage actorId reason actorRole now
    db).normal
  obtain ⟨done, hdone, -⟩ | ⟨raised, -, -, hraised⟩ := hrun
  · refine ⟨done.result, ?_⟩
    unfold bulkMove
    have hcall : ((moveAll table campaignId ccIds targetStage reason actorId actorRole now).run
        none db).result = .ok done := hdone
    simp only [hcall]
  · rw [hraised moves hselected] at hmoved
    cases hmoved

section Shared

variable {ccIds}

theorem selected_ids (h : ∀ ccId ∈ ccIds, ∃ cc, inCampaign db campaignId ccId = some cc) :
    (ccIds.filterMap (inCampaign db campaignId)).map CampaignCandidate.id = ccIds := by
  induction ccIds with
  | nil => rfl
  | cons ccId rest ih =>
    obtain ⟨cc, hcc⟩ := h ccId List.mem_cons_self
    have hid : cc.id = ccId := by
      obtain ⟨hfound, -⟩ := Option.filter_eq_some_iff.mp hcc
      exact ((db.campaignCandidates.find?_eq_some _ _).mp hfound).2
    rw [List.filterMap_cons_some hcc, List.map_cons, hid,
      ih fun other hother => h other (List.mem_cons_of_mem ccId hother)]

theorem selected_rows (h : ∀ ccId ∈ ccIds, ∃ cc, inCampaign db campaignId ccId = some cc ∧
    cc.pipelineStage = fromStage) : ∀ cc ∈ ccIds.filterMap (inCampaign db campaignId),
    db.campaignCandidates.find? cc.id = some cc ∧ cc.campaignId = campaignId ∧
      cc.pipelineStage = fromStage := by
  intro cc hcc
  obtain ⟨ccId, hccId, hfound⟩ := List.mem_filterMap.mp hcc
  obtain ⟨other, hother, hstage⟩ := h ccId hccId
  obtain rfl : cc = other := Option.some.inj (hfound.symm.trans hother)
  obtain ⟨hstored, hcampaign⟩ := Option.filter_eq_some_iff.mp hfound
  have hid : cc.id = ccId := ((db.campaignCandidates.find?_eq_some _ _).mp hstored).2
  exact ⟨hid ▸ hstored, by simpa using hcampaign, hstage⟩

theorem sourceStages_shared (candidates : List CampaignCandidate) (hne : candidates ≠ [])
    (h : ∀ cc ∈ candidates, cc.pipelineStage = fromStage) :
    sourceStages candidates = [fromStage] := by
  have hall : candidates.map CampaignCandidate.pipelineStage =
      List.replicate candidates.length fromStage := by
    rw [List.eq_replicate_iff]
    simpa using h
  rw [sourceStages, hall]
  exact List.replicate_dedup (by simpa using hne)

end Shared

theorem selection_shared (hparse : parseStage targetStage = .ok toStage)
    (hstages : sourceStages (ccIds.filterMap (inCampaign db campaignId)) = [fromStage]) :
    selection campaignId ccIds targetStage db =
      if fromStage = toStage then
        .error (.campaign "Candidates are already in that stage." 409)
      else
        .ok ⟨ccIds.filterMap (inCampaign db campaignId), skippedIds db campaignId ccIds, fromStage,
          toStage⟩ := by
  simp only [selection, hparse, hstages, bind, Except.bind]

theorem moveEach_raises {ccId : Uuid} {raised : ServiceError}
    (h : (moveOne table db campaignId ccId targetStage (some reason) actorId actorRole
      (rescores ccId).env (now ccId)).map Prod.fst = .error raised) :
    moveEach table db campaignId (ccId :: ccIds) targetStage reason actorId actorRole rescores
      now = .error raised := by
  rw [moveEach, List.foldlM_cons, h]
  rfl

-- Where the checks before the first write refuse and so does the first single move,
-- neither side returns.
theorem refused_agree (hselection : ∀ moves, selection campaignId ccIds targetStage db ≠ .ok moves)
    (hfirst : ∃ ccId rest raised, ccIds = ccId :: rest ∧
      (moveOne table db campaignId ccId targetStage (some reason) actorId actorRole
        (rescores ccId).env (now ccId)).map Prod.fst = .error raised) :
    let bulk := bulkMove table db campaignId ccIds targetStage reason actorId actorRole rescores now
    let each := moveEach table db campaignId ccIds targetStage reason actorId actorRole rescores now
    ((∃ result, (bulk none).1 = .ok result) ↔ ∃ last, each = .ok last) ∧
    ∀ failIn result last, (bulk failIn).1 = .ok result → each = .ok last →
      Same last (bulk failIn).2 := by
  intro bulk each
  have hbulk (failIn : Option ℕ) (result : BulkStageMoveResult) : (bulk failIn).1 ≠ .ok result := by
    intro h
    obtain ⟨selected, -, hselected, -⟩ := bulkMove_ok table campaignId ccIds targetStage actorId
      reason actorRole rescores now failIn result h
    exact hselection selected hselected
  obtain ⟨ccId, rest, raised, hids, hraise⟩ := hfirst
  have heach : each = .error raised := by
    change moveEach table db campaignId ccIds targetStage reason actorId actorRole rescores
      now = .error raised
    rw [hids]
    exact moveEach_raises table campaignId rest targetStage actorId reason actorRole rescores
      now hraise
  refine ⟨?_, fun failIn result last h => absurd h (hbulk failIn result)⟩
  rw [heach]
  constructor
  · intro h
    obtain ⟨result, hresult⟩ := h
    exact absurd hresult (hbulk none result)
  · intro h
    obtain ⟨last, hlast⟩ := h
    cases hlast

theorem accepted_agree {moves : Moves}
    (hselected : selection campaignId ccIds targetStage db = .ok moves)
    (hagree : Agree (rescoreAll moves.fromStage moves.toStage rescores moves.candidates)
      (moves.candidates.foldlM (moveCandidate table
        (manualRequest moves.toStage actorId actorRole (some reason)) now) db)
      (moveEach table db campaignId ccIds targetStage reason actorId actorRole rescores now)) :
    let bulk := bulkMove table db campaignId ccIds targetStage reason actorId actorRole rescores now
    let each := moveEach table db campaignId ccIds targetStage reason actorId actorRole rescores now
    ((∃ result, (bulk none).1 = .ok result) ↔ ∃ last, each = .ok last) ∧
    ∀ failIn result last, (bulk failIn).1 = .ok result → each = .ok last →
      Same last (bulk failIn).2 := by
  intro bulk each
  change Agree _ _ each at hagree
  constructor
  · constructor
    · intro h
      obtain ⟨result, hresult⟩ := h
      obtain ⟨selected, moved, hmoves, hmoved, -⟩ := bulkMove_ok table campaignId ccIds
        targetStage actorId reason actorRole rescores now none result hresult
      obtain rfl := Except.ok.inj (hselected.symm.trans hmoves)
      rw [hmoved] at hagree
      cases heach : each with
      | ok last => exact ⟨last, rfl⟩
      | error raised =>
        rw [heach] at hagree
        exact hagree.elim
    · intro h
      obtain ⟨last, hlast⟩ := h
      rw [hlast] at hagree
      cases hmoved : moves.candidates.foldlM (moveCandidate table
          (manualRequest moves.toStage actorId actorRole (some reason)) now) db with
      | ok moved =>
        exact bulkMove_returns table campaignId ccIds targetStage actorId reason actorRole
          rescores now hselected hmoved
      | error raised =>
        rw [hmoved] at hagree
        exact hagree.elim
  · intro failIn result last hresult hlast
    obtain ⟨selected, moved, hmoves, hmoved, hdb⟩ := bulkMove_ok table campaignId ccIds
      targetStage actorId reason actorRole rescores now failIn result hresult
    obtain rfl := Except.ok.inj (hselected.symm.trans hmoves)
    rw [hmoved, hlast] at hagree
    -- the entry of the log is all that the batch adds before it re-scores
    have hlog : Same moved (logBatch moved campaignId moves reason actorId actorRole) :=
      ⟨rfl, rfl, rfl, rfl⟩
    have hlogged : Same (rescoreAll moves.fromStage moves.toStage rescores moves.candidates
        (logBatch moved campaignId moves reason actorId actorRole)) (bulk failIn).2 :=
      hdb ▸ Same.refl _
    have hunlogged := rescoreAll_same moves.fromStage moves.toStage rescores moves.candidates hlog
    exact (hagree.symm.trans hunlogged).trans hlogged

end Service

end BulkRefinement

end AiHiring
