import AiHiring.Scoring.Agreement
import AiHiring.Talent.BulkAdd

namespace AiHiring

open Library ResumeSelectionService

namespace TalentPoolService

variable {V : Type}

section Refinement

-- Every id is drawn once, and no row has it before.
structure FreshIds (request : PoolRequest V) (s : PoolDb) (meanwhile : Interference request) :
    Prop where
  injective : Function.Injective request.newId
  unused : ∀ candidateId, ∀ row ∈ s.campaignCandidates, row.id ≠ request.newId candidateId
  window : ∀ candidateId other, ∀ row ∈ meanwhile.window.rows other,
    row.id ≠ request.newId candidateId
  released : ∀ candidateId other, ∀ row ∈ meanwhile.released.before.rows other ++
    meanwhile.released.between.rows other, row.id ≠ request.newId candidateId
  history : ∀ candidateId, ∀ row ∈ s.stageHistory.rows,
    row.campaignCandidateId ≠ request.newId candidateId

structure LinkedByCall (request : PoolRequest V) (final : PoolDb) (candidateId : Uuid) :
    Prop where
  row : ∃ cc ∈ final.campaignCandidates, cc.id = request.newId candidateId ∧
    cc.campaignId = request.campaignId ∧ cc.candidateId = candidateId
  history : (final.stageHistory.rows.countP fun row =>
    row.campaignCandidateId = request.newId candidateId ∧ row.fromStage = none ∧
      row.toStage = .uploaded) = 1

structure ReportsLinks (request : PoolRequest V) (candidateIds : List Uuid)
    (response : BulkAddCandidatesResponse) (final : PoolDb) : Prop where
  once : (response.results.map BulkAddCandidateResultItem.candidateId).Perm candidateIds.eraseDups
  counts : response.added + response.failed = response.total
  added : ∀ candidateId ∈ candidateIds,
    (∃ item ∈ response.results, item.candidateId = candidateId ∧ item.status = .added) ↔
      LinkedByCall request final candidateId

-- The links with their resumes, and the queued tasks.
structure SameOutcome (s t : PoolDb) : Prop where
  rows : s.campaignCandidates.Perm t.campaignCandidates
  queue : s.queue = t.queue

variable (request : PoolRequest V) (s : PoolDb) (candidateIds : List Uuid)
  (meanwhile : Interference request)

-- The same rows, wherever they meet the calls one by one. A bulk call that is turned
-- away meets none.
structure SameInterference (placed : Landing request) : Prop where
  accepted : ∀ campaign, lockCampaign request = .ok campaign → ∀ c ∈ candidateIds,
    (placed.before.rows c ++ placed.between.rows c).Perm
      (landedBy request campaign s candidateIds meanwhile c)
  turnedAway : ∀ e, lockCampaign request = .error e → ∀ c ∈ candidateIds,
    placed.before.rows c ++ placed.between.rows c = []

structure RefinesOneByOne : Prop where
  reports : ∀ response,
    (bulkAddCandidatesToCampaign request s candidateIds meanwhile).2 = .ok response →
      ReportsLinks request candidateIds response
        (bulkAddCandidatesToCampaign request s candidateIds meanwhile).1
  loop : ∀ placed, SameInterference request s candidateIds meanwhile placed →
    SameOutcome (bulkAddCandidatesToCampaign request s candidateIds meanwhile).1
      (addOneByOne request placed s candidateIds.eraseDups).1

variable {request s candidateIds meanwhile} {campaign : ScoredCampaign} {t u : PoolDb}
  {landed more : List CampaignCandidate} {made other : Uuid → Option NewLink} {candidateId : Uuid}

theorem countP_addStageHistory (links : List NewLink)
    (history : Table CampaignCandidateStageHistory CampaignCandidateStageHistory.id)
    (id : Uuid) :
    ((links.foldl addStageHistory history).rows.countP fun row =>
      row.campaignCandidateId = id ∧ row.fromStage = none ∧ row.toStage = .uploaded) =
    (history.rows.countP fun row =>
      row.campaignCandidateId = id ∧ row.fromStage = none ∧ row.toStage = .uploaded) +
        links.countP fun link => link.campaignCandidate.id = id := by
  induction links generalizing history with
  | nil => rfl
  | cons link rest ih =>
    rw [List.foldl_cons, ih, addStageHistory, Table.rows_insert, List.countP_append,
      List.countP_cons, List.countP_cons, List.countP_nil]
    simp only [and_self, and_true]
    omega

theorem Grown.linkedByCall_iff (h : Grown request campaign s landed
      (candidateIds.eraseDups.filterMap made) t)
    (hmade : ∀ c link, made c = some link → ∃ selection, link = newLink request c selection)
    (hfresh : FreshIds request s meanwhile)
    (hlanded : ∀ c, ∀ row ∈ landed, row.id ≠ request.newId c)
    (hmem : candidateId ∈ candidateIds) :
    LinkedByCall request t candidateId ↔ (made candidateId).isSome := by
  have hids : ∀ link ∈ candidateIds.eraseDups.filterMap made,
      link.campaignCandidate.id = request.newId link.candidateId ∧
        link.campaignCandidate.campaignId = request.campaignId ∧
        link.campaignCandidate.candidateId = link.candidateId := by
    intro link hlink
    obtain ⟨c, -, hc⟩ := List.mem_filterMap.mp hlink
    obtain ⟨selection, rfl⟩ := hmade c link hc
    exact ⟨rfl, rfl, rfl⟩
  have hcandidates : (candidateIds.eraseDups.filterMap made).map NewLink.candidateId =
      candidateIds.eraseDups.filter fun c => (made c).isSome :=
    map_candidateId (fun c link hc => by
      obtain ⟨selection, rfl⟩ := hmade c link hc
      rfl) _
  have hin : candidateId ∈ (candidateIds.eraseDups.filterMap made).map NewLink.candidateId ↔
      (made candidateId).isSome := by
    rw [hcandidates, List.mem_filter, List.mem_eraseDups]
    exact and_iff_right hmem
  have hnodup : ((candidateIds.eraseDups.filterMap made).map NewLink.candidateId).Nodup :=
    hcandidates ▸ (nodup_eraseDups candidateIds).filter _
  constructor
  · rintro ⟨⟨cc, hcc, hid, -, -⟩, -⟩
    rw [h.rows.mem_iff, List.mem_append, List.mem_append] at hcc
    obtain hold | hnew | hlink := hcc
    · exact absurd hid (hfresh.unused candidateId cc hold)
    · exact absurd hid (hlanded candidateId cc hnew)
    · obtain ⟨link, hnewLink, rfl⟩ := List.mem_map.mp hlink
      have hsame := hfresh.injective ((hids link hnewLink).1.symm.trans hid)
      exact hin.mp (hsame ▸ List.mem_map_of_mem hnewLink)
  · intro hsome
    have hmember := hin.mpr hsome
    obtain ⟨link, hlink, hcandidate⟩ := List.mem_map.mp hmember
    obtain ⟨hid, hcampaign, hsame⟩ := hids link hlink
    refine ⟨⟨link.campaignCandidate, h.rows.mem_iff.mpr ?_, hcandidate ▸ hid, hcampaign,
      hsame.trans hcandidate⟩, ?_⟩
    · exact List.mem_append_right _ (List.mem_append_right _ (List.mem_map_of_mem hlink))
    · have hnone : (s.stageHistory.rows.countP fun row =>
          row.campaignCandidateId = request.newId candidateId ∧ row.fromStage = none ∧
            row.toStage = .uploaded) = 0 := by
        rw [List.countP_eq_zero]
        intro row hrow hboth
        exact hfresh.history candidateId row hrow (of_decide_eq_true hboth).1
      have hone := List.count_eq_one_of_mem hnodup hmember
      rw [List.count, List.countP_map] at hone
      rw [h.history, countP_addStageHistory, hnone, Nat.zero_add, ← hone]
      refine List.countP_congr fun other hother => ?_
      rw [(hids other hother).1]
      simp [hfresh.injective.eq_iff]

theorem isInterrupted_eraseDups : isInterrupted request campaign s candidateIds.eraseDups
    meanwhile = isInterrupted request campaign s candidateIds meanwhile := by
  rw [isInterrupted, isInterrupted, Bool.eq_iff_iff, List.any_eq_true, List.any_eq_true]
  simp only [List.mem_eraseDups]

theorem landedBy_eraseDups : landedBy request campaign s candidateIds.eraseDups meanwhile =
    landedBy request campaign s candidateIds meanwhile := by
  funext c
  rw [landedBy, landedBy, isInterrupted_eraseDups]

theorem bulkAdmitted_eraseDups : bulkAdmitted request campaign s candidateIds.eraseDups
    meanwhile = bulkAdmitted request campaign s candidateIds meanwhile := by
  funext c
  rw [bulkAdmitted, bulkAdmitted, isInterrupted_eraseDups]

theorem bulkVerdict_eraseDups : bulkVerdict request campaign s candidateIds.eraseDups
    meanwhile = bulkVerdict request campaign s candidateIds meanwhile := by
  funext c
  rw [bulkVerdict, bulkVerdict, bulkReports, bulkReports, isInterrupted_eraseDups]

variable {row : CampaignCandidate} {link : NewLink} {response : BulkAddCandidatesResponse}
    {placed : Landing request}

theorem mem_landedBy (h : row ∈ landedBy request campaign s candidateIds meanwhile candidateId) :
    row ∈ meanwhile.window.rows candidateId ∨ row ∈ meanwhile.released.before.rows candidateId ++
        meanwhile.released.between.rows candidateId := by
  rw [landedBy, List.mem_append] at h
  refine h.imp_right fun h => ?_
  split_ifs at h with hreleased
  · exact h
  · simp at h

theorem bulkAdmitted_eq_some
    (h : bulkAdmitted request campaign s candidateIds meanwhile candidateId = some link) :
    chosen request campaign candidateId = some link := by
  unfold bulkAdmitted at h
  split_ifs at h
  · exact (admitted_eq_some.mp h).2.1
  · exact (pending_eq_some.mp h).2

theorem bulk_linkedByCall_iff (hlock : lockCampaign request = .ok campaign)
    (hfresh : FreshIds request s meanwhile) (hmem : candidateId ∈ candidateIds) :
    LinkedByCall request (bulkAddCandidatesToCampaign request s candidateIds meanwhile).1
      candidateId ↔
        (bulkAdmitted request campaign s candidateIds meanwhile candidateId).isSome := by
  have hgrown := @bulk_grown _ request campaign s candidateIds meanwhile hlock
  rw [bulkAdmitted_eraseDups] at hgrown
  refine hgrown.linkedByCall_iff (fun _ _ hmade => chosen_eq_some (bulkAdmitted_eq_some hmade))
    hfresh ?_ hmem
  intro c row hrow
  obtain ⟨other, -, hlanded⟩ := List.mem_flatMap.mp hrow
  obtain hwindow | hreleased := mem_landedBy hlanded
  · exact hfresh.window c other row hwindow
  · exact hfresh.released c other row hreleased

theorem bulk_added_iff (hlock : lockCampaign request = .ok campaign)
    (h : (bulkAddCandidatesToCampaign request s candidateIds meanwhile).2 = .ok response)
    (hmem : candidateId ∈ candidateIds) :
    (∃ item ∈ response.results, item.candidateId = candidateId ∧ item.status = .added) ↔
      bulkReports request campaign s candidateIds meanwhile candidateId := by
  have hverdicts := bulk_verdicts hlock h
  rw [bulkVerdict_eraseDups] at hverdicts
  have hitem : (∃ item ∈ response.results, item.candidateId = candidateId ∧
      item.status = .added) ↔ (candidateId, BulkStatus.added) ∈ response.results.map verdict := by
    simp [verdict]
  rw [hitem, hverdicts.mem_iff, List.mem_map]
  constructor
  · rintro ⟨c, -, hverdict⟩
    obtain ⟨rfl, hstatus⟩ := Prod.mk.inj hverdict
    by_contra hnot
    rw [if_neg hnot] at hstatus
    simp at hstatus
  · intro hreports
    exact ⟨candidateId, List.mem_eraseDups.mpr hmem, by rw [bulkVerdict, if_pos hreports]⟩

theorem bulk_ok (hlock : lockCampaign request = .ok campaign) : ∃ response,
    (bulkAddCandidatesToCampaign request s candidateIds meanwhile).2 = .ok response := by
  unfold bulkAddCandidatesToCampaign
  simp only [hlock]
  split
  · exact ⟨_, rfl⟩
  · exact ⟨_, rfl⟩

theorem bulk_error {e : AddError} (hlock : lockCampaign request = .error e) :
    bulkAddCandidatesToCampaign request s candidateIds meanwhile = (s, .error e) := by
  simp only [bulkAddCandidatesToCampaign, hlock]

theorem bulk_counts
    (h : (bulkAddCandidatesToCampaign request s candidateIds meanwhile).2 = .ok response) :
    response.added + response.failed = response.total := by
  obtain ⟨results, rfl⟩ : ∃ results, response = bulkResponse request results := by
    unfold bulkAddCandidatesToCampaign at h
    cases hlock : lockCampaign request with
    | error e => simp [hlock] at h
    | ok campaign =>
      simp only [hlock] at h
      split at h
      · exact ⟨_, (Except.ok.inj h).symm⟩
      · exact ⟨_, (Except.ok.inj h).symm⟩
  have hother : (fun item : BulkAddCandidateResultItem => decide (item.status = .failed)) =
      fun item => decide ¬decide (item.status = .added) = true := by
    funext item
    cases item.status <;> rfl
  simp only [bulkResponse, hother]
  exact (List.length_eq_countP_add_countP _).symm

theorem bulk_once (hlock : lockCampaign request = .ok campaign)
    (h : (bulkAddCandidatesToCampaign request s candidateIds meanwhile).2 = .ok response) :
    (response.results.map BulkAddCandidateResultItem.candidateId).Perm
      candidateIds.eraseDups := by
  have hids := (bulk_verdicts hlock h).map Prod.fst
  rw [List.map_map, List.map_map] at hids
  have hself : candidateIds.eraseDups.map
      (Prod.fst ∘ bulkVerdict request campaign s candidateIds.eraseDups meanwhile) =
        candidateIds.eraseDups := List.map_id _
  rw [hself] at hids
  exact hids

theorem Grown.isSome_iff (h : Grown request campaign s landed
      (candidateIds.eraseDups.filterMap made) t)
    (hother : Grown request campaign s more (candidateIds.eraseDups.filterMap other) u)
    (hmade : ∀ c link, made c = some link → ∃ selection, link = newLink request c selection)
    (hotherMade : ∀ c link, other c = some link → ∃ selection, link = newLink request c selection)
    (hlanded : landed.Perm more) (hrows : t.campaignCandidates.Perm u.campaignCandidates)
    (hmem : candidateId ∈ candidateIds) :
    (made candidateId).isSome ↔ (other candidateId).isSome := by
  have hboth := (h.rows.symm.trans hrows).trans hother.rows
  rw [List.perm_append_left_iff] at hboth
  have hlinks := (List.perm_append_left_iff more).mp ((hlanded.symm.append_right _).trans hboth)
  have hcandidates (f : Uuid → Option NewLink)
      (hf : ∀ c link, f c = some link → ∃ selection, link = newLink request c selection) :
      ((candidateIds.eraseDups.filterMap f).map NewLink.campaignCandidate).map
        CampaignCandidate.candidateId = candidateIds.eraseDups.filter fun c => (f c).isSome := by
    have hown : ∀ c link, f c = some link → link.candidateId = c := by
      intro c link hc
      obtain ⟨selection, rfl⟩ := hf c link hc
      rfl
    rw [← map_candidateId hown, List.map_map]
    refine List.map_congr_left fun link hlink => ?_
    obtain ⟨c, -, hc⟩ := List.mem_filterMap.mp hlink
    obtain ⟨selection, rfl⟩ := hf c link hc
    rfl
  have hids := hlinks.map CampaignCandidate.candidateId
  rw [hcandidates made hmade, hcandidates other hotherMade] at hids
  have hsame := @List.Perm.mem_iff _ candidateId _ _ hids
  simpa [hmem] using hsame

-- No row meets a candidate of the batch, or one under the version that was selected
-- does, and some row is there before the candidate's own call checks.
def Harmless (request : PoolRequest V) (campaign : ScoredCampaign) (s : PoolDb)
    (candidateIds : List Uuid) (meanwhile : Interference request) (candidateId : Uuid)
    (link : NewLink) : Prop :=
  landedBy request campaign s candidateIds meanwhile candidateId = [] ∨
    landedBefore request meanwhile candidateId ≠ [] ∧
      ∃ row ∈ landedBy request campaign s candidateIds meanwhile candidateId,
        row.resumeId = link.resume.id

theorem landedBy_uninterrupted
    (h : isInterrupted request campaign s candidateIds meanwhile = false) :
    landedBy request campaign s candidateIds meanwhile candidateId =
      meanwhile.window.rows candidateId := by
  simp [landedBy, h]

theorem interrupted_of_sameVersion (hmem : candidateId ∈ candidateIds)
    (hlink : pending request campaign s candidateId = some link)
    (hrow : row ∈ landedBy request campaign s candidateIds meanwhile candidateId)
    (hresume : row.resumeId = link.resume.id) :
    isInterrupted request campaign s candidateIds meanwhile = true := by
  by_contra hnot
  rw [landedBy_uninterrupted (Bool.eq_false_iff.mpr hnot)] at hrow
  refine hnot (List.any_eq_true.mpr ⟨candidateId, hmem, ?_⟩)
  rw [hlink, Option.any_some, List.any_eq_true]
  exact ⟨row, hrow, decide_eq_true hresume⟩

theorem admitted_pending {rows : List CampaignCandidate} {linked : Bool}
    (hlink : pending request campaign s candidateId = some link) :
    (admitted request campaign (s.isLinked request.campaignId candidateId || linked) rows
      candidateId).isSome ↔ linked = false ∧ ∀ row ∈ rows, row.resumeId ≠ link.resume.id := by
  obtain ⟨hlinked, hchosen⟩ := pending_eq_some.mp hlink
  rw [hlinked, Bool.false_or, Option.isSome_iff_exists]
  constructor
  · rintro ⟨other, hother⟩
    obtain ⟨hfree, hsame, hrows⟩ := admitted_eq_some.mp hother
    cases hchosen.symm.trans hsame
    exact ⟨hfree, hrows⟩
  · rintro ⟨hfree, hrows⟩
    exact ⟨link, admitted_eq_some.mpr ⟨hfree, hchosen, hrows⟩⟩

theorem agree_unchosen (h : pending request campaign s candidateId = none) :
    bulkAdmitted request campaign s candidateIds meanwhile candidateId = none ∧
      admittedBy placed campaign s candidateId = none ∧
      bulkReports request campaign s candidateIds meanwhile candidateId = false := by
  refine ⟨?_, admitted_eq_none h, by simp [bulkReports, h]⟩
  rw [bulkAdmitted, h, admitted_eq_none h, ite_self]

theorem agree_undisturbed (hlink : pending request campaign s candidateId = some link)
    (hnil : landedBy request campaign s candidateIds meanwhile candidateId = [])
    (hperm : (placed.before.rows candidateId ++ placed.between.rows candidateId).Perm
      (landedBy request campaign s candidateIds meanwhile candidateId)) :
    (bulkAdmitted request campaign s candidateIds meanwhile candidateId).isSome ∧
      (admittedBy placed campaign s candidateId).isSome ∧
      bulkReports request campaign s candidateIds meanwhile candidateId := by
  obtain ⟨hbefore, hbetween⟩ := List.append_eq_nil_iff.mp (hnil ▸ hperm).eq_nil
  have hplaced : (admittedBy placed campaign s candidateId).isSome := by
    rw [admittedBy, admitted_pending hlink, hbefore, hbetween]
    simp
  obtain ⟨hwindow, hreleased⟩ := List.append_eq_nil_iff.mp hnil
  cases hint : isInterrupted request campaign s candidateIds meanwhile with
  | false =>
    refine ⟨?_, hplaced, by simp [bulkReports, hint, hlink]⟩
    simp [bulkAdmitted, hint, hlink]
  | true =>
    rw [if_pos ⟨hint, by rw [hlink]; rfl⟩] at hreleased
    obtain ⟨hbefore, hbetween⟩ := List.append_eq_nil_iff.mp hreleased
    refine ⟨?_, hplaced, by simp [bulkReports, hlink, landedBefore, hwindow, hbefore]⟩
    rw [bulkAdmitted, if_pos hint, admitted_pending hlink, landedBefore, hwindow, hbefore, hbetween]
    simp

theorem agree_seen (hmem : candidateId ∈ candidateIds)
    (hlink : pending request campaign s candidateId = some link)
    (hbefore : landedBefore request meanwhile candidateId ≠ [])
    (hrow : row ∈ landedBy request campaign s candidateIds meanwhile candidateId)
    (hresume : row.resumeId = link.resume.id)
    (hperm : (placed.before.rows candidateId ++ placed.between.rows candidateId).Perm
      (landedBy request campaign s candidateIds meanwhile candidateId)) :
    ¬(bulkAdmitted request campaign s candidateIds meanwhile candidateId).isSome ∧
      ¬(admittedBy placed campaign s candidateId).isSome ∧
      ¬bulkReports request campaign s candidateIds meanwhile candidateId := by
  have hint := interrupted_of_sameVersion hmem hlink hrow hresume
  refine ⟨?_, ?_, by simp [bulkReports, hint, hbefore]⟩
  · rw [bulkAdmitted, if_pos hint, admitted_pending hlink]
    simp [hbefore]
  · rw [admittedBy, admitted_pending hlink]
    rintro ⟨hnone, hfree⟩
    obtain hearly | hlate := List.mem_append.mp (hperm.mem_iff.mpr hrow)
    · have hnil : placed.before.rows candidateId = [] := by simpa using hnone
      exact absurd (hnil ▸ hearly) List.not_mem_nil
    · exact hfree row hlate hresume

theorem agree_of_harmless (hmem : candidateId ∈ candidateIds)
    (hharmless : ∀ link, pending request campaign s candidateId = some link →
      Harmless request campaign s candidateIds meanwhile candidateId link)
    (hperm : (placed.before.rows candidateId ++ placed.between.rows candidateId).Perm
      (landedBy request campaign s candidateIds meanwhile candidateId)) :
    ((bulkAdmitted request campaign s candidateIds meanwhile candidateId).isSome ↔
      (admittedBy placed campaign s candidateId).isSome) ∧
    (bulkReports request campaign s candidateIds meanwhile candidateId ↔
      (bulkAdmitted request campaign s candidateIds meanwhile candidateId).isSome) := by
  cases hlink : pending request campaign s candidateId with
  | none =>
    obtain ⟨hbulk, hplaced, hreports⟩ := @agree_unchosen _ request s candidateIds meanwhile
      campaign candidateId placed hlink
    simp [hbulk, hplaced, hreports]
  | some link =>
    obtain hnil | ⟨hbefore, row, hrow, hresume⟩ := hharmless link hlink
    · obtain ⟨hbulk, hplaced, hreports⟩ := agree_undisturbed hlink hnil hperm
      exact ⟨iff_of_true hbulk hplaced, iff_of_true hreports hbulk⟩
    · obtain ⟨hbulk, hplaced, hreports⟩ := agree_seen hmem hlink hbefore hrow hresume hperm
      exact ⟨iff_of_false hbulk hplaced, iff_of_false hreports hbulk⟩

theorem eq_of_isSome_iff
    (h : (bulkAdmitted request campaign s candidateIds meanwhile candidateId).isSome ↔
      (admittedBy placed campaign s candidateId).isSome) :
    bulkAdmitted request campaign s candidateIds meanwhile candidateId =
      admittedBy placed campaign s candidateId := by
  cases hmade : bulkAdmitted request campaign s candidateIds meanwhile candidateId with
  | none =>
    rw [hmade] at h
    exact (Option.not_isSome_iff_eq_none.mp (h.not.mp (by simp))).symm
  | some link =>
    obtain ⟨other, hother⟩ := Option.isSome_iff_exists.mp (h.mp (by rw [hmade]; rfl))
    have hchosen := (admitted_eq_some.mp hother).2.1
    rw [hother, ← hchosen, bulkAdmitted_eq_some hmade]

def Arrivals.nothing : Arrivals request where
  rows _ := []
  own _ _ h := absurd h List.not_mem_nil

-- All that lands, as one arrival.
def landedTogether (request : PoolRequest V) (campaign : ScoredCampaign) (s : PoolDb)
    (candidateIds : List Uuid) (meanwhile : Interference request) : Arrivals request where
  rows := landedBy request campaign s candidateIds meanwhile
  own c row hrow := by
    obtain hwindow | hreleased := mem_landedBy hrow
    · exact meanwhile.window.own c row hwindow
    · obtain hbefore | hbetween := List.mem_append.mp hreleased
      · exact meanwhile.released.before.own c row hbefore
      · exact meanwhile.released.between.own c row hbetween

theorem flatMap_perm {rows others : Uuid → List CampaignCandidate} (ids : List Uuid)
    (h : ∀ c ∈ ids, (rows c).Perm (others c)) : (ids.flatMap rows).Perm (ids.flatMap others) := by
  induction ids with
  | nil => exact List.Perm.refl _
  | cons c rest ih =>
    exact (h c List.mem_cons_self).append
      (ih fun other hother => h other (List.mem_cons_of_mem _ hother))

theorem agree_of_refines (hlock : lockCampaign request = .ok campaign)
    (h : RefinesOneByOne request s candidateIds meanwhile) (placed : Landing request)
    (hperm : ∀ c ∈ candidateIds, (placed.before.rows c ++ placed.between.rows c).Perm
      (landedBy request campaign s candidateIds meanwhile c)) (hmem : candidateId ∈ candidateIds) :
    (bulkAdmitted request campaign s candidateIds meanwhile candidateId).isSome ↔
      (admittedBy placed campaign s candidateId).isSome := by
  have hsame : SameInterference request s candidateIds meanwhile placed := by
    refine ⟨fun other hother => ?_, fun e herror => absurd (hlock.symm.trans herror) (by simp)⟩
    obtain rfl := Except.ok.inj (hlock.symm.trans hother)
    exact hperm
  have hgrown := @bulk_grown _ request campaign s candidateIds meanwhile hlock
  rw [bulkAdmitted_eraseDups, landedBy_eraseDups] at hgrown
  refine hgrown.isSome_iff (addOneByOne_spec hlock _ (nodup_eraseDups candidateIds)).1
    (fun _ _ hmade => chosen_eq_some (bulkAdmitted_eq_some hmade))
    (fun _ _ hmade => chosen_eq_some (admitted_eq_some.mp hmade).2.1) ?_ (h.loop placed hsame).rows
    hmem
  exact flatMap_perm _ fun c hc => (hperm c (List.mem_eraseDups.mp hc)).symm

theorem harmless_of_refines (hlock : lockCampaign request = .ok campaign)
    (hfresh : FreshIds request s meanwhile)
    (h : RefinesOneByOne request s candidateIds meanwhile) (hmem : candidateId ∈ candidateIds)
    (hlink : pending request campaign s candidateId = some link) :
    Harmless request campaign s candidateIds meanwhile candidateId link := by
  by_cases hnil : landedBy request campaign s candidateIds meanwhile candidateId = []
  · exact .inl hnil
  · -- once with all rows before the duplicate checks, once with all of them after
    have hearly := agree_of_refines hlock h
      ⟨landedTogether request campaign s candidateIds meanwhile, .nothing⟩
      (fun c _ => by simp [landedTogether, Arrivals.nothing]) hmem
    have hlate := agree_of_refines hlock h
      ⟨.nothing, landedTogether request campaign s candidateIds meanwhile⟩
      (fun c _ => by simp [landedTogether, Arrivals.nothing]) hmem
    rw [admittedBy, admitted_pending hlink] at hearly hlate
    have hnone : ¬(bulkAdmitted request campaign s candidateIds meanwhile candidateId).isSome := by
      rw [hearly]
      simp [landedTogether, hnil]
    refine .inr ⟨fun hbefore => ?_, ?_⟩
    · -- the bulk call reports what it has not linked
      obtain ⟨response, hresponse⟩ := @bulk_ok _ request s candidateIds meanwhile campaign hlock
      have hreports : bulkReports request campaign s candidateIds meanwhile candidateId := by
        simp [bulkReports, hlink, hbefore]
      have hlinked := ((h.reports response hresponse).added candidateId hmem).mp
        ((bulk_added_iff hlock hresponse hmem).mpr hreports)
      exact hnone ((bulk_linkedByCall_iff hlock hfresh hmem).mp hlinked)
    · rw [hlate] at hnone
      simpa [landedTogether, Arrivals.nothing] using hnone

theorem refines_of_harmless (hlock : lockCampaign request = .ok campaign)
    (hfresh : FreshIds request s meanwhile)
    (h : ∀ c ∈ candidateIds, ∀ link, pending request campaign s c = some link →
      Harmless request campaign s candidateIds meanwhile c link) :
    RefinesOneByOne request s candidateIds meanwhile := by
  refine ⟨fun response hresponse => ⟨bulk_once hlock hresponse, bulk_counts hresponse, ?_⟩, ?_⟩
  · intro c hc
    have hagree := (@agree_of_harmless _ request s candidateIds meanwhile campaign c
      ⟨.nothing, landedTogether request campaign s candidateIds meanwhile⟩ hc (h c hc)
      (List.Perm.refl _)).2
    rw [bulk_added_iff hlock hresponse hc, bulk_linkedByCall_iff hlock hfresh hc, hagree]
  · intro placed hplaced
    have hbulk := @bulk_grown _ request campaign s candidateIds meanwhile hlock
    rw [bulkAdmitted_eraseDups, landedBy_eraseDups] at hbulk
    have hloop := (@addOneByOne_spec _ request campaign s placed hlock _
      (nodup_eraseDups candidateIds)).1
    have hlinks : candidateIds.eraseDups.filterMap
        (bulkAdmitted request campaign s candidateIds meanwhile) =
          candidateIds.eraseDups.filterMap (admittedBy placed campaign s) := by
      refine List.filterMap_congr fun c hc => eq_of_isSome_iff ?_
      have hmem := List.mem_eraseDups.mp hc
      exact (agree_of_harmless hmem (h c hmem) (hplaced.accepted campaign hlock c hmem)).1
    have hlanded : (candidateIds.eraseDups.flatMap
        fun c => placed.before.rows c ++ placed.between.rows c).Perm
          (candidateIds.eraseDups.flatMap (landedBy request campaign s candidateIds meanwhile)) :=
      flatMap_perm _ fun c hc => hplaced.accepted campaign hlock c (List.mem_eraseDups.mp hc)
    rw [hlinks] at hbulk
    refine ⟨hbulk.rows.trans (List.Perm.trans ?_ hloop.rows.symm), hbulk.queue.trans
      hloop.queue.symm⟩
    exact (List.Perm.refl _).append (hlanded.symm.append_right _)

theorem refines_turnedAway {e : AddError} (hlock : lockCampaign request = .error e) :
    RefinesOneByOne request s candidateIds meanwhile := by
  refine ⟨fun response h => ?_, fun placed hplaced => ?_⟩
  · rw [bulk_error hlock] at h
    simp at h
  · have hnothing : candidateIds.eraseDups.flatMap
        (fun c => placed.before.rows c ++ placed.between.rows c) = [] := by
      rw [List.flatMap_eq_nil_iff]
      exact fun c hc => hplaced.turnedAway e hlock c (List.mem_eraseDups.mp hc)
    have hloop := @addOneByOne_refused _ request s placed e hlock candidateIds.eraseDups
    rw [hnothing] at hloop
    rw [bulk_error hlock, hloop]
    exact ⟨by simp [PoolDb.land], rfl⟩

end Refinement

def singleDb : SelectionDb ℕ where
  candidates := Table.empty.insert (CandidateService.newCandidate "first")
    (TalentWorld.newCandidate_key "first")
  resumes := Table.empty.insert (comparedVersion 1) firstVersion_id
  embeddings := Table.empty.insert (comparedEmbedding 0) firstEmbedding_id
  embeddingText _ := none
  jobDescriptions := Table.empty
  parsedJson _ := none
  jdEmbedding _ := true
  similarity _ _ := none
  scoring := scoredContext

def singleRequest : PoolRequest ℕ where
  campaignId := 0
  actorId := "recruiter"
  actorRole := none
  db := singleDb
  readers := plainReaders
  fresh _ := true
  campaigns := Table.empty.insert (fun id => { comparedCampaign with id := id }) fun _ => rfl
  newId candidateId := candidateId + 1
  newTaskId candidateId taskType := s!"{taskType}-{text candidateId}"
  broker _ := none

def emptyPool : PoolDb where
  campaignCandidates := []
  stageHistory := Table.empty
  auditLog := []
  queue := ⟨Table.empty, fun _ => none, []⟩

def undisturbed : Interference singleRequest where
  window := .nothing
  released := ⟨.nothing, .nothing⟩

def uploadedMeanwhile : Interference singleRequest where
  window :=
    { rows := fun candidateId =>
        if candidateId = 0 then [CampaignCandidateService.newCandidate 0 0 1 0] else []
      own := by
        intro candidateId row hrow
        split_ifs at hrow with hfirst
        · obtain rfl := List.mem_singleton.mp hrow
          exact ⟨rfl, hfirst.symm⟩
        · exact absurd hrow List.not_mem_nil }
  released := ⟨.nothing, .nothing⟩

theorem newId_injective : Function.Injective singleRequest.newId :=
  fun _ _ h => Nat.succ.inj h

theorem undisturbed_fresh : FreshIds singleRequest emptyPool undisturbed where
  injective := newId_injective
  unused _ _ h := absurd h List.not_mem_nil
  window _ _ _ h := absurd h List.not_mem_nil
  released _ _ _ h := absurd h List.not_mem_nil
  history _ _ h := absurd h List.not_mem_nil

theorem uploadedMeanwhile_fresh : FreshIds singleRequest emptyPool uploadedMeanwhile where
  injective := newId_injective
  unused _ _ h := absurd h List.not_mem_nil
  window candidateId other row h := by
    change row ∈ (if other = 0 then _ else _) at h
    split_ifs at h
    · obtain rfl := List.mem_singleton.mp h
      exact (Nat.succ_ne_zero candidateId).symm
    · simp at h
  released _ _ _ h := absurd h List.not_mem_nil
  history _ _ h := absurd h List.not_mem_nil

theorem chosen_single : chosen singleRequest comparedCampaign 0 =
    some (newLink singleRequest 0 ⟨comparedVersion 1 0, .direct,
      [⟨comparedVersion 1 0, none, none, none, none, none, true⟩]⟩) := by
  have heligible : eligible singleDb (fun _ => true) 0 = [comparedVersion 1 0] := by
    rw [eligible, getAllVersionsByCandidate]
    have hrows : singleDb.resumes.rows.filter (fun r => r.candidateId = 0) =
        [comparedVersion 1 0] := rfl
    rw [hrows, List.mergeSort_singleton]
    rfl
  have hselect : selectResumeForCampaign singleRequest.db singleRequest.readers
      singleRequest.fresh 0 comparedCampaign = .ok ⟨comparedVersion 1 0, .direct,
          [⟨comparedVersion 1 0, none, none, none, none, none, true⟩]⟩ := by
    have hone : eligible singleRequest.db singleRequest.fresh 0 = [comparedVersion 1 0] := heligible
    simp only [selectResumeForCampaign, hone]
  rw [chosen, hselect]
  rfl

end TalentPoolService

end AiHiring
