import AiHiring.Talent.Search

namespace AiHiring

open Library

namespace ResumeSelectionService

variable {V : Type} (db : SelectionDb V) (readers : TextReaders)
  (getEmbedding : Uuid → Option (ResumeEmbedding V)) (fresh : ResumeRow → Bool)

-- `_is_eligible`, by the row that `get_embedding` returns.
def isEligibleBy (resume : ResumeRow) : Bool :=
  resume.parseStatus = .parsed ∧
    ((getEmbedding resume.id).any ResumeEmbedding.isTalentPoolEligible) ∧ fresh resume

def considered (candidateId : Uuid) : List ResumeRow :=
  (getAllVersionsByCandidate db candidateId).filter fun r => isEligibleBy getEmbedding fresh r

def selectResume (candidateId : Uuid) (campaign : ScoredCampaign) :
    Except SelectionError ResumeSelectionResult :=
  match considered db getEmbedding fresh candidateId with
  | [] => .error (.unprocessable noEligibleResume)
  | [resume] => .ok ⟨resume, .direct, [⟨resume, none, none, none, none, none, true⟩]⟩
  | eligibleResumes => compareAndSelect db readers eligibleResumes campaign

-- `get_embedding` has no ORDER BY: it may return any row of the resume.
structure AnyRow (db : TalentDb V) (getEmbedding : Uuid → Option (ResumeEmbedding V)) : Prop where
  row : ∀ resumeId embedding, getEmbedding resumeId = some embedding →
    embedding ∈ db.embeddings.rows ∧ embedding.resumeId = resumeId
  noRow : ∀ resumeId, getEmbedding resumeId = none →
    ∀ embedding ∈ db.embeddings.rows, embedding.resumeId ≠ resumeId

def raisesUnprocessable : Except SelectionError ResumeSelectionResult → Bool
  | .error (.unprocessable _) => true
  | _ => false

variable {db getEmbedding fresh}

theorem anyRow_getEmbedding (db : TalentDb V) : AnyRow db (TalentRepository.getEmbedding db) where
  row resumeId embedding h := by
    have hfound := List.find?_some h
    exact ⟨List.mem_of_find?_eq_some h, of_decide_eq_true hfound⟩
  noRow _ h embedding hrow hsame :=
    List.find?_eq_none.mp h embedding hrow (decide_eq_true hsame)

theorem exists_anyRow (db : TalentDb V) {embedding : ResumeEmbedding V}
    (hrow : embedding ∈ db.embeddings.rows) :
    ∃ getEmbedding, AnyRow db getEmbedding ∧ getEmbedding embedding.resumeId = some embedding := by
  refine ⟨fun resumeId => if resumeId = embedding.resumeId then some embedding
    else TalentRepository.getEmbedding db resumeId, ⟨?_, ?_⟩, if_pos rfl⟩
  · intro resumeId other hother
    split_ifs at hother with hsame
    · cases hother
      exact ⟨hrow, hsame.symm⟩
    · exact (anyRow_getEmbedding db).row _ _ hother
  · intro resumeId hnone
    split_ifs at hnone
    exact (anyRow_getEmbedding db).noRow _ hnone

theorem mem_considered {candidateId : Uuid} {resume : ResumeRow} :
    resume ∈ considered db getEmbedding fresh candidateId ↔
      resume ∈ db.resumes.rows ∧ resume.candidateId = candidateId ∧ resume.parseStatus = .parsed ∧
        (∃ embedding, getEmbedding resume.id = some embedding ∧
          embedding.isTalentPoolEligible) ∧ fresh resume := by
  simp only [considered, getAllVersionsByCandidate, isEligibleBy, List.mem_filter,
    List.mem_mergeSort, decide_eq_true_eq, Option.any_eq_true, and_assoc]

-- The winner of a comparison is there, so only the missing JD can stop one.
theorem compareAndSelect_not_unprocessable {eligibleResumes : List ResumeRow}
    (hne : eligibleResumes ≠ []) (campaign : ScoredCampaign) :
    raisesUnprocessable (compareAndSelect db readers eligibleResumes campaign) = false := by
  unfold compareAndSelect
  cases db.jobDescriptions.find? campaign.jdId with
  | none => rfl
  | some jobDescription =>
    dsimp only
    split
    · next hnone =>
        rw [List.find?_eq_none] at hnone
        obtain ⟨winner, -, hfilter, -⟩ := finalize_winner (List.map_eq_nil_iff.not.mpr hne)
        have hwinner := List.mem_filter.mp (hfilter ▸ List.mem_singleton_self _)
        exact absurd hwinner.2 (hnone _ hwinner.1)
    · rfl

theorem selectResume_unprocessable {candidateId : Uuid} (campaign : ScoredCampaign) :
    raisesUnprocessable (selectResume db readers getEmbedding fresh candidateId campaign) ↔
      considered db getEmbedding fresh candidateId = [] := by
  unfold selectResume
  split
  · next hnil => exact iff_of_true rfl hnil
  · next resume hone => simp [raisesUnprocessable, hone]
  · next hnil _ =>
      rw [compareAndSelect_not_unprocessable readers hnil]
      exact iff_of_false Bool.false_ne_true hnil

end ResumeSelectionService

namespace TalentPoolSearch

open ResumeSelectionService

variable {V : Type} (db : SearchDb V) (readers : TextReaders) (limit : FreshnessLimit)
  (campaign : ScoredCampaign)

-- What an unfiltered search lists can be added to the campaign, by the version that it
-- shows.
structure Addable (getEmbedding : Uuid → Option (ResumeEmbedding V)) (listed : List ResumeRow) :
    Prop where
  candidates : ∀ candidateId, candidateId ∈ listed.map ResumeRow.candidateId ↔
    ¬raisesUnprocessable (selectResume db.toSelectionDb readers getEmbedding (fresh db limit)
      candidateId campaign)
  shown : ∀ resume ∈ listed,
    resume ∈ considered db.toSelectionDb getEmbedding (fresh db limit) resume.candidateId

-- However the window, the search and `get_embedding` are answered.
def SearchableIsAddable : Prop :=
  ∀ window listed getEmbedding, Window db limit window →
    SearchListing db window (fun _ => true) listed → AnyRow db.toTalentDb getEmbedding →
    Addable db readers limit campaign getEmbedding listed

-- No row of a newest searchable version is out of the talent pool.
def NewestAllEligible : Prop :=
  ∀ resume, Newest db limit resume → ∀ embedding ∈ db.embeddings.rows,
    embedding.resumeId = resume.id → embedding.isTalentPoolEligible

variable {db limit} {window : List (ResumeRow × ResumeEmbedding V)}
  {getEmbedding : Uuid → Option (ResumeEmbedding V)} {resume : ResumeRow}

theorem searchable_of_considered (hany : AnyRow db.toTalentDb getEmbedding) {candidateId : Uuid}
    (h : resume ∈ considered db.toSelectionDb getEmbedding (fresh db limit) candidateId) :
    Searchable db limit resume := by
  obtain ⟨hrow, -, hparsed, ⟨embedding, hget, heligible⟩, hfresh⟩ := mem_considered.mp h
  obtain ⟨hembedding, hresume⟩ := hany.row _ _ hget
  refine List.mem_filter.mpr ⟨hrow, decide_eq_true ⟨hparsed, ?_, hfresh⟩⟩
  exact List.any_eq_true.mpr ⟨embedding, hembedding, decide_eq_true ⟨hresume, heligible⟩⟩

theorem considered_of_newest (hall : NewestAllEligible db limit)
    (hany : AnyRow db.toTalentDb getEmbedding) (h : Newest db limit resume) :
    resume ∈ considered db.toSelectionDb getEmbedding (fresh db limit) resume.candidateId := by
  obtain ⟨hrow, hsearchable⟩ := List.mem_filter.mp h.searchable
  obtain ⟨hparsed, hjoined, hfresh⟩ := of_decide_eq_true hsearchable
  obtain ⟨joined, hjoinedRow, hjoinedResume⟩ := List.any_eq_true.mp hjoined
  refine mem_considered.mpr ⟨hrow, rfl, hparsed, ?_, hfresh⟩
  cases hget : getEmbedding resume.id with
  | none => exact absurd (of_decide_eq_true hjoinedResume).1 (hany.noRow _ hget joined hjoinedRow)
  | some embedding =>
    obtain ⟨hembedding, hresume⟩ := hany.row _ _ hget
    exact ⟨embedding, rfl, hall resume h embedding hembedding hresume⟩

variable (db limit) in
theorem searchable_addable_iff :
    SearchableIsAddable db readers limit campaign ↔ NewestAllEligible db limit := by
  constructor
  · intro h resume hnewest embedding hembedding hresume
    obtain ⟨window, hwindow, hpicked, -⟩ := exists_window_picking hnewest hnewest fun _ => rfl
    obtain ⟨listed, hlisted⟩ := exists_listing
      (fun r : ResumeRow => toLex (db.candidateCreatedAt r.candidateId, r.candidateId))
      (joinCandidates db (filtered db window fun _ => true))
    obtain ⟨getEmbedding, hany, hget⟩ := exists_anyRow db.toTalentDb hembedding
    have hshown : resume ∈ listed := (SearchListing.mem_iff hlisted).mpr
      (mem_filtered.mpr ⟨hnewest.searchable.mem, hpicked, rfl⟩)
    have hconsidered := (h window listed getEmbedding hwindow hlisted hany).shown resume hshown
    obtain ⟨-, -, -, ⟨found, hfound, heligible⟩, -⟩ := mem_considered.mp hconsidered
    rw [hresume] at hget
    cases hget.symm.trans hfound
    exact heligible
  · intro hall window listed getEmbedding hwindow hlisted hany
    have hshown (resume : ResumeRow) (hmem : resume ∈ listed) :
        resume ∈ considered db.toSelectionDb getEmbedding (fresh db limit) resume.candidateId := by
      obtain ⟨hrow, hpicked, -⟩ := mem_filtered.mp (hlisted.mem_iff.mp hmem)
      exact considered_of_newest hall hany (hwindow.newest hrow hpicked)
    refine ⟨fun candidateId => ?_, hshown⟩
    rw [selectResume_unprocessable]
    constructor
    · intro hcandidate
      obtain ⟨resume, hmem, rfl⟩ := List.mem_map.mp hcandidate
      exact List.ne_nil_of_mem (hshown resume hmem)
    · intro hne
      obtain ⟨resume, hmem⟩ := List.exists_mem_of_ne_nil _ hne
      obtain ⟨picked, hrow, hpicked, hsame⟩ :=
        hwindow.exists_picked (searchable_of_considered hany hmem)
      have hin : picked ∈ listed := hlisted.mem_iff.mpr (mem_filtered.mpr ⟨hrow, hpicked, rfl⟩)
      exact List.mem_map.mpr ⟨picked, hin, hsame.trans (mem_considered.mp hmem).2.1⟩

-- A row of a first model that the fraud review has taken out of the pool, and the
-- row that a second model added afterwards.
def reviewedEmbedding (id : Uuid) : ResumeEmbedding ℕ :=
  ⟨id, 0, 0, 1, 0, "resume", true, false⟩

def readdedEmbedding (id : Uuid) : ResumeEmbedding ℕ :=
  ⟨id, 0, 0, 1, 1, "resume", true, true⟩

theorem reviewedEmbedding_id (id : Uuid) : (reviewedEmbedding id).id = id := rfl

theorem readdedEmbedding_id (id : Uuid) : (readdedEmbedding id).id = id := rfl

def readdedDb : SearchDb ℕ where
  candidates := Table.empty.insert (CandidateService.newCandidate "first")
    (TalentWorld.newCandidate_key "first")
  resumes := Table.empty.insert (comparedVersion 1) firstVersion_id
  embeddings := (Table.empty.insert reviewedEmbedding reviewedEmbedding_id).insert
    readdedEmbedding readdedEmbedding_id
  embeddingText _ := none
  jobDescriptions := comparedDb.jobDescriptions
  parsedJson _ := none
  jdEmbedding _ := true
  similarity _ _ := none
  scoring := scoredContext
  resumeCreatedAt _ := 0
  candidateCreatedAt _ := 0
  owned := firstVersion_owned

def today : FreshnessLimit := ⟨0, 180⟩

-- The search finds the candidate by the second row, the selection reads the first.
theorem found_not_addable :
    ¬∀ (db : SearchDb ℕ) (limit : FreshnessLimit) (campaign : ScoredCampaign),
      SearchableIsAddable db plainReaders limit campaign := by
  intro h
  obtain ⟨window, hwindow⟩ := exists_listing
    (fun row : ResumeRow × ResumeEmbedding ℕ => readdedDb.resumeCreatedAt row.1.id)
    (eligibleRows readdedDb today)
  obtain ⟨listed, hlisted⟩ := exists_listing
    (fun r : ResumeRow => toLex (readdedDb.candidateCreatedAt r.candidateId, r.candidateId))
    (joinCandidates readdedDb (filtered readdedDb window fun _ => true))
  have haddable := h readdedDb today comparedCampaign window listed _ hwindow hlisted
    (anyRow_getEmbedding readdedDb.toTalentDb)
  have hsearchable : Searchable readdedDb today (comparedVersion 1 0) :=
    List.mem_filter.mpr ⟨List.mem_singleton_self _, by decide⟩
  obtain ⟨picked, hrow, hpicked, -⟩ := Window.exists_picked hwindow hsearchable
  have hlistedPicked : picked ∈ listed :=
    (SearchListing.mem_iff hlisted).mpr (mem_filtered.mpr ⟨hrow, hpicked, rfl⟩)
  obtain ⟨-, -, -, ⟨embedding, hget, heligible⟩, -⟩ :=
    mem_considered.mp (haddable.shown picked hlistedPicked)
  obtain rfl : picked = comparedVersion 1 0 := List.mem_singleton.mp hrow
  obtain rfl : reviewedEmbedding 0 = embedding := Option.some.inj hget
  exact absurd heligible (by decide)

end TalentPoolSearch

end AiHiring
