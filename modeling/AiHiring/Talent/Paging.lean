import AiHiring.Talent.Search

namespace AiHiring

open Library

namespace TalentPoolSearch

section Queries

variable {V D : Type} [LinearOrder D] (db : SearchDb V) (limit : FreshnessLimit)
  (conditions : ResumeRow → Bool)

-- A candidate whose newest searchable version the filters keep.
def Matching (candidateId : Uuid) : Prop :=
  ∃ resume, Newest db limit resume ∧ resume.candidateId = candidateId ∧ conditions resume

-- COUNT, the same for both searches.
def SearchTotal (total : ℕ) : Prop :=
  ∃ window, Window db limit window ∧ total = (filtered db window conditions).length

def SearchAnswer (candidates : List Uuid) : Prop :=
  ∃ window listed, Window db limit window ∧ SearchListing db window conditions listed ∧
    candidates = listed.map ResumeRow.candidateId

def embeddingsUnder (versionId : Uuid) (resume : ResumeRow) : List (ResumeEmbedding V) :=
  db.embeddings.rows.filter fun e =>
    e.resumeId = resume.id ∧ e.embeddingModelVersionId = versionId

def rankedRows (window : List (ResumeRow × ResumeEmbedding V)) (versionId : Uuid) :
    List (ResumeRow × ResumeEmbedding V) :=
  (filtered db window conditions).flatMap fun resume =>
    (embeddingsUnder db versionId resume).map fun embedding => (resume, embedding)

-- A query: its vector, the distance from it and the active model version.
structure SemanticQuery (V D : Type) where
  embeddingModelVersionId : Uuid
  distance : V → D

def SemanticAnswer (query : SemanticQuery V D) (candidates : List Uuid) : Prop :=
  ∃ window listed, Window db limit window ∧
    Listing (fun row => OrderDual.toDual (query.distance row.2.embedding))
      (rankedRows db conditions window query.embeddingModelVersionId) listed ∧
    candidates = listed.map fun row => row.1.candidateId

-- Versions of a candidate created at the same instant, the last of all, are filtered alike.
def NewestAgree : Prop :=
  ∀ resume other, Newest db limit resume → Newest db limit other →
    resume.candidateId = other.candidateId → conditions resume → conditions other

def OneRowEach (versionId : Uuid) : Prop :=
  ∀ resume, Newest db limit resume → conditions resume →
    (embeddingsUnder db versionId resume).length = 1

-- Every matching row of the one is nearer than every one of the other.
def Nearer (query : SemanticQuery V D) (candidateId otherId : Uuid) : Prop :=
  ∀ resume other, Newest db limit resume → resume.candidateId = candidateId → conditions resume →
    Newest db limit other → other.candidateId = otherId → conditions other →
    ∀ e ∈ embeddingsUnder db query.embeddingModelVersionId resume,
      ∀ e' ∈ embeddingsUnder db query.embeddingModelVersionId other,
        query.distance e.embedding < query.distance e'.embedding

def Apart (query : SemanticQuery V D) : Prop :=
  ∀ candidateId otherId, Matching db limit conditions candidateId →
    Matching db limit conditions otherId → candidateId ≠ otherId →
    Nearer db limit conditions query candidateId otherId ∨
      Nearer db limit conditions query otherId candidateId

end Queries

section Fixed

variable {V D : Type} [LinearOrder D] {db : SearchDb V} {limit : FreshnessLimit}
  {conditions : ResumeRow → Bool} {window : List (ResumeRow × ResumeEmbedding V)}
  {resume other : ResumeRow} {shown : List Uuid} {query : SemanticQuery V D}

theorem Window.candidates_nodup (h : Window db limit window) :
    ((filtered db window conditions).map ResumeRow.candidateId).Nodup := by
  have hrows : (filtered db window conditions).Nodup :=
    (db.resumes.nodup.of_map ResumeRow.id).filter _
  refine hrows.map_on ?_
  intro r hr s hs hcandidate
  obtain ⟨hrow, hpicked, -⟩ := mem_filtered.mp hr
  obtain ⟨hrow', hpicked', -⟩ := mem_filtered.mp hs
  exact h.picked_unique hrow hpicked hrow' hpicked' hcandidate

theorem Window.matching (h : Window db limit window) {candidateId : Uuid}
    (hmem : candidateId ∈ (filtered db window conditions).map ResumeRow.candidateId) :
    Matching db limit conditions candidateId := by
  obtain ⟨resume, hfiltered, rfl⟩ := List.mem_map.mp hmem
  obtain ⟨hrow, hpicked, hconditions⟩ := mem_filtered.mp hfiltered
  exact ⟨resume, h.newest hrow hpicked, rfl, hconditions⟩

theorem Window.matching_iff (h : Window db limit window)
    (hagree : NewestAgree db limit conditions) {candidateId : Uuid} :
    candidateId ∈ (filtered db window conditions).map ResumeRow.candidateId ↔
      Matching db limit conditions candidateId := by
  constructor
  · exact h.matching
  · rintro ⟨resume, hnewest, rfl, hconditions⟩
    obtain ⟨picked, hrow, hpicked, hcandidate⟩ := h.exists_picked hnewest.searchable
    have hkept : conditions picked :=
      hagree resume picked hnewest (h.newest hrow hpicked) hcandidate.symm hconditions
    exact List.mem_map.mpr ⟨picked, mem_filtered.mpr ⟨hrow, hpicked, hkept⟩, hcandidate⟩

theorem fixed_of_perm {answers : List Uuid → Prop} (hagree : NewestAgree db limit conditions)
    (hlisted : answers shown)
    (hperm : ∀ candidates, answers candidates → ∃ window, Window db limit window ∧
      candidates.Perm ((filtered db window conditions).map ResumeRow.candidateId))
    (before : Uuid → Uuid → Prop)
    (hsorted : ∀ candidates, answers candidates → candidates.Pairwise before)
    (hasymm : ∀ a b, Matching db limit conditions a → Matching db limit conditions b →
      before a b → before b a → a = b) :
    Fixed answers (SearchTotal db limit conditions) (Matching db limit conditions) shown := by
  have hmem (candidates : List Uuid) (h : answers candidates) (candidateId : Uuid) :
      candidateId ∈ candidates ↔ Matching db limit conditions candidateId := by
    obtain ⟨window, hwindow, hrows⟩ := hperm candidates h
    rw [hrows.mem_iff, hwindow.matching_iff hagree]
  have hnodup (candidates : List Uuid) (h : answers candidates) : candidates.Nodup := by
    obtain ⟨window, hwindow, hrows⟩ := hperm candidates h
    exact hrows.nodup_iff.mpr hwindow.candidates_nodup
  refine ⟨fun candidates h => ?_, hnodup shown hlisted, hmem shown hlisted, ?_⟩
  · have hsame : candidates.Perm shown :=
      (List.perm_ext_iff_of_nodup (hnodup _ h) (hnodup _ hlisted)).mpr fun candidateId =>
        (hmem _ h candidateId).trans (hmem _ hlisted candidateId).symm
    exact hsame.eq_of_pairwise (fun a b ha hb => hasymm a b ((hmem _ h a).mp ha)
      ((hmem _ hlisted b).mp hb)) (hsorted _ h) (hsorted _ hlisted)
  · rintro total ⟨window, hwindow, rfl⟩
    have hsame : ((filtered db window conditions).map ResumeRow.candidateId).Perm shown :=
      (List.perm_ext_iff_of_nodup hwindow.candidates_nodup (hnodup _ hlisted)).mpr
        fun candidateId =>
          (hwindow.matching_iff hagree).trans (hmem _ hlisted candidateId).symm
    rw [← hsame.length_eq, List.length_map]

-- Otherwise the other version could be taken, and the candidate would be missing.
theorem newestAgree_of_fixed {answers : List Uuid → Prop}
    (h : Fixed answers (SearchTotal db limit conditions) (Matching db limit conditions) shown)
    (hanswer : ∀ window, Window db limit window → ∃ candidates, answers candidates ∧
      candidates ⊆ (filtered db window conditions).map ResumeRow.candidateId) :
    NewestAgree db limit conditions := by
  intro resume other hresume hother hcandidate hconditions
  obtain ⟨window, hwindow, hpicked, -⟩ := exists_window_picking hother hother fun _ => rfl
  obtain ⟨candidates, hcandidates, hsubset⟩ := hanswer window hwindow
  obtain rfl := h.answer candidates hcandidates
  obtain ⟨taken, htaken, hsame⟩ := List.mem_map.mp
    (hsubset ((h.mem _).mpr ⟨resume, hresume, rfl, hconditions⟩))
  obtain ⟨hrow, htakenPicked, hkept⟩ := mem_filtered.mp htaken
  obtain rfl := hwindow.picked_unique hrow htakenPicked hother.searchable.mem hpicked
    (hsame.trans hcandidate)
  exact hkept

variable (db limit conditions) in
theorem exists_searchAnswer (hwindow : Window db limit window) :
    ∃ candidates, SearchAnswer db limit conditions candidates ∧
      candidates.Perm ((filtered db window conditions).map ResumeRow.candidateId) := by
  obtain ⟨listed, hlisted⟩ := exists_listing
    (fun r : ResumeRow => toLex (db.candidateCreatedAt r.candidateId, r.candidateId))
    (joinCandidates db (filtered db window conditions))
  refine ⟨_, ⟨window, listed, hwindow, hlisted, rfl⟩, ?_⟩
  rw [← joinCandidates_filtered]
  exact hlisted.perm.map _

variable (db limit conditions) in
theorem exists_window : ∃ window, Window db limit window :=
  exists_listing _ _

variable (db limit conditions) in
theorem searchPaging_iff :
    PagesRight (SearchAnswer db limit conditions) (SearchTotal db limit conditions)
        (Matching db limit conditions) ↔
      NewestAgree db limit conditions := by
  obtain ⟨window, hwindow⟩ := exists_window db limit
  obtain ⟨shown, hshown, -⟩ := exists_searchAnswer db limit conditions hwindow
  rw [pagesRight_iff ⟨shown, hshown⟩ ⟨_, window, hwindow, rfl⟩]
  constructor
  · rintro ⟨listed, h⟩
    refine newestAgree_of_fixed h fun window hwindow => ?_
    obtain ⟨candidates, hcandidates, hperm⟩ := exists_searchAnswer db limit conditions hwindow
    exact ⟨candidates, hcandidates, hperm.subset⟩
  · intro hagree
    refine ⟨shown, fixed_of_perm hagree hshown ?_ (fun a b =>
      toLex (db.candidateCreatedAt b, b) ≤ toLex (db.candidateCreatedAt a, a)) ?_ ?_⟩
    · rintro candidates ⟨window, listed, hwindow, hlisted, rfl⟩
      have hperm := Listing.perm hlisted
      rw [joinCandidates_filtered] at hperm
      exact ⟨window, hwindow, hperm.map _⟩
    · rintro candidates ⟨window, listed, hwindow, hlisted, rfl⟩
      exact List.pairwise_map.mpr (Listing.sorted hlisted)
    · intro a b _ _ hba hab
      exact congrArg (fun key => (ofLex key).2) (le_antisymm hab hba)

section Ranked

theorem mem_rankedRows {versionId : Uuid} {row : ResumeRow × ResumeEmbedding V} :
    row ∈ rankedRows db conditions window versionId ↔
      row.1 ∈ filtered db window conditions ∧ row.2 ∈ embeddingsUnder db versionId row.1 := by
  simp only [rankedRows, List.mem_flatMap, List.mem_map]
  constructor
  · rintro ⟨resume, hresume, embedding, hembedding, rfl⟩
    exact ⟨hresume, hembedding⟩
  · rintro ⟨hresume, hembedding⟩
    exact ⟨row.1, hresume, row.2, hembedding, rfl⟩

theorem rankedRows_candidates (versionId : Uuid) :
    (rankedRows db conditions window versionId).map (fun row => row.1.candidateId) =
      (filtered db window conditions).flatMap fun resume =>
        List.replicate (embeddingsUnder db versionId resume).length resume.candidateId := by
  simp only [rankedRows, List.map_flatMap, List.map_map, Function.comp_def, List.map_const']

theorem rankedRows_of_oneRow (hwindow : Window db limit window) {versionId : Uuid}
    (hone : OneRowEach db limit conditions versionId) :
    (rankedRows db conditions window versionId).map (fun row => row.1.candidateId) =
      (filtered db window conditions).map ResumeRow.candidateId := by
  rw [rankedRows_candidates, List.map_eq_flatMap]
  refine List.flatMap_congr fun resume hmem => ?_
  obtain ⟨hrow, hpicked, hconditions⟩ := mem_filtered.mp hmem
  rw [hone resume (hwindow.newest hrow hpicked) hconditions, List.replicate_one]

variable (conditions query) in
theorem exists_semanticAnswer (hwindow : Window db limit window) :
    ∃ candidates, SemanticAnswer db limit conditions query candidates ∧
      candidates.Perm ((rankedRows db conditions window query.embeddingModelVersionId).map
        fun row => row.1.candidateId) := by
  obtain ⟨listed, hlisted⟩ := exists_listing (fun row : ResumeRow × ResumeEmbedding V =>
      OrderDual.toDual (query.distance row.2.embedding))
    (rankedRows db conditions window query.embeddingModelVersionId)
  exact ⟨_, ⟨window, listed, hwindow, hlisted, rfl⟩, hlisted.perm.map _⟩

theorem rankedRows_subset (versionId : Uuid) :
    (rankedRows db conditions window versionId).map (fun row => row.1.candidateId) ⊆
      (filtered db window conditions).map ResumeRow.candidateId := by
  intro candidateId hmem
  obtain ⟨row, hrow, rfl⟩ := List.mem_map.mp hmem
  exact List.mem_map_of_mem (mem_rankedRows.mp hrow).1

theorem oneRowEach_of_fixed
    (h : Fixed (SemanticAnswer db limit conditions query) (SearchTotal db limit conditions)
      (Matching db limit conditions) shown) :
    OneRowEach db limit conditions query.embeddingModelVersionId := by
  intro resume hresume hconditions
  obtain ⟨window, hwindow, hpicked, -⟩ := exists_window_picking hresume hresume fun _ => rfl
  obtain ⟨candidates, hcandidates, hperm⟩ := exists_semanticAnswer conditions query hwindow
  obtain rfl := h.answer candidates hcandidates
  have hfiltered : resume ∈ filtered db window conditions :=
    mem_filtered.mpr ⟨hresume.searchable.mem, hpicked, hconditions⟩
  apply le_antisymm
  · have hnodup := hperm.nodup_iff.mp h.nodup
    rw [rankedRows_candidates, List.nodup_flatMap] at hnodup
    exact List.nodup_replicate.mp (hnodup.1 resume hfiltered)
  · have hlisted := hperm.mem_iff.mp ((h.mem _).mpr ⟨resume, hresume, rfl, hconditions⟩)
    obtain ⟨row, hrow, hcandidate⟩ := List.mem_map.mp hlisted
    obtain ⟨htaken, hembedding⟩ := mem_rankedRows.mp hrow
    obtain ⟨htakenRow, htakenPicked, -⟩ := mem_filtered.mp htaken
    obtain rfl := hwindow.picked_unique htakenRow htakenPicked hresume.searchable.mem hpicked
      hcandidate
    exact List.length_pos_of_mem hembedding

theorem exists_answer_before (hresume : Newest db limit resume) (hother : Newest db limit other)
    (hconditions : conditions resume) (hotherConditions : conditions other)
    (hne : resume.candidateId ≠ other.candidateId) {e e' : ResumeEmbedding V}
    (he : e ∈ embeddingsUnder db query.embeddingModelVersionId resume)
    (he' : e' ∈ embeddingsUnder db query.embeddingModelVersionId other)
    (hle : query.distance e.embedding ≤ query.distance e'.embedding) :
    ∃ candidates, SemanticAnswer db limit conditions query candidates ∧
      [resume.candidateId, other.candidateId].Sublist candidates := by
  obtain ⟨window, hwindow, hpicked, hotherPicked⟩ :=
    exists_window_picking hresume hother fun hsame => absurd hsame hne
  obtain ⟨listed, hlisted, hpreferred⟩ := exists_listing_preferring
    (fun row : ResumeRow × ResumeEmbedding V =>
      OrderDual.toDual (query.distance row.2.embedding))
    (rankedRows db conditions window query.embeddingModelVersionId)
    fun row => row.1.candidateId = resume.candidateId
  refine ⟨_, ⟨window, listed, hwindow, hlisted, rfl⟩, ?_⟩
  have hfirst : (resume, e) ∈ listed := hlisted.mem_iff.mpr (mem_rankedRows.mpr
    ⟨mem_filtered.mpr ⟨hresume.searchable.mem, hpicked, hconditions⟩, he⟩)
  have hsecond : (other, e') ∈ listed := hlisted.mem_iff.mpr (mem_rankedRows.mpr
    ⟨mem_filtered.mpr ⟨hother.searchable.mem, hotherPicked, hotherConditions⟩, he'⟩)
  have hrows : (resume, e) ≠ (other, e') := fun heq =>
    hne (congrArg (fun row => row.1.candidateId) heq)
  obtain hbefore | hafter := pair_sublist_or hfirst hsecond hrows
  · exact hbefore.map fun row => row.1.candidateId
  · obtain ⟨hsorted, htie⟩ :=
      List.pairwise_iff_forall_sublist.mp (hlisted.sorted.and hpreferred) hafter
    have hkey : query.distance e'.embedding = query.distance e.embedding :=
      le_antisymm hsorted hle
    have htied := htie (congrArg OrderDual.toDual hkey) (decide_eq_true rfl)
    exact absurd (of_decide_eq_true htied) hne.symm

theorem apart_of_fixed
    (h : Fixed (SemanticAnswer db limit conditions query) (SearchTotal db limit conditions)
      (Matching db limit conditions) shown) : Apart db limit conditions query := by
  rintro candidateId otherId - - hne
  by_contra hnot
  obtain ⟨hnearer, hfurther⟩ := not_or.mp hnot
  simp only [Nearer, not_forall, not_lt] at hnearer hfurther
  obtain ⟨resume, other, hresume, rfl, hconditions, hother, rfl, hotherConditions, e, he, e', he',
    hle⟩ := hnearer
  obtain ⟨far, near, hfar, hfarId, hfarConditions, hnear, hnearId, hnearConditions, f, hf, f', hf',
    hle'⟩ := hfurther
  obtain ⟨candidates, hcandidates, hbefore⟩ := exists_answer_before hother hresume
    hotherConditions hconditions hne.symm he' he hle
  obtain ⟨candidates', hcandidates', hbefore'⟩ := exists_answer_before hnear hfar
    hnearConditions hfarConditions (by rw [hnearId, hfarId]; exact hne) hf' hf hle'
  rw [h.answer _ hcandidates] at hbefore
  rw [h.answer _ hcandidates', hnearId, hfarId] at hbefore'
  exact not_pair_sublist h.nodup hbefore hbefore'

end Ranked

variable (db limit conditions query) in
theorem semanticPaging_iff :
    PagesRight (SemanticAnswer db limit conditions query) (SearchTotal db limit conditions)
        (Matching db limit conditions) ↔
      NewestAgree db limit conditions ∧
        OneRowEach db limit conditions query.embeddingModelVersionId ∧
        Apart db limit conditions query := by
  obtain ⟨window, hwindow⟩ := exists_window db limit
  obtain ⟨shown, hshown, -⟩ := exists_semanticAnswer conditions query hwindow
  rw [pagesRight_iff ⟨shown, hshown⟩ ⟨_, window, hwindow, rfl⟩]
  constructor
  · rintro ⟨listed, h⟩
    refine ⟨newestAgree_of_fixed h fun window hwindow => ?_, oneRowEach_of_fixed h,
      apart_of_fixed h⟩
    obtain ⟨candidates, hcandidates, hperm⟩ := exists_semanticAnswer conditions query hwindow
    exact ⟨candidates, hcandidates, fun _ hmem => rankedRows_subset _ (hperm.subset hmem)⟩
  · rintro ⟨hagree, hone, hapart⟩
    have hperm (candidates : List Uuid) (h : SemanticAnswer db limit conditions query candidates) :
        ∃ window, Window db limit window ∧
          candidates.Perm ((filtered db window conditions).map ResumeRow.candidateId) := by
      obtain ⟨window, listed, hwindow, hlisted, rfl⟩ := h
      exact ⟨window, hwindow, rankedRows_of_oneRow hwindow hone ▸ hlisted.perm.map _⟩
    have hrow {candidateId : Uuid} (h : Matching db limit conditions candidateId) :
        ∃ resume, Newest db limit resume ∧ resume.candidateId = candidateId ∧ conditions resume ∧
          ∃ e, e ∈ embeddingsUnder db query.embeddingModelVersionId resume := by
      obtain ⟨resume, hresume, hcandidate, hconditions⟩ := h
      have hlength := hone resume hresume hconditions
      exact ⟨resume, hresume, hcandidate, hconditions, List.exists_mem_of_length_pos (by omega)⟩
    refine ⟨shown, fixed_of_perm hagree hshown hperm (Nearer db limit conditions query) ?_ ?_⟩
    · intro candidates h
      obtain ⟨window', hwindow', hrows⟩ := hperm candidates h
      have hnodup : candidates.Nodup := hrows.nodup_iff.mpr hwindow'.candidates_nodup
      obtain ⟨window, listed, hwindow, hlisted, rfl⟩ := h
      refine List.pairwise_map.mpr
        ((hlisted.sorted.and (List.pairwise_map.mp hnodup)).imp_of_mem ?_)
      rintro a b ha hb ⟨hle, hne⟩
      obtain ⟨hresume, hembedding⟩ := mem_rankedRows.mp (hlisted.mem_iff.mp ha)
      obtain ⟨hother, hotherEmbedding⟩ := mem_rankedRows.mp (hlisted.mem_iff.mp hb)
      obtain ⟨hresumeRow, hpicked, hconditions⟩ := mem_filtered.mp hresume
      obtain ⟨hotherRow, hotherPicked, hotherConditions⟩ := mem_filtered.mp hother
      have hnewest := hwindow.newest hresumeRow hpicked
      have hnewestOther := hwindow.newest hotherRow hotherPicked
      obtain hnearer | hfurther := hapart a.1.candidateId b.1.candidateId
        ⟨a.1, hnewest, rfl, hconditions⟩ ⟨b.1, hnewestOther, rfl, hotherConditions⟩ hne
      · exact hnearer
      · exact absurd (hfurther b.1 a.1 hnewestOther rfl hotherConditions hnewest rfl hconditions
          b.2 hotherEmbedding a.2 hembedding) (not_lt.mpr hle)
    · intro a b ha hb hab hba
      obtain ⟨resume, hresume, hcandidate, hconditions, e, he⟩ := hrow ha
      obtain ⟨other, hother, hotherCandidate, hotherConditions, e', he'⟩ := hrow hb
      have hlt := hab resume other hresume hcandidate hconditions hother hotherCandidate
        hotherConditions e he e' he'
      have hgt := hba other resume hother hotherCandidate hotherConditions hresume hcandidate
        hconditions e' he' e he
      exact absurd hlt hgt.asymm

end Fixed

theorem talentPool_paging_iff {V D : Type} [LinearOrder D] (db : SearchDb V)
    (limit : FreshnessLimit) (conditions : ResumeRow → Bool) (query : SemanticQuery V D) :
    (PagesRight (SearchAnswer db limit conditions) (SearchTotal db limit conditions)
        (Matching db limit conditions) ↔
      NewestAgree db limit conditions) ∧
    (PagesRight (SemanticAnswer db limit conditions query) (SearchTotal db limit conditions)
        (Matching db limit conditions) ↔
      NewestAgree db limit conditions ∧
        OneRowEach db limit conditions query.embeddingModelVersionId ∧
        Apart db limit conditions query) :=
  ⟨searchPaging_iff db limit conditions, semanticPaging_iff db limit conditions query⟩

def outdatedDb : SearchDb ℕ where
  candidates := Table.empty.insert (CandidateService.newCandidate "first")
    (TalentWorld.newCandidate_key "first")
  resumes := Table.empty.insert (ResumeSelectionService.comparedVersion 1)
    ResumeSelectionService.firstVersion_id
  embeddings := Table.empty.insert (ResumeSelectionService.comparedEmbedding 0)
    ResumeSelectionService.firstEmbedding_id
  embeddingText _ := none
  jobDescriptions := Table.empty
  parsedJson _ := none
  jdEmbedding _ := true
  similarity _ _ := none
  scoring := scoredContext
  resumeCreatedAt _ := 0
  candidateCreatedAt _ := 0
  owned := ResumeSelectionService.firstVersion_owned

def semanticQuery : SemanticQuery ℕ ℕ := ⟨1, id⟩

def halfYear : FreshnessLimit := ⟨0, 180⟩

-- The candidate is counted and never listed.
theorem counted_not_listed :
    ¬∀ (db : SearchDb ℕ) (limit : FreshnessLimit) (conditions : ResumeRow → Bool)
      (query : SemanticQuery ℕ ℕ),
      PagesRight (SearchAnswer db limit conditions) (SearchTotal db limit conditions)
          (Matching db limit conditions) ∧
        PagesRight (SemanticAnswer db limit conditions query) (SearchTotal db limit conditions)
          (Matching db limit conditions) := by
  intro h
  obtain ⟨-, hpages⟩ := h outdatedDb halfYear (fun _ => true) semanticQuery
  obtain ⟨window, hwindow⟩ := exists_window outdatedDb halfYear
  obtain ⟨candidates, hcandidates, hperm⟩ :=
    exists_semanticAnswer (fun _ => true) semanticQuery hwindow
  obtain ⟨-, hmem, -⟩ := hpages.answer ⟨window, hwindow, rfl⟩ hcandidates
  have hsearchable : Searchable outdatedDb halfYear (ResumeSelectionService.comparedVersion 1 0) :=
    List.mem_filter.mpr ⟨List.mem_singleton_self _, by decide⟩
  obtain ⟨picked, hrow, hpicked, -⟩ := hwindow.exists_picked hsearchable
  have hmatching : Matching outdatedDb halfYear (fun _ => true) picked.candidateId :=
    ⟨picked, hwindow.newest hrow hpicked, rfl, rfl⟩
  obtain ⟨row, hranked, -⟩ := List.mem_map.mp (hperm.mem_iff.mp ((hmem _).mpr hmatching))
  obtain ⟨hembedding, hversion⟩ := List.mem_filter.mp (mem_rankedRows.mp hranked).2
  have hrow : row.2 = ResumeSelectionService.comparedEmbedding 0 0 :=
    List.mem_singleton.mp hembedding
  rw [hrow] at hversion
  exact absurd (of_decide_eq_true hversion).2 (by decide)

end TalentPoolSearch

end AiHiring
