import AiHiring.Scoring.Composite
import AiHiring.Scoring.Selection
import AiHiring.Talent.Erasure
import Mathlib.Data.List.Sigma

namespace AiHiring

open Library CandidateScoringService SkillRepository

theorem getSkillsByIds_congr (t : SkillOntologyTable) {ids ids' : List Uuid}
    (h : ∀ id, id ∈ ids ↔ id ∈ ids') : getSkillsByIds t ids = getSkillsByIds t ids' := by
  funext id
  simp only [getSkillsByIds, h]

theorem getChildrenBatch_congr (t : SkillOntologyTable) {ids ids' : List Uuid}
    (h : ∀ id, id ∈ ids ↔ id ∈ ids') : getChildrenBatch t ids = getChildrenBatch t ids' := by
  funext id
  simp only [getChildrenBatch, h]

theorem loadMandatorySkillHierarchy_congr (t : SkillOntologyTable) {ids ids' : List Uuid}
    (h : ∀ id, id ∈ ids ↔ id ∈ ids') :
    loadMandatorySkillHierarchy t ids = loadMandatorySkillHierarchy t ids' := by
  have hskills : getSkillsByIds t ids = getSkillsByIds t ids' := getSkillsByIds_congr t h
  have hchildren : getChildrenBatch t (ids ++ ids.filterMap fun id =>
        (getSkillsByIds t ids id).bind SkillOntology.parentSkillId) =
      getChildrenBatch t (ids' ++ ids'.filterMap fun id =>
        (getSkillsByIds t ids' id).bind SkillOntology.parentSkillId) := by
    refine getChildrenBatch_congr t ?_
    intro id
    simp only [List.mem_append, List.mem_filterMap, hskills, h]
  have hgrandchildren (children : Uuid → List SkillOntology) :
      getChildrenBatch t (ids.flatMap fun id =>
          ((children id).filter SkillOntology.isActive).map SkillOntology.id) =
        getChildrenBatch t (ids'.flatMap fun id =>
          ((children id).filter SkillOntology.isActive).map SkillOntology.id) := by
    refine getChildrenBatch_congr t ?_
    intro id
    simp only [List.mem_flatMap, h]
  unfold loadMandatorySkillHierarchy
  rw [SkillHierarchy.mk.injEq]
  exact ⟨hskills, hchildren, hchildren ▸ hgrandchildren _⟩

theorem coverage_skill_iff (s : SkillStore) (jdId resumeId id : Uuid) :
    id ∈ (getMandatorySkillCoverage s jdId resumeId true).map
        (fun row => row.jdSkill.canonicalSkillId) ↔
      id ∈ (getMandatoryJdSkills s jdId).map JDSkill.canonicalSkillId := by
  constructor
  · intro hid
    obtain ⟨row, hrow, rfl⟩ := List.mem_map.mp hid
    obtain ⟨jdSkill, hjdSkill, hjoin⟩ := List.mem_flatMap.mp hrow
    have hskill : row.jdSkill = jdSkill := by
      split at hjoin
      · rw [List.mem_singleton.mp hjoin]
      · obtain ⟨candidate, -, rfl⟩ := List.mem_map.mp hjoin
        rfl
    exact List.mem_map.mpr ⟨jdSkill, hjdSkill, by rw [hskill]⟩
  · intro hid
    obtain ⟨jdSkill, hjdSkill, rfl⟩ := List.mem_map.mp hid
    have hjoined : ∃ row ∈ getMandatorySkillCoverage s jdId resumeId true,
        row.jdSkill = jdSkill := by
      simp only [getMandatorySkillCoverage, List.mem_flatMap]
      cases hmatches : s.candidateSkills.rows.filter fun skill =>
          skill.canonicalSkillId = some jdSkill.canonicalSkillId ∧ skill.resumeId = resumeId ∧
            0 < skill.scoringWeight with
      | nil =>
        refine ⟨⟨jdSkill, none⟩, ⟨jdSkill, hjdSkill, ?_⟩, rfl⟩
        rw [hmatches]
        exact List.mem_singleton_self _
      | cons first rest =>
        refine ⟨⟨jdSkill, some first⟩, ⟨jdSkill, hjdSkill, ?_⟩, rfl⟩
        rw [hmatches]
        exact List.mem_map.mpr ⟨first, List.mem_cons_self, rfl⟩
    obtain ⟨row, hrow, hskill⟩ := hjoined
    exact List.mem_map.mpr ⟨row, hrow, by rw [hskill]⟩

theorem buildMandatorySkillBreakdown_preloaded (context : ScoringContext) (jdId resumeId : Uuid) :
    buildMandatorySkillBreakdown context jdId resumeId
        (some (loadMandatorySkillHierarchyForJd context.store jdId)) =
      buildMandatorySkillBreakdown context jdId resumeId none := by
  have hhierarchy : loadMandatorySkillHierarchyForJd context.store jdId =
      loadMandatorySkillHierarchy context.store.ontology
        ((getMandatorySkillCoverage context.store jdId resumeId true).map
          fun row => row.jdSkill.canonicalSkillId) :=
    loadMandatorySkillHierarchy_congr _ fun id =>
      (coverage_skill_iff context.store jdId resumeId id).symm
  simp only [buildMandatorySkillBreakdown, Option.getD_some, Option.getD_none, hhierarchy]

theorem filter_key_eq {α : Type*} (key : α → ℕ) {l : List α} (hnodup : (l.map key).Nodup) {a : α}
    (ha : a ∈ l) : (l.filter fun b => key b = key a) = [a] := by
  induction l with
  | nil => simp at ha
  | cons first rest ih =>
    obtain ⟨hfirst, hrest⟩ := List.nodup_cons.mp hnodup
    by_cases hkey : key first = key a
    · have hnot : a ∉ rest := fun hmem => hfirst (hkey ▸ List.mem_map_of_mem hmem)
      have hhead : a = first := (List.mem_cons.mp ha).resolve_right hnot
      rw [List.filter_cons, if_pos (decide_eq_true hkey), hhead]
      refine congrArg _ (List.filter_eq_nil_iff.mpr ?_)
      intro b hb hsame
      have hkeys : key b = key first := of_decide_eq_true (hhead ▸ hsame)
      exact hfirst (hkeys ▸ List.mem_map_of_mem hb)
    · have hmem : a ∈ rest := (List.mem_cons.mp ha).resolve_left fun hhead =>
        hkey (congrArg key hhead.symm)
      rw [List.filter_cons, if_neg (by simpa using hkey), ih hrest hmem]

namespace ResumeSelectionService

theorem finalize_resumes (evaluated : List EvaluatedResume) :
    (finalize evaluated).map EvaluatedResume.resume = evaluated.map EvaluatedResume.resume := by
  have hfst : evaluated.zipIdx.map Prod.fst = evaluated := List.zipIdx_map_fst 0 evaluated
  calc (finalize evaluated).map EvaluatedResume.resume
      = evaluated.zipIdx.map (fun entry => entry.1.resume) := by
        simp only [finalize, List.map_map, Function.comp_def]
    _ = evaluated.map EvaluatedResume.resume := by
        conv_rhs => rw [← hfst]
        rw [List.map_map]
        rfl

theorem finalize_mem {evaluated : List EvaluatedResume} {e : EvaluatedResume}
    (h : e ∈ finalize evaluated) :
    ∃ old ∈ evaluated, e = { old with isSelected := e.isSelected } := by
  obtain ⟨entry, hentry, rfl⟩ := List.mem_map.mp h
  exact ⟨entry.1, List.fst_mem_of_mem_zipIdx hentry, rfl⟩

theorem finalize_winner {evaluated : List EvaluatedResume} (hne : evaluated ≠ []) :
    ∃ winner ∈ evaluated, (finalize evaluated).filter EvaluatedResume.isSelected =
          [{ winner with isSelected := true }] ∧
        ∀ e ∈ evaluated, e.selectionScore.getD 0 ≤ winner.selectionScore.getD 0 := by
  cases hargmax : evaluated.zipIdx.argmax fun entry => entry.1.selectionScore.getD 0 with
  | none =>
    have hnil := List.argmax_eq_none.mp hargmax
    exact absurd (List.zipIdx_eq_nil_iff.mp hnil) hne
  | some w =>
    have hmem : w ∈ evaluated.zipIdx := List.argmax_mem hargmax
    refine ⟨w.1, List.fst_mem_of_mem_zipIdx hmem, ?_, ?_⟩
    · have hone : (evaluated.zipIdx.filter fun entry => entry.2 = w.2) = [w] :=
        filter_key_eq Prod.snd (List.nodup_zipIdx_map_snd evaluated) hmem
      simp only [finalize, hargmax, Option.any_some, List.filter_map, Function.comp_def]
      rw [hone]
      simp
    · intro e he
      rw [← List.zipIdx_map_fst 0 evaluated] at he
      obtain ⟨entry, hentry, rfl⟩ := List.mem_map.mp he
      exact List.le_of_mem_argmax hentry hargmax

variable {V : Type} {db : SelectionDb V} {readers : TextReaders} {campaign : ScoredCampaign}
  {jobDescription : ScoredJd}

-- The two ways to the score are one.
variable (readers) in
theorem scoreDeterministic_eq (hjd : db.jobDescriptions.find? campaign.jdId = some jobDescription)
    {resume : ResumeRow} (hresume : db.resumes.find? resume.id = some resume)
    (hparsed : resume.parseStatus = .parsed) :
    ∃ breakdown,
      DeterministicScoringTask.calculateDeterministicScore db readers campaign resume.id =
          .ok breakdown ∧
        scoreDeterministic db readers resume campaign jobDescription
            (experienceEducationContext db.scoring.config jobDescription)
            (loadMandatorySkillHierarchyForJd db.scoring.store jobDescription.id) =
          (breakdown.deterministicScore, breakdown.deterministicPassed) := by
  have hid : jobDescription.id = campaign.jdId := ((Table.find?_eq_some _ _ _).mp hjd).2
  simp only [DeterministicScoringTask.calculateDeterministicScore, hresume, hparsed, hjd, ne_eq,
    not_true_eq_false, if_false]
  refine ⟨_, rfl, ?_⟩
  simp only [scoreDeterministic, hid, buildMandatorySkillBreakdown_preloaded]
  simp [calculateScoreBreakdown, experienceEducationContext, defaultExperienceToleranceYears,
    defaultDeterministicWeightSkills, defaultDeterministicWeightExperience,
    defaultDeterministicWeightEducation, defaultDeterministicWeightFunctional]

theorem evaluateOne_resume {jdHasEmbedding : Bool} {context : ValidationContext}
    {weights : ℚ × ℚ} {hierarchy : SkillHierarchy} (resumes : List ResumeRow) :
    (resumes.map (evaluateOne db readers campaign jobDescription jdHasEmbedding context weights
      hierarchy)).map EvaluatedResume.resume = resumes := by
  rw [List.map_map]
  exact List.map_id resumes

theorem eligible_mem {fresh : ResumeRow → Bool} {candidateId : Uuid} {resume : ResumeRow}
    (h : resume ∈ eligible db fresh candidateId) :
    db.resumes.find? resume.id = some resume ∧ resume.parseStatus = .parsed := by
  obtain ⟨hversion, heligible⟩ := List.mem_filter.mp h
  have hrow := (List.mem_filter.mp (List.mem_mergeSort.mp hversion)).1
  exact ⟨(Table.find?_eq_some _ _ _).mpr ⟨hrow, rfl⟩, (of_decide_eq_true heligible).1⟩

-- What a comparison gives: for each eligible version the score and the flag that the
-- task would store, and one of the best selected.
structure LikePipeline (db : SelectionDb V) (readers : TextReaders) (campaign : ScoredCampaign)
    (eligibleResumes : List ResumeRow) (result : ResumeSelectionResult) : Prop where
  method : result.selectionMethod = .compared
  resumes : result.evaluatedResumes.map EvaluatedResume.resume = eligibleResumes
  scores : ∀ e ∈ result.evaluatedResumes, ∃ breakdown,
    DeterministicScoringTask.calculateDeterministicScore db readers campaign e.resume.id =
        .ok breakdown ∧
      e.deterministicScore = some breakdown.deterministicScore ∧
      e.deterministicPassed = some breakdown.deterministicPassed
  selected : ∃ winner best, result.evaluatedResumes.filter EvaluatedResume.isSelected = [winner] ∧
      winner.resume = result.selectedResume ∧ winner.resume ∈ eligibleResumes ∧
      winner.selectionScore = some best ∧
      ∀ e ∈ result.evaluatedResumes, ∃ score, e.selectionScore = some score ∧ score ≤ best

variable (readers) in
theorem compareAndSelect_likePipeline
    (hjd : db.jobDescriptions.find? campaign.jdId = some jobDescription)
    {resumes : List ResumeRow} (hne : resumes ≠ [])
    (hresumes : ∀ resume ∈ resumes,
      db.resumes.find? resume.id = some resume ∧ resume.parseStatus = .parsed) :
    ∃ result, compareAndSelect db readers resumes campaign = .ok result ∧
      LikePipeline db readers campaign resumes result := by
  let evaluate := evaluateOne db readers campaign jobDescription (db.jdEmbedding campaign.jdId)
    (experienceEducationContext db.scoring.config jobDescription)
    (selectionWeights campaign (db.jdEmbedding campaign.jdId))
    (loadMandatorySkillHierarchyForJd db.scoring.store jobDescription.id)
  have hnonempty : resumes.map evaluate ≠ [] := fun hnil => hne (List.map_eq_nil_iff.mp hnil)
  obtain ⟨winner, hwinner, hfilter, hmax⟩ := finalize_winner hnonempty
  obtain ⟨resume, hresume, rfl⟩ := List.mem_map.mp hwinner
  have hfind : (finalize (resumes.map evaluate)).find? EvaluatedResume.isSelected =
      some { evaluate resume with isSelected := true } := by
    rw [← List.head?_filter, hfilter]
    rfl
  refine ⟨⟨resume, .compared, finalize (resumes.map evaluate)⟩, ?_, ?_⟩
  · simp only [compareAndSelect, hjd]
    rw [show List.find? EvaluatedResume.isSelected (finalize (resumes.map evaluate)) = _ from hfind]
    rfl
  · refine ⟨rfl, ?_, ?_, ?_⟩
    · rw [finalize_resumes]
      exact evaluateOne_resume resumes
    · intro e he
      obtain ⟨old, hold, hsame⟩ := finalize_mem he
      obtain ⟨version, hversion, rfl⟩ := List.mem_map.mp hold
      obtain ⟨hfound, hparsed⟩ := hresumes version hversion
      obtain ⟨breakdown, htask, hscore⟩ :=
        scoreDeterministic_eq readers hjd hfound hparsed
      rw [hsame]
      refine ⟨breakdown, htask, ?_, ?_⟩
      · exact congrArg (fun score => some score.1) hscore
      · exact congrArg (fun score => some score.2) hscore
    · refine ⟨{ evaluate resume with isSelected := true }, _, hfilter, rfl, hresume, rfl, ?_⟩
      intro e he
      obtain ⟨old, hold, hsame⟩ := finalize_mem he
      have hle := hmax old hold
      obtain ⟨version, hversion, rfl⟩ := List.mem_map.mp hold
      rw [hsame]
      exact ⟨_, rfl, hle⟩

theorem selection_scores_like_pipeline (db : SelectionDb V) (readers : TextReaders)
    (fresh : ResumeRow → Bool) (candidateId : Uuid) (campaign : ScoredCampaign)
    (jobDescription : ScoredJd)
    (hjd : db.jobDescriptions.find? campaign.jdId = some jobDescription)
    (hseveral : 2 ≤ (eligible db fresh candidateId).length) :
    ∃ result, selectResumeForCampaign db readers fresh candidateId campaign = .ok result ∧
      LikePipeline db readers campaign (eligible db fresh candidateId) result := by
  have hne : eligible db fresh candidateId ≠ [] := by
    intro hnil
    rw [hnil] at hseveral
    simp at hseveral
  obtain ⟨result, hresult, hlike⟩ :=
    compareAndSelect_likePipeline readers hjd hne fun resume hresume =>
      eligible_mem hresume
  refine ⟨result, ?_, hlike⟩
  unfold selectResumeForCampaign
  split
  · next hnil => exact absurd hnil hne
  · next resume hone =>
      rw [hone] at hseveral
      simp at hseveral
  · exact hresult

def comparedVersion (versionNumber : ℕ) (id : Uuid) : ResumeRow :=
  { TalentWorld.pooledResume id with candidateId := 0, versionNumber := versionNumber }

theorem comparedVersion_id (versionNumber : ℕ) (id : Uuid) :
    (comparedVersion versionNumber id).id = id := rfl

theorem firstVersion_id (id : Uuid) : (comparedVersion 1 id).id = id := rfl

theorem firstVersion_owned (r : ResumeRow)
    (hr : r ∈ ((Table.empty : Table ResumeRow ResumeRow.id).insert (comparedVersion 1)
      firstVersion_id).rows) :
    r.candidateId ∈ ((Table.empty : Table CandidateRow CandidateRow.id).insert
      (CandidateService.newCandidate "first") (TalentWorld.newCandidate_key "first")).rows.map
        CandidateRow.id := by
  obtain rfl := List.mem_singleton.mp hr
  exact List.mem_singleton_self _

def comparedEmbedding (resumeId id : Uuid) : ResumeEmbedding ℕ :=
  ⟨id, resumeId, 0, 1, 0, "resume", true, true⟩

theorem comparedEmbedding_id (resumeId id : Uuid) : (comparedEmbedding resumeId id).id = id := rfl

theorem firstEmbedding_id (id : Uuid) : (comparedEmbedding 0 id).id = id := rfl

def comparedJd : ScoredJd := ⟨0, some 3, none, none⟩

def comparedDb : SelectionDb ℕ where
  candidates := Table.empty.insert (CandidateService.newCandidate "first")
    (TalentWorld.newCandidate_key "first")
  resumes := (Table.empty.insert (comparedVersion 1) (comparedVersion_id 1)).insert
    (comparedVersion 2) (comparedVersion_id 2)
  embeddings := (Table.empty.insert (comparedEmbedding 0) (comparedEmbedding_id 0)).insert
    (comparedEmbedding 1) (comparedEmbedding_id 1)
  embeddingText _ := none
  jobDescriptions := Table.empty.insert (fun id => { comparedJd with id := id }) fun _ => rfl
  parsedJson _ := none
  jdEmbedding _ := true
  similarity _ _ := some (9 / 10)
  scoring := scoredContext

def comparedCampaign : ScoredCampaign where
  id := 0
  name := "campaign"
  status := .active
  maxCandidates := none
  hiringManagerId := "manager"
  updatedAt := 0
  orgId := none
  deadline := none
  promptTemplateId := 0
  aiEvaluatePromptId := none
  weightDeterministic := 30
  weightSemantic := 40
  weightAi := 30
  semanticThreshold := 13 / 20
  aiThreshold := 50
  deterministicThreshold := 70
  jdId := 0
  requiredSkillCoverageThreshold := 0
  maxMissingCoreSkills := 3

def plainReaders : TextReaders where
  classifyDegreeLevel _ := none
  capabilityText := ⟨fun _ => [], fun _ => [], fun _ _ => false, fun _ _ => false⟩
  splitChunks text := [text]
  totalExperienceYears := ParsedJson.totalExperienceYears

theorem comparedDb_several : 2 ≤ (eligible comparedDb (fun _ => true) 0).length := by
  have hperm : (eligible comparedDb (fun _ => true) 0).Perm
      ((comparedDb.resumes.rows.filter fun r => r.candidateId = 0).filter fun r =>
        TalentPool.isEligible comparedDb.toTalentDb (fun _ => true) r) :=
    (List.mergeSort_perm _ _).filter _
  rw [hperm.length_eq]
  decide

theorem selection_scores_like_pipeline_two :
    ∃ result, selectResumeForCampaign comparedDb plainReaders (fun _ => true) 0 comparedCampaign =
          .ok result ∧
        LikePipeline comparedDb plainReaders comparedCampaign
          (eligible comparedDb (fun _ => true) 0) result :=
  selection_scores_like_pipeline comparedDb plainReaders (fun _ => true) 0 comparedCampaign
    comparedJd rfl comparedDb_several

end ResumeSelectionService

end AiHiring
