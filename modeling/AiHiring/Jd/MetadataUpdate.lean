import AiHiring.Jd.Verification
import AiHiring.Scoring.Skills

namespace AiHiring

open Library SkillRun JDService CandidateScoringService

namespace MetadataUpdate

-- What a row of jd_skills asks of a candidate.
structure SkillDemand where
  canonicalSkillId : Uuid
  mandatory : Bool
  weight : Option ℚ
  importance : Option JDSkillImportance
  aliasSkillIds : Option (List Uuid)

def demand (row : JDSkill) : SkillDemand where
  canonicalSkillId := row.canonicalSkillId
  mandatory := row.mandatory
  weight := row.weight
  importance := row.importance
  aliasSkillIds := row.aliasSkillIds

section Versions

variable (s : SkillStore) (jdId : Uuid)

def skillsOf : List JDSkill := s.jdSkills.rows.filter fun row => row.jdId = jdId

def pendingOf : List JDUnknownSkill :=
  s.jdUnknownSkills.rows.filter fun link => link.jdId = jdId ∧ link.status = .pending

end Versions

-- A version asks for the same skills, waits for the same unknown ones and gives
-- every resume the same scores.
structure Preserved (s : SkillStore) (jdId newJdId : Uuid) : Prop where
  skills : ((skillsOf s newJdId).map demand).Perm ((skillsOf s jdId).map demand)
  pending : ((pendingOf s newJdId).map JDUnknownSkill.unknownSkillId).Perm
    ((pendingOf s jdId).map JDUnknownSkill.unknownSkillId)
  scores (vectors : SkillVectors) (config : PlatformConfig) (rounding : Rounding)
    (resumeId : Uuid) :
    let context : ScoringContext := ⟨s, vectors, config, rounding⟩
    let before := buildMandatorySkillBreakdown context jdId resumeId none
    let after := buildMandatorySkillBreakdown context newJdId resumeId none
    after.deterministicScore = before.deterministicScore ∧
      after.coreCoveragePct = before.coreCoveragePct

-- jd_skills.jd_id and jd_unknown_skills.jd_id refer to JDs that exist.
def RowsKnown (db : JdDatabase) : Prop :=
  (∀ row ∈ db.jdSkills.rows, row.jdId < db.jobDescriptions.versions.next) ∧ LinksKnown db

section Update

variable {generateHash : String → String} {db : JdDatabase} {jdId : Uuid}
  {request : UpdateJDRequest} {updatedBy : String} {existing : JobDescription}
  {lineageRootId : Uuid} {result : JdDatabase × Uuid}

theorem updateJd_metadata (haccepted : updateJd db generateHash jdId request updatedBy none none =
    .ok (.metadata existing lineageRootId)) : existing.id = jdId := by
  obtain ⟨found, hfound, -, hmetadata | ⟨changed, hreprocess⟩⟩ :=
    updateJd_eq_ok _ _ _ _ _ _ _ _ haccepted
  · injection hmetadata with hexisting
    rw [hexisting]
    exact ((db.jobDescriptions.versions.find?_eq_some _ _).mp hfound).2
  · cases hreprocess

theorem metadataWrites_store (hwritten : metadataWrites db generateHash request updatedBy existing
    lineageRootId = .ok result) :
    result.1.toSkillStore = db.toSkillStore ∧ result.2 = db.jobDescriptions.versions.next := by
  obtain ⟨title, jobDescriptions, hinsert, hdb⟩ := metadataWrites_eq_ok _ _ _ _ _ _ _ hwritten
  have hid := (JobDescriptionTable.insert_eq_ok _ _ _ _ hinsert).2.2
  constructor
  · rw [hdb]
    rfl
  · rw [hid]
    rfl

theorem new_version_bare (hknown : RowsKnown db) :
    skillsOf db.toSkillStore db.jobDescriptions.versions.next = [] ∧
      pendingOf db.toSkillStore db.jobDescriptions.versions.next = [] := by
  constructor
  · refine List.filter_eq_nil_iff.mpr fun row hrow hselected => ?_
    have hlt := hknown.1 row hrow
    have heq : row.jdId = db.jobDescriptions.versions.next := of_decide_eq_true hselected
    exact absurd heq hlt.ne
  · refine List.filter_eq_nil_iff.mpr fun link hlink hselected => ?_
    have hlt := hknown.2 link hlink
    have heq : link.jdId = db.jobDescriptions.versions.next := (of_decide_eq_true hselected).1
    exact absurd heq hlt.ne

end Update

theorem breakdown_of_no_skills (context : ScoringContext) (jdId resumeId : Uuid)
    (h : skillsOf context.store jdId = []) :
    (buildMandatorySkillBreakdown context jdId resumeId none).deterministicScore = 100 ∧
      (buildMandatorySkillBreakdown context jdId resumeId none).coreCoveragePct = 100 := by
  have hrows : SkillRepository.getMandatorySkillCoverage context.store jdId resumeId true = [] := by
    unfold SkillRepository.getMandatorySkillCoverage
    have hmandatory : (context.store.jdSkills.rows.filter fun row =>
        row.jdId = jdId ∧ row.mandatory = true) = [] := by
      refine List.filter_eq_nil_iff.mpr fun row hrow hselected => ?_
      have hid := (of_decide_eq_true hselected).1
      exact List.filter_eq_nil_iff.mp h row hrow (decide_eq_true hid)
    rw [hmandatory]
    rfl
  unfold buildMandatorySkillBreakdown
  rw [hrows]
  constructor
  · rfl
  · rfl

-- A metadata-only update preserves what candidates are scored against exactly for
-- the versions that have no skills and wait for none.
theorem metadata_preserved_iff (generateHash : String → String) (db : JdDatabase) (jdId : Uuid)
    (request : UpdateJDRequest) (updatedBy : String) (existing : JobDescription)
    (lineageRootId : Uuid) (result : JdDatabase × Uuid) (hknown : RowsKnown db)
    (haccepted : updateJd db generateHash jdId request updatedBy none none =
      .ok (.metadata existing lineageRootId))
    (hwritten : metadataWrites db generateHash request updatedBy existing lineageRootId =
      .ok result) :
    Preserved result.1.toSkillStore existing.id result.2 ↔
      skillsOf db.toSkillStore jdId = [] ∧ pendingOf db.toSkillStore jdId = [] := by
  obtain ⟨hstore, hnew⟩ := metadataWrites_store hwritten
  obtain ⟨hskills, hpending⟩ := new_version_bare hknown
  rw [hstore, hnew, updateJd_metadata haccepted]
  constructor
  · intro h
    have hnone := h.skills
    have hnonePending := h.pending
    rw [hskills, List.map_nil] at hnone
    rw [hpending, List.map_nil] at hnonePending
    exact ⟨List.map_eq_nil_iff.mp hnone.nil_eq.symm,
      List.map_eq_nil_iff.mp hnonePending.nil_eq.symm⟩
  · intro h
    obtain ⟨hold, holdPending⟩ := h
    refine ⟨?_, ?_, ?_⟩
    · rw [hskills, hold]
    · rw [hpending, holdPending]
    · intro vectors config rounding resumeId context before after
      obtain ⟨hscore, hcore⟩ := breakdown_of_no_skills context jdId resumeId hold
      obtain ⟨hscore', hcore'⟩ := breakdown_of_no_skills context
        db.jobDescriptions.versions.next resumeId hskills
      exact ⟨hscore'.trans hscore.symm, hcore'.trans hcore.symm⟩

def approvedDb : JdDatabase := final noSkills (skillRun approval)

def titleChange : UpdateJDRequest := { JdLineage.rewrite none with title := some "Go engineer" }

theorem approvedDb_known : RowsKnown approvedDb := by
  constructor
  · decide
  · unfold LinksKnown
    decide

theorem titleChange_accepted : ∃ existing lineageRootId result,
    updateJd approvedDb id 0 titleChange "hr" none none = .ok (.metadata existing lineageRootId) ∧
      metadataWrites approvedDb id titleChange "hr" existing lineageRootId = .ok result :=
  ⟨_, _, _, rfl, rfl⟩

theorem metadata_preserved_iff_titleChange : ∃ existing lineageRootId result,
    updateJd approvedDb id 0 titleChange "hr" none none = .ok (.metadata existing lineageRootId) ∧
      metadataWrites approvedDb id titleChange "hr" existing lineageRootId = .ok result ∧
      (Preserved result.1.toSkillStore existing.id result.2 ↔
        skillsOf approvedDb.toSkillStore 0 = [] ∧ pendingOf approvedDb.toSkillStore 0 = []) := by
  obtain ⟨existing, lineageRootId, result, haccepted, hwritten⟩ := titleChange_accepted
  exact ⟨existing, lineageRootId, result, haccepted, hwritten, metadata_preserved_iff id approvedDb
    0 titleChange "hr" existing lineageRootId result approvedDb_known haccepted hwritten⟩

-- The new version has lost the skill, and a resume without it scores 100.
theorem titleChange_loses_skill : ∃ existing lineageRootId result,
    updateJd approvedDb id 0 titleChange "hr" none none = .ok (.metadata existing lineageRootId) ∧
      metadataWrites approvedDb id titleChange "hr" existing lineageRootId = .ok result ∧
      ¬Preserved result.1.toSkillStore existing.id result.2 := by
  obtain ⟨existing, lineageRootId, result, haccepted, hwritten⟩ := titleChange_accepted
  refine ⟨existing, lineageRootId, result, haccepted, hwritten, fun h => ?_⟩
  obtain ⟨hstore, hnew⟩ := metadataWrites_store hwritten
  have hlength := h.skills.length_eq
  rw [hstore, hnew, updateJd_metadata haccepted] at hlength
  exact absurd hlength (by decide)

end MetadataUpdate

end AiHiring
