import AiHiring.Skills.Operations

namespace AiHiring

open Library

namespace SkillRepository

variable (s : SkillStore)

def getJdSkillById (jdSkillId : Uuid) : Option JDSkill := s.jdSkills.find? jdSkillId

def updateJdSkillClassification (jdSkill : JDSkill) (mandatory : Bool)
    (importance : Option JDSkillImportance) : SkillStore :=
  { s with
    jdSkills := s.jdSkills.replace
      { jdSkill with
        mandatory := mandatory
        importance := importance
        matchTier := .manualHr
        verificationStatus := .autoVerified } }

def deleteJdSkill (jdSkill : JDSkill) : SkillStore :=
  { s with jdSkills := s.jdSkills.delete fun row => row.id = jdSkill.id }

def countCoreJdSkills (jdId : Uuid) : ℕ :=
  s.jdSkills.rows.countP fun row =>
    row.jdId = jdId ∧ row.mandatory = true ∧ row.importance = some .core

-- UPDATE and flush, under the unique (jd_id, canonical_skill_id).
def remapJdSkill (jdSkill : JDSkill) (newCanonicalSkillId : Uuid) : Except SkillError SkillStore :=
  if s.jdSkills.rows.any fun row => row.id ≠ jdSkill.id ∧ row.jdId = jdSkill.jdId ∧
      row.canonicalSkillId = newCanonicalSkillId then
    .error (.integrity "jd_skills_jd_id_canonical_skill_id_key")
  else
    .ok { s with
      jdSkills := s.jdSkills.replace
        { jdSkill with
          canonicalSkillId := newCanonicalSkillId
          matchTier := .manualHr
          confidence := some 1
          verificationStatus := .autoVerified } }

end SkillRepository

namespace SkillCurationService

open SkillRepository

variable (upper : String → String) (db : JdDatabase)

def withStore (s : SkillStore) : JdDatabase := { db with toSkillStore := s }

-- `_get_editable_jd_skill`
def getEditableJdSkill (jdSkillId : Uuid) : Except SkillError JDSkill :=
  match getJdSkillById db.toSkillStore jdSkillId with
  | none => .error (.notFound s!"JDSkill with ID {text jdSkillId} not found.")
  | some jdSkill =>
    if JDRepository.hasActiveCampaign db jdSkill.jdId then
      .error (.conflict (s!"Cannot edit skills of Job Description {text jdSkill.jdId}: " ++
        "it has an active hiring campaign assigned."))
    else
      .ok jdSkill

-- `_ensure_not_last_core_skill`
def ensureNotLastCoreSkill (jdSkill : JDSkill) : Except SkillError Unit :=
  if countCoreJdSkills db.toSkillStore jdSkill.jdId ≤ 1 then
    .error (.badRequest ("This is the JD's last core skill. Mark another skill as core before " ++
      "removing or downgrading it."))
  else
    .ok ()

-- The check of an edit that takes a core row away.
def ensureCoreLeft (losingCore : Bool) (jdSkill : JDSkill) : Except SkillError Unit :=
  if losingCore then ensureNotLastCoreSkill db jdSkill else .ok ()

-- `JDSkillImportance(importance.upper())`; `upper` is `str.upper`.
def importanceOf (importance : String) : Except SkillError JDSkillImportance :=
  if upper importance = "CORE" then .ok .core
  else if upper importance = "SUPPORTING" then .ok .supporting
  else .error (.value s!"'{upper importance}' is not a valid JDSkillImportance")

-- The importance that goes with the flag: none for a preferred skill.
def classification (mandatory : Bool) (importance : Option String) :
    Except SkillError (Option JDSkillImportance) :=
  if mandatory then
    match importance with
    | none =>
      .error (.badRequest "importance ('core' or 'supporting') is required when mandatory is true.")
    | some importance => (importanceOf upper importance).map some
  else
    .ok none

def updateJdSkill (jdSkillId : Uuid) (mandatory : Bool) (importance : Option String) :
    Except SkillError JdDatabase := do
  let jdSkill ← getEditableJdSkill db jdSkillId
  let newImportance ← classification upper mandatory importance
  let losingCore := jdSkill.importance = some .core ∧ newImportance ≠ some .core
  ensureCoreLeft db losingCore jdSkill
  return withStore db (updateJdSkillClassification db.toSkillStore jdSkill mandatory newImportance)

def remapJdSkill (jdSkillId newCanonicalSkillId : Uuid) : Except SkillError JdDatabase := do
  let jdSkill ← getEditableJdSkill db jdSkillId
  let newSkill ← getSkillOr404 db newCanonicalSkillId
  (SkillRepository.remapJdSkill db.toSkillStore jdSkill newSkill.id).map (withStore db)

def removeJdSkill (jdSkillId : Uuid) : Except SkillError JdDatabase := do
  let jdSkill ← getEditableJdSkill db jdSkillId
  ensureCoreLeft db (jdSkill.importance = some .core) jdSkill
  return withStore db (deleteJdSkill db.toSkillStore jdSkill)

end SkillCurationService

-- A mandatory skill carries an importance, a preferred one does not.
structure JDSkill.Classified (row : JDSkill) : Prop where
  mandatory : row.mandatory = true → row.importance = some .core ∨ row.importance = some .supporting
  preferred : row.mandatory = false → row.importance = none

theorem JDSkill.classified_of_isSome {row : JDSkill}
    (h : row.importance.isSome = row.mandatory) : row.Classified := by
  constructor
  · intro hmandatory
    rw [hmandatory] at h
    obtain ⟨importance, himportance⟩ := Option.isSome_iff_exists.mp h
    rw [himportance]
    cases importance with
    | core => exact .inl rfl
    | supporting => exact .inr rfl
  · intro hpreferred
    rw [hpreferred] at h
    exact Option.not_isSome_iff_eq_none.mp (by simp [h])

namespace SkillStore

open SkillRepository

variable (s : SkillStore) (jdId : Uuid)

def jdSkillsOf : List JDSkill := s.jdSkills.rows.filter fun row => row.jdId = jdId

def Classified : Prop := ∀ row ∈ s.jdSkillsOf jdId, row.Classified

def HasCore : Prop := ∃ row ∈ s.jdSkillsOf jdId, row.importance = some .core

variable {s jdId} {s' : SkillStore}

theorem mem_jdSkillsOf (row : JDSkill) :
    row ∈ s.jdSkillsOf jdId ↔ row ∈ s.jdSkills.rows ∧ row.jdId = jdId := by
  rw [jdSkillsOf, List.mem_filter, decide_eq_true_eq]

theorem another_core {old : JDSkill} (hold : old ∈ s.jdSkills.rows)
    (hcount : 1 < countCoreJdSkills s jdId) :
    ∃ row ∈ s.jdSkillsOf jdId, row.importance = some .core ∧ row.id ≠ old.id := by
  by_contra hnone
  have hle : countCoreJdSkills s jdId ≤ s.jdSkills.rows.countP fun row => row.id = old.id := by
    refine List.countP_mono_left fun row hrow hcore => ?_
    obtain ⟨hjd, -, himportance⟩ := of_decide_eq_true hcore
    refine decide_eq_true ?_
    by_contra hid
    exact hnone ⟨row, (mem_jdSkillsOf row).mpr ⟨hrow, hjd⟩, himportance, hid⟩
  have hone : (s.jdSkills.rows.countP fun row => row.id = old.id) = 1 := by
    rw [List.countP_eq_length_filter, s.jdSkills.filter_key hold]
    rfl
  omega

-- A row has been changed in place, and another core row is there if it was one and
-- is no more.
structure Edits (s s' : SkillStore) (old new : JDSkill) : Prop where
  stored : old ∈ s.jdSkills.rows
  id : new.id = old.id
  jdId : new.jdId = old.jdId
  rows : s'.jdSkills = s.jdSkills.replace new
  links : s'.jdUnknownSkills = s.jdUnknownSkills
  classified : old.Classified → new.Classified
  core : old.importance = some .core →
    new.importance = some .core ∨ 1 < countCoreJdSkills s old.jdId

theorem Edits.keepsClassified {old new : JDSkill} (h : Edits s s' old new)
    (hclassified : s.Classified jdId) : s'.Classified jdId := by
  intro row hrow
  obtain ⟨hmem, hjd⟩ := (mem_jdSkillsOf row).mp hrow
  rw [h.rows] at hmem
  obtain ⟨hkept, -⟩ | ⟨rfl, -⟩ := (s.jdSkills.mem_replace new row).mp hmem
  · exact hclassified row ((mem_jdSkillsOf row).mpr ⟨hkept, hjd⟩)
  · exact h.classified
      (hclassified old ((mem_jdSkillsOf old).mpr ⟨h.stored, h.jdId.symm.trans hjd⟩))

theorem Edits.keepsCore {old new : JDSkill} (h : Edits s s' old new) (hcore : s.HasCore jdId) :
    s'.HasCore jdId := by
  have hkept {row : JDSkill} (hrow : row ∈ s.jdSkillsOf jdId) (hid : row.id ≠ old.id) :
      row ∈ s'.jdSkillsOf jdId := by
    obtain ⟨hmem, hjd⟩ := (mem_jdSkillsOf row).mp hrow
    refine (mem_jdSkillsOf row).mpr ⟨?_, hjd⟩
    rw [h.rows]
    exact (s.jdSkills.mem_replace new row).mpr (.inl ⟨hmem, h.id ▸ hid⟩)
  obtain ⟨row, hrow, himportance⟩ := hcore
  obtain ⟨hmem, hjd⟩ := (mem_jdSkillsOf row).mp hrow
  by_cases hid : row.id = old.id
  · obtain rfl := s.jdSkills.eq_of_key_eq hmem h.stored hid
    obtain hnew | hcount := h.core himportance
    · refine ⟨new, (mem_jdSkillsOf new).mpr ⟨?_, h.jdId.trans hjd⟩, hnew⟩
      rw [h.rows]
      exact (s.jdSkills.mem_replace new new).mpr (.inr ⟨rfl, row, hmem, h.id.symm⟩)
    · obtain ⟨other, hother, hotherCore, hne⟩ := another_core hmem (hjd ▸ hcount)
      exact ⟨other, hkept hother hne, hotherCore⟩
  · exact ⟨row, hkept hrow hid, himportance⟩

-- A row has been deleted, and it was not the last core row.
structure Removes (s s' : SkillStore) (old : JDSkill) : Prop where
  stored : old ∈ s.jdSkills.rows
  rows : s'.jdSkills = s.jdSkills.delete fun row => row.id = old.id
  links : s'.jdUnknownSkills = s.jdUnknownSkills
  core : old.importance = some .core → 1 < countCoreJdSkills s old.jdId

theorem Removes.mem_jdSkillsOf {old : JDSkill} (h : Removes s s' old) (row : JDSkill) :
    row ∈ s'.jdSkillsOf jdId ↔ row ∈ s.jdSkillsOf jdId ∧ row.id ≠ old.id := by
  rw [SkillStore.mem_jdSkillsOf, SkillStore.mem_jdSkillsOf, h.rows, Table.rows_delete,
    List.mem_filter]
  simp only [Bool.not_eq_true', decide_eq_false_iff_not]
  tauto

theorem Removes.keepsCore {old : JDSkill} (h : Removes s s' old) (hcore : s.HasCore jdId) :
    s'.HasCore jdId := by
  obtain ⟨row, hrow, himportance⟩ := hcore
  by_cases hid : row.id = old.id
  · obtain ⟨hmem, hjd⟩ := (SkillStore.mem_jdSkillsOf row).mp hrow
    obtain rfl := s.jdSkills.eq_of_key_eq hmem h.stored hid
    obtain ⟨other, hother, hotherCore, hne⟩ := another_core hmem (hjd ▸ h.core himportance)
    exact ⟨other, h.mem_jdSkillsOf other |>.mpr ⟨hother, hne⟩, hotherCore⟩
  · exact ⟨row, (h.mem_jdSkillsOf row).mpr ⟨hrow, hid⟩, himportance⟩

end SkillStore

end AiHiring
