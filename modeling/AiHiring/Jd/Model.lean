import AiHiring.Jd.Extraction
import AiHiring.Skills.Occurrences

namespace AiHiring

open Library

inductive JDSourceFormat where
  | text
  | pdf
  | docx
  deriving DecidableEq, Repr

inductive JDVerificationStatus where
  | notVerified
  | partiallyVerified
  | verified
  deriving DecidableEq, Repr

structure EducationCriteria where
  (degree field : Option String)
  deriving DecidableEq

-- The required_skills column, kept beside the full extraction.
structure StoredSkills where
  required : RequiredSkills
  preferred : List String
  aliases : List (String × List String)

structure JobDescription where
  id : Uuid
  (title rawText : String)
  extractedJson : JDExtractionResponse
  requiredSkills : StoredSkills
  (minExperienceYears maxExperienceYears : ℚ)
  noticePeriod : ℤ
  educationCriteria : EducationCriteria
  sourceFormat : JDSourceFormat
  (filePath originalFilename : Option String)
  contentHash : String
  versionNumber : ℕ
  isActiveVersion : Bool
  (lineageRootId parentJdId : Option Uuid)
  closedAt : Option Instant
  jurisdiction : Option String
  createdBy : String
  promptTemplateId : Uuid
  isVerified : JDVerificationStatus

-- The root of the lineage that a version belongs to.
def JobDescription.lineage (jd : JobDescription) : Uuid := jd.lineageRootId.getD jd.id

structure PromptTemplate where
  id : Uuid
  (taskType name : String)
  active : Bool

-- `uq_jd_active_lineage_version`: the index skips inactive rows and, as NULLs
-- differ from each other, the roots.
def sameActiveLineage (a b : JobDescription) : Prop :=
  a.isActiveVersion = true ∧ b.isActiveVersion = true ∧
    a.lineageRootId = b.lineageRootId ∧ a.lineageRootId ≠ none

instance (a b : JobDescription) : Decidable (sameActiveLineage a b) :=
  inferInstanceAs (Decidable (_ ∧ _ ∧ _ ∧ _))

structure JobDescriptionTable where
  versions : Table JobDescription JobDescription.id
  uqActiveLineage : ∀ a ∈ versions.rows, ∀ b ∈ versions.rows, sameActiveLineage a b → a = b

inductive JdError where
  | notFound (detail : String)
  | badRequest (detail : String)
  | conflict (detail : String)
  | unprocessable (detail : String)
  | duplicate (id : Uuid) (title : String) (versionNumber : ℕ)
  | integrity (constraint : String)
  | attribute (message : String)
  deriving DecidableEq, Repr

variable (t : JobDescriptionTable)

namespace JobDescriptionTable

def empty : JobDescriptionTable where
  versions := Table.empty
  uqActiveLineage := by simp [Table.empty]

def rows (t : JobDescriptionTable) : List JobDescription := t.versions.rows

-- An UPDATE that activates no version and moves none to another lineage.
structure Amendment where
  write : JobDescription → JobDescription
  id : ∀ jd, (write jd).id = jd.id
  lineageRootId : ∀ jd, (write jd).lineageRootId = jd.lineageRootId
  versionNumber : ∀ jd, (write jd).versionNumber = jd.versionNumber
  inactive : ∀ jd, (write jd).isActiveVersion = true → jd.isActiveVersion = true

def amend (amendment : Amendment) : JobDescriptionTable where
  versions := t.versions.modify amendment.write amendment.id
  uqActiveLineage := by
    intro a ha b hb hab
    obtain ⟨old, hold, rfl⟩ := List.mem_map.mp ha
    obtain ⟨old', hold', rfl⟩ := List.mem_map.mp hb
    obtain ⟨hactive, hactive', hlineage, hsome⟩ := hab
    rw [amendment.lineageRootId] at hlineage hsome
    rw [amendment.lineageRootId] at hlineage
    have heq := t.uqActiveLineage old hold old' hold'
      ⟨amendment.inactive _ hactive, amendment.inactive _ hactive', hlineage, hsome⟩
    rw [heq]

-- INSERT of an active or inactive version under the next id.
def insert (t : JobDescriptionTable) (row : Uuid → JobDescription) (hrow : ∀ id, (row id).id = id) :
    Except JdError (JobDescriptionTable × Uuid) :=
  if huq : ∃ old ∈ t.versions.rows, sameActiveLineage old (row t.versions.next) then
    .error (.integrity "uq_jd_active_lineage_version")
  else
    .ok ({
      versions := t.versions.insert row hrow
      uqActiveLineage := by
        intro a ha b hb hab
        rw [Table.rows_insert, List.mem_append, List.mem_singleton] at ha hb
        rcases ha with ha | rfl
        · rcases hb with hb | rfl
          · exact t.uqActiveLineage a ha b hb hab
          · exact absurd ⟨a, ha, hab⟩ huq
        · rcases hb with hb | rfl
          · obtain ⟨hactive, hactive', hlineage, hsome⟩ := hab
            exact absurd ⟨b, hb, hactive', hactive, hlineage.symm, hlineage ▸ hsome⟩ huq
          · rfl }, t.versions.next)

theorem insert_eq_ok (row : Uuid → JobDescription)
    (hrow : ∀ id, (row id).id = id) (result : JobDescriptionTable × Uuid)
    (h : t.insert row hrow = .ok result) :
    (∀ old ∈ t.rows, ¬sameActiveLineage old (row t.versions.next)) ∧
      result.1.versions = t.versions.insert row hrow ∧ result.2 = t.versions.next := by
  rw [insert] at h
  split_ifs at h with huq
  cases h
  exact ⟨fun old hold hsame => huq ⟨old, hold, hsame⟩, rfl, rfl⟩

theorem insert_of_unique (row : Uuid → JobDescription) (hrow : ∀ id, (row id).id = id)
    (h : ∀ old ∈ t.rows, ¬sameActiveLineage old (row t.versions.next)) :
    ∃ table, t.insert row hrow = .ok (table, t.versions.next) :=
  ⟨_, dif_neg fun ⟨old, hold, hsame⟩ => h old hold hsame⟩

end JobDescriptionTable

structure JdDatabase extends SkillStore where
  jobDescriptions : JobDescriptionTable
  promptTemplates : Table PromptTemplate PromptTemplate.id
  activeCampaigns : Uuid → Bool

namespace JDRepository

variable (db : JdDatabase)

variable (jdId : Uuid) (row : Uuid → JobDescription)

def getById : Option JobDescription := db.jobDescriptions.versions.find? jdId

def getByContentHash (contentHash : String) : Option JobDescription :=
  db.jobDescriptions.rows.find? fun jd => jd.contentHash = contentHash

-- The negated OR is NULL, hence not true, for a version whose lineage_root_id is
-- NULL: it is never returned, whatever its id. A comparison with None is IS NULL.
def getDuplicateExcludingLineage (contentHash : String) (lineageRootId : Option Uuid) :
    Option JobDescription :=
  match lineageRootId with
  | none =>
    db.jobDescriptions.rows.find? fun jd =>
      jd.contentHash = contentHash ∧ jd.lineageRootId.isSome
  | some root =>
    db.jobDescriptions.rows.find? fun jd =>
      jd.contentHash = contentHash ∧ jd.lineageRootId.any (· ≠ root) ∧ jd.id ≠ root

def hasActiveCampaign : Bool := db.activeCampaigns jdId

def deactivation : JobDescriptionTable.Amendment where
  write jd := if jd.id = jdId then { jd with isActiveVersion := false } else jd
  id := by
    intro jd
    split_ifs <;> rfl
  lineageRootId := by
    intro jd
    split_ifs <;> rfl
  versionNumber := by
    intro jd
    split_ifs <;> rfl
  inactive := by
    intro jd
    split_ifs <;> simp

def deactivateVersion (jd : JobDescription) : JdDatabase :=
  { db with jobDescriptions := db.jobDescriptions.amend (deactivation jd.id) }

def closing (now : Instant) : JobDescriptionTable.Amendment where
  write jd :=
    if jd.id = jdId then { jd with isActiveVersion := false, closedAt := some now } else jd
  id := by
    intro jd
    split_ifs <;> rfl
  lineageRootId := by
    intro jd
    split_ifs <;> rfl
  versionNumber := by
    intro jd
    split_ifs <;> rfl
  inactive := by
    intro jd
    split_ifs <;> simp

def createJobDescription (hrow : ∀ id, (row id).id = id) :
    Except JdError (JdDatabase × Uuid) :=
  match db.jobDescriptions.insert row hrow with
  | .ok (jobDescriptions, id) => .ok ({ db with jobDescriptions := jobDescriptions }, id)
  | .error e => .error e

theorem createJobDescription_eq_ok (hrow : ∀ id, (row id).id = id) (result : JdDatabase × Uuid)
    (h : createJobDescription db row hrow = .ok result) :
    ∃ jobDescriptions, db.jobDescriptions.insert row hrow = .ok (jobDescriptions, result.2) ∧
      result.1 = { db with jobDescriptions := jobDescriptions } := by
  rw [createJobDescription] at h
  split at h
  · next jobDescriptions id hinsert =>
      cases h
      exact ⟨jobDescriptions, hinsert, rfl⟩
  · simp at h

theorem createJobDescription_of_insert
    (hrow : ∀ id, (row id).id = id) (jobDescriptions : JobDescriptionTable) (id : Uuid)
    (h : db.jobDescriptions.insert row hrow = .ok (jobDescriptions, id)) :
    createJobDescription db row hrow = .ok ({ db with jobDescriptions := jobDescriptions }, id) := by
  rw [createJobDescription, h]

end JDRepository

end AiHiring
