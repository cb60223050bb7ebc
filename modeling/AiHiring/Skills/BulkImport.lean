import Mathlib.Data.List.Dedup
import AiHiring.Skills.OntologyService

namespace AiHiring

open Library

-- A parsed row of the uploaded workbook.
structure ImportRow where
  rowNumber : ℕ
  canonicalName : String
  aliases : List String
  (category parentSkill : Option String)
  confidence : String
  source : Option String
  isActive : Bool

-- `if skill["parent_skill"]`
def ImportRow.parentName (row : ImportRow) : Option String :=
  row.parentSkill.filter (· ≠ "")

namespace SkillOntologyService

open SkillOntologyRepository

structure BulkImport where
  skills : SkillOntologyTable
  seenInFile : List String
  (inserted updated skipped failed : ℕ)
  failures : List (ℕ × SkillError)

def BulkImport.fail (state : BulkImport) (row : ImportRow) (reason : SkillError) : BulkImport :=
  { state with
    failed := state.failed + 1
    failures := state.failures ++ [(row.rowNumber, reason)] }

-- The ids reserved for the names that are not in the ontology yet.
def newNames (t : SkillOntologyTable) (rows : List ImportRow) : List String :=
  ((rows.map ImportRow.canonicalName).filter fun name =>
    name ≠ "" ∧ (getByCanonicalNameExact t name).isNone).dedup

def plannedIds (t : SkillOntologyTable) (rows : List ImportRow) (name : String) : Option Uuid :=
  if name ∈ newNames t rows then some (t.skills.next + (newNames t rows).idxOf name) else none

def checkRow (row : ImportRow) : Except SkillError Unit :=
  if row.canonicalName = "" then
    .error (.value "canonical_name is required.")
  else if row.confidence ∉ ["verified", "unverified"] then
    .error (.value "Confidence must be 'verified' or 'unverified'.")
  else if row.aliases.any (· = "") then
    .error (.value "Aliases must not contain blank values.")
  else
    .ok ()

-- `existing_by_name` holds the rows of the table: it is loaded before the loop
-- and follows every insert, and an import renames nothing.
def resolveParentName (t : SkillOntologyTable) (planned : String → Option Uuid) :
    Option String → Except SkillError (Option Uuid)
  | none => .ok none
  | some name =>
    match getByCanonicalNameExact t name with
    | some parent => .ok (some parent.id)
    | none =>
      match planned name with
      | some id => .ok (some id)
      | none => .error (.value s!"Parent skill '{name}' does not exist.")

def applyBulkUpdate (skill : SkillOntology) (row : ImportRow) (parentSkillId : Option Uuid) :
    SkillOntology :=
  { skill with
    aliases := cleanAliases row.aliases
    category := row.category
    parentSkillId := parentSkillId
    confidence := row.confidence
    source := row.source
    isActive := row.isActive }

def importedSkill (id : Uuid) (row : ImportRow) (parentSkillId : Option Uuid) :
    SkillOntology where
  id := id
  canonicalName := row.canonicalName
  aliases := cleanAliases row.aliases
  category := row.category
  parentSkillId := parentSkillId
  confidence := row.confidence
  source := row.source
  isActive := row.isActive

-- The savepoint of one row: its write goes through or leaves nothing behind.
def writeRow (planned : String → Option Uuid) (state : BulkImport) (row : ImportRow)
    (parentSkillId : Option Uuid) : BulkImport :=
  match getByCanonicalNameExact state.skills row.canonicalName with
  | some skill =>
    match SkillOntologyRepository.updateSkill state.skills
        (applyBulkUpdate skill row parentSkillId) with
    | .error reason => state.fail row reason
    | .ok skills => { state with skills := skills, updated := state.updated + 1 }
  | none =>
    match planned row.canonicalName with
    | none => state.fail row (.value row.canonicalName)
    | some id =>
      match SkillOntologyRepository.createSkill state.skills
          (importedSkill id row parentSkillId) with
      | .error reason => state.fail row reason
      | .ok skills => { state with skills := skills, inserted := state.inserted + 1 }

def importRow (planned : String → Option Uuid) (state : BulkImport) (row : ImportRow) :
    BulkImport :=
  match checkRow row with
  | .error reason => state.fail row reason
  | .ok () =>
    if row.canonicalName ∈ state.seenInFile then
      { state with skipped := state.skipped + 1 }
    else
      let state := { state with seenInFile := row.canonicalName :: state.seenInFile }
      match resolveParentName state.skills planned row.parentName with
      | .error reason => state.fail row reason
      | .ok parentSkillId => writeRow planned state row parentSkillId

def executeBulkImport (t : SkillOntologyTable) (rows : List ImportRow) : BulkImport :=
  rows.foldl (importRow (plannedIds t rows))
    { skills := t, seenInFile := [], inserted := 0, updated := 0, skipped := 0, failed := 0,
      failures := [] }

end SkillOntologyService

section Names

open SkillOntologyRepository

namespace SkillOntologyTable

def names (t : SkillOntologyTable) : List String :=
  t.skills.rows.map SkillOntology.canonicalName

-- The graph of parent_skill_id, told by the canonical names.
def parentName (t : SkillOntologyTable) (name : String) : Option String :=
  (getByCanonicalNameExact t name).bind fun skill =>
    skill.parentSkillId.bind fun p => (t.skills.find? p).map SkillOntology.canonicalName

variable (t t' : SkillOntologyTable)

theorem getByCanonicalNameExact_eq_some (name : String) (skill : SkillOntology) :
    getByCanonicalNameExact t name = some skill ↔
      skill ∈ t.skills.rows ∧ skill.canonicalName = name := by
  constructor
  · intro h
    exact ⟨List.mem_of_find?_eq_some h, by simpa using List.find?_some h⟩
  · rintro ⟨hm, rfl⟩
    cases hf : getByCanonicalNameExact t skill.canonicalName with
    | none => simpa using List.find?_eq_none.mp hf skill hm
    | some found =>
      have hname : found.canonicalName = skill.canonicalName := by
        simpa using List.find?_some hf
      rw [t.uqCanonicalName found (List.mem_of_find?_eq_some hf) skill hm hname]

theorem getByCanonicalNameExact_eq_none (name : String) :
    getByCanonicalNameExact t name = none ↔ name ∉ t.names := by
  rw [getByCanonicalNameExact, List.find?_eq_none, names, List.mem_map]
  simp

theorem parentName_eq_some (name parent : String) :
    t.parentName name = some parent ↔ ∃ s ∈ t.skills.rows, ∃ p ∈ t.skills.rows,
      s.canonicalName = name ∧ s.parentSkillId = some p.id ∧ p.canonicalName = parent := by
  simp only [parentName, Option.bind_eq_some_iff, Option.map_eq_some_iff,
    getByCanonicalNameExact_eq_some, Table.find?_eq_some]
  constructor
  · rintro ⟨s, ⟨hs, hname⟩, pid, hpid, p, ⟨hp, rfl⟩, hparent⟩
    exact ⟨s, hs, p, hp, hname, hpid, hparent⟩
  · rintro ⟨s, hs, p, hp, hname, hpid, hparent⟩
    exact ⟨s, ⟨hs, hname⟩, p.id, hpid, p, ⟨hp, rfl⟩, hparent⟩

theorem forest_parentName : Forest t.parentOf ↔ Forest t.parentName := by
  have hparentOf (a b : Uuid) : t.parentOf a = some b ↔
      ∃ s ∈ t.skills.rows, s.id = a ∧ s.parentSkillId = some b := by
    simp only [parentOf, Option.bind_eq_some_iff, Table.find?_eq_some, and_assoc]
  apply forest_rename fun id name => ∃ s ∈ t.skills.rows, s.id = id ∧ s.canonicalName = name
  · rintro a b x hab ⟨s, hs, rfl, rfl⟩
    obtain ⟨s', hs', hid, hparent⟩ := (hparentOf s.id b).mp hab
    obtain rfl := t.skills.eq_of_key_eq hs' hs hid
    have hfk := t.fkParentSkill s' hs'
    rw [hparent] at hfk
    obtain ⟨p, hp, rfl⟩ := List.mem_map.mp (of_decide_eq_true hfk)
    exact ⟨p.canonicalName, ⟨p, hp, rfl, rfl⟩,
      (t.parentName_eq_some _ _).mpr ⟨s', hs', p, hp, rfl, hparent, rfl⟩⟩
  · rintro x y a hxy ⟨s, hs, rfl, rfl⟩
    obtain ⟨s', hs', p, hp, hname, hparent, rfl⟩ := (t.parentName_eq_some _ y).mp hxy
    obtain rfl := t.uqCanonicalName s' hs' s hs hname
    exact ⟨p.id, ⟨p, hp, rfl, rfl⟩, (hparentOf _ _).mpr ⟨s', hs', rfl, hparent⟩⟩
  · intro a b hab
    obtain ⟨s, hs, hid, -⟩ := (hparentOf a b).mp hab
    exact ⟨s.canonicalName, s, hs, hid, rfl⟩
  · intro x y hxy
    obtain ⟨s, hs, -, -, hname, -, -⟩ := (t.parentName_eq_some x y).mp hxy
    exact ⟨s.id, s, hs, rfl, hname⟩
  · rintro a x y ⟨s, hs, rfl, rfl⟩ ⟨s', hs', hid, rfl⟩
    rw [t.skills.eq_of_key_eq hs' hs hid]
  · rintro a b x ⟨s, hs, rfl, rfl⟩ ⟨s', hs', rfl, hname⟩
    rw [t.uqCanonicalName s' hs' s hs hname]

-- What the insert of a new row and the update of a stored one have in common.
structure Wrote (t t' : SkillOntologyTable) (skill : SkillOntology) : Prop where
  stored : skill ∈ t'.skills.rows
  only : ∀ r ∈ t'.skills.rows, r = skill ∨ r ∈ t.skills.rows ∧ r.id ≠ skill.id
  kept : ∀ r ∈ t.skills.rows, r.id ≠ skill.id → r ∈ t'.skills.rows
  sameName : ∀ r ∈ t.skills.rows, r.id = skill.id → r.canonicalName = skill.canonicalName

namespace Wrote

variable {t t' : SkillOntologyTable} {skill : SkillOntology}

theorem mem_names (h : Wrote t t' skill) (name : String) :
    name ∈ t'.names ↔ name = skill.canonicalName ∨ name ∈ t.names := by
  simp only [names, List.mem_map]
  constructor
  · rintro ⟨r, hr, rfl⟩
    rcases h.only r hr with rfl | ⟨hold, -⟩
    · exact .inl rfl
    · exact .inr ⟨r, hold, rfl⟩
  · rintro (rfl | ⟨r, hr, rfl⟩)
    · exact ⟨skill, h.stored, rfl⟩
    · by_cases hid : r.id = skill.id
      · exact ⟨skill, h.stored, (h.sameName r hr hid).symm⟩
      · exact ⟨r, h.kept r hr hid, rfl⟩

theorem named (h : Wrote t t' skill) (r : SkillOntology) (hr : r ∈ t.skills.rows) :
    ∃ r' ∈ t'.skills.rows, r'.id = r.id ∧ r'.canonicalName = r.canonicalName := by
  by_cases hid : r.id = skill.id
  · exact ⟨skill, h.stored, hid.symm, (h.sameName r hr hid).symm⟩
  · exact ⟨r, h.kept r hr hid, rfl, rfl⟩

theorem parentName_other (h : Wrote t t' skill) (name : String)
    (hne : name ≠ skill.canonicalName) : t'.parentName name = t.parentName name := by
  ext parent
  simp only [parentName_eq_some]
  constructor
  · rintro ⟨s, hs, p, hp, rfl, hparent, rfl⟩
    rcases h.only s hs with rfl | ⟨hs, -⟩
    · exact absurd rfl hne
    · have hfk := t.fkParentSkill s hs
      rw [hparent] at hfk
      obtain ⟨old, hold, hid⟩ := List.mem_map.mp (of_decide_eq_true hfk)
      obtain ⟨p', hp', hid', hname⟩ := h.named old hold
      obtain rfl := t'.skills.eq_of_key_eq hp' hp (hid'.trans hid)
      exact ⟨s, hs, old, hold, rfl, hid ▸ hparent, hname.symm⟩
  · rintro ⟨s, hs, p, hp, rfl, hparent, rfl⟩
    have hsid : s.id ≠ skill.id := fun hid => hne (h.sameName s hs hid)
    obtain ⟨p', hp', hid, hname⟩ := h.named p hp
    exact ⟨s, h.kept s hs hsid, p', hp', rfl, hid ▸ hparent, hname⟩

theorem parentName_self (h : Wrote t t' skill) (parent : Option String)
    (hparent : ∀ name, parent = some name ↔ ∃ p ∈ t'.skills.rows,
      skill.parentSkillId = some p.id ∧ p.canonicalName = name) :
    t'.parentName skill.canonicalName = parent := by
  ext name
  rw [parentName_eq_some, hparent]
  constructor
  · rintro ⟨s, hs, p, hp, hname, hpid, rfl⟩
    obtain rfl := t'.uqCanonicalName s hs skill h.stored hname
    exact ⟨p, hp, hpid, rfl⟩
  · rintro ⟨p, hp, hpid, rfl⟩
    exact ⟨skill, h.stored, p, hp, rfl, hpid, rfl⟩

end Wrote

theorem wrote_createSkill (skill : SkillOntology) (h : createSkill t skill = .ok t') :
    Wrote t t' skill := by
  obtain ⟨hpk, -, -, hrows, -⟩ := createSkill_ok t t' skill h
  have hfresh (r : SkillOntology) (hr : r ∈ t.skills.rows) : r.id ≠ skill.id :=
    fun hid => hpk (List.mem_map.mpr ⟨r, hr, hid⟩)
  constructor
  · simp [hrows]
  · intro r hr
    rw [hrows, List.mem_append, List.mem_singleton] at hr
    rcases hr with hr | rfl
    · exact .inr ⟨hr, hfresh r hr⟩
    · exact .inl rfl
  · intro r hr _
    rw [hrows]
    exact List.mem_append_left _ hr
  · intro r hr hid
    exact absurd hid (hfresh r hr)

theorem wrote_updateSkill (skill old : SkillOntology) (hold : old ∈ t.skills.rows)
    (hid : old.id = skill.id) (hname : old.canonicalName = skill.canonicalName)
    (h : updateSkill t skill = .ok t') : Wrote t t' skill := by
  obtain ⟨-, -, hskills⟩ := updateSkill_ok t t' skill h
  constructor
  · rw [hskills]
    exact (t.skills.mem_replace skill skill).mpr (.inr ⟨rfl, old, hold, hid⟩)
  · intro r hr
    rw [hskills] at hr
    rcases (t.skills.mem_replace skill r).mp hr with hr | ⟨rfl, -⟩
    · exact .inr hr
    · exact .inl rfl
  · intro r hr hne
    rw [hskills]
    exact (t.skills.mem_replace skill r).mpr (.inl ⟨hr, hne⟩)
  · intro r hr hrid
    rw [t.skills.eq_of_key_eq hr hold (hrid.trans hid.symm), hname]

end SkillOntologyTable

end Names

section Plan

open SkillOntologyRepository SkillOntologyService

-- A row that passes the checks that need no database.
def ImportRow.Checked (row : ImportRow) : Prop :=
  row.canonicalName ≠ "" ∧ row.confidence ∈ ["verified", "unverified"] ∧ "" ∉ row.aliases

instance (row : ImportRow) : Decidable row.Checked :=
  inferInstanceAs (Decidable (_ ∧ _ ∧ _))

-- The parents a file assigns, read off its names. Of the rows for one name the
-- first that is checked counts, and it counts if its parent is the row itself or
-- a skill that is known by then: stored before, or assigned further up.
def assignedParents (known seen : List String) : List ImportRow → List (String × Option String)
  | [] => []
  | row :: rest =>
    if ¬row.Checked ∨ row.canonicalName ∈ seen then
      assignedParents known seen rest
    else if ∀ p ∈ row.parentName, p = row.canonicalName ∨ p ∈ known then
      (row.canonicalName, row.parentName) ::
        assignedParents (row.canonicalName :: known) (row.canonicalName :: seen) rest
    else
      assignedParents known (row.canonicalName :: seen) rest

-- The parents after the import: those the file assigns over those it leaves.
def overlaid (assigned : List (String × Option String)) (parent : String → Option String)
    (name : String) : Option String :=
  match assigned.lookup name with
  | some given => given
  | none => parent name

def importedParentName (t : SkillOntologyTable) (rows : List ImportRow) :
    String → Option String :=
  overlaid (assignedParents t.names [] rows) t.parentName

-- The rows of the file that are written, read off its names in the same way.
def writtenRows (known seen : List String) : List ImportRow → List ImportRow
  | [] => []
  | row :: rest =>
    if ¬row.Checked ∨ row.canonicalName ∈ seen then
      writtenRows known seen rest
    else if ∀ p ∈ row.parentName, p = row.canonicalName ∨ p ∈ known then
      row :: writtenRows (row.canonicalName :: known) (row.canonicalName :: seen) rest
    else
      writtenRows known (row.canonicalName :: seen) rest

-- What the written rows assign to their names, over what was there.
def laidOver {β : Type} (assigned : ImportRow → β) (written : List ImportRow) (old : String → β)
    (name : String) : β :=
  match written.find? fun row => row.canonicalName = name with
  | some row => assigned row
  | none => old name

theorem assignedParents_eq (rows : List ImportRow) (known seen : List String) :
    assignedParents known seen rows =
      (writtenRows known seen rows).map fun row => (row.canonicalName, row.parentName) := by
  induction rows generalizing known seen with
  | nil => rfl
  | cons row rest ih =>
    rw [assignedParents, writtenRows]
    split_ifs
    · exact ih known seen
    · rw [ih, List.map_cons]
    · exact ih known _

theorem overlaid_assignedParents (rows : List ImportRow) (known seen : List String)
    (parent : String → Option String) :
    overlaid (assignedParents known seen rows) parent =
      laidOver ImportRow.parentName (writtenRows known seen rows) parent := by
  funext name
  rw [overlaid, laidOver, assignedParents_eq]
  induction writtenRows known seen rows with
  | nil => rfl
  | cons row rest ih =>
    rw [List.map_cons, List.lookup_cons]
    by_cases hname : row.canonicalName = name
    · rw [List.find?_cons_of_pos (by simpa using hname), hname, beq_self_eq_true]
    · rw [List.find?_cons_of_neg (by simpa using hname), beq_false_of_ne (Ne.symm hname)]
      exact ih

theorem checkRow_eq_ok (row : ImportRow) : checkRow row = .ok () ↔ row.Checked := by
  simp only [checkRow, raise_eq_ok, and_true, ImportRow.Checked, not_not, ne_eq]
  simp

theorem find?_writtenRows_seen (rows : List ImportRow) (known seen : List String)
    (name : String) (hseen : name ∈ seen) :
    (writtenRows known seen rows).find? (fun row => row.canonicalName = name) = none := by
  induction rows generalizing known seen with
  | nil => rfl
  | cons row rest ih =>
    have hmore : name ∈ row.canonicalName :: seen := List.mem_cons_of_mem _ hseen
    rw [writtenRows]
    split_ifs with hskip haccept
    · exact ih known seen hseen
    · have hne : row.canonicalName ≠ name := by
        intro heq
        exact hskip (.inr (heq ▸ hseen))
      rw [List.find?_cons_of_neg (by simpa using hne)]
      exact ih _ _ hmore
    · exact ih _ _ hmore

-- What one row does to the names and their parents.
structure Assigned (before after : BulkImport) (row : ImportRow) : Prop where
  names : ∀ name, name ∈ after.skills.names ↔ name = row.canonicalName ∨ name ∈ before.skills.names
  self : after.skills.parentName row.canonicalName = row.parentName
  others : ∀ name, name ≠ row.canonicalName →
    after.skills.parentName name = before.skills.parentName name

-- The ids reserved for the file: no two names share one, and a stored row that
-- has one is the row of that name.
structure Reserved (planned : String → Option Uuid) (t : SkillOntologyTable) : Prop where
  injective : ∀ name other id, planned name = some id → planned other = some id → name = other
  stored : ∀ r ∈ t.skills.rows, ∀ name, planned name = some r.id → r.canonicalName = name

theorem Reserved.not_mem_ids {planned : String → Option Uuid} {t : SkillOntologyTable}
    (h : Reserved planned t) (name : String) (id : Uuid) (hid : planned name = some id)
    (hname : name ∉ t.names) : id ∉ t.ids := by
  intro hmem
  obtain ⟨r, hr, rfl⟩ := List.mem_map.mp hmem
  exact hname (List.mem_map.mpr ⟨r, hr, h.stored r hr name hid⟩)

theorem Reserved.wrote {planned : String → Option Uuid} {t t' : SkillOntologyTable}
    {skill : SkillOntology} (h : Reserved planned t)
    (hw : SkillOntologyTable.Wrote t t' skill)
    (hskill : ∀ name, planned name = some skill.id → skill.canonicalName = name) :
    Reserved planned t' := by
  constructor
  · exact h.injective
  · intro r hr name hplanned
    rcases hw.only r hr with rfl | ⟨hold, -⟩
    · exact hskill name hplanned
    · exact h.stored r hold name hplanned

variable {β : Type} (planned : String → Option Uuid) (state : BulkImport) (row : ImportRow)

theorem resolveParentName_stored (t : SkillOntologyTable) (p : String) (hp : p ∈ t.names) :
    ∃ r ∈ t.skills.rows, r.canonicalName = p ∧
      resolveParentName t planned (some p) = .ok (some r.id) := by
  obtain ⟨r, hr, rfl⟩ := List.mem_map.mp hp
  have hget := (t.getByCanonicalNameExact_eq_some r.canonicalName r).mpr ⟨hr, rfl⟩
  refine ⟨r, hr, rfl, ?_⟩
  simp [resolveParentName, hget]

theorem resolveParentName_planned (t : SkillOntologyTable) (p : String) (id : Uuid)
    (hp : p ∉ t.names) (hid : planned p = some id) :
    resolveParentName t planned (some p) = .ok (some id) := by
  have hget := (t.getByCanonicalNameExact_eq_none p).mpr hp
  simp [resolveParentName, hget, hid]

theorem resolveParentName_unknown (t : SkillOntologyTable) (p : String) (hp : p ∉ t.names)
    (hid : planned p = none) : ∃ e, resolveParentName t planned (some p) = .error e := by
  have hget := (t.getByCanonicalNameExact_eq_none p).mpr hp
  simp [resolveParentName, hget, hid]

theorem importRow_skip (h : ¬row.Checked ∨ row.canonicalName ∈ state.seenInFile) :
    (importRow planned state row).skills = state.skills ∧
      (importRow planned state row).seenInFile = state.seenInFile := by
  rw [importRow]
  cases hcheck : checkRow row with
  | error e => exact ⟨rfl, rfl⟩
  | ok u =>
    have hseen := h.resolve_left (fun hnot => hnot ((checkRow_eq_ok row).mp hcheck))
    simp [hseen]

theorem importRow_checked (hchecked : row.Checked) (hseen : row.canonicalName ∉ state.seenInFile) :
    importRow planned state row =
      match resolveParentName state.skills planned row.parentName with
      | .error reason =>
        { state with seenInFile := row.canonicalName :: state.seenInFile }.fail row reason
      | .ok parentSkillId =>
        writeRow planned { state with seenInFile := row.canonicalName :: state.seenInFile } row
          parentSkillId := by
  rw [importRow, (checkRow_eq_ok row).mpr hchecked]
  simp [hseen]

theorem writeRow_seenInFile (parentSkillId : Option Uuid) :
    (writeRow planned state row parentSkillId).seenInFile = state.seenInFile := by
  rw [writeRow]
  split <;> split <;> first | rfl | (split <;> rfl)

theorem importRow_seenInFile (hchecked : row.Checked)
    (hseen : row.canonicalName ∉ state.seenInFile) :
    (importRow planned state row).seenInFile = row.canonicalName :: state.seenInFile := by
  rw [importRow_checked planned state row hchecked hseen]
  cases resolveParentName state.skills planned row.parentName with
  | error e => rfl
  | ok parentSkillId => exact writeRow_seenInFile planned _ row parentSkillId

theorem writeRow_stored (skill : SkillOntology) (hskill : skill ∈ state.skills.skills.rows)
    (hname : skill.canonicalName = row.canonicalName) (parentSkillId : Option Uuid) :
    (parentIn state.skills.ids parentSkillId = true →
      SkillOntologyTable.Wrote state.skills (writeRow planned state row parentSkillId).skills
        (applyBulkUpdate skill row parentSkillId)) ∧
    (parentIn state.skills.ids parentSkillId = false →
      (writeRow planned state row parentSkillId).skills = state.skills) := by
  have hget := (state.skills.getByCanonicalNameExact_eq_some row.canonicalName skill).mpr
    ⟨hskill, hname⟩
  have huq : ∀ r ∈ state.skills.skills.rows, r.id ≠ (applyBulkUpdate skill row parentSkillId).id →
      r.canonicalName ≠ (applyBulkUpdate skill row parentSkillId).canonicalName := by
    intro r hr hid hsame
    have hrow := state.skills.uqCanonicalName r hr skill hskill hsame
    exact hid (hrow ▸ rfl)
  constructor
  · intro hfk
    obtain ⟨t', ht'⟩ := updateSkill_total state.skills _ huq hfk
    simp only [writeRow, hget, ht']
    exact SkillOntologyTable.wrote_updateSkill state.skills t' _ skill hskill rfl rfl ht'
  · intro hfk
    cases hupdate : SkillOntologyRepository.updateSkill state.skills
        (applyBulkUpdate skill row parentSkillId) with
    | error e =>
      simp only [writeRow, hget, hupdate]
      rfl
    | ok t' =>
      have hok := (updateSkill_ok state.skills t' _ hupdate).2.1
      exact absurd (hok.symm.trans hfk) (by simp)

theorem writeRow_new (h : Reserved planned state.skills) (id : Uuid)
    (hid : planned row.canonicalName = some id)
    (hname : row.canonicalName ∉ state.skills.names) (parentSkillId : Option Uuid) :
    (parentIn (id :: state.skills.ids) parentSkillId = true →
      SkillOntologyTable.Wrote state.skills (writeRow planned state row parentSkillId).skills
        (importedSkill id row parentSkillId)) ∧
    (parentIn (id :: state.skills.ids) parentSkillId = false →
      (writeRow planned state row parentSkillId).skills = state.skills) := by
  have hget := (state.skills.getByCanonicalNameExact_eq_none row.canonicalName).mpr hname
  have hpk := h.not_mem_ids row.canonicalName id hid hname
  have huq : ∀ r ∈ state.skills.skills.rows,
      r.canonicalName ≠ (importedSkill id row parentSkillId).canonicalName :=
    fun r hr hsame => hname (List.mem_map.mpr ⟨r, hr, hsame⟩)
  constructor
  · intro hfk
    obtain ⟨t', ht'⟩ := createSkill_total state.skills
      (importedSkill id row parentSkillId) hpk huq hfk
    simp only [writeRow, hget, hid, ht']
    exact SkillOntologyTable.wrote_createSkill state.skills t' _ ht'
  · intro hfk
    cases hcreate : SkillOntologyRepository.createSkill state.skills
        (importedSkill id row parentSkillId) with
    | error e =>
      simp only [writeRow, hget, hid, hcreate]
      rfl
    | ok t' =>
      have hok := (createSkill_ok state.skills t' _ hcreate).2.2.1
      exact absurd (hok.symm.trans hfk) (by simp)

theorem assigned_of_wrote (after : BulkImport) (skill : SkillOntology)
    (hw : SkillOntologyTable.Wrote state.skills after.skills skill)
    (hname : skill.canonicalName = row.canonicalName)
    (hparent : skill.parentSkillId = none ∧ row.parentName = none ∨
      ∃ r : SkillOntology, (r = skill ∨ r ∈ state.skills.skills.rows) ∧
        skill.parentSkillId = some r.id ∧ row.parentName = some r.canonicalName) :
    Assigned state after row := by
  constructor
  · intro name
    rw [hw.mem_names, hname]
  · rw [← hname]
    apply hw.parentName_self
    intro name
    rcases hparent with ⟨hnone, hrow⟩ | ⟨r, hr, hid, hrow⟩
    · simp [hnone, hrow]
    · have hnamed : ∃ r' ∈ after.skills.skills.rows, r'.id = r.id ∧
          r'.canonicalName = r.canonicalName := by
        rcases hr with rfl | hr
        · exact ⟨r, hw.stored, rfl, rfl⟩
        · exact hw.named r hr
      obtain ⟨r', hr', hid', hname'⟩ := hnamed
      rw [hid, hrow, Option.some.injEq]
      constructor
      · rintro rfl
        exact ⟨r', hr', congrArg some hid'.symm, hname'⟩
      · rintro ⟨p, hp, hpid, rfl⟩
        rw [after.skills.skills.eq_of_key_eq hp hr' ((Option.some.inj hpid).symm.trans hid'.symm),
          hname']
  · intro name hne
    exact hw.parentName_other name (hname ▸ hne)

-- What a row is written as: the name and the aliases of the file, the id that the
-- name has or was given, and the parent that the row names.
structure WrittenAs (planned : String → Option Uuid) (t : SkillOntologyTable) (row : ImportRow)
    (skill : SkillOntology) : Prop where
  name : skill.canonicalName = row.canonicalName
  aliases : skill.aliases = cleanAliases row.aliases
  reserved : ∀ name, planned name = some skill.id → skill.canonicalName = name
  parent : skill.parentSkillId = none ∧ row.parentName = none ∨
    ∃ r : SkillOntology, (r = skill ∨ r ∈ t.skills.rows) ∧
      skill.parentSkillId = some r.id ∧ row.parentName = some r.canonicalName

theorem importRow_wrote (h : Reserved planned state.skills)
    (hnew : row.canonicalName ∉ state.skills.names → ∃ id, planned row.canonicalName = some id)
    (hchecked : row.Checked) (hseen : row.canonicalName ∉ state.seenInFile) :
    ((∀ p ∈ row.parentName, p = row.canonicalName ∨ p ∈ state.skills.names) →
      ∃ skill, WrittenAs planned state.skills row skill ∧
        SkillOntologyTable.Wrote state.skills (importRow planned state row).skills skill) ∧
      (¬(∀ p ∈ row.parentName, p = row.canonicalName ∨ p ∈ state.skills.names) →
        (importRow planned state row).skills = state.skills) := by
  have hrow := importRow_checked planned state row hchecked hseen
  -- the id of the row, and what its write does with a resolved parent
  have hwrite : ∃ (id : Uuid) (mk : Option Uuid → SkillOntology),
      (∀ pid, (mk pid).id = id ∧ (mk pid).canonicalName = row.canonicalName ∧
        (mk pid).parentSkillId = pid ∧ (mk pid).aliases = cleanAliases row.aliases) ∧
      (∀ name, planned name = some id → row.canonicalName = name) ∧
      (row.canonicalName ∉ state.skills.names → planned row.canonicalName = some id) ∧
      ∀ pid, (parentIn (id :: state.skills.ids) pid = true →
          SkillOntologyTable.Wrote state.skills (writeRow planned
              { state with seenInFile := row.canonicalName :: state.seenInFile } row pid).skills
            (mk pid)) ∧
        (parentIn (id :: state.skills.ids) pid = false → (writeRow planned
            { state with seenInFile := row.canonicalName :: state.seenInFile } row pid).skills =
            state.skills) := by
    by_cases hstored : row.canonicalName ∈ state.skills.names
    · obtain ⟨skill, hskill, hname⟩ := List.mem_map.mp hstored
      have hids (pid : Option Uuid) :
          parentIn (skill.id :: state.skills.ids) pid = parentIn state.skills.ids pid := by
        have hmem : skill.id ∈ state.skills.ids := List.mem_map.mpr ⟨skill, hskill, rfl⟩
        cases pid with
        | none => rfl
        | some p =>
          simp only [parentIn, List.mem_cons, decide_eq_decide]
          exact or_iff_right_of_imp fun heq => heq ▸ hmem
      refine ⟨skill.id, fun pid => applyBulkUpdate skill row pid, fun pid => ⟨rfl, hname, rfl, rfl⟩,
        fun name hplanned => hname ▸ h.stored skill hskill name hplanned,
        fun hno => absurd hstored hno, fun pid => ?_⟩
      rw [hids]
      exact writeRow_stored planned
        { state with seenInFile := row.canonicalName :: state.seenInFile } row skill hskill
        hname pid
    · obtain ⟨id, hid⟩ := hnew hstored
      refine ⟨id, fun pid => importedSkill id row pid, fun pid => ⟨rfl, rfl, rfl, rfl⟩,
        fun name hplanned => h.injective _ _ id hid hplanned, fun _ => hid, fun pid => ?_⟩
      exact writeRow_new planned
        { state with seenInFile := row.canonicalName :: state.seenInFile } row h id hid
        hstored pid
  obtain ⟨id, mk, hmk, hreserved, hown, hwrite⟩ := hwrite
  -- a parent that is stored, or the row itself, is written
  have haccept (pid : Option Uuid)
      (hresolve : resolveParentName state.skills planned row.parentName = .ok pid)
      (hin : parentIn (id :: state.skills.ids) pid = true)
      (hparent : pid = none ∧ row.parentName = none ∨
        ∃ r : SkillOntology, (r = mk pid ∨ r ∈ state.skills.skills.rows) ∧
          pid = some r.id ∧ row.parentName = some r.canonicalName) :
      ∃ skill, WrittenAs planned state.skills row skill ∧
        SkillOntologyTable.Wrote state.skills (importRow planned state row).skills skill := by
    obtain ⟨hid, hname, hpid, haliases⟩ := hmk pid
    refine ⟨mk pid, ⟨hname, haliases, fun name hplanned => ?_, ?_⟩, ?_⟩
    · rw [hid] at hplanned
      rw [hname]
      exact hreserved name hplanned
    · rw [hpid]
      exact hparent
    · rw [hrow, hresolve]
      exact (hwrite pid).1 hin
  cases hparent : row.parentName with
  | none =>
    have hresolve : resolveParentName state.skills planned row.parentName = .ok none := by
      rw [hparent]
      rfl
    exact ⟨fun _ => haccept none hresolve rfl (Or.inl ⟨rfl, hparent⟩),
      fun hno => absurd (by simp) hno⟩
  | some p =>
    by_cases hp : p ∈ state.skills.names
    · obtain ⟨r, hr, rfl, hstored⟩ :=
        resolveParentName_stored planned state.skills p hp
      rw [← hparent] at hstored
      have hin : parentIn (id :: state.skills.ids) (some r.id) = true :=
        decide_eq_true (List.mem_cons_of_mem _ (List.mem_map.mpr ⟨r, hr, rfl⟩))
      refine ⟨fun _ => haccept (some r.id) hstored hin
        (Or.inr ⟨r, Or.inr hr, rfl, hparent⟩), fun hno => absurd ?_ hno⟩
      intro q hq
      exact Or.inr (Option.some.inj hq ▸ hp)
    · cases hplanned : planned p with
      | none =>
        obtain ⟨e, he⟩ := resolveParentName_unknown planned state.skills p hp hplanned
        have hsame : (importRow planned state row).skills = state.skills := by
          rw [hrow, hparent, he]
          rfl
        have hno : ¬∀ q ∈ some p, q = row.canonicalName ∨ q ∈ state.skills.names := by
          intro hall
          rcases hall p rfl with rfl | hin
          · exact absurd ((hown hp).symm.trans hplanned) (by simp)
          · exact hp hin
        exact ⟨fun hall => absurd hall hno, fun _ => hsame⟩
      | some pid =>
        have hresolve := resolveParentName_planned planned state.skills p pid hp hplanned
        rw [← hparent] at hresolve
        by_cases hself : p = row.canonicalName
        · -- the row names itself, under the id reserved for it
          subst hself
          have hpid : some pid = some id := hplanned.symm.trans (hown hp)
          obtain rfl := Option.some.inj hpid
          have hin : parentIn (pid :: state.skills.ids) (some pid) = true :=
            decide_eq_true (List.mem_cons_self)
          refine ⟨fun _ => haccept (some pid) hresolve hin
            (Or.inr ⟨mk (some pid), Or.inl rfl, ?_, ?_⟩), fun hno => absurd ?_ hno⟩
          · rw [(hmk _).1]
          · rw [(hmk _).2.1, hparent]
          · intro q hq
            exact Or.inl (Option.some.inj hq).symm
        · have hout : parentIn (id :: state.skills.ids) (some pid) = false := by
            rw [parentIn, decide_eq_false_iff_not, List.mem_cons, not_or]
            constructor
            · rintro rfl
              exact hself (hreserved p hplanned).symm
            · exact h.not_mem_ids p pid hplanned hp
          have hsame : (importRow planned state row).skills = state.skills := by
            rw [hrow, hresolve]
            exact (hwrite (some pid)).2 hout
          have hno : ¬∀ q ∈ some p, q = row.canonicalName ∨ q ∈ state.skills.names := by
            intro hall
            exact (hall p rfl).elim hself hp
          exact ⟨fun hall => absurd hall hno, fun _ => hsame⟩

-- The rest of the file has its say over a row that was written: none.
theorem laidOver_cons (rows : List ImportRow) (known seen : List String) (row : ImportRow)
    (hseen : row.canonicalName ∈ seen) (assigned : ImportRow → β) (old old' : String → β)
    (hself : old' row.canonicalName = assigned row)
    (hothers : ∀ other, other ≠ row.canonicalName → old' other = old other) :
    laidOver assigned (writtenRows known seen rows) old' =
      laidOver assigned (row :: writtenRows known seen rows) old := by
  funext other
  by_cases hother : row.canonicalName = other
  · subst hother
    rw [laidOver, laidOver, find?_writtenRows_seen rows known seen _ hseen,
      List.find?_cons_of_pos (by simp)]
    exact hself
  · rw [laidOver, laidOver, List.find?_cons_of_neg (by simpa using hother)]
    cases (writtenRows known seen rows).find? (fun row => row.canonicalName = other) with
    | none => exact hothers other (Ne.symm hother)
    | some found => rfl

theorem foldl_importRow (column : SkillOntologyTable → String → β) (assigned : ImportRow → β)
    (hwrite : ∀ before after : BulkImport, ∀ row skill, WrittenAs planned before.skills row skill →
      SkillOntologyTable.Wrote before.skills after.skills skill →
      column after.skills row.canonicalName = assigned row ∧
      ∀ name, name ≠ row.canonicalName → column after.skills name = column before.skills name)
    (rows : List ImportRow) (known : List String) (h : Reserved planned state.skills)
    (hnew : ∀ row ∈ rows, row.canonicalName ≠ "" → row.canonicalName ∉ state.skills.names →
      ∃ id, planned row.canonicalName = some id)
    (hknown : ∀ name, name ∈ known ↔ name ∈ state.skills.names) :
    column (rows.foldl (importRow planned) state).skills =
      laidOver assigned (writtenRows known state.seenInFile rows) (column state.skills) := by
  induction rows generalizing state known with
  | nil => rfl
  | cons row rest ih =>
    rw [List.foldl_cons]
    by_cases hskip : ¬row.Checked ∨ row.canonicalName ∈ state.seenInFile
    · obtain ⟨hskills, hseen⟩ := importRow_skip planned state row hskip
      have hrest := ih (importRow planned state row) known (hskills.symm ▸ h)
        (fun next hnext => hskills.symm ▸ hnew next (List.mem_cons_of_mem _ hnext))
        (hskills.symm ▸ hknown)
      rw [hrest, hskills, hseen, writtenRows, if_pos hskip]
    · obtain ⟨hchecked, hseen⟩ := not_or.mp hskip
      rw [not_not] at hchecked
      obtain ⟨haccept, hrefuse⟩ := importRow_wrote planned state row h
        (hnew row List.mem_cons_self hchecked.1) hchecked hseen
      have hnext := importRow_seenInFile planned state row hchecked hseen
      rw [writtenRows, if_neg hskip]
      simp only [hknown]
      by_cases hparent : ∀ p ∈ row.parentName, p = row.canonicalName ∨ p ∈ state.skills.names
      · obtain ⟨skill, hskill, hwrote⟩ := haccept hparent
        obtain ⟨hself, hothers⟩ := hwrite state (importRow planned state row) row skill hskill
          hwrote
        have hnames (name : String) : name ∈ (importRow planned state row).skills.names ↔
            name = row.canonicalName ∨ name ∈ state.skills.names := by
          rw [hwrote.mem_names, hskill.name]
        have hmore (name : String) : name ∈ row.canonicalName :: known ↔
            name ∈ (importRow planned state row).skills.names := by
          rw [hnames, List.mem_cons, hknown]
        have hrest := ih (importRow planned state row) (row.canonicalName :: known)
          (h.wrote hwrote hskill.reserved)
          (fun next hn hne hnot => hnew next (List.mem_cons_of_mem _ hn) hne
            (fun hin => hnot ((hnames _).mpr (.inr hin)))) hmore
        rw [if_pos hparent, hrest, hnext]
        exact laidOver_cons rest _ _ row List.mem_cons_self assigned _ _ hself hothers
      · have hsame := hrefuse hparent
        have hrest := ih (importRow planned state row) known (hsame.symm ▸ h)
          (fun next hn => hsame.symm ▸ hnew next (List.mem_cons_of_mem _ hn))
          (hsame.symm ▸ hknown)
        rw [if_neg hparent, hrest, hnext, hsame]

theorem reserved_plannedIds (t : SkillOntologyTable) (rows : List ImportRow) :
    Reserved (plannedIds t rows) t := by
  constructor
  · intro name other id hname hother
    rw [plannedIds] at hname hother
    split_ifs at hname hother with hm hm'
    have hidx : (newNames t rows).idxOf name = (newNames t rows).idxOf other := by
      have hboth := (Option.some.inj hname).trans (Option.some.inj hother).symm
      exact Nat.add_left_cancel hboth
    exact (List.idxOf_inj hm).mp hidx
  · intro r hr name hplanned
    rw [plannedIds] at hplanned
    split_ifs at hplanned with hm
    have hlt : r.id < t.skills.next := t.skills.below r hr
    have hid := Option.some.inj hplanned
    exact absurd (hid ▸ Nat.le_add_right _ _) (Nat.not_le.mpr hlt)

theorem planned_of_mem (t : SkillOntologyTable) (rows : List ImportRow) (row : ImportRow)
    (hrow : row ∈ rows) (hne : row.canonicalName ≠ "") (hnew : row.canonicalName ∉ t.names) :
    ∃ id, plannedIds t rows row.canonicalName = some id := by
  have hmem : row.canonicalName ∈ newNames t rows := by
    rw [newNames, List.mem_dedup, List.mem_filter]
    refine ⟨List.mem_map.mpr ⟨row, hrow, rfl⟩, ?_⟩
    simp [hne, (t.getByCanonicalNameExact_eq_none row.canonicalName).mpr hnew]
  exact ⟨_, if_pos hmem⟩

theorem executeBulkImport_column (column : SkillOntologyTable → String → β)
    (assigned : ImportRow → β) (t : SkillOntologyTable) (rows : List ImportRow)
    (hwrite : ∀ before after : BulkImport, ∀ row skill,
      WrittenAs (plannedIds t rows) before.skills row skill →
      SkillOntologyTable.Wrote before.skills after.skills skill →
      column after.skills row.canonicalName = assigned row ∧
      ∀ name, name ≠ row.canonicalName → column after.skills name = column before.skills name) :
    column (executeBulkImport t rows).skills =
      laidOver assigned (writtenRows t.names [] rows) (column t) := by
  apply foldl_importRow (plannedIds t rows) _ column assigned hwrite
  · exact reserved_plannedIds t rows
  · exact planned_of_mem t rows
  · exact fun name => Iff.rfl

theorem parentName_executeBulkImport (t : SkillOntologyTable) (rows : List ImportRow) :
    (executeBulkImport t rows).skills.parentName = importedParentName t rows := by
  rw [importedParentName, overlaid_assignedParents]
  refine executeBulkImport_column SkillOntologyTable.parentName ImportRow.parentName t rows ?_
  intro before after row skill hskill hwrote
  have hassigned := assigned_of_wrote before row after skill hwrote hskill.name hskill.parent
  exact ⟨hassigned.self, hassigned.others⟩

theorem executeBulkImport_forest (t : SkillOntologyTable) (rows : List ImportRow) :
    Forest (executeBulkImport t rows).skills.parentOf ↔ Forest (importedParentName t rows) := by
  rw [SkillOntologyTable.forest_parentName, parentName_executeBulkImport]

end Plan

end AiHiring
