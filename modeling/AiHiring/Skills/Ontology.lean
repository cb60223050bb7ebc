import AiHiring.Library.Fallible
import AiHiring.Library.Forest
import AiHiring.Library.Text
import AiHiring.Pipeline.Model

namespace AiHiring

open Library

inductive SkillError where
  | notFound (detail : String)
  | conflict (detail : String)
  | unprocessable (detail : String)
  | badRequest (detail : String)
  | attribute (message : String)
  | value (message : String)
  | integrity (constraint : String)
  deriving DecidableEq, Repr

-- A NULL in aliases is read as the empty list.
structure SkillOntology where
  id : Uuid
  canonicalName : String
  aliases : List String
  category : Option String
  parentSkillId : Option Uuid
  confidence : String
  source : Option String
  isActive : Bool

-- The foreign key on parent_skill_id, for the ids it may refer to.
def parentIn (ids : List Uuid) : Option Uuid → Bool
  | none => true
  | some p => p ∈ ids

-- skill_ontology with its unique name and its foreign key to itself.
structure SkillOntologyTable where
  skills : Table SkillOntology SkillOntology.id
  uqCanonicalName : ∀ r ∈ skills.rows, ∀ s ∈ skills.rows, r.canonicalName = s.canonicalName → r = s
  fkParentSkill : ∀ s ∈ skills.rows,
    parentIn (skills.rows.map SkillOntology.id) s.parentSkillId = true

theorem parentIn_mono (ids more : List Uuid) (parent : Option Uuid) (hsub : ids ⊆ more)
    (h : parentIn ids parent = true) : parentIn more parent = true := by
  cases parent with
  | none => rfl
  | some p => exact decide_eq_true (hsub (of_decide_eq_true h))

namespace SkillOntologyTable

def empty : SkillOntologyTable where
  skills := Table.empty
  uqCanonicalName := by simp [Table.empty]
  fkParentSkill := by simp [Table.empty]

def ids (t : SkillOntologyTable) : List Uuid := t.skills.rows.map SkillOntology.id

def parentOf (t : SkillOntologyTable) (id : Uuid) : Option Uuid :=
  (t.skills.find? id).bind SkillOntology.parentSkillId

end SkillOntologyTable

namespace SkillOntologyRepository

variable (t : SkillOntologyTable)

def getSkillById (id : Uuid) : Option SkillOntology := t.skills.find? id

def getByCanonicalNameExact (name : String) : Option SkillOntology :=
  t.skills.rows.find? fun skill => skill.canonicalName = name

def getChildren (id : Uuid) : List SkillOntology :=
  (t.skills.rows.filter fun skill => skill.parentSkillId = some id).mergeSort
    fun a b => a.canonicalName ≤ b.canonicalName

def findSkillByAlias (alias_ : String) (excludeId : Uuid) : Option SkillOntology :=
  t.skills.rows.find? fun skill => alias_ ∈ skill.aliases ∧ skill.id ≠ excludeId

-- INSERT and flush. A row may name itself as its parent: the foreign key is
-- checked once the row is there.
def createSkill (skill : SkillOntology) : Except SkillError SkillOntologyTable :=
  if hpk : skill.id ∈ t.skills.rows.map SkillOntology.id then
    .error (.integrity "skill_ontology_pkey")
  else if huq : ∃ r ∈ t.skills.rows, r.canonicalName = skill.canonicalName then
    .error (.integrity "skill_ontology_canonical_name_key")
  else if hfk : parentIn (skill.id :: t.ids) skill.parentSkillId then
    .ok {
      skills := t.skills.add skill hpk
      uqCanonicalName := by
        intro r hr s hs hname
        have hnew (old : SkillOntology) (hold : old ∈ t.skills.rows) :
            old.canonicalName ≠ skill.canonicalName := fun he => huq ⟨old, hold, he⟩
        rw [Table.rows_add, List.mem_append, List.mem_singleton] at hr hs
        rcases hr with hr | rfl
        · rcases hs with hs | rfl
          · exact t.uqCanonicalName r hr s hs hname
          · exact absurd hname (hnew r hr)
        · rcases hs with hs | rfl
          · exact absurd hname.symm (hnew s hs)
          · rfl
      fkParentSkill := by
        intro s hs
        rw [Table.rows_add, List.mem_append, List.mem_singleton] at hs
        rw [Table.rows_add, List.map_append]
        rcases hs with hs | rfl
        · exact parentIn_mono _ _ _ (List.subset_append_left _ _) (t.fkParentSkill s hs)
        · refine parentIn_mono _ _ _ ?_ hfk
          intro id hid
          rcases List.mem_cons.mp hid with rfl | hid
          · exact List.mem_append_right _ (by simp)
          · exact List.mem_append_left _ hid }
  else
    .error (.integrity "skill_ontology_parent_skill_id_fkey")

private theorem ids_replace (skills : Table SkillOntology SkillOntology.id)
    (skill : SkillOntology) :
    (skills.replace skill).rows.map SkillOntology.id = skills.rows.map SkillOntology.id := by
  rw [Table.rows_replace, List.map_map]
  apply List.map_congr_left
  intro r _
  by_cases h : r.id = skill.id <;> simp [h]

def updateSkill (skill : SkillOntology) : Except SkillError SkillOntologyTable :=
  if huq : ∃ r ∈ t.skills.rows, r.id ≠ skill.id ∧ r.canonicalName = skill.canonicalName then
    .error (.integrity "skill_ontology_canonical_name_key")
  else if hfk : parentIn t.ids skill.parentSkillId then
    .ok {
      skills := t.skills.replace skill
      uqCanonicalName := by
        intro r hr s hs hname
        rcases (t.skills.mem_replace skill r).mp hr with ⟨hrold, hrid⟩ | ⟨rfl, -⟩
        · rcases (t.skills.mem_replace skill s).mp hs with ⟨hsold, -⟩ | ⟨rfl, -⟩
          · exact t.uqCanonicalName r hrold s hsold hname
          · exact absurd ⟨r, hrold, hrid, hname⟩ huq
        · rcases (t.skills.mem_replace r s).mp hs with ⟨hsold, hsid⟩ | ⟨rfl, -⟩
          · exact absurd ⟨s, hsold, hsid, hname.symm⟩ huq
          · rfl
      fkParentSkill := by
        intro s hs
        rw [ids_replace]
        rcases (t.skills.mem_replace skill s).mp hs with ⟨hs, -⟩ | ⟨rfl, -⟩
        · exact t.fkParentSkill s hs
        · exact hfk }
  else
    .error (.integrity "skill_ontology_parent_skill_id_fkey")

variable (oldParentId : Uuid) (newParentId : Option Uuid)

def reparented (skill : SkillOntology) :
    SkillOntology :=
  if skill.parentSkillId = some oldParentId then { skill with parentSkillId := newParentId }
  else skill

theorem reparented_id (skill : SkillOntology) :
    (reparented oldParentId newParentId skill).id = skill.id := by
  by_cases h : skill.parentSkillId = some oldParentId <;> simp [reparented, h]

theorem reparented_canonicalName (skill : SkillOntology) :
    (reparented oldParentId newParentId skill).canonicalName = skill.canonicalName := by
  by_cases h : skill.parentSkillId = some oldParentId <;> simp [reparented, h]

theorem reparented_parentSkillId (skill : SkillOntology) :
    (reparented oldParentId newParentId skill).parentSkillId =
      if skill.parentSkillId = some oldParentId then newParentId else skill.parentSkillId := by
  by_cases h : skill.parentSkillId = some oldParentId <;> simp [reparented, h]

-- One UPDATE over all direct children.
def reparentChildren :
    Except SkillError SkillOntologyTable :=
  if hfk : parentIn t.ids newParentId then
    .ok {
      skills := t.skills.modify (reparented oldParentId newParentId)
        (reparented_id oldParentId newParentId)
      uqCanonicalName := by
        intro r hr s hs hname
        obtain ⟨rold, hrold, rfl⟩ := List.mem_map.mp hr
        obtain ⟨sold, hsold, rfl⟩ := List.mem_map.mp hs
        rw [reparented_canonicalName, reparented_canonicalName] at hname
        rw [t.uqCanonicalName rold hrold sold hsold hname]
      fkParentSkill := by
        intro s hs
        obtain ⟨old, hold, rfl⟩ := List.mem_map.mp hs
        have hids : (t.skills.rows.map (reparented oldParentId newParentId)).map
            SkillOntology.id = t.ids := by
          rw [List.map_map]
          exact List.map_congr_left fun r _ => reparented_id oldParentId newParentId r
        rw [Table.rows_modify, hids, reparented_parentSkillId]
        split_ifs
        · exact hfk
        · exact t.fkParentSkill old hold }
  else
    .error (.integrity "skill_ontology_parent_skill_id_fkey")

section Specs

variable (t' : SkillOntologyTable) (skill : SkillOntology)

theorem createSkill_ok (h : createSkill t skill = .ok t') :
    skill.id ∉ t.ids ∧ (∀ r ∈ t.skills.rows, r.canonicalName ≠ skill.canonicalName) ∧
      parentIn (skill.id :: t.ids) skill.parentSkillId = true ∧
      t'.skills.rows = t.skills.rows ++ [skill] ∧
      ∀ id, t'.skills.find? id = if id = skill.id then some skill else t.skills.find? id := by
  rw [createSkill] at h
  split_ifs at h with hpk huq hfk
  rw [← Except.ok.inj h]
  refine ⟨hpk, fun r hr hname => huq ⟨r, hr, hname⟩, hfk, rfl, ?_⟩
  exact t.skills.find?_add skill hpk

theorem createSkill_total (hpk : skill.id ∉ t.ids)
    (huq : ∀ r ∈ t.skills.rows, r.canonicalName ≠ skill.canonicalName)
    (hfk : parentIn (skill.id :: t.ids) skill.parentSkillId = true) :
    ∃ t', createSkill t skill = .ok t' := by
  have huq' : ¬∃ r ∈ t.skills.rows, r.canonicalName = skill.canonicalName := by
    rintro ⟨r, hr, hname⟩
    exact huq r hr hname
  have hpk' : skill.id ∉ t.skills.rows.map SkillOntology.id := hpk
  rw [createSkill, dif_neg hpk', dif_neg huq', dif_pos hfk]
  exact ⟨_, rfl⟩

theorem parentOf_createSkill (h : createSkill t skill = .ok t') :
    t'.parentOf = Function.update t.parentOf skill.id skill.parentSkillId := by
  obtain ⟨-, -, -, -, hfind⟩ := createSkill_ok t t' skill h
  funext id
  rw [SkillOntologyTable.parentOf, hfind]
  by_cases hid : id = skill.id
  · rw [if_pos hid, hid, Function.update_self, Option.bind_some]
  · rw [if_neg hid, Function.update_of_ne hid]
    rfl

-- A skill nothing points to: no row had the id before.
theorem createSkill_leaf (h : createSkill t skill = .ok t') (id : Uuid) :
    t.parentOf id ≠ some skill.id := by
  intro hparent
  obtain ⟨hpk, -⟩ := createSkill_ok t t' skill h
  obtain ⟨row, hrow, hp⟩ := Option.bind_eq_some_iff.mp hparent
  have hfk := t.fkParentSkill row ((t.skills.find?_eq_some id row).mp hrow).1
  rw [hp] at hfk
  exact hpk (of_decide_eq_true hfk)

theorem updateSkill_ok (h : updateSkill t skill = .ok t') :
    (∀ r ∈ t.skills.rows, r.id ≠ skill.id → r.canonicalName ≠ skill.canonicalName) ∧
      parentIn t.ids skill.parentSkillId = true ∧ t'.skills = t.skills.replace skill := by
  rw [updateSkill] at h
  split_ifs at h with huq hfk
  rw [← Except.ok.inj h]
  exact ⟨fun r hr hid hname => huq ⟨r, hr, hid, hname⟩, hfk, rfl⟩

theorem updateSkill_total
    (huq : ∀ r ∈ t.skills.rows, r.id ≠ skill.id → r.canonicalName ≠ skill.canonicalName)
    (hfk : parentIn t.ids skill.parentSkillId = true) : ∃ t', updateSkill t skill = .ok t' := by
  have huq' : ¬∃ r ∈ t.skills.rows, r.id ≠ skill.id ∧ r.canonicalName = skill.canonicalName := by
    rintro ⟨r, hr, hid, hname⟩
    exact huq r hr hid hname
  rw [updateSkill, dif_neg huq', dif_pos hfk]
  exact ⟨_, rfl⟩

theorem parentOf_updateSkill (old : SkillOntology) (hold : t.skills.find? skill.id = some old)
    (h : updateSkill t skill = .ok t') :
    t'.parentOf = Function.update t.parentOf skill.id skill.parentSkillId := by
  obtain ⟨-, -, hskills⟩ := updateSkill_ok t t' skill h
  funext id
  rw [SkillOntologyTable.parentOf, hskills]
  by_cases hid : id = skill.id
  · rw [hid, t.skills.find?_replace_self skill old hold, Function.update_self, Option.bind_some]
  · rw [t.skills.find?_replace_ne skill id hid, Function.update_of_ne hid]
    rfl

theorem find?_modify (f : SkillOntology → SkillOntology) (hf : ∀ r, (f r).id = r.id) (id : Uuid) :
    (t.skills.modify f hf).find? id = (t.skills.find? id).map f := by
  rw [Table.find?, Table.rows_modify, List.find?_map, Table.find?]
  congr 2
  funext r
  simp [hf]

theorem parentOf_reparentChildren (oldParentId : Uuid) (newParentId : Option Uuid)
    (h : reparentChildren t oldParentId newParentId = .ok t') :
    t'.parentOf = fun id =>
      if t.parentOf id = some oldParentId then newParentId else t.parentOf id := by
  have hrow (row : Option SkillOntology) :
      (row.map (reparented oldParentId newParentId)).bind SkillOntology.parentSkillId =
        if row.bind SkillOntology.parentSkillId = some oldParentId then newParentId
        else row.bind SkillOntology.parentSkillId := by
    cases row with
    | none => simp
    | some row => simp [reparented_parentSkillId]
  rw [reparentChildren] at h
  split_ifs at h with hfk
  rw [← Except.ok.inj h]
  funext id
  rw [SkillOntologyTable.parentOf, find?_modify]
  exact hrow (t.skills.find? id)

end Specs

end SkillOntologyRepository

end AiHiring
