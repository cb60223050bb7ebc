import AiHiring.Library.Run
import AiHiring.Skills.BulkImport

namespace AiHiring

open Library

section Writers

variable (t t' : SkillOntologyTable)

namespace SkillOntologyService

open SkillOntologyRepository

theorem climb_found (skillId : Uuid) (visited : List Uuid) (currentId : Uuid)
    (parent : SkillOntology) (hne : currentId ≠ skillId) (hv : currentId ∉ visited)
    (hrow : getSkillById t currentId = some parent) :
    createsCircularHierarchy t skillId visited (some currentId) =
      createsCircularHierarchy t skillId (currentId :: visited) parent.parentSkillId := by
  rw [createsCircularHierarchy]
  simp only [hne, hv, if_false, dite_false]
  split
  · next hnone => exact absurd (hrow.symm.trans hnone) (by simp)
  · next found hfound => rw [Option.some.inj (hfound.symm.trans hrow)]

theorem climb_missing (skillId : Uuid) (visited : List Uuid) (currentId : Uuid)
    (hne : currentId ≠ skillId) (hrow : getSkillById t currentId = none) :
    createsCircularHierarchy t skillId visited (some currentId) = false := by
  rw [createsCircularHierarchy]
  simp only [hne, if_false]
  split_ifs
  · rfl
  · split
    · rfl
    · next found hfound => exact absurd (hfound.symm.trans hrow) (by simp)

-- The climb meets no visited node in a forest, so it finds every ancestor.
theorem createsCircularHierarchy_iff (hf : Forest t.parentOf) (skillId : Uuid)
    (visited : List Uuid) (current : Option Uuid)
    (hvisited : ∀ v ∈ visited, ∀ c, current = some c → Ancestor t.parentOf v c) :
    createsCircularHierarchy t skillId visited current = true ↔
      ∃ c, current = some c ∧ (c = skillId ∨ Ancestor t.parentOf c skillId) := by
  induction visited, current using createsCircularHierarchy.induct t skillId with
  | case1 visited => simp [createsCircularHierarchy]
  | case2 visited =>
    rw [createsCircularHierarchy]
    simp
  | case3 visited currentId hne hv =>
    exact absurd (hvisited currentId hv currentId rfl) (hf currentId)
  | case4 visited currentId hne hv hrow =>
    have hstop : ¬Ancestor t.parentOf currentId skillId := by
      intro h
      obtain ⟨p, hp⟩ := h.exists_parent
      rw [getSkillById] at hrow
      simp [SkillOntologyTable.parentOf, hrow] at hp
    rw [climb_missing t skillId visited currentId hne hrow]
    simp [hne, hstop]
  | case5 visited currentId hne hv parent hrow ih =>
    have hup : t.parentOf currentId = parent.parentSkillId := by
      rw [getSkillById] at hrow
      simp [SkillOntologyTable.parentOf, hrow]
    have hnext : ∀ v ∈ currentId :: visited, ∀ c, parent.parentSkillId = some c →
        Ancestor t.parentOf v c := by
      intro v hv c hc
      have hlast : Ancestor t.parentOf currentId c := Ancestor.single (hup.trans hc)
      rcases List.mem_cons.mp hv with rfl | hv
      · exact hlast
      · exact (hvisited v hv currentId rfl).trans hlast
    rw [climb_found t skillId visited currentId parent hne hv hrow, ih hnext]
    simp only [hne, Option.some.injEq, exists_eq_left', false_or]
    constructor
    · rintro ⟨c, hc, hcs⟩
      rw [ancestor_iff (hup.trans hc)]
      exact hcs.imp_left Eq.symm
    · intro h
      obtain ⟨c, hc⟩ := h.exists_parent
      rw [ancestor_iff hc] at h
      exact ⟨c, hup ▸ hc, h.imp_left Eq.symm⟩

theorem forest_createSkill (hf : Forest t.parentOf) (skill : SkillOntology)
    (hparent : skill.parentSkillId ≠ some skill.id)
    (h : SkillOntologyRepository.createSkill t skill = .ok t') : Forest t'.parentOf := by
  rw [parentOf_createSkill t t' skill h]
  exact hf.attach_leaf skill.id skill.parentSkillId (createSkill_leaf t t' skill h) hparent

theorem stored_ne_next (parentSkillId : Uuid) (h : parentSkillId ∈ t.ids) :
    some parentSkillId ≠ some t.skills.next := by
  obtain ⟨row, hrow, hid⟩ := List.mem_map.mp h
  have hlt : row.id < t.skills.next := t.skills.below row hrow
  intro heq
  exact absurd (hid.trans (Option.some.inj heq)) (Nat.ne_of_lt hlt)

theorem mem_ids_of_getSkillById (id : Uuid) (skill : SkillOntology)
    (h : getSkillById t id = some skill) : id ∈ t.ids := by
  obtain ⟨hrow, hid⟩ := (t.skills.find?_eq_some id skill).mp h
  exact List.mem_map.mpr ⟨skill, hrow, hid⟩

theorem createSkill_forest (hf : Forest t.parentOf) (request : SkillCreateRequest)
    (h : createSkill t request = .ok t') : Forest t'.parentOf := by
  simp only [createSkill, raise_eq_ok] at h
  obtain ⟨-, -, h⟩ := h
  cases hparent : request.parentSkillId with
  | none =>
    rw [hparent] at h
    exact forest_createSkill t t' hf _ (by simp [newSkill, hparent]) h
  | some parentSkillId =>
    simp only [hparent, raise_eq_ok] at h
    obtain ⟨hfound, h⟩ := h
    obtain ⟨parent, hrow⟩ := Option.ne_none_iff_exists'.mp (by simpa using hfound)
    have hmem := mem_ids_of_getSkillById t parentSkillId parent hrow
    refine forest_createSkill t t' hf _ ?_ h
    rw [newSkill, hparent]
    exact stored_ne_next t parentSkillId hmem

theorem getSkillOr404_eq_ok (skillId : Uuid) (skill : SkillOntology) :
    getSkillOr404 t skillId = .ok skill ↔ getSkillById t skillId = some skill := by
  rw [getSkillOr404]
  cases getSkillById t skillId <;> simp

theorem applyCanonicalName_ok (skill renamed : SkillOntology) (canonicalName : Option String)
    (h : applyCanonicalName t skill canonicalName = .ok renamed) :
    renamed.id = skill.id ∧ renamed.parentSkillId = skill.parentSkillId := by
  cases canonicalName with
  | none => simp [applyCanonicalName] at h
  | some canonicalName =>
    simp only [applyCanonicalName, raise_eq_ok] at h
    rw [← Except.ok.inj h.2.2]
    exact ⟨rfl, rfl⟩

theorem resolveParentSkillId_ok (hf : Forest t.parentOf) (skill : SkillOntology)
    (requested resolved : Option Uuid)
    (h : resolveParentSkillId t skill requested = .ok resolved) (p : Uuid)
    (hp : resolved = some p) : p ≠ skill.id ∧ ¬Ancestor t.parentOf p skill.id := by
  cases requested with
  | none => exact absurd ((Except.ok.inj h).trans hp) (by simp)
  | some parentId =>
    simp only [resolveParentSkillId, raise_eq_ok] at h
    obtain ⟨hself, h⟩ := h
    cases hrow : getSkillById t parentId with
    | none => simp [hrow] at h
    | some parent =>
      simp only [hrow, raise_eq_ok] at h
      obtain ⟨-, hcircular, h⟩ := h
      obtain rfl : parentId = p := Option.some.inj ((Except.ok.inj h).trans hp)
      rw [createsCircularHierarchy_iff t hf skill.id [] (some parentId) (by simp)] at hcircular
      simp only [Option.some.injEq, exists_eq_left', not_or] at hcircular
      exact hcircular

theorem forest_updateSkill (hf : Forest t.parentOf) (skill old : SkillOntology)
    (hold : t.skills.find? skill.id = some old)
    (hparent : ∀ p, skill.parentSkillId = some p →
      t.parentOf skill.id = some p ∨ p ≠ skill.id ∧ ¬Ancestor t.parentOf p skill.id)
    (h : SkillOntologyRepository.updateSkill t skill = .ok t') : Forest t'.parentOf := by
  rw [parentOf_updateSkill t t' skill old hold h]
  cases hp : skill.parentSkillId with
  | none => exact hf.update_none skill.id
  | some p =>
    rcases hparent p hp with hsame | hnew
    · rw [← hsame, Function.update_eq_self]
      exact hf
    · exact (forest_update_iff hf skill.id p).mpr hnew

theorem updateSkill_forest (hf : Forest t.parentOf) (affected : String → ℕ) (skillId : Uuid)
    (request : SkillOntologyUpdateRequest) (h : updateSkill t affected skillId request = .ok t') :
    Forest t'.parentOf := by
  simp only [updateSkill, bind_eq_ok] at h
  obtain ⟨skill, hskill, renamed, hrename, aliases, -, parentSkillId, hresolve, confidence, -,
    isActive, -, hflush⟩ := h
  have hrow := (getSkillOr404_eq_ok t skillId skill).mp hskill
  have hid := ((t.skills.find?_eq_some skillId skill).mp hrow).2
  have hsame : renamed.id = skill.id ∧ renamed.parentSkillId = skill.parentSkillId := by
    cases hname : request.canonicalName with
    | none =>
      rw [hname, updatedName] at hrename
      rw [Except.ok.inj hrename]
      exact ⟨rfl, rfl⟩
    | some canonicalName =>
      rw [hname] at hrename
      exact applyCanonicalName_ok t skill renamed canonicalName hrename
  have hstored : t.skills.find? renamed.id = some skill := by
    rw [hsame.1, hid]
    exact hrow
  refine forest_updateSkill t t' hf _ skill ?_ ?_ hflush
  · exact hstored
  intro p hp
  change parentSkillId = some p at hp
  cases hparent : request.parentSkillId with
  | none =>
    rw [hparent] at hresolve
    refine .inl ?_
    rw [SkillOntologyTable.parentOf, hstored, Option.bind_some, ← hsame.2, ← hp]
    exact Except.ok.inj hresolve
  | some requested =>
    rw [hparent] at hresolve
    exact .inr (resolveParentSkillId_ok t hf renamed requested parentSkillId hresolve p hp)

theorem reparentChildren_forest (hf : Forest t.parentOf) (oldParentId : Uuid)
    (newParentId : Option Uuid)
    (hnew : newParentId = none ∨ newParentId = t.parentOf oldParentId)
    (h : reparentChildren t oldParentId newParentId = .ok t') : Forest t'.parentOf := by
  rw [parentOf_reparentChildren t t' oldParentId newParentId h]
  exact hf.promote oldParentId newParentId hnew

theorem reparentOnDeactivation_forest (hf : Forest t.parentOf) (skill : SkillOntology)
    (hrow : t.skills.find? skill.id = some skill) (childHandling : Option ChildHandling)
    (h : reparentOnDeactivation t skill childHandling = .ok t') : Forest t'.parentOf := by
  simp only [reparentOnDeactivation] at h
  split_ifs at h with hchildren
  · exact Except.ok.inj h ▸ hf
  · cases childHandling with
    | none => simp at h
    | some handling =>
      cases handling with
      | promote =>
        refine reparentChildren_forest t t' hf skill.id skill.parentSkillId ?_ h
        rw [SkillOntologyTable.parentOf, hrow]
        exact .inr rfl
      | root => exact reparentChildren_forest t t' hf skill.id none (.inl rfl) h
      | cancel => exact reparentChildren_forest t t' hf skill.id none (.inl rfl) h

theorem flush_forest (hf : Forest t.parentOf) (skill written : SkillOntology)
    (hrow : t.skills.find? skill.id = some skill) (hid : written.id = skill.id)
    (hparent : written.parentSkillId = skill.parentSkillId)
    (h : SkillOntologyRepository.updateSkill t written = .ok t') : Forest t'.parentOf := by
  refine forest_updateSkill t t' hf written skill (hid ▸ hrow) ?_ h
  intro p hp
  refine .inl ?_
  rw [SkillOntologyTable.parentOf, hid, hrow, Option.bind_some, ← hparent, hp]

theorem updateStatus_forest (hf : Forest t.parentOf) (skillId : Uuid)
    (request : SkillStatusUpdateRequest) (h : updateStatus t skillId request = .ok t') :
    Forest t'.parentOf := by
  rw [updateStatus] at h
  by_cases hcancel : request.childHandling = some .cancel
  · rw [if_pos hcancel] at h
    cases hskill : getSkillOr404 t skillId with
    | error e => simp [hskill, Except.map] at h
    | ok skill =>
      simp only [hskill, Except.map, Except.ok.injEq] at h
      exact h ▸ hf
  · rw [if_neg hcancel] at h
    simp only [bind_eq_ok, raise_eq_ok] at h
    obtain ⟨skill, hskill, -, h⟩ := h
    have hrow := (getSkillOr404_eq_ok t skillId skill).mp hskill
    obtain rfl := ((t.skills.find?_eq_some skillId skill).mp hrow).2
    split_ifs at h with hactive
    · exact flush_forest t t' hf skill { skill with isActive := true } hrow rfl rfl h
    · obtain ⟨mid, hmid, h⟩ := (bind_eq_ok _ _ _).mp h
      have hforest := reparentOnDeactivation_forest t mid hf skill hrow request.childHandling hmid
      cases hagain : getSkillById mid skill.id with
      | none => simp [hagain] at h
      | some again =>
        rw [hagain] at h
        have hid := ((mid.skills.find?_eq_some skill.id again).mp hagain).2
        exact flush_forest mid t' hforest again { again with isActive := false }
          (hid.symm ▸ hagain) rfl rfl h

end SkillOntologyService

namespace SkillCurationService

open SkillOntologyRepository SkillOntologyService

theorem createCanonicalSkill_forest (lower : String → String) (hf : Forest t.parentOf)
    (rawText : String) (fields : CanonicalFields)
    (h : createCanonicalSkill lower t rawText fields = .ok t') : Forest t'.parentOf := by
  simp only [createCanonicalSkill, raise_eq_ok] at h
  obtain ⟨-, h⟩ := h
  cases hname : findSkillByNameOrAlias lower t (strip (fields.canonicalName.getD rawText)) with
  | some existing => simp [hname] at h
  | none =>
    simp only [hname, bind_eq_ok] at h
    obtain ⟨_, hparent, h⟩ := h
    cases halias : (cleanAliases (fields.aliases.getD [])).findSome? fun given =>
        (findSkillByNameOrAlias lower t given).map fun collision => (given, collision) with
    | some found => simp [halias] at h
    | none =>
      simp only [halias] at h
      refine forest_createSkill t t' hf _ ?_ h
      change fields.parentSkillId ≠ some t.skills.next
      cases hp : fields.parentSkillId with
      | none => simp
      | some parentSkillId =>
        cases hrow : getSkillById t parentSkillId with
        | none =>
          exact absurd hparent (by
            simp [hp, checkParent, SkillOntologyService.getSkillOr404, hrow, Except.map])
        | some parent =>
          exact stored_ne_next t parentSkillId (mem_ids_of_getSkillById t parentSkillId parent hrow)

end SkillCurationService

end Writers

section Runs

inductive OntologyAction where
  | createSkill (request : SkillCreateRequest)
  | updateSkill (affected : String → ℕ) (skillId : Uuid) (request : SkillOntologyUpdateRequest)
  | updateStatus (skillId : Uuid) (request : SkillStatusUpdateRequest)
  | bulkImport (rows : List ImportRow)
  | createCanonicalSkillFromUnknown (rawText : String) (fields : SkillCurationService.CanonicalFields)

namespace OntologyAction

variable (lower : String → String)

def outcome (t : SkillOntologyTable) : OntologyAction → Except SkillError SkillOntologyTable
  | createSkill request => SkillOntologyService.createSkill t request
  | updateSkill affected skillId request =>
    SkillOntologyService.updateSkill t affected skillId request
  | updateStatus skillId request => SkillOntologyService.updateStatus t skillId request
  | bulkImport rows => .ok (SkillOntologyService.executeBulkImport t rows).skills
  | createCanonicalSkillFromUnknown rawText fields =>
    SkillCurationService.createCanonicalSkill lower t rawText fields

-- An operation that raises is rolled back.
def next (t : SkillOntologyTable) (action : OntologyAction) : SkillOntologyTable :=
  match action.outcome lower t with
  | .ok t' => t'
  | .error _ => t

def Step (t : SkillOntologyTable) (action : OntologyAction) (t' : SkillOntologyTable) : Prop :=
  t' = action.next lower t

-- The parents that the file assigns, laid over those it leaves, have no cycle.
def KeepsForest (t : SkillOntologyTable) : OntologyAction → Prop
  | bulkImport rows => Forest (importedParentName t rows)
  | _ => True

theorem next_forest_iff (t : SkillOntologyTable) (action : OntologyAction)
    (hf : Forest t.parentOf) :
    Forest (action.next lower t).parentOf ↔ action.KeepsForest t := by
  cases hout : action.outcome lower t with
  | error e =>
    have hnext : action.next lower t = t := by rw [next, hout]
    rw [hnext]
    cases action with
    | bulkImport rows => simp [outcome] at hout
    | _ => exact iff_of_true hf trivial
  | ok t' =>
    have hnext : action.next lower t = t' := by rw [next, hout]
    rw [hnext]
    cases action with
    | createSkill request =>
      exact iff_of_true (SkillOntologyService.createSkill_forest t t' hf request hout) trivial
    | updateSkill affected skillId request =>
      exact iff_of_true
        (SkillOntologyService.updateSkill_forest t t' hf affected skillId request hout) trivial
    | updateStatus skillId request =>
      exact iff_of_true
        (SkillOntologyService.updateStatus_forest t t' hf skillId request hout) trivial
    | bulkImport rows =>
      rw [← Except.ok.inj hout]
      exact executeBulkImport_forest t rows
    | createCanonicalSkillFromUnknown rawText fields =>
      exact iff_of_true (SkillCurationService.createCanonicalSkill_forest t t' lower hf
        rawText fields hout) trivial

end OntologyAction

open OntologyAction

theorem parentOf_empty : SkillOntologyTable.empty.parentOf = fun _ => none := rfl

-- From an empty ontology the skills stay a forest exactly as long as every file
-- that is imported keeps them one.
theorem skills_stay_forest_iff (lower : String → String)
    (path : List (OntologyAction × SkillOntologyTable))
    (hp : Path (Step lower) SkillOntologyTable.empty path) :
    (∀ t ∈ visited SkillOntologyTable.empty path, Forest t.parentOf) ↔
      EveryStep (fun t action _ => action.KeepsForest t) SkillOntologyTable.empty path := by
  have hempty : Forest SkillOntologyTable.empty.parentOf := by
    rw [parentOf_empty]
    exact forest_empty
  have hstep (t : SkillOntologyTable) (action : OntologyAction) (t' : SkillOntologyTable)
      (hf : Forest t.parentOf) (h : Step lower t action t') :
      Forest t'.parentOf ↔ action.KeepsForest t := by
    rw [h]
    exact next_forest_iff lower t action hf
  have hany : (fun _ : SkillOntologyTable => True) SkillOntologyTable.empty := trivial
  exact hp.visited_iff_everyStep hany (fun _ _ _ _ _ => trivial) hempty
    fun t action t' _ => hstep t action t'

def runOntology (actions : List OntologyAction) : List (OntologyAction × SkillOntologyTable) :=
  execute (fun t action => some (action.next id t)) SkillOntologyTable.empty actions

theorem runOntology_path (actions : List OntologyAction) :
    Path (Step id) SkillOntologyTable.empty (runOntology actions) :=
  execute_path _ (fun _ _ _ h => (Option.some.inj h).symm) _ actions

def namedRow (rowNumber : ℕ) (canonicalName : String) (parentSkill : Option String) :
    ImportRow where
  rowNumber := rowNumber
  canonicalName := canonicalName
  aliases := []
  category := none
  parentSkill := parentSkill
  confidence := "verified"
  source := none
  isActive := true

def crossedImports : List OntologyAction :=
  [.bulkImport [namedRow 2 "Python" none, namedRow 3 "Django" none],
   .bulkImport [namedRow 2 "Python" (some "Django"), namedRow 3 "Django" (some "Python")]]

theorem skills_stay_forest_crossed :
    (∀ t ∈ visited SkillOntologyTable.empty (runOntology crossedImports), Forest t.parentOf) ↔
      EveryStep (fun t action _ => action.KeepsForest t) SkillOntologyTable.empty
        (runOntology crossedImports) :=
  skills_stay_forest_iff id (runOntology crossedImports) (runOntology_path crossedImports)

theorem crossed_imports_make_a_cycle :
    ¬∀ (lower : String → String) (path : List (OntologyAction × SkillOntologyTable)),
      Path (Step lower) SkillOntologyTable.empty path →
      ∀ t ∈ visited SkillOntologyTable.empty path, Forest t.parentOf := by
  intro h
  have hfinal := h id (runOntology crossedImports) (runOntology_path crossedImports) _
    (final_mem_visited _ _)
  have hup : (final SkillOntologyTable.empty (runOntology crossedImports)).parentOf 0 =
      some 1 := by decide
  have hdown : (final SkillOntologyTable.empty (runOntology crossedImports)).parentOf 1 =
      some 0 := by decide
  exact hfinal 0 ((Ancestor.single hup).trans (Ancestor.single hdown))

end Runs

end AiHiring
