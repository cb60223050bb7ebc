import AiHiring.Skills.Ontology

namespace AiHiring

open Library

-- `_clean_aliases`, the same in both services: stripped, no blanks, no repeats.
def cleanAliases (aliases : List String) : List String :=
  aliases.foldl (fun cleaned given =>
      let trimmed := strip given
      if trimmed = "" ∨ trimmed ∈ cleaned then cleaned else cleaned ++ [trimmed])
    []

structure SkillCreateRequest where
  canonicalName : String
  aliases : List String
  category : Option String
  parentSkillId : Option Uuid
  (confidence source : String)
  isActive : Bool

-- PATCH body: the outer option is `exclude_unset`, the inner one a null.
structure SkillOntologyUpdateRequest where
  canonicalName : Option (Option String)
  (aliases removeAliases : Option (Option (List String)))
  confirmAliasRemoval : Bool
  category : Option (Option String)
  parentSkillId : Option (Option Uuid)
  (confidence source : Option (Option String))
  isActive : Option (Option Bool)

inductive ChildHandling where
  | promote
  | root
  | cancel
  deriving DecidableEq, Repr

structure SkillStatusUpdateRequest where
  isActive : Bool
  childHandling : Option ChildHandling

namespace SkillOntologyService

open SkillOntologyRepository

variable (t : SkillOntologyTable)

def getSkillOr404 (skillId : Uuid) : Except SkillError SkillOntology :=
  match getSkillById t skillId with
  | some skill => .ok skill
  | none => .error (.notFound s!"Skill '{text skillId}' not found.")

-- `category.strip() if category else None`
def stripCategory (category : Option String) : Option String :=
  match category with
  | none => none
  | some category => if category = "" then none else some (strip category)

def newSkill (id : Uuid) (request : SkillCreateRequest) : SkillOntology where
  id := id
  canonicalName := strip request.canonicalName
  aliases := cleanAliases request.aliases
  category := stripCategory request.category
  parentSkillId := request.parentSkillId
  confidence := request.confidence
  source := some request.source
  isActive := request.isActive

def createSkill (request : SkillCreateRequest) : Except SkillError SkillOntologyTable :=
  let canonicalName := strip request.canonicalName
  if canonicalName = "" then
    .error (.unprocessable "canonical_name cannot be empty.")
  else if (getByCanonicalNameExact t canonicalName).isSome then
    .error (.conflict s!"Skill '{canonicalName}' already exists.")
  else
    match request.parentSkillId with
    | none => SkillOntologyRepository.createSkill t (newSkill t.skills.next request)
    | some parentSkillId =>
      if (getSkillById t parentSkillId).isNone then
        .error (.unprocessable s!"Parent skill '{text parentSkillId}' does not exist.")
      else
        SkillOntologyRepository.createSkill t (newSkill t.skills.next request)

-- Climbs from `current`; the visited set is what makes the climb end.
def createsCircularHierarchy (skillId : Uuid) (visited : List Uuid) (current : Option Uuid) :
    Bool :=
  match current with
  | none => false
  | some currentId =>
    if currentId = skillId then
      true
    else if _hv : currentId ∈ visited then
      false
    else
      match _hp : getSkillById t currentId with
      | none => false
      | some parent =>
        createsCircularHierarchy skillId (currentId :: visited) parent.parentSkillId
termination_by (t.ids.filter fun id => id ∉ visited).length
decreasing_by
  have hmem : currentId ∈ t.ids := by
    obtain ⟨hm, hid⟩ := (t.skills.find?_eq_some currentId parent).mp _hp
    exact List.mem_map.mpr ⟨parent, hm, hid⟩
  have hsub : (t.ids.filter fun id => id ∉ currentId :: visited).Sublist
      (t.ids.filter fun id => id ∉ visited) := by
    apply List.monotone_filter_right
    intro id hid
    simp only [List.mem_cons, not_or, decide_eq_true_eq] at hid ⊢
    exact hid.2
  apply lt_of_le_of_ne hsub.length_le
  intro hlen
  have heq := hsub.eq_of_length hlen
  have hin : currentId ∈ t.ids.filter fun id => id ∉ visited :=
    List.mem_filter.mpr ⟨hmem, decide_eq_true _hv⟩
  rw [← heq] at hin
  exact absurd (List.mem_filter.mp hin).2 (by simp)

def resolveParentSkillId (skill : SkillOntology) (parentSkillId : Option Uuid) :
    Except SkillError (Option Uuid) :=
  match parentSkillId with
  | none => .ok none
  | some parentId =>
    if parentId = skill.id then
      .error (.unprocessable "A skill cannot be its own parent.")
    else
      match getSkillById t parentId with
      | none => .error (.unprocessable s!"Parent skill '{text parentId}' does not exist.")
      | some parent =>
        if !parent.isActive then
          .error (.unprocessable s!"Parent skill '{parent.canonicalName}' is not active.")
        else if createsCircularHierarchy t skill.id [] (some parentId) then
          .error (.conflict "Circular hierarchy detected.")
        else
          .ok (some parentId)

def applyCanonicalName (skill : SkillOntology) (canonicalName : Option String) :
    Except SkillError SkillOntology :=
  match canonicalName with
  | none => .error (.attribute "'NoneType' object has no attribute 'strip'")
  | some canonicalName =>
    let trimmed := strip canonicalName
    let duplicate := (getByCanonicalNameExact t trimmed).filter fun d => d.id ≠ skill.id
    if trimmed = "" then
      .error (.unprocessable "canonical_name cannot be empty.")
    else if trimmed ≠ skill.canonicalName ∧ duplicate.isSome then
      .error (.conflict s!"Skill '{trimmed}' already exists.")
    else
      .ok { skill with canonicalName := trimmed }

def mergeAliases (skill : SkillOntology) (currentAliases : List String)
    (incoming : Option (List String)) : Except SkillError (List String) :=
  (cleanAliases (incoming.getD [])).foldlM (fun merged given =>
      if given ∈ merged then
        .ok merged
      else
        match findSkillByAlias t given skill.id with
        | some conflicting =>
          .error (.conflict (s!"Alias '{given}' already belongs to canonical skill " ++
            s!"'{conflicting.canonicalName}'."))
        | none => .ok (merged ++ [given]))
    currentAliases

-- `affected` counts the candidate_skills rows that matched by the alias.
def removeAliases (affected : String → ℕ) (currentAliases : List String)
    (toRemove : Option (List String)) (confirmed : Bool) : Except SkillError (List String) :=
  let targets := (cleanAliases (toRemove.getD [])).filter (· ∈ currentAliases)
  let warnings := targets.filter fun given => 0 < affected given
  if targets = [] then
    .ok currentAliases
  else if warnings ≠ [] ∧ !confirmed then
    let details := "; ".intercalate (warnings.map fun given =>
      s!"'{given}' is referenced by {affected given} historical candidate match(es)")
    .error (.unprocessable (details ++ ". These historical candidate_skills mappings will NOT " ++
      "be changed if you proceed. Re-submit with confirm_alias_removal=true to remove the " ++
      "alias(es) anyway."))
  else
    .ok (currentAliases.filter (· ∉ targets))

-- The fields of the body that are set, each applied to the skill.
def updatedName (skill : SkillOntology) : Option (Option String) → Except SkillError SkillOntology
  | none => .ok skill
  | some canonicalName => applyCanonicalName t skill canonicalName

def updatedParent (skill : SkillOntology) : Option (Option Uuid) → Except SkillError (Option Uuid)
  | none => .ok skill.parentSkillId
  | some parentSkillId => resolveParentSkillId t skill parentSkillId

def updatedCategory (skill : SkillOntology) : Option (Option String) → Option String
  | none => skill.category
  | some category => stripCategory category

def mergedAliases (skill : SkillOntology) :
    Option (Option (List String)) → Except SkillError (List String)
  | none => .ok skill.aliases
  | some incoming => mergeAliases t skill skill.aliases incoming

def updatedAliases (affected : String → ℕ) (skill : SkillOntology)
    (request : SkillOntologyUpdateRequest) : Except SkillError (List String) := do
  let current ← mergedAliases t skill request.aliases
  match request.removeAliases with
  | none => .ok current
  | some toRemove => removeAliases affected current toRemove request.confirmAliasRemoval

-- A NOT NULL column that the body sets to null fails at the flush.
def required {α : Type} (column : String) (old : α) : Option (Option α) → Except SkillError α
  | none => .ok old
  | some none => .error (.integrity s!"null value in column {column}")
  | some (some new) => .ok new

def updateSkill (affected : String → ℕ) (skillId : Uuid)
    (request : SkillOntologyUpdateRequest) : Except SkillError SkillOntologyTable := do
  let skill ← getSkillOr404 t skillId
  let skill ← updatedName t skill request.canonicalName
  let aliases ← updatedAliases t affected skill request
  let category := updatedCategory skill request.category
  let parentSkillId ← updatedParent t skill request.parentSkillId
  let confidence ← required "confidence" skill.confidence request.confidence
  let source := request.source.getD skill.source
  let isActive ← required "is_active" skill.isActive request.isActive
  SkillOntologyRepository.updateSkill t
    { skill with
      aliases := aliases
      category := category
      parentSkillId := parentSkillId
      confidence := confidence
      source := source
      isActive := isActive }

-- Where the children of a skill that is deactivated go.
def reparentOnDeactivation (skill : SkillOntology) (childHandling : Option ChildHandling) :
    Except SkillError SkillOntologyTable :=
  let children := getChildren t skill.id
  if children = [] then
    .ok t
  else
    match childHandling with
    | none =>
      let childNames := ", ".intercalate (children.map SkillOntology.canonicalName)
      .error (.unprocessable (s!"Skill '{skill.canonicalName}' has {children.length} child " ++
        s!"skill(s) ({childNames}). Specify child_handling='PROMOTE' " ++
        "(move them under this skill's own parent) or 'ROOT' (make them root skills) to " ++
        "proceed."))
    | some .promote => reparentChildren t skill.id skill.parentSkillId
    | some _ => reparentChildren t skill.id none

def updateStatus (skillId : Uuid) (request : SkillStatusUpdateRequest) :
    Except SkillError SkillOntologyTable :=
  if request.childHandling = some .cancel then
    (getSkillOr404 t skillId).map fun _ => t
  else do
    let skill ← getSkillOr404 t skillId
    if skill.isActive = request.isActive then
      let state := if request.isActive then "active" else "inactive"
      .error (.conflict s!"Skill '{skill.canonicalName}' is already {state}.")
    else if request.isActive then
      SkillOntologyRepository.updateSkill t { skill with isActive := true }
    else
      let t ← reparentOnDeactivation t skill request.childHandling
      -- the flush writes the changed column only
      match getSkillById t skillId with
      | none => .error (.notFound s!"Skill '{text skillId}' not found.")
      | some skill => SkillOntologyRepository.updateSkill t { skill with isActive := false }

end SkillOntologyService

namespace SkillCurationService

open SkillOntologyRepository

-- `find_skill_by_name_or_alias`; `lower` is `str.lower`.
def findSkillByNameOrAlias (lower : String → String) (t : SkillOntologyTable) (name : String) :
    Option SkillOntology :=
  t.skills.rows.find? fun skill =>
    lower skill.canonicalName = lower name ∨ ∃ given ∈ skill.aliases, lower given = lower name

structure CanonicalFields where
  canonicalName : Option String
  aliases : Option (List String)
  category : Option String
  parentSkillId : Option Uuid
  (confidence source : String)
  isActive : Bool

def canonicalSkill (id : Uuid) (canonicalName : String) (fields : CanonicalFields) :
    SkillOntology where
  id := id
  canonicalName := canonicalName
  aliases := cleanAliases (fields.aliases.getD [])
  category := fields.category
  parentSkillId := fields.parentSkillId
  confidence := fields.confidence
  source := some fields.source
  isActive := fields.isActive

def checkParent (t : SkillOntologyTable) : Option Uuid → Except SkillError Unit
  | none => .ok ()
  | some parentSkillId => (SkillOntologyService.getSkillOr404 t parentSkillId).map fun _ => ()

-- The checks and the insert of `_create_canonical_skill_from_unknown_core` for
-- an UnknownSkill with this raw_text.
def createCanonicalSkill (lower : String → String) (t : SkillOntologyTable) (rawText : String)
    (fields : CanonicalFields) : Except SkillError SkillOntologyTable :=
  let resolvedName := strip (fields.canonicalName.getD rawText)
  if resolvedName = "" then
    .error (.badRequest "canonical_name cannot be empty.")
  else
    match findSkillByNameOrAlias lower t resolvedName with
    | some existing =>
      .error (.badRequest (s!"'{resolvedName}' already exists in the skill ontology as " ++
        s!"'{existing.canonicalName}' — map to it instead of creating a new skill."))
    | none => do
      checkParent t fields.parentSkillId
      match (cleanAliases (fields.aliases.getD [])).findSome? fun given =>
          (findSkillByNameOrAlias lower t given).map fun collision => (given, collision) with
      | some (given, collision) =>
        .error (.badRequest (s!"'{given}' cannot be added as an alias — it already " ++
          s!"belongs to '{collision.canonicalName}'. Aliases must be globally unique."))
      | none => createSkill t (canonicalSkill t.skills.next resolvedName fields)

end SkillCurationService

end AiHiring
