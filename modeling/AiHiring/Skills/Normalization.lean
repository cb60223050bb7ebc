import AiHiring.Jd.Revalidation
import AiHiring.Skills.Occurrences

namespace AiHiring

open Library

structure JDSkillSpec where
  name : String
  importance : Option JDSkillImportance
  aliases : List String
  deriving DecidableEq

namespace JDExtractionResponse

variable (self : JDExtractionResponse)

def skillSpec (importance : Option JDSkillImportance) (name : String) : JDSkillSpec :=
  ⟨name, importance, (self.aliases.lookup name).getD []⟩

def requiredSkillSpecs : List JDSkillSpec :=
  self.requiredSkills.core.map (self.skillSpec (some .core)) ++
    self.requiredSkills.supporting.map (self.skillSpec (some .supporting))

def preferredSkillSpecs : List JDSkillSpec :=
  self.preferredSkills.map (self.skillSpec none)

end JDExtractionResponse

-- What the tiers of `_match_skill` find for a text, and its cleaned form.
structure CatalogMatch where
  canonicalSkillId : Option Uuid
  matchTier : SkillMatchTier
  confidence : Option ℚ
  normalizedText : String

namespace SkillNormalizationService

variable (catalog : String → CatalogMatch)

def matchSkill (rawText : String) (mandatory : Bool) (importance : Option JDSkillImportance) :
    SkillMatchResult where
  rawText := rawText
  mandatory := mandatory
  canonicalSkillId := (catalog rawText).canonicalSkillId
  matchTier := (catalog rawText).matchTier
  confidence := (catalog rawText).confidence
  normalizedText := (catalog rawText).normalizedText
  importance := importance

variable (mandatory : Bool) (importance : Option JDSkillImportance)

-- One alias: it stands in for a name that is unknown, else its id is collected.
def resolveAlias
    (state : SkillMatchResult × List Uuid) (aliasText : String) : SkillMatchResult × List Uuid :=
  let aliasResult := matchSkill catalog aliasText mandatory importance
  match aliasResult.canonicalSkillId with
  | none => state
  | some skillId =>
    if state.1.canonicalSkillId = none then
      ({ aliasResult with
          rawText := state.1.rawText
          normalizedText := state.1.normalizedText }, state.2)
    else
      (state.1, state.2 ++ [skillId])

def matchWithAliases (item : JDSkillSpec) : SkillMatchResult :=
  let result := matchSkill catalog item.name mandatory importance
  if item.aliases = [] then
    result
  else
    let (resolved, ids) :=
      item.aliases.foldl (resolveAlias catalog mandatory importance) (result, [])
    { resolved with
      aliasSkillIds := (ids.filter fun skillId =>
        some skillId ≠ resolved.canonicalSkillId).eraseDups }

def normalizeSkills (requiredSkills preferredSkills : List JDSkillSpec) : List SkillMatchResult :=
  (requiredSkills.map fun item => matchWithAliases catalog true item.importance item) ++
    preferredSkills.map (matchWithAliases catalog false none)

theorem foldl_resolveAlias_text (aliases : List String) (state : SkillMatchResult × List Uuid) :
    (aliases.foldl (resolveAlias catalog mandatory importance) state).1.rawText = state.1.rawText ∧
      (aliases.foldl (resolveAlias catalog mandatory importance) state).1.normalizedText =
        state.1.normalizedText := by
  induction aliases generalizing state with
  | nil => exact ⟨rfl, rfl⟩
  | cons aliasText rest ih =>
    have hstep : (resolveAlias catalog mandatory importance state aliasText).1.rawText =
          state.1.rawText ∧
        (resolveAlias catalog mandatory importance state aliasText).1.normalizedText =
          state.1.normalizedText := by
      unfold resolveAlias
      dsimp only
      split
      · exact ⟨rfl, rfl⟩
      · split_ifs <;> exact ⟨rfl, rfl⟩
    obtain ⟨hraw, hnormalized⟩ :=
      ih (resolveAlias catalog mandatory importance state aliasText)
    exact ⟨hraw.trans hstep.1, hnormalized.trans hstep.2⟩

theorem matchWithAliases_text (item : JDSkillSpec) :
    (matchWithAliases catalog mandatory importance item).normalizedText =
      (catalog (matchWithAliases catalog mandatory importance item).rawText).normalizedText := by
  unfold matchWithAliases
  split_ifs
  · rfl
  · obtain ⟨hraw, hnormalized⟩ := foldl_resolveAlias_text catalog mandatory importance item.aliases
      (matchSkill catalog item.name mandatory importance, [])
    rw [hraw, hnormalized]
    rfl

theorem normalizeSkills_text (requiredSkills preferredSkills : List JDSkillSpec)
    (m : SkillMatchResult) (hm : m ∈ normalizeSkills catalog requiredSkills preferredSkills) :
    m.normalizedText = (catalog m.rawText).normalizedText := by
  rcases List.mem_append.mp hm with hm | hm
  · obtain ⟨item, -, rfl⟩ := List.mem_map.mp hm
    exact matchWithAliases_text catalog true item.importance item
  · obtain ⟨item, -, rfl⟩ := List.mem_map.mp hm
    exact matchWithAliases_text catalog false none item

end SkillNormalizationService

namespace JDExtractionResponse

variable (casefold : String → String)

theorem skillSpec_jsonb (self : JDExtractionResponse) (h : WellFormed casefold self)
    (importance : Option JDSkillImportance) :
    self.jsonb.skillSpec importance = self.skillSpec importance := by
  funext name
  have hlookup := lookup_sortKeys keyRank self.aliases h.aliases.keys name
  rw [skillSpec, skillSpec]
  exact congrArg (fun found => (⟨name, importance, found.getD []⟩ : JDSkillSpec)) hlookup

theorem skillSpecs_jsonb (self : JDExtractionResponse) (h : WellFormed casefold self) :
    self.jsonb.requiredSkillSpecs = self.requiredSkillSpecs ∧
      self.jsonb.preferredSkillSpecs = self.preferredSkillSpecs := by
  have hspec := skillSpec_jsonb casefold self h
  constructor
  · rw [requiredSkillSpecs, requiredSkillSpecs, hspec, hspec]
    rfl
  · rw [preferredSkillSpecs, preferredSkillSpecs, hspec]
    rfl

end JDExtractionResponse

end AiHiring
