import AiHiring.Jd.Extraction
import AiHiring.Library.Fallible
import AiHiring.Library.Shadow
import Mathlib.Data.Prod.Lex
import Mathlib.Data.String.Basic

namespace AiHiring

open Library

-- An item of the list-of-objects skill shape; any other value is skipped.
inductive SkillItem where
  | name (name : String)
  | object (name importance : Option String) (aliases : List String)
  | other

inductive RequiredSkillsData where
  | lists (skills : RequiredSkills)
  | items (items : List SkillItem)

-- The stored map, or the list that is generated in its place.
inductive AliasesData where
  | map (aliases : List (String × List String))
  | entries (aliases : List (String × List String))

-- What `model_validate` is given: the output of the LLM or a stored dump.
structure ExtractionData where
  requiredSkills : RequiredSkillsData
  preferredSkills : List SkillItem
  aliases : AliasesData
  domainCapabilities : DomainCapabilities
  (softSkills responsibilities certifications : List String)
  experience : Option Experience
  education : Option Education
  (employmentType workMode location : Option String)
  metadata : List (String × JsonValue)

-- JSONB keeps the keys of an object by length, then by bytes.
def keyRank (key : String) : ℕ ×ₗ String := toLex (key.utf8ByteSize, key)

mutual

def JsonValue.jsonb : JsonValue → JsonValue
  | .null => .null
  | .bool value => .bool value
  | .number value => .number value
  | .string value => .string value
  | .array items => .array (jsonbItems items)
  | .object fields => .object (sortKeys keyRank (jsonbFields fields))

def jsonbItems : List JsonValue → List JsonValue
  | [] => []
  | value :: rest => value.jsonb :: jsonbItems rest

def jsonbFields : List (String × JsonValue) → List (String × JsonValue)
  | [] => []
  | (key, value) :: rest => (key, value.jsonb) :: jsonbFields rest

end

def jsonbObject (fields : List (String × JsonValue)) : List (String × JsonValue) :=
  sortKeys keyRank (jsonbFields fields)

def AliasesData.jsonb : AliasesData → AliasesData
  | .map aliases => .map (sortKeys keyRank aliases)
  | .entries aliases => .entries aliases

def ExtractionData.jsonb (data : ExtractionData) : ExtractionData :=
  { data with aliases := data.aliases.jsonb, metadata := jsonbObject data.metadata }

def JDExtractionResponse.jsonb (self : JDExtractionResponse) : JDExtractionResponse :=
  { self with aliases := sortKeys keyRank self.aliases, metadata := jsonbObject self.metadata }

theorem jsonbFields_eq_self (fields : List (String × JsonValue)) :
    jsonbFields fields = fields ↔ ∀ entry ∈ fields, entry.2.jsonb = entry.2 := by
  induction fields with
  | nil => simp [jsonbFields]
  | cons entry rest ih =>
    rcases entry with ⟨key, value⟩
    simp [jsonbFields, ih]

theorem jsonbFields_sortKeys (fields : List (String × JsonValue))
    (hfixed : jsonbFields fields = fields) :
    jsonbFields (sortKeys keyRank fields) = sortKeys keyRank fields := by
  rw [jsonbFields_eq_self] at hfixed ⊢
  intro entry hentry
  exact hfixed entry ((mem_sortKeys keyRank fields entry).mp hentry)

mutual

theorem JsonValue.jsonb_jsonb : ∀ value : JsonValue, value.jsonb.jsonb = value.jsonb
  | .null => rfl
  | .bool _ => rfl
  | .number _ => rfl
  | .string _ => rfl
  | .array items => by rw [JsonValue.jsonb, JsonValue.jsonb, jsonbItems_jsonbItems items]
  | .object fields => by
    rw [JsonValue.jsonb, JsonValue.jsonb,
      jsonbFields_sortKeys _ (jsonbFields_jsonbFields fields), sortKeys_sortKeys]

theorem jsonbItems_jsonbItems : ∀ items : List JsonValue,
    jsonbItems (jsonbItems items) = jsonbItems items
  | [] => rfl
  | value :: rest => by
    rw [jsonbItems, jsonbItems, JsonValue.jsonb_jsonb value, jsonbItems_jsonbItems rest]

theorem jsonbFields_jsonbFields : ∀ fields : List (String × JsonValue),
    jsonbFields (jsonbFields fields) = jsonbFields fields
  | [] => rfl
  | (key, value) :: rest => by
    rw [jsonbFields, jsonbFields, JsonValue.jsonb_jsonb value, jsonbFields_jsonbFields rest]

end

theorem jsonbObject_jsonbObject (fields : List (String × JsonValue)) :
    jsonbObject (jsonbObject fields) = jsonbObject fields := by
  rw [jsonbObject, jsonbObject, jsonbFields_sortKeys _ (jsonbFields_jsonbFields fields),
    sortKeys_sortKeys]

theorem ExtractionData.jsonb_jsonb (data : ExtractionData) : data.jsonb.jsonb = data.jsonb := by
  have haliases : data.aliases.jsonb.jsonb = data.aliases.jsonb := by
    cases data.aliases with
    | map aliases => rw [AliasesData.jsonb, AliasesData.jsonb, sortKeys_sortKeys]
    | entries aliases => rfl
  rw [ExtractionData.jsonb, ExtractionData.jsonb, haliases, jsonbObject_jsonbObject]

def extendAliases (aliases : List (String × List String)) (name : String)
    (values : List String) : List (String × List String) :=
  assign aliases name ((aliases.lookup name).getD [] ++ values)

def initialAliases : AliasesData → List (String × List String)
  | .map aliases => aliases
  | .entries aliases =>
    aliases.foldl (fun dict entry =>
      if entry.1 = "" then dict else extendAliases dict entry.1 entry.2) []

-- The side effect of `_item_name`.
def itemAliases (aliases : List (String × List String)) : SkillItem → List (String × List String)
  | .object (some name) _ values =>
    if values = [] ∨ name = "" then aliases else extendAliases aliases name values
  | _ => aliases

def itemName : SkillItem → Option String
  | .name name => if name = "" then none else some name
  | .object (some name) _ _ => if name = "" then none else some name
  | .object none _ _ => none
  | .other => none

def isCore : SkillItem → Bool
  | .object _ (some importance) _ => importance = "core"
  | _ => false

def coerceRequired : RequiredSkillsData → RequiredSkills
  | .lists skills => skills
  | .items items =>
    ⟨(items.filter isCore).filterMap itemName,
      (items.filter fun item => !isCore item).filterMap itemName⟩

def legacyItems : RequiredSkillsData → List SkillItem
  | .lists _ => []
  | .items items => items

-- `_coerce_legacy_shapes` on the aliases: their own field, then the items in turn.
def coerceAliases (data : ExtractionData) : List (String × List String) :=
  (legacyItems data.requiredSkills ++ data.preferredSkills).foldl itemAliases
    (initialAliases data.aliases)

section Validators

variable (casefold : String → String)

-- `_clean_string_list` once the keys in `seen` have been met.
def cleanAfter (seen : List String) : List String → List String
  | [] => []
  | value :: rest =>
    if strip value = "" ∨ casefold (strip value) ∈ seen then
      cleanAfter seen rest
    else
      strip value :: cleanAfter (casefold (strip value) :: seen) rest

def cleanStringList (values : List String) : List String := cleanAfter casefold [] values

def cleanOptionalString (value : Option String) : Option String :=
  (value.map strip).filter (· ≠ "")

-- The first of the errors that pydantic collects.
def validateExperience (experience : Experience) : Except String Experience :=
  if experience.minExperienceYears.any (· < 0) ∨ experience.maxExperienceYears.any (· < 0) then
    .error "experience years cannot be negative"
  else if experience.minExperienceYears.any fun least =>
      experience.maxExperienceYears.any fun most => most < least then
    .error "min_experience_years cannot exceed max_experience_years"
  else
    .ok experience

def validateGiven : Option Experience → Except String (Option Experience)
  | none => .ok none
  | some given => (validateExperience given).map some

def degreeLevels : List String :=
  ["CERTIFICATE", "DIPLOMA", "ASSOCIATE", "BACHELOR", "POSTGRADUATE_DIPLOMA", "MASTER",
    "DOCTORATE", "PROFESSIONAL", "OTHER", "UNKNOWN"]

def educationFields : List String :=
  ["COMPUTER_SCIENCE", "INFORMATION_TECHNOLOGY", "SOFTWARE_ENGINEERING", "DATA_SCIENCE",
    "ELECTRONICS_ENGINEERING", "ELECTRICAL_ENGINEERING", "MECHANICAL_ENGINEERING",
    "CIVIL_ENGINEERING", "MATHEMATICS", "STATISTICS", "BUSINESS_ADMINISTRATION", "COMMERCE",
    "ECONOMICS", "OTHER", "UNKNOWN"]

def ofVocabulary (vocabulary : List String) (value : String) : String :=
  if value ∈ vocabulary then value else "UNKNOWN"

def validateEducation (education : Education) : Education where
  degree := cleanOptionalString education.degree
  field := cleanOptionalString education.field
  degreeLevel := ofVocabulary degreeLevels education.degreeLevel
  fieldNormalized := ofVocabulary educationFields education.fieldNormalized
  relatedFieldAllowed := education.relatedFieldAllowed

end Validators

namespace JDExtractionResponse

variable (casefold : String → String)

def allSkillNames (self : JDExtractionResponse) : List String :=
  self.requiredSkills.core ++ self.requiredSkills.supporting ++ self.preferredSkills

section Dedupe

variable (self : JDExtractionResponse)

def capabilityKeys : List String :=
  (self.domainCapabilities.required ++ self.domainCapabilities.preferred).map casefold

def aliasPairs : List (String × String) :=
  self.aliases.flatMap fun entry =>
    (entry.2.filter fun other => casefold other ≠ casefold entry.1).map fun other =>
      (casefold other, casefold entry.1)

def aliasOwner : List (String × String) :=
  ofPairs (self.aliasPairs casefold)

-- A domain capability, or an alias of another skill.
def blocked (key : String) : Bool :=
  key ∈ self.capabilityKeys casefold ∨ ((self.aliasOwner casefold).lookup key).any (· ≠ key)

-- The names that `_keep` lets through once the keys in `seen` have been kept.
def keepNames (blocked : String → Bool) (seen : List String) : List String → List String
  | [] => []
  | name :: rest =>
    if casefold name ∈ seen ∨ blocked (casefold name) then
      keepNames blocked seen rest
    else
      name :: keepNames blocked (casefold name :: seen) rest

def withKeptNames : JDExtractionResponse :=
  let keep (kept : List String) := keepNames casefold (self.blocked casefold) (kept.map casefold)
  let core := keep [] self.requiredSkills.core
  let supporting := keep core self.requiredSkills.supporting
  { self with
    requiredSkills := ⟨core, supporting⟩
    preferredSkills := keep (core ++ supporting) self.preferredSkills }

def skillByKey : List (String × String) :=
  ofPairs (self.allSkillNames.map fun name => (casefold name, name))

def mergedAliases (previous values : List String) (skillName : String) : List String :=
  (cleanStringList casefold (previous ++ values)).filter fun other =>
    casefold other ≠ casefold skillName

-- One owner's turn in the loop that builds `cleaned_aliases`.
def addCleaned (skillByKey : List (String × String)) (cleaned : List (String × List String))
    (entry : String × List String) : List (String × List String) :=
  match skillByKey.lookup (casefold (strip entry.1)) with
  | none => cleaned
  | some skillName =>
    let merged := mergedAliases casefold ((cleaned.lookup skillName).getD []) entry.2 skillName
    if merged = [] then cleaned else assign cleaned skillName merged

def withCleanedAliases : JDExtractionResponse :=
  { self with aliases := self.aliases.foldl (addCleaned casefold (self.skillByKey casefold)) [] }

def withDisjointCapabilities : JDExtractionResponse :=
  { self with
    domainCapabilities.preferred := self.domainCapabilities.preferred.filter fun value =>
      casefold value ∉ self.domainCapabilities.required.map casefold }

def dedupeSkillLists : JDExtractionResponse :=
  ((self.withKeptNames casefold).withCleanedAliases casefold).withDisjointCapabilities casefold

end Dedupe

-- The fields once each has passed its own validator.
def validateFields (data : ExtractionData) (experience : Option Experience) :
    JDExtractionResponse where
  requiredSkills :=
    ⟨cleanStringList casefold (coerceRequired data.requiredSkills).core,
      cleanStringList casefold (coerceRequired data.requiredSkills).supporting⟩
  preferredSkills := cleanStringList casefold (data.preferredSkills.filterMap itemName)
  aliases := coerceAliases data
  domainCapabilities :=
    ⟨cleanStringList casefold data.domainCapabilities.required,
      cleanStringList casefold data.domainCapabilities.preferred⟩
  softSkills := cleanStringList casefold data.softSkills
  responsibilities := cleanStringList casefold data.responsibilities
  certifications := cleanStringList casefold data.certifications
  experience := experience
  education := data.education.map validateEducation
  employmentType := cleanOptionalString data.employmentType
  workMode := cleanOptionalString data.workMode
  location := cleanOptionalString data.location
  metadata := data.metadata

def modelValidate (data : ExtractionData) : Except String JDExtractionResponse :=
  (validateGiven data.experience).map fun experience =>
    (validateFields casefold data experience).dedupeSkillLists casefold

def modelDump (self : JDExtractionResponse) : ExtractionData where
  requiredSkills := .lists self.requiredSkills
  preferredSkills := self.preferredSkills.map .name
  aliases := .map self.aliases
  domainCapabilities := self.domainCapabilities
  softSkills := self.softSkills
  responsibilities := self.responsibilities
  certifications := self.certifications
  experience := self.experience
  education := self.education
  employmentType := self.employmentType
  workMode := self.workMode
  location := self.location
  metadata := self.metadata

theorem jsonb_modelDump (self : JDExtractionResponse) :
    self.modelDump.jsonb = self.jsonb.modelDump := rfl

end JDExtractionResponse

end AiHiring
