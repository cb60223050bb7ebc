import Mathlib.Data.List.MinMax
import AiHiring.Library.Rounding
import AiHiring.Skills.Occurrences

namespace AiHiring

open Library

inductive MandatorySkillMatchType where
  | exact
  | child
  | grandchild
  | sibling
  | semantic
  | missing
  deriving DecidableEq, Repr

-- One row of `get_mandatory_skill_coverage`: a JD skill and the candidate's row
-- for it, if there is one that counts.
structure CoverageRow where
  jdSkill : JDSkill
  candidate : Option CandidateSkill

structure BreakdownEntry where
  canonicalSkillId : Uuid
  canonicalName : Option String
  mandatory : Bool
  configuredWeight : Option ℚ
  importance : Option JDSkillImportance
  importanceMultiplier : ℚ
  effectiveJdWeight : Option ℚ
  matchType : MandatorySkillMatchType
  matchedCandidateSkillCanonicalName : Option String
  hierarchyScoreMultiplier : ℚ
  candidateScoringWeight : Option ℚ
  matchTier : Option SkillMatchTier
  (confidence skillContribution : Option ℚ)
  matchedViaAlias : Bool := false
  siblingSkipReason : Option String := none
  semanticSimilarity : Option ℚ := none

-- What `load_mandatory_skill_hierarchy` finds for the skills it was asked for.
structure SkillHierarchy where
  skillsById : Uuid → Option SkillOntology
  childrenByParent : Uuid → List SkillOntology
  grandchildrenByParent : Uuid → List SkillOntology

-- The vectors of the skills: which have one, and the nearest of the given skills.
structure SkillVectors where
  embedded : Uuid → Bool
  bestMatch : Uuid → List Uuid → Option (Uuid × ℚ)

-- platform_config, with the numbers that the values are read as.
abbrev PlatformConfig := String → Option ℚ

-- What a score is computed from, besides the JD and the resume.
structure ScoringContext where
  store : SkillStore
  vectors : SkillVectors
  config : PlatformConfig
  rounding : Rounding

structure ScoringMultipliers where
  grandchild : ℚ
  semanticThreshold : Option ℚ
  (core supporting : ℚ)

namespace SkillRepository

variable (s : SkillStore)

def getMandatoryJdSkills (jdId : Uuid) : List JDSkill :=
  s.jdSkills.rows.filter fun row => row.jdId = jdId ∧ row.mandatory

def getCandidateNormalizedSkills (resumeId : Uuid) : List CandidateSkill :=
  s.candidateSkills.rows.filter fun row => row.resumeId = resumeId ∧ row.canonicalSkillId.isSome

-- A left join: a JD skill without a match keeps its row.
def getMandatorySkillCoverage (jdId resumeId : Uuid) (mandatory : Bool) : List CoverageRow :=
  (s.jdSkills.rows.filter fun row => row.jdId = jdId ∧ row.mandatory = mandatory).flatMap fun row =>
      match s.candidateSkills.rows.filter fun skill =>
          skill.canonicalSkillId = some row.canonicalSkillId ∧ skill.resumeId = resumeId ∧
            0 < skill.scoringWeight with
      | [] => [⟨row, none⟩]
      | matches_ => matches_.map fun skill => ⟨row, some skill⟩

end SkillRepository

variable (r : Rounding) (entries : List BreakdownEntry)

namespace CandidateScoringService

open SkillRepository SkillOntologyRepository

def defaultGrandchildMultiplier : ℚ := 1 / 2
def defaultCoreImportanceMultiplier : ℚ := 1
def defaultSupportingImportanceMultiplier : ℚ := 1

section Hierarchy

variable (t : SkillOntologyTable)

-- The batch look-up answers for the ids it was given only.
def getSkillsByIds (ids : List Uuid) (id : Uuid) : Option SkillOntology :=
  if id ∈ ids then getSkillById t id else none

def getChildrenBatch (parentIds : List Uuid) (parentId : Uuid) : List SkillOntology :=
  if parentId ∈ parentIds then getChildren t parentId else []

def loadMandatorySkillHierarchy (mandatorySkillIds : List Uuid) : SkillHierarchy :=
  let skillsById := getSkillsByIds t mandatorySkillIds
  let parentIds := mandatorySkillIds.filterMap fun id =>
    (skillsById id).bind SkillOntology.parentSkillId
  let childrenByParent := getChildrenBatch t (mandatorySkillIds ++ parentIds)
  let childIds := mandatorySkillIds.flatMap fun id =>
    ((childrenByParent id).filter SkillOntology.isActive).map SkillOntology.id
  ⟨skillsById, childrenByParent, getChildrenBatch t childIds⟩

end Hierarchy

def loadMandatorySkillHierarchyForJd (s : SkillStore) (jdId : Uuid) : SkillHierarchy :=
  loadMandatorySkillHierarchy s.ontology
    ((getMandatoryJdSkills s jdId).map JDSkill.canonicalSkillId)

-- The candidate's skills that count, by their canonical skill; of two rows for one
-- skill the later wins.
def candidateSkillById (skills : List CandidateSkill) (id : Uuid) : Option CandidateSkill :=
  skills.reverse.find? fun skill => skill.canonicalSkillId = some id

def inPlaySkills (s : SkillStore) (resumeId : Uuid) : List CandidateSkill :=
  (getCandidateNormalizedSkills s resumeId).filter fun skill => 0 < skill.scoringWeight

def importanceMultiplierForLabel (m : ScoringMultipliers) : Option JDSkillImportance → ℚ
  | some .core => m.core
  | some .supporting => m.supporting
  | none => 1

-- The best weighted of the skills that the candidate has; the first one on a tie.
def bestMatch (skills : List CandidateSkill) (ids : List (Uuid × Option String)) :
    Option (CandidateSkill × Option String) :=
  (ids.filterMap fun entry => (candidateSkillById skills entry.1).map fun skill =>
    (skill, entry.2)).argmax fun found => found.1.scoringWeight

def breakdownEntry (m : ScoringMultipliers) (jdSkill : JDSkill)
    (canonicalName : Option String) (matchType : MandatorySkillMatchType)
    (hierarchyScoreMultiplier : ℚ) (candidateScoringWeight : Option ℚ)
    (matchTier : Option SkillMatchTier) (confidence : Option ℚ) (matchedName : Option String)
    (importance : Option JDSkillImportance) : BreakdownEntry :=
  let importanceMultiplier := importanceMultiplierForLabel m importance
  let effectiveJdWeight := jdSkill.weight.map fun weight =>
    r.round 4 (weight * importanceMultiplier)
  { canonicalSkillId := jdSkill.canonicalSkillId
    canonicalName := canonicalName
    mandatory := jdSkill.mandatory
    configuredWeight := jdSkill.weight
    importance := importance
    importanceMultiplier := importanceMultiplier
    effectiveJdWeight := effectiveJdWeight
    matchType := matchType
    matchedCandidateSkillCanonicalName := matchedName
    hierarchyScoreMultiplier := hierarchyScoreMultiplier
    candidateScoringWeight := candidateScoringWeight
    matchTier := matchTier
    confidence := confidence
    skillContribution :=
      if matchType = .missing then some 0
      else
        match effectiveJdWeight, candidateScoringWeight with
        | some effective, some scoringWeight =>
          some (r.round 4 (effective * scoringWeight * hierarchyScoreMultiplier))
        | _, _ => none }

def matchedEntry (m : ScoringMultipliers) (jdSkill : JDSkill)
    (canonicalName : Option String) (matchType : MandatorySkillMatchType) (multiplier : ℚ)
    (found : CandidateSkill × Option String) : BreakdownEntry :=
  breakdownEntry r m jdSkill canonicalName matchType multiplier (some found.1.scoringWeight)
    (some found.1.matchTier) found.1.confidence found.2 jdSkill.importance

section Tiers

variable (context : ScoringContext) (m : ScoringMultipliers) (hierarchy : SkillHierarchy)
  (skills : List CandidateSkill)

def named (ontology : List SkillOntology) : List (Uuid × Option String) :=
  ontology.map fun skill => (skill.id, some skill.canonicalName)

def aliasSkillIds (rows : List CoverageRow) : List Uuid :=
  rows.flatMap fun row => row.jdSkill.aliasSkillIds.getD []

def aliasName (rows : List CoverageRow) (id : Uuid) : Option String :=
  if id ∈ aliasSkillIds rows then
    (getSkillById context.store.ontology id).map SkillOntology.canonicalName
  else none

def bestAliasMatch (rows : List CoverageRow) (row : CoverageRow) :
    Option (CandidateSkill × Option String) :=
  bestMatch skills ((row.jdSkill.aliasSkillIds.getD []).map fun id =>
    (id, aliasName context rows id))

def children (id : Uuid) : List SkillOntology :=
  (hierarchy.childrenByParent id).filter SkillOntology.isActive

def grandchildren (id : Uuid) : List SkillOntology :=
  (children hierarchy id).flatMap fun child =>
    (hierarchy.grandchildrenByParent child.id).filter SkillOntology.isActive

def siblings (id parentId : Uuid) : List SkillOntology :=
  (hierarchy.childrenByParent parentId).filter fun sibling => sibling.id ≠ id ∧ sibling.isActive

-- The similarity is reported with the match.
def semanticMatch (target : Option SkillOntology) : Option (CandidateSkill × Option String × ℚ) :=
  match m.semanticThreshold, target with
  | some threshold, some target =>
    if context.vectors.embedded target.id then
      match context.vectors.bestMatch target.id (skills.filterMap (·.canonicalSkillId)) with
      | some (id, similarity) =>
        if threshold ≤ similarity then
          (candidateSkillById skills id).map fun skill =>
            (skill, (getSkillById context.store.ontology id).map SkillOntology.canonicalName,
              similarity)
        else none
      | none => none
    else none
  | _, _ => none

def siblingMatch (id : Uuid) (target : Option SkillOntology) :
    Option (CandidateSkill × Option String) :=
  (target.bind SkillOntology.parentSkillId).bind fun parentId =>
    bestMatch skills (named (siblings hierarchy id parentId))

def siblingSkipReason : Option SkillOntology → Option String
  | none => some "SIBLING_SKIPPED"
  | some target => if target.parentSkillId = none then some "ROOT_SKILL_NO_PARENT" else none

-- The first tier that matches decides.
def scoreOneMandatorySkill (rows : List CoverageRow) (row : CoverageRow) : BreakdownEntry :=
  let r := context.rounding
  let id := row.jdSkill.canonicalSkillId
  let target := hierarchy.skillsById id
  let name := target.map SkillOntology.canonicalName
  let matched := matchedEntry r m row.jdSkill name
  match row.candidate with
  | some candidate => matched .exact 1 (candidate, name)
  | none =>
  match bestAliasMatch context skills rows row with
  | some found => { matched .exact 1 found with matchedViaAlias := true }
  | none =>
  match bestMatch skills (named (children hierarchy id)) with
  | some found => matched .child (7 / 10) found
  | none =>
  match bestMatch skills (named (grandchildren hierarchy id)) with
  | some found => matched .grandchild m.grandchild found
  | none =>
  match siblingMatch hierarchy skills id target with
  | some found => matched .sibling (2 / 5) found
  | none =>
  match semanticMatch context m skills target with
  | some (candidate, matchedName, similarity) =>
    { matched .semantic (1 / 5) (candidate, matchedName) with
      semanticSimilarity := some (r.round 4 similarity) }
  | none =>
    { breakdownEntry r m row.jdSkill name .missing 0 none none none none row.jdSkill.importance
      with siblingSkipReason := siblingSkipReason target }

end Tiers

structure MandatoryBreakdown where
  mandatorySkills : List BreakdownEntry
  (mandatoryCoveragePct coreCoveragePct : ℚ)
  gateScopeCore : Bool
  deterministicScore : ℚ
  (semanticTierAvailable noVerifiedSkills : Bool)

def multipliers (config : PlatformConfig) : ScoringMultipliers where
  grandchild := (config "HIERARCHY_GRANDCHILD_MULTIPLIER").getD defaultGrandchildMultiplier
  semanticThreshold := config "HIERARCHY_SEMANTIC_ONLY_THRESHOLD"
  core := (config "CORE_IMPORTANCE_WEIGHT_MULTIPLIER").getD defaultCoreImportanceMultiplier
  supporting := (config "SUPPORTING_IMPORTANCE_WEIGHT_MULTIPLIER").getD
    defaultSupportingImportanceMultiplier

def covered (entry : BreakdownEntry) : Bool := entry.matchType ≠ .missing

def isClassified : Bool :=
  entries.any fun entry => entry.importance.isSome

def gateSkills : List BreakdownEntry :=
  if isClassified entries then entries.filter fun entry => entry.importance = some .core
  else entries

-- The share of the entries that are covered; nothing to cover counts as all.
def coveragePct : ℚ :=
  if entries = [] then 100
  else r.round 2 (((entries.countP covered : ℕ) : ℚ) / (entries.length : ℚ) * 100)

def actualSum : ℚ :=
  (entries.map fun entry => entry.skillContribution.getD 0).sum

def maxSum : ℚ :=
  (entries.map fun entry => entry.effectiveJdWeight.getD 0).sum

def ratioScore : ℚ :=
  if 0 < maxSum entries then r.round 2 (actualSum entries / maxSum entries * 100) else 100

def buildMandatorySkillBreakdown (context : ScoringContext) (jdId resumeId : Uuid)
    (hierarchy : Option SkillHierarchy) : MandatoryBreakdown :=
  let rows := getMandatorySkillCoverage context.store jdId resumeId true
  let hierarchy := hierarchy.getD (loadMandatorySkillHierarchy context.store.ontology
    (rows.map fun row => row.jdSkill.canonicalSkillId))
  let skills := inPlaySkills context.store resumeId
  let m := multipliers context.config
  let entries := rows.map (scoreOneMandatorySkill context m hierarchy skills rows)
  { mandatorySkills := entries
    mandatoryCoveragePct := coveragePct context.rounding entries
    coreCoveragePct := coveragePct context.rounding (gateSkills entries)
    gateScopeCore := isClassified entries
    deterministicScore := ratioScore context.rounding entries
    semanticTierAvailable := m.semanticThreshold.isSome
    noVerifiedSkills := skills.isEmpty }

structure PreferredBreakdown where
  preferredSkills : List BreakdownEntry
  preferredSkillBonus : ℚ

-- Preferred skills carry no importance, whatever their row says.
def neutral : ScoringMultipliers := ⟨0, none, 1, 1⟩

def scoreOnePreferredSkill (context : ScoringContext) (skills : List CandidateSkill)
    (rows : List CoverageRow) (row : CoverageRow) : BreakdownEntry :=
  let name := (getSkillById context.store.ontology row.jdSkill.canonicalSkillId).map
    SkillOntology.canonicalName
  let entry matchType multiplier (found : Option CandidateSkill) matchedName :=
    breakdownEntry context.rounding neutral row.jdSkill name matchType multiplier
      (found.map CandidateSkill.scoringWeight) (found.map CandidateSkill.matchTier)
      (found.bind CandidateSkill.confidence) matchedName none
  match row.candidate with
  | some candidate => entry .exact 1 (some candidate) name
  | none =>
  match bestAliasMatch context skills rows row with
  | some found => { entry .exact 1 (some found.1) found.2 with matchedViaAlias := true }
  | none => entry .missing 0 none none

def buildPreferredSkillBreakdown (context : ScoringContext) (jdId resumeId : Uuid) :
    PreferredBreakdown :=
  let rows := getMandatorySkillCoverage context.store jdId resumeId false
  -- the candidate's skills are loaded for aliases that the catalog knows
  let skills := if (aliasSkillIds rows).any fun id => (aliasName context rows id).isSome then
    inPlaySkills context.store resumeId else []
  let entries := rows.map (scoreOnePreferredSkill context skills rows)
  ⟨entries, context.rounding.round 4 (actualSum entries)⟩

def defaultPreferredSkillShare : ℚ := 1 / 10

def weightedRatio : Option ℚ :=
  if maxSum entries ≤ 0 then none else some (actualSum entries / maxSum entries * 100)

-- Core skills gate and are not scored, unless there is nothing else.
def scoredEntries : List BreakdownEntry :=
  let scored := entries.filter fun entry => entry.importance ≠ some .core
  if scored = [] then entries else scored

def computeTechnicalScore (context : ScoringContext) (mandatory : MandatoryBreakdown)
    (preferred : PreferredBreakdown) : Option ℚ :=
  let r := context.rounding
  let share := (context.config "PREFERRED_SKILL_SHARE").getD defaultPreferredSkillShare
  match weightedRatio (scoredEntries mandatory.mandatorySkills),
      weightedRatio preferred.preferredSkills with
  | none, none => none
  | some required, none => some (r.round 2 required)
  | none, some preferred => some (r.round 2 preferred)
  | some required, some preferred =>
    some (r.round 2 ((1 - share) * required + share * preferred))

end CandidateScoringService

end AiHiring
