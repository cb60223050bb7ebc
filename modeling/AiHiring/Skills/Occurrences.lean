import AiHiring.Skills.Ontology

namespace AiHiring

open Library

inductive UnknownSkillStatus where
  | pending
  | underReview
  | mappedToExisting
  | promotedToCanonical
  | dismissed
  deriving DecidableEq, Repr

def UnknownSkillStatus.value : UnknownSkillStatus → String
  | pending => "PENDING"
  | underReview => "UNDER_REVIEW"
  | mappedToExisting => "MAPPED_TO_EXISTING"
  | promotedToCanonical => "PROMOTED_TO_CANONICAL"
  | dismissed => "DISMISSED"

inductive JDUnknownSkillStatus where
  | pending
  | resolved
  deriving DecidableEq, Repr

inductive JDSkillVerificationStatus where
  | autoVerified
  | pendingReview
  deriving DecidableEq, Repr

inductive JDSkillImportance where
  | core
  | supporting
  deriving DecidableEq, Repr

inductive SkillMatchTier where
  | exact
  | alias
  | caseInsensitive
  | ruleBased
  | fuzzy
  | semantic
  | unknown
  | manualHr
  deriving DecidableEq, Repr

def verificationStatusForTier : SkillMatchTier → JDSkillVerificationStatus
  | .exact | .alias | .caseInsensitive | .ruleBased | .manualHr => .autoVerified
  | .fuzzy | .semantic | .unknown => .pendingReview

def scoringWeightForTier : SkillMatchTier → ℚ
  | .exact | .alias | .caseInsensitive | .ruleBased | .manualHr => 1
  | .fuzzy | .semantic => 4 / 5
  | .unknown => 0

structure SkillMatchResult where
  rawText : String
  mandatory : Bool
  canonicalSkillId : Option Uuid
  matchTier : SkillMatchTier
  confidence : Option ℚ
  normalizedText : String := ""
  importance : Option JDSkillImportance := none
  aliasSkillIds : List Uuid := []
  deriving DecidableEq

structure UnknownSkill where
  id : Uuid
  rawText : String
  frequency : ℕ
  normalizedKey : Option String
  status : UnknownSkillStatus
  deriving DecidableEq

structure JDSkill where
  (id jdId canonicalSkillId : Uuid)
  mandatory : Bool
  weight : Option ℚ
  importance : Option JDSkillImportance
  aliasSkillIds : Option (List Uuid)
  confidence : Option ℚ
  matchTier : SkillMatchTier
  verificationStatus : JDSkillVerificationStatus
  deriving DecidableEq

structure JDUnknownSkill where
  (id jdId unknownSkillId : Uuid)
  mandatory : Option Bool
  status : JDUnknownSkillStatus
  deriving DecidableEq

structure CandidateSkill where
  (id candidateId resumeId : Uuid)
  (canonicalSkillId unknownSkillId : Option Uuid)
  rawExtractedText : String
  confidence : Option ℚ
  matchTier : SkillMatchTier
  scoringWeight : ℚ
  status : JDSkillVerificationStatus
  deriving DecidableEq

-- The skill tables that the JD and the resume pipelines share.
structure SkillStore where
  ontology : SkillOntologyTable
  unknownSkills : Table UnknownSkill UnknownSkill.id
  jdSkills : Table JDSkill JDSkill.id
  jdUnknownSkills : Table JDUnknownSkill JDUnknownSkill.id
  candidateSkills : Table CandidateSkill CandidateSkill.id

-- `_DEFAULT_JD_SKILL_WEIGHT`
def defaultJdSkillWeight : ℚ := 1

namespace SkillRepository

variable (s : SkillStore)

variable (jdId unknownSkillId : Uuid)

def getUnknownSkillById : Option UnknownSkill :=
  s.unknownSkills.find? unknownSkillId

def bump (u : UnknownSkill) : UnknownSkill := { u with frequency := u.frequency + 1 }

-- `upsert_unknown_skill`; the flag says that the row is new.
def upsertUnknownSkill (rawText : String) (normalizedKey : Option String) :
    SkillStore × UnknownSkill × Bool :=
  match s.unknownSkills.rows.find? fun u => u.rawText = rawText with
  | some existing =>
    ({ s with unknownSkills := s.unknownSkills.replace (bump existing) }, bump existing, false)
  | none =>
    let created (id : Uuid) : UnknownSkill := {
      id := id
      rawText := rawText
      frequency := 1
      normalizedKey := normalizedKey
      status := .pending }
    ({ s with unknownSkills := s.unknownSkills.insert created fun _ => rfl },
      created s.unknownSkills.next, true)

def linkUnknownSkillToJd (mandatory : Option Bool) : SkillStore :=
  match s.jdUnknownSkills.rows.find? fun link =>
      link.jdId = jdId ∧ link.unknownSkillId = unknownSkillId with
  | some _ => s
  | none =>
    let link (id : Uuid) : JDUnknownSkill := ⟨id, jdId, unknownSkillId, mandatory, .pending⟩
    { s with jdUnknownSkills := s.jdUnknownSkills.insert link fun _ => rfl }

def createJdSkill (row : Uuid → JDSkill) (hrow : ∀ id, (row id).id = id) : SkillStore :=
  { s with jdSkills := s.jdSkills.insert row hrow }

def getJdSkill (canonicalSkillId : Uuid) : Option JDSkill :=
  s.jdSkills.rows.find? fun row => row.jdId = jdId ∧ row.canonicalSkillId = canonicalSkillId

def createCandidateSkill (row : Uuid → CandidateSkill) (hrow : ∀ id, (row id).id = id) :
    SkillStore :=
  { s with candidateSkills := s.candidateSkills.insert row hrow }

def updateUnknownSkillStatus (unknownSkill : UnknownSkill) (status : UnknownSkillStatus) :
    SkillStore :=
  { s with unknownSkills := s.unknownSkills.replace { unknownSkill with status := status } }

def getPendingJdLinks : List JDUnknownSkill :=
  s.jdUnknownSkills.rows.filter fun link =>
    link.unknownSkillId = unknownSkillId ∧ link.status = .pending

def getJdLinksByUnknownSkillId : List JDUnknownSkill :=
  s.jdUnknownSkills.rows.filter fun link => link.unknownSkillId = unknownSkillId

def markJdUnknownSkillResolved (link : JDUnknownSkill) : SkillStore :=
  { s with jdUnknownSkills := s.jdUnknownSkills.replace { link with status := .resolved } }

def deleteJdUnknownSkill (link : JDUnknownSkill) : SkillStore :=
  { s with jdUnknownSkills := s.jdUnknownSkills.delete fun row => row.id = link.id }

def getCandidateSkillsByUnknownSkillId : List CandidateSkill :=
  s.candidateSkills.rows.filter fun row => row.unknownSkillId = some unknownSkillId

def getCandidateSkillByCanonical (resumeId canonicalSkillId : Uuid) : Option CandidateSkill :=
  s.candidateSkills.rows.find? fun row =>
    row.resumeId = resumeId ∧ row.canonicalSkillId = some canonicalSkillId

def deleteCandidateSkill (candidateSkill : CandidateSkill) : SkillStore :=
  { s with candidateSkills := s.candidateSkills.delete fun row => row.id = candidateSkill.id }

def deleteUnknownSkillCascade (unknownSkill : UnknownSkill) : SkillStore :=
  { s with
    jdUnknownSkills := s.jdUnknownSkills.delete fun row => row.unknownSkillId = unknownSkill.id
    candidateSkills := s.candidateSkills.delete fun row =>
      row.unknownSkillId = some unknownSkill.id
    unknownSkills := s.unknownSkills.delete fun row => row.id = unknownSkill.id }

def countPendingJdUnknownSkills : ℕ :=
  s.jdUnknownSkills.rows.countP fun link => link.jdId = jdId ∧ link.status = .pending

-- `get_pending_unknown_skills`, with every filter and page left open.
def getPendingUnknownSkills : List UnknownSkill :=
  (s.unknownSkills.rows.filter fun u => u.status ∈ [.pending, .underReview]).mergeSort
    fun u v => v.frequency ≤ u.frequency

end SkillRepository

end AiHiring
