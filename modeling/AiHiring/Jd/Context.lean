import AiHiring.Jd.Model
import AiHiring.Jd.Validation

namespace AiHiring

-- The arguments of a run, which no stage changes.
structure JDSubmission where
  taskId : String
  (title jurisdiction : Option String)
  (minExperienceYears maxExperienceYears : Option ℚ)
  noticePeriod : Option ℤ
  educationCriteria : Option EducationCriteria
  createdBy : String
  (filePath originalFilename rawText : Option String)
  promptTemplateId : Uuid
  existingJdId : Option Uuid
  versionNumber : ℕ
  (parentJdId lineageRootId : Option Uuid)

structure DuplicateJDInfo where
  id : Uuid
  title : String
  versionNumber : ℕ
  deriving DecidableEq, Repr

structure JDProcessingContext extends JDSubmission where
  sourceFormat : Option JDSourceFormat := none
  text : Option String := none
  cleanedText : Option String := none
  rawExtraction : Option ExtractionData := none
  extraction : Option JDExtractionResponse := none
  skillMatches : Option (List SkillMatchResult) := none
  contentHash : Option String := none
  isDuplicate : Bool := false
  duplicateJdInfo : Option DuplicateJDInfo := none
  jdId : Option Uuid := none

structure StoredMatch where
  rawText : String
  mandatory : Bool
  canonicalSkillId : Option Uuid
  matchTier : SkillMatchTier
  confidence : Option ℚ

-- The keys that `to_dict` writes.
structure ContextData extends JDSubmission where
  sourceFormat : Option JDSourceFormat
  (text cleanedText : Option String)
  (rawExtraction extraction : Option ExtractionData)
  skillMatches : List StoredMatch
  contentHash : Option String
  isDuplicate : Bool
  jdId : Option Uuid

-- `context_data` is a JSONB column.
def ContextData.jsonb (data : ContextData) : ContextData :=
  { data with
    rawExtraction := data.rawExtraction.map ExtractionData.jsonb
    extraction := data.extraction.map ExtractionData.jsonb }

namespace ContextSerializer

def matchToDict (m : SkillMatchResult) : StoredMatch where
  rawText := m.rawText
  mandatory := m.mandatory
  canonicalSkillId := m.canonicalSkillId
  matchTier := m.matchTier
  confidence := m.confidence

def matchFromDict (data : StoredMatch) : SkillMatchResult where
  rawText := data.rawText
  mandatory := data.mandatory
  canonicalSkillId := data.canonicalSkillId
  matchTier := data.matchTier
  confidence := data.confidence

def toDict (context : JDProcessingContext) : ContextData where
  toJDSubmission := context.toJDSubmission
  sourceFormat := context.sourceFormat
  text := context.text
  cleanedText := context.cleanedText
  rawExtraction := context.rawExtraction
  extraction := context.extraction.map JDExtractionResponse.modelDump
  skillMatches := (context.skillMatches.getD []).map matchToDict
  contentHash := context.contentHash
  isDuplicate := context.isDuplicate
  jdId := context.jdId

def extractionFromDict (casefold : String → String) :
    Option ExtractionData → Except String (Option JDExtractionResponse)
  | none => .ok none
  | some data => (JDExtractionResponse.modelValidate casefold data).map some

def fromDict (casefold : String → String) (data : ContextData) :
    Except String JDProcessingContext := do
  let extraction ← extractionFromDict casefold data.extraction
  return {
    toJDSubmission := data.toJDSubmission
    sourceFormat := data.sourceFormat
    text := data.text
    cleanedText := data.cleanedText
    rawExtraction := data.rawExtraction
    extraction := extraction
    skillMatches := some (data.skillMatches.map matchFromDict)
    contentHash := data.contentHash
    isDuplicate := data.isDuplicate
    jdId := data.jdId }

-- What is left of a match on the next attempt.
def storedMatch (m : SkillMatchResult) : SkillMatchResult := matchFromDict (matchToDict m)

end ContextSerializer

end AiHiring
