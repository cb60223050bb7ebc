import Mathlib.Data.List.MinMax
import AiHiring.Library.Rounding
import AiHiring.Pipeline.Model

namespace AiHiring

open Library

inductive DegreeLevel where
  | certificate
  | diploma
  | associate
  | bachelor
  | postgraduateDiploma
  | master
  | doctorate
  | professional
  | other
  | unknown
  deriving DecidableEq, Repr

-- `DEGREE_LEVEL_RANK`; the last three have no rank.
def DegreeLevel.rank : DegreeLevel → Option ℕ
  | certificate => some 1
  | diploma => some 2
  | associate => some 3
  | bachelor => some 4
  | postgraduateDiploma => some 5
  | master => some 6
  | doctorate => some 7
  | professional | other | unknown => none

structure ExperienceResult where
  (applicable skipped dataMissing passed : Bool)
  (score candidateYears minYears effectiveMinYears : Option ℚ)

-- An entry of `education`; a level that is not one of the enum is read as none.
structure EducationEntry where
  degreeLevel : Option DegreeLevel
  degree : Option String

structure EducationResult where
  (applicable skipped dataMissing passed : Bool)
  score : Option ℚ
  (requiredLevel candidateLevel : Option DegreeLevel)
  equivalentExperienceApplied : Bool
  (requiredDegreeText candidateDegreeText : Option String)

structure ExperienceEducationValidationService where
  experienceToleranceYears : ℚ
  equivalentExperienceYears : Option ℚ

namespace ExperienceEducationValidationService

variable (self : ExperienceEducationValidationService) (r : Rounding)

def validateExperience (minExperienceYears candidateTotalYears extractedMin : Option ℚ) :
    ExperienceResult :=
  match extractedMin.or minExperienceYears with
  | none => ⟨false, true, false, true, some 100, candidateTotalYears, none, none⟩
  | some minYears =>
    match candidateTotalYears with
    | none => ⟨false, false, true, true, none, none, some minYears, none⟩
    | some years =>
      let effectiveMin := max (minYears - self.experienceToleranceYears) 0
      let passed : Bool := effectiveMin ≤ years
      let score := if passed then 100
        else if 0 < effectiveMin then r.round 2 (years / effectiveMin * 100) else 100
      ⟨true, false, false, passed, some score, some years, some minYears, some effectiveMin⟩

-- `classify_degree_level` reads a free text.
variable (classifyDegreeLevel : Option String → Option DegreeLevel)

-- The extracted level counts before the text, and has to have a rank.
def rankedLevel (extracted : Option DegreeLevel) (degree : Option String) :
    Option (ℕ × DegreeLevel) :=
  let level := if extracted ≠ none ∧ extracted ≠ some .unknown then extracted
    else classifyDegreeLevel degree
  level.bind fun level => level.rank.map fun rank => (rank, level)

def rankedEntries (entries : List EducationEntry) : List ((ℕ × DegreeLevel) × EducationEntry) :=
  entries.filterMap fun entry =>
    (rankedLevel classifyDegreeLevel entry.degreeLevel entry.degree).map fun level => (level, entry)

def bestEntry (entries : List EducationEntry) : Option ((ℕ × DegreeLevel) × EducationEntry) :=
  (rankedEntries classifyDegreeLevel entries).argmax fun ranked => ranked.1.1

def bestCandidateDegreeText (entries : List EducationEntry) : Option String :=
  match bestEntry classifyDegreeLevel entries with
  | some best => best.2.degree
  | none => entries.head?.bind EducationEntry.degree

def meetsEquivalentExperience (candidateTotalYears : Option ℚ) : Bool :=
  match self.equivalentExperienceYears, candidateTotalYears with
  | some equivalent, some years => equivalent ≤ years
  | _, _ => false

-- `x or y` of two texts: an empty one counts as none.
def orText (first second : Option String) : Option String :=
  (first.filter (· ≠ "")).or second

def validateEducation (requiredDegreeText : Option String) (entries : List EducationEntry)
    (candidateTotalYears : Option ℚ) (extracted : Option EducationEntry) : EducationResult :=
  let requiredText := orText requiredDegreeText (extracted.bind EducationEntry.degree)
  let candidateText := bestCandidateDegreeText classifyDegreeLevel entries
  match rankedLevel classifyDegreeLevel (extracted.bind EducationEntry.degreeLevel)
      requiredDegreeText with
  | none => ⟨false, true, false, true, some 100, none, none, false, requiredText, candidateText⟩
  | some required =>
    match bestEntry classifyDegreeLevel entries with
    | none =>
      if meetsEquivalentExperience self candidateTotalYears then
        ⟨true, false, true, true, some 100, some required.2, none, true, requiredText,
          candidateText⟩
      else
        ⟨false, false, true, true, none, some required.2, none, false, requiredText, candidateText⟩
    | some (best, entry) =>
      let reached : Bool := required.1 ≤ best.1
      let equivalent : Bool := !reached && meetsEquivalentExperience self candidateTotalYears
      let score := if reached || equivalent then 100
        else r.round 2 ((best.1 : ℚ) / (required.1 : ℚ) * 100)
      ⟨true, false, false, reached || equivalent, some score, some required.2, some best.2,
        equivalent, requiredText, orText entry.degree candidateText⟩

end ExperienceEducationValidationService

-- How the capability matching reads texts: a capability's acronyms and the stems of
-- its content words, those of a sentence, and when two stems are taken to match.
structure CapabilityText where
  acronyms : String → List String
  stems : String → List String
  mentions : String → String → Bool
  tokensMatch : String → String → Bool

structure CapabilityScore where
  capability : String
  score : ℚ
  evidence : Option String

structure DomainResult where
  (applicable skipped dataMissing passed : Bool)
  score : Option ℚ
  (required preferred : List CapabilityScore)

namespace DomainCapabilityMatchingService

variable (t : CapabilityText) (r : Rounding)

def preferredCapabilityWeight : ℚ := 1 / 2

def maxEvidenceChars : ℕ := 200

-- The share of the capability's words that the sentence has.
def chunkScore (capabilityStems chunkStems : List String) : ℚ :=
  ((capabilityStems.countP fun stem => chunkStems.any fun other => t.tokensMatch stem other : ℕ) :
    ℚ) / (capabilityStems.length : ℚ)

-- The loop over the sentences; it ends at a sentence that cannot be beaten.
def bestChunk (capability : String) (capabilityStems : List String) :
    List String → ℚ × Option String → ℚ × Option String
  | [], best => best
  | chunk :: rest, best =>
    if (t.acronyms capability).any fun acronym => t.mentions acronym chunk then (1, some chunk)
    else if capabilityStems = [] then bestChunk capability capabilityStems rest best
    else
      let score := chunkScore t capabilityStems (t.stems chunk)
      if best.1 < score then
        if score = 1 then (score, some chunk)
        else bestChunk capability capabilityStems rest (score, some chunk)
      else bestChunk capability capabilityStems rest best

def scoreCapability (chunks : List String) (capability : String) : CapabilityScore :=
  let best := bestChunk t capability (t.stems capability).dedup chunks (0, none)
  { capability := capability
    score := r.round 2 best.1
    evidence := if 0 < best.1 then best.2.map fun chunk =>
      String.ofList (chunk.toList.take maxEvidenceChars) else none }

def evaluate (required preferred chunks : List String) : DomainResult :=
  if required = [] ∧ preferred = [] then ⟨false, true, false, true, none, [], []⟩
  else if chunks = [] then ⟨false, false, true, true, none, [], []⟩
  else
    let requiredResults := required.map (scoreCapability t r chunks)
    let preferredResults := preferred.map (scoreCapability t r chunks)
    let weightedSum := (requiredResults.map CapabilityScore.score).sum +
      preferredCapabilityWeight * (preferredResults.map CapabilityScore.score).sum
    let weightTotal := (required.length : ℚ) + preferredCapabilityWeight * (preferred.length : ℚ)
    ⟨true, false, false, true, some (r.round 2 (weightedSum / weightTotal * 100)),
      requiredResults, preferredResults⟩

end DomainCapabilityMatchingService

end AiHiring
