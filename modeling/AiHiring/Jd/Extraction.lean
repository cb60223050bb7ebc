import Mathlib.Data.Rat.Defs
import AiHiring.Library.Text

namespace AiHiring

-- The values of `metadata`, a dict[str, Any].
inductive JsonValue where
  | null
  | bool (value : Bool)
  | number (value : ℚ)
  | string (value : String)
  | array (items : List JsonValue)
  | object (fields : List (String × JsonValue))

structure RequiredSkills where
  (core supporting : List String)
  deriving DecidableEq

structure DomainCapabilities where
  (required preferred : List String)
  deriving DecidableEq

structure Experience where
  (minExperienceYears maxExperienceYears : Option ℚ)
  deriving DecidableEq

structure Education where
  (degree field : Option String)
  (degreeLevel fieldNormalized : String)
  relatedFieldAllowed : Bool
  deriving DecidableEq

-- `aliases` is a dict, so its keys are in insertion order.
structure JDExtractionResponse where
  requiredSkills : RequiredSkills
  preferredSkills : List String
  aliases : List (String × List String)
  domainCapabilities : DomainCapabilities
  (softSkills responsibilities certifications : List String)
  experience : Option Experience
  education : Option Education
  (employmentType workMode location : Option String)
  metadata : List (String × JsonValue)

def JDExtractionResponse.empty : JDExtractionResponse where
  requiredSkills := ⟨[], []⟩
  preferredSkills := []
  aliases := []
  domainCapabilities := ⟨[], []⟩
  softSkills := []
  responsibilities := []
  certifications := []
  experience := none
  education := none
  employmentType := none
  workMode := none
  location := none
  metadata := []

end AiHiring
