import AiHiring.Jd.Service
import AiHiring.Skills.OntologyService

namespace AiHiring

inductive UnknownSkillResolutionType where
  | mapToExisting
  | addAsAlias
  deriving DecidableEq, Repr

-- An item of the answer of a bulk call.
structure BulkResult where
  unknownSkillId : Uuid
  success : Bool
  message : String
  deriving DecidableEq

namespace SkillCurationService

open SkillRepository

section Migration

variable (s : SkillStore)

def manualJdSkill (link : JDUnknownSkill) (canonicalSkillId id : Uuid) : JDSkill where
  id := id
  jdId := link.jdId
  canonicalSkillId := canonicalSkillId
  mandatory := link.mandatory.getD false
  weight := some defaultJdSkillWeight
  importance := none
  aliasSkillIds := none
  confidence := some 1
  matchTier := .manualHr
  verificationStatus := .autoVerified

def retroactiveJdSkill (canonicalSkillId : Uuid) (s : SkillStore) (link : JDUnknownSkill) :
    SkillStore :=
  let created :=
    match getJdSkill s link.jdId canonicalSkillId with
    | some _ => s
    | none => createJdSkill s (manualJdSkill link canonicalSkillId) fun _ => rfl
  markJdUnknownSkillResolved created link

-- `_create_retroactive_jd_skills`
def createRetroactiveJdSkills (unknownSkillId canonicalSkillId : Uuid) : SkillStore :=
  (getPendingJdLinks s unknownSkillId).foldl (retroactiveJdSkill canonicalSkillId) s

def manualCandidateSkill (c : CandidateSkill) (canonicalSkillId id : Uuid) : CandidateSkill where
  id := id
  candidateId := c.candidateId
  resumeId := c.resumeId
  canonicalSkillId := some canonicalSkillId
  unknownSkillId := none
  rawExtractedText := c.rawExtractedText
  confidence := some 1
  matchTier := .manualHr
  scoringWeight := scoringWeightForTier .manualHr
  status := verificationStatusForTier .manualHr

def migrateCandidateSkill (canonicalSkillId : Uuid) (s : SkillStore) (c : CandidateSkill) :
    SkillStore :=
  let created :=
    match getCandidateSkillByCanonical s c.resumeId canonicalSkillId with
    | some _ => s
    | none => createCandidateSkill s (manualCandidateSkill c canonicalSkillId) fun _ => rfl
  deleteCandidateSkill created c

-- The JD links that are still pending get their skill and are deleted; so do the
-- candidate rows.
def migrateOccurrences (unknownSkillId canonicalSkillId : Uuid) : SkillStore :=
  let links := getPendingJdLinks s unknownSkillId
  let s := createRetroactiveJdSkills s unknownSkillId canonicalSkillId
  let s := links.foldl deleteJdUnknownSkill s
  (getCandidateSkillsByUnknownSkillId s unknownSkillId).foldl
    (migrateCandidateSkill canonicalSkillId) s

end Migration

variable (lower : String → String) (db : JdDatabase)

variable (unknownSkill : UnknownSkill) (unknownSkillId : Uuid)

def getUnknownSkillOr404 : Except SkillError UnknownSkill :=
  match getUnknownSkillById db.toSkillStore unknownSkillId with
  | some unknownSkill => .ok unknownSkill
  | none => .error (.notFound s!"UnknownSkill with ID {text unknownSkillId} not found.")

def getSkillOr404 (skillId : Uuid) : Except SkillError SkillOntology :=
  match SkillOntologyRepository.getSkillById db.ontology skillId with
  | some skill => .ok skill
  | none => .error (.notFound s!"SkillOntology with ID {text skillId} not found.")

-- `mark_jd_verified_if_fully_resolved`
def verifiedAmendment (jdId : Uuid) : JobDescriptionTable.Amendment where
  write jd := if jd.id = jdId then { jd with isVerified := .verified } else jd
  id := by
    intro jd
    split_ifs <;> rfl
  lineageRootId := by
    intro jd
    split_ifs <;> rfl
  versionNumber := by
    intro jd
    split_ifs <;> rfl
  inactive := by
    intro jd
    split_ifs <;> simp

def markJdVerifiedIfFullyResolved (db : JdDatabase) (jdId : Uuid) : JdDatabase :=
  if 0 < countPendingJdUnknownSkills db.toSkillStore jdId then
    db
  else
    { db with jobDescriptions := db.jobDescriptions.amend (verifiedAmendment jdId) }

def refreshJdVerificationStatus (jdIds : List Uuid) : JdDatabase :=
  jdIds.foldl markJdVerifiedIfFullyResolved db

-- `_append_alias_validated`
def appendAliasValidated (skill : SkillOntology) (given : String) :
    Except SkillError SkillOntologyTable :=
  match findSkillByNameOrAlias lower db.ontology given with
  | none =>
    SkillOntologyRepository.updateSkill db.ontology
      { skill with aliases := skill.aliases ++ [given] }
  | some collision =>
    if collision.id = skill.id then
      .ok db.ontology
    else
      .error (.badRequest (s!"'{given}' cannot be added as an alias — it already belongs to " ++
        s!"'{collision.canonicalName}'. Aliases must be globally unique."))

def withOntology (ontology : SkillOntologyTable) : JdDatabase :=
  { db with toSkillStore := { db.toSkillStore with ontology := ontology } }

-- The links resolved, the row given its terminal status; the JDs stay as they are.
def settle (canonicalSkillId : Uuid) (status : UnknownSkillStatus) :
    JdDatabase :=
  let s := createRetroactiveJdSkills db.toSkillStore unknownSkill.id canonicalSkillId
  { db with toSkillStore := updateUnknownSkillStatus s unknownSkill status }

def mapToExistingSkill (targetSkillId : Uuid) (saveAsAlias : Bool) :
    Except SkillError JdDatabase := do
  let unknownSkill ← getUnknownSkillOr404 db unknownSkillId
  let targetSkill ← getSkillOr404 db targetSkillId
  let db := settle db unknownSkill targetSkill.id .mappedToExisting
  if saveAsAlias then
    (appendAliasValidated lower db targetSkill unknownSkill.rawText).map (withOntology db)
  else
    .ok db

def promotedSkill (category : Option String) (id : Uuid) :
    SkillOntology where
  id := id
  canonicalName := unknownSkill.rawText
  aliases := []
  category := category
  parentSkillId := none
  confidence := "unverified"
  source := some "HR_PROMOTION"
  isActive := true

def promoteToCanonical (category : Option String) :
    Except SkillError JdDatabase := do
  let unknownSkill ← getUnknownSkillOr404 db unknownSkillId
  match findSkillByNameOrAlias lower db.ontology unknownSkill.rawText with
  | some existing =>
    .error (.badRequest (s!"'{unknownSkill.rawText}' already exists in the skill ontology " ++
      s!"as '{existing.canonicalName}' — map to it instead of promoting."))
  | none =>
    let newSkillId := db.ontology.skills.next
    (SkillOntologyRepository.createSkill db.ontology
      (promotedSkill unknownSkill category newSkillId)).map fun ontology =>
        settle (withOntology db ontology) unknownSkill newSkillId .promotedToCanonical

def jdIdsOf (links : List JDUnknownSkill) : List Uuid := links.map (·.jdId)

-- `_finalize_unknown_skill_resolution`
def finalizeUnknownSkillResolution (canonicalSkillId : Option Uuid) : JdDatabase :=
  match canonicalSkillId with
  | some canonicalSkillId =>
    let jdIds := jdIdsOf (getPendingJdLinks db.toSkillStore unknownSkill.id)
    let s := migrateOccurrences db.toSkillStore unknownSkill.id canonicalSkillId
    refreshJdVerificationStatus
      { db with toSkillStore := deleteUnknownSkillCascade s unknownSkill } jdIds
  | none =>
    let jdIds := jdIdsOf (getJdLinksByUnknownSkillId db.toSkillStore unknownSkill.id)
    refreshJdVerificationStatus
      { db with toSkillStore := deleteUnknownSkillCascade db.toSkillStore unknownSkill } jdIds

def createCanonicalSkillFromUnknown (fields : CanonicalFields) :
    Except SkillError JdDatabase := do
  let unknownSkill ← getUnknownSkillOr404 db unknownSkillId
  let newSkillId := db.ontology.skills.next
  (createCanonicalSkill lower db.ontology unknownSkill.rawText fields).map fun ontology =>
    finalizeUnknownSkillResolution (withOntology db ontology) unknownSkill (some newSkillId)

def deleteUnknownSkill : Except SkillError JdDatabase := do
  let unknownSkill ← getUnknownSkillOr404 db unknownSkillId
  return finalizeUnknownSkillResolution db unknownSkill none

def aliasedOntology (targetSkill : SkillOntology) (unknownSkill : UnknownSkill) :
    UnknownSkillResolutionType → Except SkillError SkillOntologyTable
  | .addAsAlias => appendAliasValidated lower db targetSkill unknownSkill.rawText
  | .mapToExisting => .ok db.ontology

def resolveUnknownSkill (canonicalSkillId : Uuid)
    (resolutionType : UnknownSkillResolutionType) : Except SkillError JdDatabase := do
  let unknownSkill ← getUnknownSkillOr404 db unknownSkillId
  let targetSkill ← getSkillOr404 db canonicalSkillId
  if unknownSkill.status ≠ .pending then
    Except.error (.badRequest (s!"Unknown skill '{text unknownSkillId}' is not pending " ++
      s!"(status={unknownSkill.status.value})."))
  else do
    let ontology ← aliasedOntology lower db targetSkill unknownSkill resolutionType
    let db := withOntology db ontology
    let jdIds := jdIdsOf (getPendingJdLinks db.toSkillStore unknownSkill.id)
    let s := migrateOccurrences db.toSkillStore unknownSkill.id targetSkill.id
    return refreshJdVerificationStatus
      { db with toSkillStore := updateUnknownSkillStatus s unknownSkill .mappedToExisting } jdIds

def dismiss : Except SkillError JdDatabase := do
  let unknownSkill ← getUnknownSkillOr404 db unknownSkillId
  let s := updateUnknownSkillStatus db.toSkillStore unknownSkill .dismissed
  return { db with toSkillStore := s }

-- Each id commits on its own. The errors that are caught roll back that id only;
-- any other ends the call, with the ids before it committed.
def bulk (call : JdDatabase → Uuid → Except SkillError JdDatabase)
    (caught : SkillError → Option String) (done : String) (db : JdDatabase) :
    List Uuid → JdDatabase × Except SkillError (List BulkResult)
  | [] => (db, .ok [])
  | unknownSkillId :: rest =>
    match call db unknownSkillId with
    | .ok db' =>
      let (final, results) := bulk call caught done db' rest
      (final, results.map (⟨unknownSkillId, true, done⟩ :: ·))
    | .error e =>
      match caught e with
      | none => (db, .error e)
      | some message =>
        let (final, results) := bulk call caught done db rest
        (final, results.map (⟨unknownSkillId, false, message⟩ :: ·))

def approvalErrors : SkillError → Option String
  | .notFound detail | .badRequest detail => some detail
  | _ => none

def deletionErrors : SkillError → Option String
  | .notFound detail => some detail
  | _ => none

-- The defaults of `_create_canonical_skill_from_unknown_core`.
def bulkFields : CanonicalFields where
  canonicalName := none
  aliases := none
  category := none
  parentSkillId := none
  confidence := "unverified"
  source := "manual entry"
  isActive := true

def bulkApproveUnknownSkills (unknownSkillIds : List Uuid) :
    JdDatabase × Except SkillError (List BulkResult) :=
  bulk (fun db id => createCanonicalSkillFromUnknown lower db id bulkFields) approvalErrors
    "Approved." db unknownSkillIds

def bulkDeleteUnknownSkills (unknownSkillIds : List Uuid) :
    JdDatabase × Except SkillError (List BulkResult) :=
  bulk deleteUnknownSkill deletionErrors "Deleted." db unknownSkillIds

theorem bulk_keeps (call : JdDatabase → Uuid → Except SkillError JdDatabase)
    (caught : SkillError → Option String) (done : String) (inv : JdDatabase → Prop)
    (hcall : ∀ db id db', inv db → call db id = .ok db' → inv db') (db : JdDatabase)
    (unknownSkillIds : List Uuid) (h : inv db) :
    inv (bulk call caught done db unknownSkillIds).1 := by
  induction unknownSkillIds generalizing db with
  | nil => exact h
  | cons id rest ih =>
    rw [bulk]
    split
    · next db' hok => exact ih db' (hcall db id db' h hok)
    · split
      · exact h
      · exact ih db h

end SkillCurationService

end AiHiring
