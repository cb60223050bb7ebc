import AiHiring.Library.Run
import AiHiring.Skills.Persistence

namespace AiHiring

open Library SkillRepository SkillStore

namespace SkillCurationService

section Refresh

variable (db : JdDatabase)

def HasPending (db : JdDatabase) (jdId : Uuid) : Prop :=
  ∃ link, db.toSkillStore.PendingLink link ∧ link.jdId = jdId

theorem countPending_eq_zero (jdId : Uuid) :
    countPendingJdUnknownSkills db.toSkillStore jdId = 0 ↔ ¬HasPending db jdId := by
  rw [countPendingJdUnknownSkills, List.countP_eq_zero]
  constructor
  · rintro hall ⟨link, ⟨hlink, hpending⟩, hid⟩
    exact hall link hlink (decide_eq_true ⟨hid, hpending⟩)
  · intro hnone link hlink hselected
    obtain ⟨hid, hpending⟩ := of_decide_eq_true hselected
    exact hnone ⟨link, ⟨hlink, hpending⟩, hid⟩

-- What a refresh leaves alone.
structure Refreshed (db db' : JdDatabase) (jdIds : List Uuid) : Prop where
  store : db'.toSkillStore = db.toSkillStore
  next : db'.jobDescriptions.versions.next = db.jobDescriptions.versions.next
  rows : ∀ jd' ∈ db'.jobDescriptions.rows, ∃ jd ∈ db.jobDescriptions.rows,
    jd'.id = jd.id ∧ jd'.isActiveVersion = jd.isActiveVersion ∧
      (HasPending db jd.id → jd'.isVerified = jd.isVerified) ∧
      (jd.id ∉ jdIds → jd'.isVerified = jd.isVerified) ∧
      (jd.id ∈ jdIds → ¬HasPending db jd.id → jd'.isVerified = .verified)

theorem mark_refreshed (jdId : Uuid) :
    Refreshed db (markJdVerifiedIfFullyResolved db jdId) [jdId] := by
  have hzero := countPending_eq_zero db jdId
  rw [markJdVerifiedIfFullyResolved]
  split_ifs with hcount
  · have hpending : HasPending db jdId := by
      by_contra hnone
      have := hzero.mpr hnone
      omega
    refine ⟨rfl, rfl, fun jd hjd => ⟨jd, hjd, rfl, rfl, fun _ => rfl, fun _ => rfl, ?_⟩⟩
    intro hid hnone
    rw [List.mem_singleton.mp hid] at hnone
    exact absurd hpending hnone
  · have hnone : ¬HasPending db jdId := hzero.mp (by omega)
    refine ⟨rfl, rfl, fun jd' hjd' => ?_⟩
    obtain ⟨jd, hjd, rfl⟩ := List.mem_map.mp hjd'
    refine ⟨jd, hjd, (verifiedAmendment jdId).id jd, ?_⟩
    change (if jd.id = jdId then { jd with isVerified := .verified } else jd).isActiveVersion = _ ∧
      (_ → (if jd.id = jdId then { jd with isVerified := .verified } else jd).isVerified = _) ∧
      (_ → (if jd.id = jdId then { jd with isVerified := .verified } else jd).isVerified = _) ∧
      (_ → _ → (if jd.id = jdId then { jd with isVerified := .verified } else jd).isVerified = _)
    by_cases hid : jd.id = jdId
    · simp [hid, hnone]
    · simp [hid]

theorem Refreshed.trans {db' db'' : JdDatabase} {first rest : List Uuid}
    (h : Refreshed db db' first) (h' : Refreshed db' db'' rest) :
    Refreshed db db'' (first ++ rest) := by
  have hpending (jdId : Uuid) : HasPending db' jdId ↔ HasPending db jdId := by
    rw [HasPending, HasPending, h.store]
  refine ⟨h'.store.trans h.store, h'.next.trans h.next, fun jd'' hjd'' => ?_⟩
  obtain ⟨jd', hjd', hid', hactive', hkeep', hout', hin'⟩ := h'.rows jd'' hjd''
  obtain ⟨jd, hjd, hid, hactive, hkeep, hout, hin⟩ := h.rows jd' hjd'
  rw [hid, hpending] at hkeep' hin'
  rw [hid] at hout'
  refine ⟨jd, hjd, hid'.trans hid, hactive'.trans hactive, ?_, ?_, ?_⟩
  · intro hp
    exact (hkeep' hp).trans (hkeep hp)
  · intro hnot
    rw [List.mem_append, not_or] at hnot
    exact (hout' hnot.2).trans (hout hnot.1)
  · intro hmem hnone
    by_cases hrest : jd.id ∈ rest
    · exact hin' hrest hnone
    · rw [hout' hrest]
      exact hin ((List.mem_append.mp hmem).resolve_right hrest) hnone

theorem refresh_refreshed (jdIds : List Uuid) :
    Refreshed db (refreshJdVerificationStatus db jdIds) jdIds := by
  induction jdIds generalizing db with
  | nil =>
    exact ⟨rfl, rfl, fun jd hjd => ⟨jd, hjd, rfl, rfl, fun _ => rfl, fun _ => rfl,
      fun hin => absurd hin (by simp)⟩⟩
  | cons jdId rest ih =>
    exact (mark_refreshed db jdId).trans db (ih (markJdVerifiedIfFullyResolved db jdId))

end Refresh

-- An unknown skill is resolved for good, and the JDs whose pending links to it
-- are gone are refreshed.
def Resolves (db db' : JdDatabase) (u : Uuid) : Prop :=
  ∃ s jdIds, Closes db.toSkillStore s u ∧
    (∀ link, db.toSkillStore.PendingLink link → link.unknownSkillId = u → link.jdId ∈ jdIds) ∧
    Refreshed { db with toSkillStore := s } db' jdIds

section Calls

variable (lower : String → String) (db db' : JdDatabase)

variable (unknownSkillId : Uuid)

theorem getUnknownSkillOr404_ok (unknownSkill : UnknownSkill)
    (h : getUnknownSkillOr404 db unknownSkillId = .ok unknownSkill) :
    unknownSkill.id = unknownSkillId ∧
      db.unknownSkills.find? unknownSkill.id = some unknownSkill := by
  rw [getUnknownSkillOr404] at h
  split at h
  · next found hfound =>
      cases h
      have hid := ((db.unknownSkills.find?_eq_some _ _).mp hfound).2
      refine ⟨hid, ?_⟩
      rw [hid]
      exact hfound
  · simp at h

theorem pending_jdIds (u : Uuid) (link : JDUnknownSkill)
    (hpending : db.toSkillStore.PendingLink link) (hu : link.unknownSkillId = u) :
    link.jdId ∈ jdIdsOf (getPendingJdLinks db.toSkillStore u) := by
  refine List.mem_map.mpr ⟨link, ?_, rfl⟩
  exact List.mem_filter.mpr ⟨hpending.1, decide_eq_true ⟨hu, hpending.2⟩⟩

theorem settle_ok (unknownSkill : UnknownSkill) (canonicalSkillId : Uuid)
    (status : UnknownSkillStatus) (ontology : SkillOntologyTable)
    (hfound : db.unknownSkills.find? unknownSkill.id = some unknownSkill) :
    Settles db.toSkillStore
      (settle (withOntology db ontology) unknownSkill canonicalSkillId status).toSkillStore
      unknownSkill.id status := by
  have h := @settle_settles { db.toSkillStore with ontology := ontology } unknownSkill
    canonicalSkillId status hfound
  exact ⟨h.links, h.candidates, h.others, h.settled, h.origin⟩

theorem mapToExistingSkill_ok (targetSkillId : Uuid) (saveAsAlias : Bool)
    (h : mapToExistingSkill lower db unknownSkillId targetSkillId saveAsAlias = .ok db') :
    db'.jobDescriptions = db.jobDescriptions ∧
      Settles db.toSkillStore db'.toSkillStore unknownSkillId .mappedToExisting := by
  simp only [mapToExistingSkill, bind_eq_ok] at h
  obtain ⟨unknownSkill, hunknown, targetSkill, -, h⟩ := h
  obtain ⟨rfl, hfound⟩ := getUnknownSkillOr404_ok db unknownSkillId unknownSkill hunknown
  have hsettles := settle_ok db unknownSkill targetSkill.id .mappedToExisting db.ontology hfound
  split_ifs at h
  · obtain ⟨ontology, -, rfl⟩ := (map_eq_ok _ _ _).mp h
    exact ⟨rfl, hsettles.links, hsettles.candidates, hsettles.others, hsettles.settled,
      hsettles.origin⟩
  · cases h
    exact ⟨rfl, hsettles⟩

theorem promoteToCanonical_ok (category : Option String)
    (h : promoteToCanonical lower db unknownSkillId category = .ok db') :
    db'.jobDescriptions = db.jobDescriptions ∧
      Settles db.toSkillStore db'.toSkillStore unknownSkillId .promotedToCanonical := by
  simp only [promoteToCanonical, bind_eq_ok] at h
  obtain ⟨unknownSkill, hunknown, h⟩ := h
  obtain ⟨rfl, hfound⟩ := getUnknownSkillOr404_ok db unknownSkillId unknownSkill hunknown
  split at h
  · simp at h
  · obtain ⟨ontology, -, rfl⟩ := (map_eq_ok _ _ _).mp h
    exact ⟨rfl, settle_ok db unknownSkill _ _ ontology hfound⟩

theorem createCanonicalSkillFromUnknown_ok (fields : CanonicalFields)
    (h : createCanonicalSkillFromUnknown lower db unknownSkillId fields = .ok db') :
    Resolves db db' unknownSkillId := by
  simp only [createCanonicalSkillFromUnknown, bind_eq_ok] at h
  obtain ⟨unknownSkill, hunknown, h⟩ := h
  obtain ⟨rfl, hfound⟩ := getUnknownSkillOr404_ok db unknownSkillId unknownSkill hunknown
  obtain ⟨ontology, -, rfl⟩ := (map_eq_ok _ _ _).mp h
  let s : SkillStore := { db.toSkillStore with ontology := ontology }
  have hcloses := @finalize_closes s unknownSkill db.ontology.skills.next
  exact ⟨_, _, ⟨hcloses.links, hcloses.candidates, hcloses.others, hcloses.origin⟩,
    pending_jdIds db unknownSkill.id, refresh_refreshed _ _⟩

theorem deleteUnknownSkill_ok
    (h : deleteUnknownSkill db unknownSkillId = .ok db') : Resolves db db' unknownSkillId := by
  simp only [deleteUnknownSkill, bind_eq_ok] at h
  obtain ⟨unknownSkill, hunknown, h⟩ := h
  obtain ⟨rfl, hfound⟩ := getUnknownSkillOr404_ok db unknownSkillId unknownSkill hunknown
  cases h
  refine ⟨_, _, cascade_closes unknownSkill, ?_, refresh_refreshed _ _⟩
  intro link hpending hu
  refine List.mem_map.mpr ⟨link, ?_, rfl⟩
  exact List.mem_filter.mpr ⟨hpending.1, decide_eq_true hu⟩

theorem resolveUnknownSkill_ok (canonicalSkillId : Uuid)
    (resolutionType : UnknownSkillResolutionType)
    (h : resolveUnknownSkill lower db unknownSkillId canonicalSkillId resolutionType = .ok db') :
    Resolves db db' unknownSkillId := by
  simp only [resolveUnknownSkill, bind_eq_ok] at h
  obtain ⟨unknownSkill, hunknown, targetSkill, -, h⟩ := h
  obtain ⟨rfl, hfound⟩ := getUnknownSkillOr404_ok db unknownSkillId unknownSkill hunknown
  split at h
  · simp at h
  · simp only [bind_eq_ok] at h
    obtain ⟨ontology, -, h⟩ := h
    cases h
    let s : SkillStore := { db.toSkillStore with ontology := ontology }
    have hcloses := @resolve_closes s unknownSkill targetSkill.id .mappedToExisting hfound
    exact ⟨_, _, ⟨hcloses.links, hcloses.candidates, hcloses.others, hcloses.origin⟩,
      pending_jdIds db unknownSkill.id, refresh_refreshed _ _⟩

theorem dismiss_ok (h : dismiss db unknownSkillId = .ok db') :
    ∃ unknownSkill, unknownSkill.id = unknownSkillId ∧
      db.unknownSkills.find? unknownSkill.id = some unknownSkill ∧
      db' = { db with
        toSkillStore := updateUnknownSkillStatus db.toSkillStore unknownSkill .dismissed } := by
  simp only [dismiss, bind_eq_ok] at h
  obtain ⟨unknownSkill, hunknown, h⟩ := h
  obtain ⟨hid, hfound⟩ := getUnknownSkillOr404_ok db unknownSkillId unknownSkill hunknown
  exact ⟨unknownSkill, hid, hfound, (Except.ok.inj h).symm⟩

end Calls

end SkillCurationService

namespace SkillRun

open SkillCurationService

-- The persistences, the metadata-only update and the curation calls.
inductive Event where
  | persistJd (request : PersistRequest)
  | persistResume (request : ResumeRequest)
  | updateMetadata (jdId : Uuid) (request : UpdateJDRequest) (updatedBy : String)
  | mapToExisting (unknownSkillId targetSkillId : Uuid) (saveAsAlias : Bool)
  | promote (unknownSkillId : Uuid) (category : Option String)
  | createCanonical (unknownSkillId : Uuid) (fields : CanonicalFields)
  | bulkApprove (unknownSkillIds : List Uuid)
  | resolve (unknownSkillId canonicalSkillId : Uuid) (resolutionType : UnknownSkillResolutionType)
  | dismiss (unknownSkillId : Uuid)
  | delete (unknownSkillId : Uuid)
  | bulkDelete (unknownSkillIds : List Uuid)

variable (lower generateHash : String → String)

def updateMetadata (db : JdDatabase) (jdId : Uuid) (request : UpdateJDRequest)
    (updatedBy : String) : Option JdDatabase :=
  match JDService.updateJd db generateHash jdId request updatedBy none none with
  | .ok (.metadata existing lineageRootId) =>
    (JDService.metadataWrites db generateHash request updatedBy existing
      lineageRootId).toOption.map Prod.fst
  | _ => none

-- A call that raises is rolled back and does not move. A bulk call commits id by
-- id: the states in between are those of the same call for fewer ids.
def next? (db : JdDatabase) : Event → Option JdDatabase
  | .persistJd request => (JDService.persistProcessedJd db request).toOption.map Prod.fst
  | .persistResume request => (ResumeService.persistProcessedResume request db).toOption
  | .updateMetadata jdId request updatedBy =>
    updateMetadata generateHash db jdId request updatedBy
  | .mapToExisting unknownSkillId targetSkillId saveAsAlias =>
    (mapToExistingSkill lower db unknownSkillId targetSkillId saveAsAlias).toOption
  | .promote unknownSkillId category => (promoteToCanonical lower db unknownSkillId category).toOption
  | .createCanonical unknownSkillId fields =>
    (createCanonicalSkillFromUnknown lower db unknownSkillId fields).toOption
  | .bulkApprove unknownSkillIds => some (bulkApproveUnknownSkills lower db unknownSkillIds).1
  | .resolve unknownSkillId canonicalSkillId resolutionType =>
    (resolveUnknownSkill lower db unknownSkillId canonicalSkillId resolutionType).toOption
  | .dismiss unknownSkillId => (SkillCurationService.dismiss db unknownSkillId).toOption
  | .delete unknownSkillId => (deleteUnknownSkill db unknownSkillId).toOption
  | .bulkDelete unknownSkillIds => some (bulkDeleteUnknownSkills db unknownSkillIds).1

def Step (db : JdDatabase) (event : Event) (db' : JdDatabase) : Prop :=
  next? lower generateHash db event = some db'

-- Nothing has been persisted yet; the ontology and the prompts are any.
def begin (ontology : SkillOntologyTable) (promptTemplates : Table PromptTemplate PromptTemplate.id)
    (activeCampaigns : Uuid → Bool) : JdDatabase where
  ontology := ontology
  unknownSkills := Table.empty
  jdSkills := Table.empty
  jdUnknownSkills := Table.empty
  candidateSkills := Table.empty
  jobDescriptions := JobDescriptionTable.empty
  promptTemplates := promptTemplates
  activeCampaigns := activeCampaigns

theorem toOption_eq_some {ε α : Type*} (x : Except ε α) (a : α) :
    x.toOption = some a ↔ x = .ok a := by
  cases x <;> simp [Except.toOption]

def LinksKnown (db : JdDatabase) : Prop :=
  ∀ link ∈ db.jdUnknownSkills.rows, link.jdId < db.jobDescriptions.versions.next

section JdWrites

open JDService

variable {db db' : JdDatabase}

-- An active version is written; the ones before it may have been deactivated.
structure Writes (db db' : JdDatabase) (row : JobDescription) : Prop where
  id : row.id = db.jobDescriptions.versions.next
  active : row.isActiveVersion = true
  next : db'.jobDescriptions.versions.next = db.jobDescriptions.versions.next + 1
  has : row ∈ db'.jobDescriptions.rows
  old : ∀ jd' ∈ db'.jobDescriptions.rows, jd' = row ∨ ∃ jd ∈ db.jobDescriptions.rows,
    jd'.id = jd.id ∧ jd'.isVerified = jd.isVerified ∧
      (jd'.isActiveVersion = true → jd.isActiveVersion = true)

theorem writes_insert (t t' : JobDescriptionTable) (row : Uuid → JobDescription)
    (hrow : ∀ id, (row id).id = id) (id : Uuid) (hactive : ∀ id, (row id).isActiveVersion = true)
    (jdId : Option Uuid)
    (ht : t = jdId.elim db.jobDescriptions
      fun jdId => db.jobDescriptions.amend (JDRepository.deactivation jdId))
    (h : t.insert row hrow = .ok (t', id)) (hdb' : db'.jobDescriptions = t') :
    Writes db db' (row db.jobDescriptions.versions.next) ∧
      id = db.jobDescriptions.versions.next := by
  obtain ⟨-, hversions, hid⟩ := JobDescriptionTable.insert_eq_ok _ _ _ _ h
  have hnext : t.versions.next = db.jobDescriptions.versions.next := by
    rw [ht]
    cases jdId <;> rfl
  have hrows : db'.jobDescriptions.rows = t.rows ++ [row db.jobDescriptions.versions.next] := by
    rw [hdb', JobDescriptionTable.rows, hversions, Table.rows_insert, hnext]
    rfl
  refine ⟨⟨hrow _, hactive _, ?_, ?_, ?_⟩, hid.trans hnext⟩
  · rw [hdb', hversions, ← hnext]
    rfl
  · rw [hrows]
    simp
  · intro jd' hjd'
    rw [hrows, List.mem_append, List.mem_singleton] at hjd'
    refine hjd'.symm.imp (fun hnew => hnew) ?_
    intro hold
    rw [ht] at hold
    cases jdId with
    | none => exact ⟨jd', hold, rfl, rfl, fun hj => hj⟩
    | some jdId =>
      obtain ⟨jd, hjd, rfl⟩ := List.mem_map.mp hold
      refine ⟨jd, hjd, (JDRepository.deactivation jdId).id jd, ?_,
        (JDRepository.deactivation jdId).inactive jd⟩
      change (if jd.id = jdId then { jd with isActiveVersion := false } else jd).isVerified = _
      split_ifs <;> rfl

theorem persistProcessedJd_writes (request : PersistRequest)
    (h : (persistProcessedJd db request).toOption.map Prod.fst = some db') :
    ∃ row, Writes db db' row ∧ row.isVerified = verification request.skillMatches ∧
      db'.toSkillStore = persistSkills db.toSkillStore row.id request.skillMatches := by
  obtain ⟨⟨result, id⟩, hresult, rfl⟩ := Option.map_eq_some_iff.mp h
  rw [toOption_eq_some, persistProcessedJd] at hresult
  simp only [bind_eq_ok] at hresult
  obtain ⟨-, -, hwrites⟩ := hresult
  obtain ⟨columns, jobDescriptions, hinsert, hdb⟩ := persistWrites_eq_ok _ _ _ hwrites
  have hold : (deactivateExisting db request).jobDescriptions =
      ((request.existingJdId.bind (JDRepository.getById db)).map (·.id)).elim db.jobDescriptions
        fun jdId => db.jobDescriptions.amend (JDRepository.deactivation jdId) := by
    rw [deactivateExisting]
    cases request.existingJdId.bind (JDRepository.getById db) <;> rfl
  have hstore : (deactivateExisting db request).toSkillStore = db.toSkillStore := by
    rw [deactivateExisting]
    split <;> rfl
  have hdb' : result.jobDescriptions = jobDescriptions := congrArg JdDatabase.jobDescriptions hdb
  obtain ⟨hw, hid⟩ := writes_insert _ _ (persistRow request columns) (fun _ => rfl) id
    (fun _ => rfl) _ hold hinsert hdb'
  refine ⟨_, hw, rfl, ?_⟩
  have hskills : result.toSkillStore =
      persistSkills (deactivateExisting db request).toSkillStore id request.skillMatches :=
    congrArg JdDatabase.toSkillStore hdb
  rw [hskills, hstore, hid]
  rfl

theorem updateMetadata_writes (generateHash : String → String) (jdId : Uuid)
    (request : UpdateJDRequest) (updatedBy : String)
    (h : updateMetadata generateHash db jdId request updatedBy = some db') :
    ∃ existing row, existing ∈ db.jobDescriptions.rows ∧ existing.id = jdId ∧
      existing.isActiveVersion = true ∧ Writes db db' row ∧
      row.isVerified = existing.isVerified ∧ db'.toSkillStore = db.toSkillStore := by
  rw [updateMetadata] at h
  split at h
  · next existing lineageRootId hupdate =>
      obtain ⟨⟨result, id⟩, hresult, rfl⟩ := Option.map_eq_some_iff.mp h
      rw [toOption_eq_some] at hresult
      obtain ⟨title, jobDescriptions, hinsert, hdb⟩ := metadataWrites_eq_ok _ _ _ _ _ _ _ hresult
      obtain ⟨found, hfound, hactive, houtcome⟩ := updateJd_eq_ok _ _ _ _ _ _ _ _ hupdate
      have hexisting : found = existing := by
        rcases houtcome with hmeta | ⟨changed, hrequired⟩
        · exact (UpdateOutcome.metadata.inj hmeta).1.symm
        · simp at hrequired
      subst hexisting
      obtain ⟨hmem, hid⟩ := (Table.find?_eq_some _ _ _).mp hfound
      have hdb' : result.jobDescriptions = jobDescriptions :=
        congrArg JdDatabase.jobDescriptions hdb
      obtain ⟨hw, -⟩ := writes_insert _ _
        (nextVersion generateHash request title updatedBy found lineageRootId) (fun _ => rfl) id
        (fun _ => rfl) (some found.id) rfl hinsert hdb'
      exact ⟨found, _, hmem, hid, hactive, hw, rfl,
        (congrArg JdDatabase.toSkillStore hdb).trans rfl⟩
  · simp at h

end JdWrites

end SkillRun

end AiHiring
