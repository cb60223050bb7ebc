import AiHiring.Skills.Classified

namespace AiHiring

open Library SkillRepository SkillCurationService

namespace JdSkillRun

-- The edits of a JD's skills, the calls that resolve an unknown skill, and the campaigns
-- that come and go in between.
inductive Event where
  | campaigns (activeCampaigns : Uuid → Bool)
  | updateJdSkill (jdSkillId : Uuid) (mandatory : Bool) (importance : Option String)
  | remapJdSkill (jdSkillId newCanonicalSkillId : Uuid)
  | removeJdSkill (jdSkillId : Uuid)
  | mapToExisting (unknownSkillId targetSkillId : Uuid) (saveAsAlias : Bool)
  | promote (unknownSkillId : Uuid) (category : Option String)
  | createCanonical (unknownSkillId : Uuid) (fields : CanonicalFields)
  | resolve (unknownSkillId canonicalSkillId : Uuid) (resolutionType : UnknownSkillResolutionType)

variable (lower upper : String → String)

def outcome (db : JdDatabase) : Event → Except SkillError JdDatabase
  | .campaigns activeCampaigns => .ok { db with activeCampaigns := activeCampaigns }
  | .updateJdSkill jdSkillId mandatory importance =>
    SkillCurationService.updateJdSkill upper db jdSkillId mandatory importance
  | .remapJdSkill jdSkillId newCanonicalSkillId =>
    SkillCurationService.remapJdSkill db jdSkillId newCanonicalSkillId
  | .removeJdSkill jdSkillId => SkillCurationService.removeJdSkill db jdSkillId
  | .mapToExisting unknownSkillId targetSkillId saveAsAlias =>
    mapToExistingSkill lower db unknownSkillId targetSkillId saveAsAlias
  | .promote unknownSkillId category => promoteToCanonical lower db unknownSkillId category
  | .createCanonical unknownSkillId fields =>
    createCanonicalSkillFromUnknown lower db unknownSkillId fields
  | .resolve unknownSkillId canonicalSkillId resolutionType =>
    resolveUnknownSkill lower db unknownSkillId canonicalSkillId resolutionType

-- A call that raises is rolled back.
def next (db : JdDatabase) (event : Event) : JdDatabase :=
  match outcome lower upper db event with
  | .ok db' => db'
  | .error _ => db

def Step (db : JdDatabase) (event : Event) (db' : JdDatabase) : Prop :=
  db' = next lower upper db event

-- The unknown skill that a call resolves, and the canonical skill that it becomes.
def resolution (db : JdDatabase) : Event → Option (Uuid × Uuid)
  | .mapToExisting unknownSkillId targetSkillId _ => some (unknownSkillId, targetSkillId)
  | .promote unknownSkillId _ => some (unknownSkillId, db.ontology.skills.next)
  | .createCanonical unknownSkillId _ => some (unknownSkillId, db.ontology.skills.next)
  | .resolve unknownSkillId canonicalSkillId _ => some (unknownSkillId, canonicalSkillId)
  | _ => none

-- The checks of the call let it through.
def Accepted (db : JdDatabase) : Event → Prop
  | .mapToExisting unknownSkillId targetSkillId saveAsAlias => ∃ unknownSkill targetSkill,
      getUnknownSkillOr404 db unknownSkillId = .ok unknownSkill ∧
      getSkillOr404 db targetSkillId = .ok targetSkill ∧
      (saveAsAlias = true →
        ∃ t, appendAliasValidated lower db targetSkill unknownSkill.rawText = .ok t)
  | .promote unknownSkillId _ => ∃ unknownSkill,
      getUnknownSkillOr404 db unknownSkillId = .ok unknownSkill ∧
      findSkillByNameOrAlias lower db.ontology unknownSkill.rawText = none
  | .createCanonical unknownSkillId fields => ∃ unknownSkill,
      getUnknownSkillOr404 db unknownSkillId = .ok unknownSkill ∧
      ∃ t, createCanonicalSkill lower db.ontology unknownSkill.rawText fields = .ok t
  | .resolve unknownSkillId canonicalSkillId resolutionType => ∃ unknownSkill targetSkill,
      getUnknownSkillOr404 db unknownSkillId = .ok unknownSkill ∧
      getSkillOr404 db canonicalSkillId = .ok targetSkill ∧ unknownSkill.status = .pending ∧
      ∃ t, aliasedOntology lower db targetSkill unknownSkill resolutionType = .ok t
  | _ => True

-- No mandatory link of the JD becomes a row: the JD has one of the skill already.
def KeepsClassified (jdId : Uuid) (db : JdDatabase) (event : Event) : Prop :=
  Accepted lower db event → ∀ u canonicalSkillId, resolution db event = some (u, canonicalSkillId) →
    ∀ link ∈ getPendingJdLinks db.toSkillStore u, link.jdId = jdId →
      link.mandatory = some true → (getJdSkill db.toSkillStore jdId canonicalSkillId).isSome = true

section Calls

variable {lower upper} {db db' : JdDatabase} {u canonicalSkillId jdId : Uuid} {event : Event}

theorem appendAliasValidated_congr (db : JdDatabase) {other : JdDatabase}
    (h : other.ontology = db.ontology) (skill : SkillOntology) (given : String) :
    appendAliasValidated lower other skill given = appendAliasValidated lower db skill given := by
  simp only [appendAliasValidated, h]

theorem withOntology_converts (ontology : SkillOntologyTable) {s : SkillStore}
    (h : SkillStore.Converts (withOntology db ontology).toSkillStore s u canonicalSkillId) :
    SkillStore.Converts db.toSkillStore s u canonicalSkillId := ⟨h.adds, h.links⟩

theorem settle_converts (unknownSkill : UnknownSkill) (status : UnknownSkillStatus) :
    SkillStore.Converts db.toSkillStore
      (settle db unknownSkill canonicalSkillId status).toSkillStore unknownSkill.id
      canonicalSkillId :=
  SkillStore.createRetroactiveJdSkills_converts.then rfl (List.Sublist.refl _)

theorem mapToExisting_spec {saveAsAlias : Bool}
    (h : mapToExistingSkill lower db u canonicalSkillId saveAsAlias = .ok db') :
    Accepted lower db (.mapToExisting u canonicalSkillId saveAsAlias) ∧
      SkillStore.Converts db.toSkillStore db'.toSkillStore u canonicalSkillId := by
  simp only [mapToExistingSkill, bind_eq_ok] at h
  obtain ⟨unknownSkill, hunknown, targetSkill, htarget, h⟩ := h
  obtain ⟨rfl, -⟩ := getUnknownSkillOr404_ok db u unknownSkill hunknown
  obtain ⟨-, rfl⟩ := getSkillOr404_stored htarget
  have hsettled := @settle_converts db targetSkill.id unknownSkill .mappedToExisting
  split_ifs at h with hsave
  · obtain ⟨ontology, hontology, rfl⟩ := (map_eq_ok _ _ _).mp h
    rw [appendAliasValidated_congr db (settle_ontology _ _ _ _)] at hontology
    exact ⟨⟨unknownSkill, targetSkill, hunknown, htarget, fun _ => ⟨ontology, hontology⟩⟩,
      hsettled.adds, hsettled.links⟩
  · cases h
    exact ⟨⟨unknownSkill, targetSkill, hunknown, htarget, fun h => absurd h hsave⟩, hsettled⟩

theorem mapToExisting_total {saveAsAlias : Bool}
    (h : Accepted lower db (.mapToExisting u canonicalSkillId saveAsAlias)) :
    ∃ db', mapToExistingSkill lower db u canonicalSkillId saveAsAlias = .ok db' := by
  obtain ⟨unknownSkill, targetSkill, hunknown, htarget, halias⟩ := h
  simp only [mapToExistingSkill, hunknown, htarget, bind, Except.bind]
  cases saveAsAlias with
  | false => exact ⟨_, rfl⟩
  | true =>
    obtain ⟨ontology, hontology⟩ := halias rfl
    rw [← appendAliasValidated_congr db (settle_ontology db targetSkill.id unknownSkill
      .mappedToExisting)] at hontology
    rw [hontology]
    exact ⟨_, rfl⟩

theorem promote_spec {category : Option String}
    (h : promoteToCanonical lower db u category = .ok db') :
    Accepted lower db (.promote u category) ∧
      SkillStore.Converts db.toSkillStore db'.toSkillStore u db.ontology.skills.next := by
  simp only [promoteToCanonical, bind_eq_ok] at h
  obtain ⟨unknownSkill, hunknown, h⟩ := h
  obtain ⟨rfl, -⟩ := getUnknownSkillOr404_ok db u unknownSkill hunknown
  cases hname : findSkillByNameOrAlias lower db.ontology unknownSkill.rawText with
  | some existing =>
    rw [hname] at h
    cases h
  | none =>
    rw [hname] at h
    obtain ⟨ontology, -, rfl⟩ := (map_eq_ok _ _ _).mp h
    exact ⟨⟨unknownSkill, hunknown, hname⟩,
      withOntology_converts ontology (settle_converts unknownSkill _)⟩

theorem promote_total {category : Option String} (h : Accepted lower db (.promote u category)) :
    ∃ db', promoteToCanonical lower db u category = .ok db' := by
  obtain ⟨unknownSkill, hunknown, hname⟩ := h
  have hfree := (findSkillByNameOrAlias_eq_none _).mp hname
  have hcreate := SkillOntologyRepository.createSkill_total db.ontology
    (promotedSkill unknownSkill category db.ontology.skills.next) ?_ ?_ rfl
  · obtain ⟨ontology, hontology⟩ := hcreate
    simp only [promoteToCanonical, hunknown, hname, hontology, bind, Except.bind]
    exact ⟨_, rfl⟩
  · intro hmem
    obtain ⟨row, hrow, hid⟩ := List.mem_map.mp hmem
    have hlt : row.id < db.ontology.skills.next := db.ontology.skills.below row hrow
    exact absurd hid hlt.ne
  · intro row hrow hsame
    refine hfree row hrow ?_
    rw [← (show row.canonicalName = unknownSkill.rawText from hsame)]
    exact List.mem_cons_self

theorem createCanonical_spec {fields : CanonicalFields}
    (h : createCanonicalSkillFromUnknown lower db u fields = .ok db') :
    Accepted lower db (.createCanonical u fields) ∧
      SkillStore.Converts db.toSkillStore db'.toSkillStore u db.ontology.skills.next := by
  simp only [createCanonicalSkillFromUnknown, bind_eq_ok] at h
  obtain ⟨unknownSkill, hunknown, h⟩ := h
  obtain ⟨rfl, -⟩ := getUnknownSkillOr404_ok db u unknownSkill hunknown
  obtain ⟨ontology, hontology, rfl⟩ := (map_eq_ok _ _ _).mp h
  refine ⟨⟨unknownSkill, hunknown, ontology, hontology⟩, withOntology_converts ontology ?_⟩
  simp only [finalizeUnknownSkillResolution]
  rw [(refresh_refreshed _ _).store]
  exact SkillStore.migrateOccurrences_converts.then rfl List.filter_sublist

theorem createCanonical_total {fields : CanonicalFields}
    (h : Accepted lower db (.createCanonical u fields)) :
    ∃ db', createCanonicalSkillFromUnknown lower db u fields = .ok db' := by
  obtain ⟨unknownSkill, hunknown, ontology, hontology⟩ := h
  simp only [createCanonicalSkillFromUnknown, hunknown, hontology, bind, Except.bind]
  exact ⟨_, rfl⟩

theorem resolve_spec {resolutionType : UnknownSkillResolutionType}
    (h : resolveUnknownSkill lower db u canonicalSkillId resolutionType = .ok db') :
    Accepted lower db (.resolve u canonicalSkillId resolutionType) ∧
      SkillStore.Converts db.toSkillStore db'.toSkillStore u canonicalSkillId := by
  simp only [resolveUnknownSkill, bind_eq_ok] at h
  obtain ⟨unknownSkill, hunknown, targetSkill, htarget, h⟩ := h
  obtain ⟨rfl, -⟩ := getUnknownSkillOr404_ok db u unknownSkill hunknown
  obtain ⟨-, rfl⟩ := getSkillOr404_stored htarget
  split_ifs at h with hpending
  obtain ⟨ontology, hontology, h⟩ := (bind_eq_ok _ _ _).mp h
  cases h
  refine ⟨⟨unknownSkill, targetSkill, hunknown, htarget, by simpa using hpending, ontology,
    hontology⟩, withOntology_converts ontology ?_⟩
  rw [(refresh_refreshed _ _).store]
  exact SkillStore.migrateOccurrences_converts.then rfl (List.Sublist.refl _)

theorem resolve_total {resolutionType : UnknownSkillResolutionType}
    (h : Accepted lower db (.resolve u canonicalSkillId resolutionType)) :
    ∃ db', resolveUnknownSkill lower db u canonicalSkillId resolutionType = .ok db' := by
  obtain ⟨unknownSkill, targetSkill, hunknown, htarget, hpending, ontology, hontology⟩ := h
  have hpending' : ¬unknownSkill.status ≠ .pending := not_not.mpr hpending
  simp only [resolveUnknownSkill, hunknown, htarget, hontology, bind, Except.bind,
    if_neg hpending']
  exact ⟨_, rfl⟩

end Calls

section Steps

variable {lower upper} {db db' : JdDatabase} {u canonicalSkillId jdId : Uuid} {event : Event}

theorem outcome_edits (hnone : resolution db event = none)
    (h : outcome lower upper db event = .ok db') :
    db'.toSkillStore = db.toSkillStore ∨
      (∃ old new, SkillStore.Edits db.toSkillStore db'.toSkillStore old new) ∨
      ∃ old, SkillStore.Removes db.toSkillStore db'.toSkillStore old := by
  cases event with
  | campaigns activeCampaigns =>
    cases h
    exact .inl rfl
  | updateJdSkill jdSkillId mandatory importance =>
    exact .inr (.inl (updateJdSkill_edits h))
  | remapJdSkill jdSkillId newCanonicalSkillId => exact .inr (.inl (remapJdSkill_edits h))
  | removeJdSkill jdSkillId => exact .inr (.inr (removeJdSkill_removes h))
  | mapToExisting unknownSkillId targetSkillId saveAsAlias => cases hnone
  | promote unknownSkillId category => cases hnone
  | createCanonical unknownSkillId fields => cases hnone
  | resolve unknownSkillId canonicalSkillId resolutionType => cases hnone

theorem outcome_converts (hsome : resolution db event = some (u, canonicalSkillId))
    (h : outcome lower upper db event = .ok db') :
    Accepted lower db event ∧
      SkillStore.Converts db.toSkillStore db'.toSkillStore u canonicalSkillId := by
  cases event with
  | campaigns activeCampaigns => cases hsome
  | updateJdSkill jdSkillId mandatory importance => cases hsome
  | remapJdSkill jdSkillId newCanonicalSkillId => cases hsome
  | removeJdSkill jdSkillId => cases hsome
  | mapToExisting unknownSkillId targetSkillId saveAsAlias =>
    cases hsome
    exact mapToExisting_spec h
  | promote unknownSkillId category =>
    cases hsome
    exact promote_spec h
  | createCanonical unknownSkillId fields =>
    cases hsome
    exact createCanonical_spec h
  | resolve unknownSkillId canonicalSkillId resolutionType =>
    cases hsome
    exact resolve_spec h

theorem outcome_total (hsome : resolution db event = some (u, canonicalSkillId))
    (h : Accepted lower db event) : ∃ db', outcome lower upper db event = .ok db' := by
  cases event with
  | campaigns activeCampaigns => cases hsome
  | updateJdSkill jdSkillId mandatory importance => cases hsome
  | remapJdSkill jdSkillId newCanonicalSkillId => cases hsome
  | removeJdSkill jdSkillId => cases hsome
  | mapToExisting unknownSkillId targetSkillId saveAsAlias => exact mapToExisting_total h
  | promote unknownSkillId category => exact promote_total h
  | createCanonical unknownSkillId fields => exact createCanonical_total h
  | resolve unknownSkillId canonicalSkillId resolutionType => exact resolve_total h

theorem next_linksUnique (hunique : db.toSkillStore.LinksUnique) :
    (next lower upper db event).toSkillStore.LinksUnique := by
  rw [next]
  cases hout : outcome lower upper db event with
  | error raised => exact hunique
  | ok db' =>
    cases hresolution : resolution db event with
    | none =>
      obtain hsame | ⟨old, new, hedits⟩ | ⟨old, hremoves⟩ := outcome_edits hresolution hout
      · exact hsame ▸ hunique
      · rw [SkillStore.LinksUnique, SkillStore.linkPairs, hedits.links]
        exact hunique
      · rw [SkillStore.LinksUnique, SkillStore.linkPairs, hremoves.links]
        exact hunique
    | some resolved =>
      obtain ⟨-, hconverts⟩ := outcome_converts hresolution hout
      exact hunique.sublist hconverts.links

theorem next_keepsCore (hunique : db.toSkillStore.LinksUnique)
    (hcore : db.toSkillStore.HasCore jdId) :
    (next lower upper db event).toSkillStore.HasCore jdId := by
  rw [next]
  cases hout : outcome lower upper db event with
  | error raised => exact hcore
  | ok db' =>
    cases hresolution : resolution db event with
    | none =>
      obtain hsame | ⟨old, new, hedits⟩ | ⟨old, hremoves⟩ := outcome_edits hresolution hout
      · exact hsame ▸ hcore
      · exact hedits.keepsCore hcore
      · exact hremoves.keepsCore hcore
    | some resolved =>
      obtain ⟨-, hconverts⟩ := outcome_converts hresolution hout
      exact hconverts.keepsCore hunique hcore

theorem next_classified_iff (hunique : db.toSkillStore.LinksUnique)
    (hclassified : db.toSkillStore.Classified jdId) :
    (next lower upper db event).toSkillStore.Classified jdId ↔
      KeepsClassified lower jdId db event := by
  rw [next]
  cases hresolution : resolution db event with
  | none =>
    have hguard : KeepsClassified lower jdId db event := by
      intro _ u c hsome
      rw [hresolution] at hsome
      cases hsome
    refine iff_of_true ?_ hguard
    cases hout : outcome lower upper db event with
    | error raised => exact hclassified
    | ok db' =>
      obtain hsame | ⟨old, new, hedits⟩ | ⟨old, hremoves⟩ := outcome_edits hresolution hout
      · exact hsame ▸ hclassified
      · exact hedits.keepsClassified hclassified
      · exact fun row hrow => hclassified row ((hremoves.mem_jdSkillsOf row).mp hrow).1
  | some resolved =>
    cases hout : outcome lower upper db event with
    | error raised =>
      refine iff_of_true hclassified fun haccepted => ?_
      have htotal := @outcome_total lower upper db resolved.1 resolved.2 event hresolution haccepted
      obtain ⟨db', hdb'⟩ := htotal
      rw [hout] at hdb'
      cases hdb'
    | ok db' =>
      obtain ⟨haccepted, hconverts⟩ := outcome_converts hresolution hout
      refine (hconverts.classified_iff hunique hclassified).trans ⟨fun h _ u c hsome => ?_,
        fun h => h haccepted _ _ hresolution⟩
      rw [hresolution] at hsome
      cases hsome
      exact h

end Steps

-- The foreign key of jd_skills to the JDs, and the unique links.
structure Constrained (db : JdDatabase) : Prop where
  skills : ∀ row ∈ db.jdSkills.rows, row.jdId < db.jobDescriptions.versions.next
  links : db.toSkillStore.LinksUnique

-- The matches of a JD are those of its own extraction.
def FromExtraction (catalog : String → CatalogMatch) (request : PersistRequest) : Prop :=
  request.skillMatches = SkillNormalizationService.normalizeSkills catalog
    request.extraction.requiredSkillSpecs request.extraction.preferredSkillSpecs

theorem fromExtraction_flags {catalog : String → CatalogMatch} {request : PersistRequest}
    (h : FromExtraction catalog request) :
    ∀ m ∈ request.skillMatches, m.importance.isSome = m.mandatory := by
  rw [h]
  refine SkillNormalizationService.normalizeSkills_flags catalog _ _ fun item hitem => ?_
  obtain hcore | hsupporting := List.mem_append.mp hitem
  · obtain ⟨name, -, rfl⟩ := List.mem_map.mp hcore
    rfl
  · obtain ⟨name, -, rfl⟩ := List.mem_map.mp hsupporting
    rfl

theorem persistProcessedJd_store {start db : JdDatabase} {request : PersistRequest} {jdId : Uuid}
    (h : JDService.persistProcessedJd start request = .ok (db, jdId)) :
    jdId = start.jobDescriptions.versions.next ∧
      db.toSkillStore = JDService.persistSkills start.toSkillStore jdId request.skillMatches := by
  rw [JDService.persistProcessedJd] at h
  obtain ⟨-, -, hwrites⟩ := (bind_eq_ok _ _ _).mp h
  obtain ⟨columns, jobDescriptions, hinsert, hdb⟩ := JDService.persistWrites_eq_ok _ _ _ hwrites
  obtain ⟨-, -, hid⟩ := JobDescriptionTable.insert_eq_ok _ _ _ _ hinsert
  have hkept : (JDService.deactivateExisting start request).toSkillStore = start.toSkillStore ∧
      (JDService.deactivateExisting start request).jobDescriptions.versions.next =
        start.jobDescriptions.versions.next := by
    rw [JDService.deactivateExisting]
    split <;> exact ⟨rfl, rfl⟩
  refine ⟨hid.trans hkept.2, ?_⟩
  have hstore := congrArg JdDatabase.toSkillStore hdb
  rw [← hkept.1]
  exact hstore

-- From the JD's creation on, its rows stay classified exactly as long as no mandatory
-- link becomes a row; a core row, once there is one, stays in any case.
theorem stays_classified_iff (lower upper : String → String) (catalog : String → CatalogMatch)
    (request : PersistRequest) (start db : JdDatabase) (jdId : Uuid) (hstart : Constrained start)
    (hrequest : FromExtraction catalog request)
    (hpersist : JDService.persistProcessedJd start request = .ok (db, jdId))
    (path : List (Event × JdDatabase)) (hp : Path (Step lower upper) db path) :
    ((∀ db' ∈ visited db path, db'.toSkillStore.Classified jdId) ∧
      (visited db path).Pairwise fun earlier later =>
        earlier.toSkillStore.HasCore jdId → later.toSkillStore.HasCore jdId) ↔
      EveryStep (fun db event _ => KeepsClassified lower jdId db event) db path := by
  obtain ⟨hid, hstore⟩ := persistProcessedJd_store hpersist
  have hnew : ∀ row ∈ start.jdSkills.rows, row.jdId ≠ jdId := by
    intro row hrow
    rw [hid]
    exact (hstart.skills row hrow).ne
  have hclassified : db.toSkillStore.Classified jdId := by
    rw [hstore]
    exact SkillStore.persistSkills_classified hnew _ (fromExtraction_flags hrequest)
  have hunique : db.toSkillStore.LinksUnique := by
    rw [hstore]
    exact SkillStore.persistSkills_linksUnique hstart.links _
  have hkeep (db : JdDatabase) (event : Event) (db' : JdDatabase)
      (h : db.toSkillStore.LinksUnique) (hstep : Step lower upper db event db') :
      db'.toSkillStore.LinksUnique := by
    rw [hstep]
    exact next_linksUnique h
  have hcore : (visited db path).Pairwise fun earlier later =>
      earlier.toSkillStore.HasCore jdId → later.toSkillStore.HasCore jdId := by
    rw [pairwise_visited_iff fun _ _ _ h h' hfirst => h' (h hfirst)]
    refine hp.everyStep hunique hkeep fun db event db' h hstep hfirst => ?_
    rw [hstep]
    exact next_keepsCore h hfirst
  rw [and_iff_left hcore]
  refine hp.visited_iff_everyStep hunique hkeep hclassified fun db event db' h hgood hstep => ?_
  rw [hstep]
  exact next_classified_iff h hgood

def noneKnown (rawText : String) : CatalogMatch := ⟨none, .unknown, none, rawText⟩

def goJd : PersistRequest :=
  let extraction : JDExtractionResponse :=
    { JDExtractionResponse.empty with requiredSkills := ⟨["Go"], []⟩ }
  { JdLineage.content "jd" with
    extraction := extraction
    skillMatches := SkillNormalizationService.normalizeSkills noneKnown
      extraction.requiredSkillSpecs extraction.preferredSkillSpecs }

def created : JdDatabase :=
  match JDService.persistProcessedJd SkillRun.noSkills goJd with
  | .ok (db, _) => db
  | .error _ => SkillRun.noSkills

theorem created_eq : JDService.persistProcessedJd SkillRun.noSkills goJd = .ok (created, 0) := rfl

theorem constrained_noSkills : Constrained SkillRun.noSkills := by
  refine ⟨fun row hrow => ?_, List.nodup_nil⟩
  cases hrow

def run (events : List Event) : List (Event × JdDatabase) :=
  execute (fun db event => some (next id id db event)) created events

theorem run_path (events : List Event) : Path (Step id id) created (run events) :=
  execute_path _ (fun _ _ _ h => (Option.some.inj h).symm) _ events

theorem stays_classified_go :
    ((∀ db' ∈ visited created (run [.removeJdSkill 0]), db'.toSkillStore.Classified 0) ∧
      (visited created (run [.removeJdSkill 0])).Pairwise fun earlier later =>
        earlier.toSkillStore.HasCore 0 → later.toSkillStore.HasCore 0) ↔
      EveryStep (fun db event _ => KeepsClassified id 0 db event) created
        (run [.removeJdSkill 0]) :=
  stays_classified_iff id id noneKnown goJd SkillRun.noSkills created 0 constrained_noSkills rfl
    created_eq _ (run_path [.removeJdSkill 0])

-- The core skill of the JD is promoted: its row is mandatory and has no importance.
theorem promoted_without_importance :
    ¬∀ (lower upper : String → String) (catalog : String → CatalogMatch)
      (request : PersistRequest) (start db : JdDatabase) (jdId : Uuid)
      (path : List (Event × JdDatabase)), Constrained start → FromExtraction catalog request →
      JDService.persistProcessedJd start request = .ok (db, jdId) →
      Path (Step lower upper) db path →
      (∀ db' ∈ visited db path, db'.toSkillStore.Classified jdId) ∧
        (visited db path).Pairwise fun earlier later =>
          earlier.toSkillStore.HasCore jdId → later.toSkillStore.HasCore jdId := by
  intro h
  obtain ⟨hclassified, -⟩ := h id id noneKnown goJd SkillRun.noSkills created 0
    (run [.promote 0 none]) constrained_noSkills rfl created_eq (run_path _)
  have hrow : ∃ row ∈ (final created (run [.promote 0 none])).toSkillStore.jdSkillsOf 0,
      row.mandatory = true ∧ row.importance = none := by decide +kernel
  obtain ⟨row, hrow, hmandatory, himportance⟩ := hrow
  have hrowClassified := hclassified _ (final_mem_visited _ _) row hrow
  obtain hcore | hsupporting := hrowClassified.mandatory hmandatory
  · rw [himportance] at hcore
    cases hcore
  · rw [himportance] at hsupporting
    cases hsupporting

end JdSkillRun

end AiHiring
