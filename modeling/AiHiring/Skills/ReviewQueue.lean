import AiHiring.Jd.Verification

namespace AiHiring

open Library SkillRepository SkillStore SkillCurationService

namespace SkillRun

-- The review queue shows the unknown skill, and a resolution of it is accepted.
def Resolvable (db : JdDatabase) (unknownSkillId : Uuid) : Prop :=
  ∃ u ∈ getPendingUnknownSkills db.toSkillStore, u.id = unknownSkillId ∧ u.status = .pending

def NoneStranded (db : JdDatabase) : Prop :=
  (∀ link ∈ db.jdUnknownSkills.rows, link.status = .pending → Resolvable db link.unknownSkillId) ∧
    ∀ c ∈ db.candidateSkills.rows, c.canonicalSkillId = none →
      ∀ unknownSkillId, c.unknownSkillId = some unknownSkillId → Resolvable db unknownSkillId

-- The texts that a document leaves unmatched have no unknown skill yet, or one
-- that is pending.
def AttachesToPending (db : JdDatabase) (skillMatches : List SkillMatchResult) : Prop :=
  ∀ m ∈ skillMatches, m.canonicalSkillId = none →
    ∀ u, db.unknownSkills.rows.find? (fun u => u.rawText = m.rawText) = some u → u.status = .pending

def Waiting (db : JdDatabase) (unknownSkillId : Uuid) : Prop :=
  ∃ c ∈ db.candidateSkills.rows, c.canonicalSkillId = none ∧ c.unknownSkillId = some unknownSkillId

-- A map or a promotion meets no candidate row of the unknown skill; a dismissal
-- meets neither links nor candidate rows of it.
def Strandless (db : JdDatabase) : Event → Prop
  | .persistJd request => AttachesToPending db request.skillMatches
  | .persistResume request => AttachesToPending db request.skillMatches
  | .mapToExisting u _ _ | .promote u _ => ¬Waiting db u
  | .dismiss u => ¬db.toSkillStore.Open u
  | _ => True

variable {db db' : JdDatabase}

theorem resolvable_iff (unknownSkillId : Uuid) :
    Resolvable db unknownSkillId ↔ db.toSkillStore.statusOf unknownSkillId = some .pending := by
  rw [Resolvable, getPendingUnknownSkills, statusOf, Option.map_eq_some_iff]
  constructor
  · rintro ⟨u, hu, hid, hstatus⟩
    rw [List.mem_mergeSort, List.mem_filter] at hu
    exact ⟨u, (db.unknownSkills.find?_eq_some _ _).mpr ⟨hu.1, hid⟩, hstatus⟩
  · rintro ⟨u, hu, hstatus⟩
    obtain ⟨hmem, hid⟩ := (db.unknownSkills.find?_eq_some _ _).mp hu
    refine ⟨u, ?_, hid, hstatus⟩
    rw [List.mem_mergeSort, List.mem_filter]
    exact ⟨hmem, by simp [hstatus]⟩

theorem noneStranded_iff : NoneStranded db ↔ db.toSkillStore.Attended := by
  constructor
  · rintro ⟨hlinks, hcandidates⟩ v (⟨link, ⟨hlink, hpending⟩, rfl⟩ | ⟨c, ⟨hc, hnone⟩, hv⟩)
    · exact (resolvable_iff _).mp (hlinks link hlink hpending)
    · exact (resolvable_iff _).mp (hcandidates c hc hnone v hv)
  · intro ha
    constructor
    · intro link hlink hpending
      exact (resolvable_iff _).mpr (ha _ (.inl ⟨link, ⟨hlink, hpending⟩, rfl⟩))
    · intro c hc hnone v hv
      exact (resolvable_iff _).mpr (ha v (.inr ⟨c, ⟨hc, hnone⟩, hv⟩))

theorem attachesToPending_iff (skillMatches : List SkillMatchResult) :
    AttachesToPending db skillMatches ↔
      ∀ t ∈ unmatchedTexts skillMatches, db.toSkillStore.seen t = .pending := by
  have hseen (t : String) : db.toSkillStore.seen t = .pending ↔
      ∀ u, db.unknownSkills.rows.find? (fun u => u.rawText = t) = some u → u.status = .pending := by
    rw [seen, textStatus, byText]
    cases db.unknownSkills.rows.find? fun u => decide (u.rawText = t) with
    | none => simp
    | some u => simp
  constructor
  · intro h t ht
    obtain ⟨m, hm, rfl⟩ := List.mem_map.mp ht
    obtain ⟨hm, hnone⟩ := List.mem_filter.mp hm
    exact (hseen m.rawText).mpr (h m hm (of_decide_eq_true hnone))
  · intro h m hm hnone
    apply (hseen m.rawText).mp
    apply h
    exact List.mem_map.mpr ⟨m, List.mem_filter.mpr ⟨hm, decide_eq_true hnone⟩, rfl⟩

section Steps

theorem resolves_attended {u : Uuid} (ha : db.toSkillStore.Attended) (h : Resolves db db' u) :
    db'.toSkillStore.Attended := by
  obtain ⟨s, jdIds, hcloses, -, hrefreshed⟩ := h
  rw [hrefreshed.store]
  intro v hv
  obtain ⟨hold, hne⟩ := (hcloses.open_iff v).mp hv
  exact (hcloses.others v hne).trans (ha v hold)

theorem settles_attended {u : Uuid} {status : UnknownSkillStatus} (hfinal : status ≠ .pending)
    (ha : db.toSkillStore.Attended)
    (h : Settles db.toSkillStore db'.toSkillStore u status) :
    db'.toSkillStore.Attended ↔ ¬Waiting db u := by
  constructor
  · rintro ha' ⟨c, hc, hnone, hu⟩
    have hopen := (h.open_iff u).mpr (.inr ⟨rfl, c, ⟨hc, hnone⟩, hu⟩)
    have hpending := ha' u hopen
    rw [h.settled] at hpending
    exact hfinal (Option.some.inj hpending)
  · intro hnone v hv
    rcases (h.open_iff v).mp hv with ⟨hold, hne⟩ | ⟨rfl, c, ⟨hc, hcanonical⟩, hu⟩
    · exact (h.others v hne).trans (ha v hold)
    · exact absurd ⟨c, hc, hcanonical, hu⟩ hnone

theorem dismiss_attended {u : Uuid} (ha : db.toSkillStore.Attended)
    (h : SkillCurationService.dismiss db u = .ok db') :
    db'.toSkillStore.Attended ↔ ¬db.toSkillStore.Open u := by
  obtain ⟨unknownSkill, rfl, hfound, rfl⟩ := dismiss_ok db db' u h
  have hstatus := statusOf_update unknownSkill .dismissed hfound
  constructor
  · intro ha' hopen
    have hpending := ha' unknownSkill.id hopen
    rw [hstatus, if_pos rfl] at hpending
    simp at hpending
  · intro hnone v hv
    have hne : v ≠ unknownSkill.id := by
      intro he
      exact hnone (he ▸ hv)
    rw [hstatus, if_neg hne]
    exact ha v hv

theorem persistJd_attended (hk : LinksKnown db) (ha : db.toSkillStore.Attended)
    (request : PersistRequest)
    (h : (JDService.persistProcessedJd db request).toOption.map Prod.fst = some db') :
    db'.toSkillStore.Attended ↔ AttachesToPending db request.skillMatches := by
  obtain ⟨row, hw, -, hstore⟩ := persistProcessedJd_writes request h
  have hfresh : ∀ link ∈ db.jdUnknownSkills.rows, link.jdId ≠ row.id := by
    intro link hlink
    rw [hw.id]
    exact Nat.ne_of_lt (hk link hlink)
  rw [hstore, persistSkills_attended row.id request.skillMatches hfresh ha, attachesToPending_iff]

theorem bulk_attended (call : JdDatabase → Uuid → Except SkillError JdDatabase)
    (caught : SkillError → Option String) (done : String)
    (hcall : ∀ db id db', call db id = .ok db' → Resolves db db' id) (ids : List Uuid)
    (ha : db.toSkillStore.Attended) : (bulk call caught done db ids).1.toSkillStore.Attended :=
  bulk_keeps call caught done (fun db => db.toSkillStore.Attended)
    (fun db id db' ha h => resolves_attended ha (hcall db id db' h)) db ids ha

variable (lower generateHash : String → String)

theorem attended_step (event : Event) (hk : LinksKnown db) (ha : db.toSkillStore.Attended)
    (h : Step lower generateHash db event db') :
    db'.toSkillStore.Attended ↔ Strandless db event := by
  rw [Step, next?.eq_def] at h
  cases event with
  | persistJd request => exact persistJd_attended hk ha request h
  | persistResume request =>
    have hok := (toOption_eq_some _ _).mp h
    exact (persistResume_attended request db db' ha hok).trans
      (attachesToPending_iff request.skillMatches).symm
  | updateMetadata jdId request updatedBy =>
    obtain ⟨existing, row, -, -, -, -, -, hstore⟩ :=
      updateMetadata_writes generateHash jdId request updatedBy h
    rw [hstore]
    exact iff_of_true ha trivial
  | mapToExisting u targetSkillId saveAsAlias =>
    obtain ⟨-, hsettles⟩ := mapToExistingSkill_ok lower db db' u targetSkillId saveAsAlias
      ((toOption_eq_some _ _).mp h)
    exact settles_attended (by simp) ha hsettles
  | promote u category =>
    obtain ⟨-, hsettles⟩ := promoteToCanonical_ok lower db db' u category
      ((toOption_eq_some _ _).mp h)
    exact settles_attended (by simp) ha hsettles
  | createCanonical u fields =>
    exact iff_of_true (resolves_attended ha (createCanonicalSkillFromUnknown_ok lower db db' u
      fields ((toOption_eq_some _ _).mp h))) trivial
  | bulkApprove ids =>
    cases h
    exact iff_of_true (bulk_attended _ _ _ (fun db id db' =>
      createCanonicalSkillFromUnknown_ok lower db db' id bulkFields) ids ha) trivial
  | resolve u canonicalSkillId resolutionType =>
    exact iff_of_true (resolves_attended ha (resolveUnknownSkill_ok lower db db' u
      canonicalSkillId resolutionType ((toOption_eq_some _ _).mp h))) trivial
  | dismiss u => exact dismiss_attended ha ((toOption_eq_some _ _).mp h)
  | delete u =>
    exact iff_of_true (resolves_attended ha (deleteUnknownSkill_ok db db' u
      ((toOption_eq_some _ _).mp h))) trivial
  | bulkDelete ids =>
    cases h
    exact iff_of_true (bulk_attended _ _ _ (fun db id db' => deleteUnknownSkill_ok db db' id)
      ids ha) trivial

-- No occurrence is stranded in a run exactly when no document attaches to an
-- unknown skill that is already resolved and no map, promotion or dismissal
-- leaves occurrences behind.
theorem none_stranded_iff (ontology : SkillOntologyTable)
    (promptTemplates : Table PromptTemplate PromptTemplate.id) (activeCampaigns : Uuid → Bool)
    (path : List (Event × JdDatabase))
    (hp : Path (Step lower generateHash) (begin ontology promptTemplates activeCampaigns) path) :
    (∀ db ∈ visited (begin ontology promptTemplates activeCampaigns) path, NoneStranded db) ↔
      EveryStep (fun db event _ => Strandless db event)
        (begin ontology promptTemplates activeCampaigns) path := by
  have hk0 : LinksKnown (begin ontology promptTemplates activeCampaigns) := by
    intro link hlink
    simp [begin, Table.empty] at hlink
  have ha0 : NoneStranded (begin ontology promptTemplates activeCampaigns) := by
    constructor <;> simp [begin, Table.empty]
  apply hp.visited_iff_everyStep hk0 _ ha0
  · intro db event db' hk ha h
    rw [noneStranded_iff] at ha ⊢
    exact attended_step lower generateHash event hk ha h
  · intro db event db' hk h
    exact known_step lower generateHash event hk h

end Steps

def unmatchedResume (resumeId : Uuid) (rawText : String) : ResumeRequest :=
  ⟨0, resumeId, [unmatched rawText]⟩

def approvedForBoth : List Event :=
  [.persistJd (unmatchedJd "jd" "Go"), .persistResume (unmatchedResume 0 "Go"), .bulkApprove [0]]

def promotedForJd : List Event :=
  [.persistJd (unmatchedJd "jd" "Go"), .persistResume (unmatchedResume 0 "Go"), .promote 0 none]

theorem none_stranded_approved : NoneStranded (final noSkills (skillRun approvedForBoth)) := by
  have hall := (none_stranded_iff id id SkillOntologyTable.empty _ _ (skillRun approvedForBoth)
    (skillRun_path approvedForBoth)).mpr (by
      refine ⟨?_, ?_, trivial, trivial⟩
      · intro m hm _ u hu
        simp [begin, Table.empty] at hu
      · intro m hm _ u hu
        obtain rfl := List.mem_singleton.mp hm
        cases hu
        rfl)
  exact hall _ (final_mem_visited _ _)

theorem promotion_strands_resume :
    ¬∀ (lower generateHash : String → String) (ontology : SkillOntologyTable)
      (promptTemplates : Table PromptTemplate PromptTemplate.id) (activeCampaigns : Uuid → Bool)
      (path : List (Event × JdDatabase)),
      (∀ entry ∈ path, ∀ u, entry.1 ≠ .dismiss u) →
      Path (Step lower generateHash) (begin ontology promptTemplates activeCampaigns) path →
      ∀ db ∈ visited (begin ontology promptTemplates activeCampaigns) path, NoneStranded db := by
  intro h
  have hnone := h id id SkillOntologyTable.empty _ _ (skillRun promotedForJd) (by
    intro entry hentry u
    have hevents : (skillRun promotedForJd).map Prod.fst = promotedForJd := rfl
    have hin : entry.1 ∈ promotedForJd := hevents ▸ List.mem_map_of_mem hentry
    simp only [promotedForJd, List.mem_cons, List.not_mem_nil, or_false] at hin
    rcases hin with he | he | he <;> simp [he]) (skillRun_path promotedForJd)
    _ (final_mem_visited _ _)
  have hrows : (final noSkills (skillRun promotedForJd)).candidateSkills.rows.map
      (fun c => (c.canonicalSkillId, c.unknownSkillId)) = [(none, some 0)] := by decide
  have hin : (none, some 0) ∈ (final noSkills (skillRun promotedForJd)).candidateSkills.rows.map
      (fun c => (c.canonicalSkillId, c.unknownSkillId)) := by
    rw [hrows]
    simp
  obtain ⟨c, hc, hpair⟩ := List.mem_map.mp hin
  obtain ⟨hcanonical, hunknown⟩ := Prod.mk.inj hpair
  have hpending := (resolvable_iff 0).mp (hnone.2 c hc hcanonical 0 hunknown)
  exact absurd hpending (by decide)

end SkillRun

end AiHiring
