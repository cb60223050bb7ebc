import AiHiring.Jd.Lineage
import AiHiring.Skills.Operations

namespace AiHiring

open Library SkillRepository SkillStore SkillCurationService

namespace SkillRun

-- What is_verified should be: whether the JD has a pending unknown skill.
def flag (db : JdDatabase) (jdId : Uuid) : JDVerificationStatus :=
  if countPendingJdUnknownSkills db.toSkillStore jdId = 0 then .verified else .partiallyVerified

def FlagsOk (db : JdDatabase) : Prop :=
  ∀ jd ∈ db.jobDescriptions.rows, jd.isActiveVersion = true → jd.isVerified = flag db jd.id

-- A map or a promotion leaves another pending link on every active JD that has
-- one; a metadata-only update copies a JD that has none.
def KeepsFlags (db : JdDatabase) : Event → Prop
  | .mapToExisting u _ _ | .promote u _ =>
    ∀ jd ∈ db.jobDescriptions.rows, jd.isActiveVersion = true → HasPending db jd.id →
      ∃ link, db.toSkillStore.PendingLink link ∧ link.jdId = jd.id ∧ link.unknownSkillId ≠ u
  | .updateMetadata jdId _ _ => countPendingJdUnknownSkills db.toSkillStore jdId = 0
  | _ => True

variable {db db' : JdDatabase}

theorem flag_pending {jdId : Uuid} (h : HasPending db jdId) : flag db jdId = .partiallyVerified :=
  if_neg fun hzero => (countPending_eq_zero db jdId).mp hzero h

theorem flag_clear {jdId : Uuid} (h : ¬HasPending db jdId) : flag db jdId = .verified :=
  if_pos ((countPending_eq_zero db jdId).mpr h)

theorem flag_congr {jdId : Uuid} (h : HasPending db' jdId ↔ HasPending db jdId) :
    flag db' jdId = flag db jdId := by
  by_cases hp : HasPending db jdId
  · rw [flag_pending hp, flag_pending (h.mpr hp)]
  · rw [flag_clear hp, flag_clear fun hp' => hp (h.mp hp')]

theorem known_of_links (hk : LinksKnown db)
    (hlinks : ∀ link ∈ db'.jdUnknownSkills.rows, ∃ old ∈ db.jdUnknownSkills.rows,
      old.jdId = link.jdId)
    (hnext : db.jobDescriptions.versions.next ≤ db'.jobDescriptions.versions.next) :
    LinksKnown db' := by
  intro link hlink
  obtain ⟨old, hold, hid⟩ := hlinks link hlink
  have hlt := hk old hold
  rw [hid] at hlt
  exact lt_of_lt_of_le hlt hnext

theorem resolves_known {u : Uuid} (hk : LinksKnown db) (h : Resolves db db' u) :
    LinksKnown db' := by
  obtain ⟨s, jdIds, hcloses, -, hrefreshed⟩ := h
  refine known_of_links hk ?_ (Nat.le_of_eq hrefreshed.next.symm)
  rw [hrefreshed.store]
  exact hcloses.origin

theorem settles_known {u : Uuid} {status : UnknownSkillStatus} (hk : LinksKnown db)
    (hjds : db'.jobDescriptions = db.jobDescriptions)
    (h : Settles db.toSkillStore db'.toSkillStore u status) : LinksKnown db' :=
  known_of_links hk h.origin (by rw [hjds])

theorem persistJd_known (hk : LinksKnown db) (request : PersistRequest)
    (h : (JDService.persistProcessedJd db request).toOption.map Prod.fst = some db') :
    LinksKnown db' := by
  obtain ⟨row, hw, -, hstore⟩ := persistProcessedJd_writes request h
  have hfresh : ∀ link ∈ db.jdUnknownSkills.rows, link.jdId ≠ row.id := by
    intro link hlink
    rw [hw.id]
    exact Nat.ne_of_lt (hk link hlink)
  obtain ⟨hlinked, -⟩ := persistSkills_links row.id request.skillMatches hfresh
  intro link hlink
  rw [hstore] at hlink
  rw [hw.next]
  by_cases hid : link.jdId = row.id
  · rw [hid, hw.id]
    exact Nat.lt_succ_self _
  · exact Nat.lt_succ_of_lt (hk link ((hlinked.others link hid).mp hlink))

theorem resolves_flags {u : Uuid} (hf : FlagsOk db) (h : Resolves db db' u) : FlagsOk db' := by
  obtain ⟨s, jdIds, hcloses, hcovered, hrefreshed⟩ := h
  intro jd' hjd' hactive'
  obtain ⟨jd, hjd, hid, hactive, hkeep, hout, hin⟩ := hrefreshed.rows jd' hjd'
  have hold := hf jd hjd (hactive ▸ hactive')
  have hstore : HasPending db' jd.id ↔ HasPending { db with toSkillStore := s } jd.id := by
    rw [HasPending, HasPending, hrefreshed.store]
  rw [hid]
  by_cases hpending : HasPending { db with toSkillStore := s } jd.id
  · obtain ⟨link, hlink, hjdId⟩ := hpending
    have hbefore : HasPending db jd.id := ⟨link, ((hcloses.links link).mp hlink).1, hjdId⟩
    rw [flag_pending (hstore.mpr ⟨link, hlink, hjdId⟩), hkeep ⟨link, hlink, hjdId⟩, hold,
      flag_pending hbefore]
  · rw [flag_clear fun hp => hpending (hstore.mp hp)]
    by_cases hmem : jd.id ∈ jdIds
    · exact hin hmem hpending
    · have hbefore : ¬HasPending db jd.id := by
        rintro ⟨link, hlink, hjdId⟩
        have hne : link.unknownSkillId ≠ u := by
          intro hu
          exact hmem (hjdId ▸ hcovered link hlink hu)
        exact hpending ⟨link, (hcloses.links link).mpr ⟨hlink, hne⟩, hjdId⟩
      rw [hout hmem, hold, flag_clear hbefore]

-- A map or a promotion keeps every flag, so it must keep what the flags say.
theorem settles_flags {u : Uuid} {status : UnknownSkillStatus} (hf : FlagsOk db)
    (hjds : db'.jobDescriptions = db.jobDescriptions)
    (h : Settles db.toSkillStore db'.toSkillStore u status) :
    FlagsOk db' ↔ ∀ jd ∈ db.jobDescriptions.rows, jd.isActiveVersion = true → HasPending db jd.id →
        ∃ link, db.toSkillStore.PendingLink link ∧ link.jdId = jd.id ∧ link.unknownSkillId ≠ u := by
  have hafter (jdId : Uuid) : HasPending db' jdId ↔
      ∃ link, db.toSkillStore.PendingLink link ∧ link.jdId = jdId ∧ link.unknownSkillId ≠ u := by
    constructor
    · rintro ⟨link, hlink, hjdId⟩
      obtain ⟨hold, hne⟩ := (h.links link).mp hlink
      exact ⟨link, hold, hjdId, hne⟩
    · rintro ⟨link, hlink, hjdId, hne⟩
      exact ⟨link, (h.links link).mpr ⟨hlink, hne⟩, hjdId⟩
  constructor
  · intro hf' jd hjd hactive hpending
    rw [← hafter]
    by_contra hnone
    have hnow := hf' jd (by rwa [hjds]) hactive
    rw [hf jd hjd hactive, flag_pending hpending, flag_clear hnone] at hnow
    simp at hnow
  · intro hguard jd hjd hactive
    rw [hjds] at hjd
    rw [hf jd hjd hactive]
    apply (flag_congr _).symm
    constructor
    · rintro ⟨link, hlink, hjdId⟩
      exact ⟨link, ((h.links link).mp hlink).1, hjdId⟩
    · intro hpending
      exact (hafter jd.id).mpr (hguard jd hjd hactive hpending)

theorem persistJd_flags (hk : LinksKnown db) (hf : FlagsOk db) (request : PersistRequest)
    (h : (JDService.persistProcessedJd db request).toOption.map Prod.fst = some db') :
    FlagsOk db' := by
  obtain ⟨row, hw, hverified, hstore⟩ := persistProcessedJd_writes request h
  have hfresh : ∀ link ∈ db.jdUnknownSkills.rows, link.jdId ≠ row.id := by
    intro link hlink
    rw [hw.id]
    exact Nat.ne_of_lt (hk link hlink)
  obtain ⟨hlinked, hunmatched⟩ := persistSkills_links row.id request.skillMatches hfresh
  have hpending (jdId : Uuid) : HasPending db' jdId ↔
      ∃ link, (JDService.persistSkills db.toSkillStore row.id
        request.skillMatches).PendingLink link ∧ link.jdId = jdId := by
    rw [HasPending, hstore]
  intro jd' hjd' hactive'
  rcases hw.old jd' hjd' with rfl | ⟨jd, hjd, hid, hsame, hactive⟩
  · have hiff := (hpending jd'.id).trans hunmatched
    rw [hverified, JDService.verification]
    by_cases hsome : ∃ m ∈ request.skillMatches, m.canonicalSkillId = none
    · rw [flag_pending (hiff.mpr hsome), if_neg]
      intro hall
      obtain ⟨m, hm, hnone⟩ := hsome
      have hmatched := List.all_eq_true.mp hall m hm
      rw [hnone] at hmatched
      simp at hmatched
    · rw [flag_clear fun hp => hsome (hiff.mp hp), if_pos]
      rw [List.all_eq_true]
      intro m hm
      rw [Option.isSome_iff_ne_none]
      exact fun hnone => hsome ⟨m, hm, hnone⟩
  · rw [hsame, hid, hf jd hjd (hactive hactive')]
    apply (flag_congr _).symm
    have hne : jd.id ≠ row.id := by
      rw [hw.id]
      exact Nat.ne_of_lt (db.jobDescriptions.versions.below jd hjd)
    rw [hpending]
    constructor
    · rintro ⟨link, ⟨hlink, hp⟩, hjdId⟩
      exact ⟨link, ⟨(hlinked.others link (hjdId ▸ hne)).mp hlink, hp⟩, hjdId⟩
    · rintro ⟨link, ⟨hlink, hp⟩, hjdId⟩
      exact ⟨link, ⟨hlinked.kept link hlink, hp⟩, hjdId⟩

theorem updateMetadata_flags (generateHash : String → String) (jdId : Uuid)
    (request : UpdateJDRequest) (updatedBy : String) (hk : LinksKnown db) (hf : FlagsOk db)
    (h : updateMetadata generateHash db jdId request updatedBy = some db') :
    FlagsOk db' ↔ countPendingJdUnknownSkills db.toSkillStore jdId = 0 := by
  obtain ⟨existing, row, hmem, hexisting, hactive, hw, hverified, hstore⟩ :=
    updateMetadata_writes generateHash jdId request updatedBy h
  have hpending (jdId : Uuid) : HasPending db' jdId ↔ HasPending db jdId := by
    rw [HasPending, HasPending, hstore]
  have hnew : ¬HasPending db row.id := by
    rintro ⟨link, ⟨hlink, -⟩, hjdId⟩
    have hlt := hk link hlink
    rw [hjdId, hw.id] at hlt
    exact Nat.lt_irrefl _ hlt
  have hrow : row.isVerified = flag db' row.id ↔ ¬HasPending db jdId := by
    rw [hverified, hf existing hmem hactive, hexisting,
      flag_clear fun hp => hnew ((hpending row.id).mp hp)]
    by_cases hp : HasPending db jdId
    · simp [flag_pending hp, hp]
    · simp [flag_clear hp, hp]
  rw [countPending_eq_zero, ← hrow]
  constructor
  · intro hf'
    exact hf' row hw.has hw.active
  · intro hnow jd' hjd' hactive'
    rcases hw.old jd' hjd' with rfl | ⟨jd, hjd, hid, hsame, hold⟩
    · exact hnow
    · rw [hsame, hid, hf jd hjd (hold hactive')]
      exact (flag_congr (hpending jd.id)).symm

section Runs

variable (lower generateHash : String → String)

theorem bulk_known (call : JdDatabase → Uuid → Except SkillError JdDatabase)
    (caught : SkillError → Option String) (done : String)
    (hcall : ∀ db id db', call db id = .ok db' → Resolves db db' id) (ids : List Uuid)
    (hk : LinksKnown db) : LinksKnown (bulk call caught done db ids).1 :=
  bulk_keeps call caught done LinksKnown
    (fun db id db' hk h => resolves_known hk (hcall db id db' h)) db ids hk

theorem known_step (event : Event) (hk : LinksKnown db)
    (h : Step lower generateHash db event db') : LinksKnown db' := by
  rw [Step, next?.eq_def] at h
  cases event with
  | persistJd request => exact persistJd_known hk request h
  | persistResume request =>
    obtain ⟨hlinks, hjds⟩ := persistResume_frame request db db' ((toOption_eq_some _ _).mp h)
    refine known_of_links hk ?_ (by rw [hjds])
    intro link hlink
    rw [hlinks] at hlink
    exact ⟨link, hlink, rfl⟩
  | updateMetadata jdId request updatedBy =>
    obtain ⟨existing, row, -, -, -, hw, -, hstore⟩ :=
      updateMetadata_writes generateHash jdId request updatedBy h
    refine known_of_links hk ?_ (by rw [hw.next]; exact Nat.le_succ _)
    intro link hlink
    rw [hstore] at hlink
    exact ⟨link, hlink, rfl⟩
  | mapToExisting u targetSkillId saveAsAlias =>
    obtain ⟨hjds, hsettles⟩ := mapToExistingSkill_ok lower db db' u targetSkillId saveAsAlias
      ((toOption_eq_some _ _).mp h)
    exact settles_known hk hjds hsettles
  | promote u category =>
    obtain ⟨hjds, hsettles⟩ := promoteToCanonical_ok lower db db' u category
      ((toOption_eq_some _ _).mp h)
    exact settles_known hk hjds hsettles
  | createCanonical u fields =>
    exact resolves_known hk (createCanonicalSkillFromUnknown_ok lower db db' u fields
      ((toOption_eq_some _ _).mp h))
  | bulkApprove ids =>
    cases h
    exact bulk_known _ _ _ (fun db id db' =>
      createCanonicalSkillFromUnknown_ok lower db db' id bulkFields) ids hk
  | resolve u canonicalSkillId resolutionType =>
    exact resolves_known hk (resolveUnknownSkill_ok lower db db' u canonicalSkillId
      resolutionType ((toOption_eq_some _ _).mp h))
  | dismiss u =>
    obtain ⟨unknownSkill, -, -, rfl⟩ := dismiss_ok db db' u ((toOption_eq_some _ _).mp h)
    exact hk
  | delete u => exact resolves_known hk (deleteUnknownSkill_ok db db' u ((toOption_eq_some _ _).mp h))
  | bulkDelete ids =>
    cases h
    exact bulk_known _ _ _ (fun db id db' => deleteUnknownSkill_ok db db' id) ids hk

theorem bulk_flags (call : JdDatabase → Uuid → Except SkillError JdDatabase)
    (caught : SkillError → Option String) (done : String)
    (hcall : ∀ db id db', call db id = .ok db' → Resolves db db' id) (ids : List Uuid)
    (hf : FlagsOk db) : FlagsOk (bulk call caught done db ids).1 :=
  bulk_keeps call caught done FlagsOk
    (fun db id db' hf h => resolves_flags hf (hcall db id db' h)) db ids hf

theorem flags_step (event : Event) (hk : LinksKnown db) (hf : FlagsOk db)
    (h : Step lower generateHash db event db') : FlagsOk db' ↔ KeepsFlags db event := by
  rw [Step, next?.eq_def] at h
  cases event with
  | persistJd request => exact iff_of_true (persistJd_flags hk hf request h) trivial
  | persistResume request =>
    obtain ⟨hlinks, hjds⟩ := persistResume_frame request db db' ((toOption_eq_some _ _).mp h)
    refine iff_of_true ?_ trivial
    intro jd hjd hactive
    rw [hjds] at hjd
    rw [hf jd hjd hactive]
    apply (flag_congr _).symm
    rw [HasPending, HasPending]
    simp only [PendingLink, hlinks]
  | updateMetadata jdId request updatedBy =>
    exact updateMetadata_flags generateHash jdId request updatedBy hk hf h
  | mapToExisting u targetSkillId saveAsAlias =>
    obtain ⟨hjds, hsettles⟩ := mapToExistingSkill_ok lower db db' u targetSkillId saveAsAlias
      ((toOption_eq_some _ _).mp h)
    exact settles_flags hf hjds hsettles
  | promote u category =>
    obtain ⟨hjds, hsettles⟩ := promoteToCanonical_ok lower db db' u category
      ((toOption_eq_some _ _).mp h)
    exact settles_flags hf hjds hsettles
  | createCanonical u fields =>
    exact iff_of_true (resolves_flags hf (createCanonicalSkillFromUnknown_ok lower db db' u
      fields ((toOption_eq_some _ _).mp h))) trivial
  | bulkApprove ids =>
    cases h
    exact iff_of_true (bulk_flags _ _ _ (fun db id db' =>
      createCanonicalSkillFromUnknown_ok lower db db' id bulkFields) ids hf) trivial
  | resolve u canonicalSkillId resolutionType =>
    exact iff_of_true (resolves_flags hf (resolveUnknownSkill_ok lower db db' u
      canonicalSkillId resolutionType ((toOption_eq_some _ _).mp h))) trivial
  | dismiss u =>
    obtain ⟨unknownSkill, -, -, rfl⟩ := dismiss_ok db db' u ((toOption_eq_some _ _).mp h)
    exact iff_of_true hf trivial
  | delete u =>
    exact iff_of_true (resolves_flags hf (deleteUnknownSkill_ok db db' u
      ((toOption_eq_some _ _).mp h))) trivial
  | bulkDelete ids =>
    cases h
    exact iff_of_true (bulk_flags _ _ _ (fun db id db' => deleteUnknownSkill_ok db db' id) ids
      hf) trivial

-- The flags say what the links say in every state of a run exactly when no map
-- or promotion takes the last pending link of an active JD and no metadata-only
-- update copies a JD that has one.
theorem verification_status_iff (ontology : SkillOntologyTable)
    (promptTemplates : Table PromptTemplate PromptTemplate.id) (activeCampaigns : Uuid → Bool)
    (path : List (Event × JdDatabase))
    (hp : Path (Step lower generateHash) (begin ontology promptTemplates activeCampaigns) path) :
    (∀ db ∈ visited (begin ontology promptTemplates activeCampaigns) path, FlagsOk db) ↔
      EveryStep (fun db event _ => KeepsFlags db event)
        (begin ontology promptTemplates activeCampaigns) path := by
  have hk0 : LinksKnown (begin ontology promptTemplates activeCampaigns) := by
    intro link hlink
    simp [begin, Table.empty] at hlink
  have hf0 : FlagsOk (begin ontology promptTemplates activeCampaigns) := by
    intro jd hjd
    exact absurd hjd (by simp [begin, JobDescriptionTable.rows, JobDescriptionTable.empty,
      Table.empty])
  apply hp.visited_iff_everyStep hk0 _ hf0
  · intro db event db' hk hf h
    exact flags_step lower generateHash event hk hf h
  · intro db event db' hk h
    exact known_step lower generateHash event hk h

end Runs

def noSkills : JdDatabase :=
  begin SkillOntologyTable.empty JdLineage.emptyDb.promptTemplates fun _ => false

def unmatched (rawText : String) : SkillMatchResult where
  rawText := rawText
  mandatory := true
  canonicalSkillId := none
  matchTier := .unknown
  confidence := none
  normalizedText := rawText

def unmatchedJd (contentHash rawText : String) : PersistRequest :=
  { JdLineage.content contentHash with skillMatches := [unmatched rawText] }

def skillRun (events : List Event) : List (Event × JdDatabase) :=
  execute (next? id id) noSkills events

theorem skillRun_path (events : List Event) : Path (Step id id) noSkills (skillRun events) :=
  execute_path (next? id id) (fun _ _ _ h => h) noSkills events

def approval : List Event := [.persistJd (unmatchedJd "jd" "Go"), .bulkApprove [0]]

def promotion : List Event := [.persistJd (unmatchedJd "jd" "Go"), .promote 0 none]

theorem verification_status_approved : FlagsOk (final noSkills (skillRun approval)) := by
  have hall := (verification_status_iff id id SkillOntologyTable.empty _ _ (skillRun approval)
    (skillRun_path approval)).mpr ⟨trivial, trivial, trivial⟩
  exact hall _ (final_mem_visited _ _)

-- The only pending link is resolved, and the JD stays PARTIALLY_VERIFIED.
theorem promotion_leaves_flag :
    ¬∀ (lower generateHash : String → String) (ontology : SkillOntologyTable)
      (promptTemplates : Table PromptTemplate PromptTemplate.id) (activeCampaigns : Uuid → Bool)
      (path : List (Event × JdDatabase)),
      Path (Step lower generateHash) (begin ontology promptTemplates activeCampaigns) path →
      ∀ db ∈ visited (begin ontology promptTemplates activeCampaigns) path, FlagsOk db := by
  intro h
  have hok := h id id SkillOntologyTable.empty _ _ (skillRun promotion) (skillRun_path promotion)
    _ (final_mem_visited _ _)
  have hflags : (final noSkills (skillRun promotion)).jobDescriptions.rows.map
      (fun jd => (jd.isActiveVersion, jd.isVerified,
        flag (final noSkills (skillRun promotion)) jd.id)) =
      [(true, .partiallyVerified, .verified)] := by decide
  have hin : (true, JDVerificationStatus.partiallyVerified, JDVerificationStatus.verified) ∈
      (final noSkills (skillRun promotion)).jobDescriptions.rows.map
        (fun jd => (jd.isActiveVersion, jd.isVerified,
          flag (final noSkills (skillRun promotion)) jd.id)) := by
    rw [hflags]
    simp
  obtain ⟨jd, hjd, htriple⟩ := List.mem_map.mp hin
  obtain ⟨hactive, hpair⟩ := Prod.mk.inj htriple
  obtain ⟨hverified, hflag⟩ := Prod.mk.inj hpair
  have heq := hok jd hjd hactive
  rw [hverified] at heq
  exact absurd (heq.trans hflag) (by simp)

end SkillRun

end AiHiring
