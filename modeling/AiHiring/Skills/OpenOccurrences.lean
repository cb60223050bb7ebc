import AiHiring.Skills.Curation

namespace AiHiring

open Library SkillRepository SkillCurationService

namespace SkillStore

variable (s : SkillStore)

def PendingLink (link : JDUnknownSkill) : Prop :=
  link ∈ s.jdUnknownSkills.rows ∧ link.status = .pending

def Unmatched (c : CandidateSkill) : Prop :=
  c ∈ s.candidateSkills.rows ∧ c.canonicalSkillId = none

variable (unknownSkillId : Uuid) (unknownSkill : UnknownSkill) (canonicalSkillId : Uuid)
  (links : List JDUnknownSkill)

-- Something still waits for the unknown skill to be resolved.
def Open : Prop :=
  (∃ link, s.PendingLink link ∧ link.unknownSkillId = unknownSkillId) ∨
    ∃ c, s.Unmatched c ∧ c.unknownSkillId = some unknownSkillId

def statusOf : Option UnknownSkillStatus :=
  (s.unknownSkills.find? unknownSkillId).map (·.status)

variable {s} {s' s'' : SkillStore} {u : Uuid}

-- The pending links to an unknown skill are gone, every other one is there.
def LinksClosed (s s' : SkillStore) (u : Uuid) : Prop :=
  ∀ link, s'.PendingLink link ↔ s.PendingLink link ∧ link.unknownSkillId ≠ u

def CandidatesClosed (s s' : SkillStore) (u : Uuid) : Prop :=
  ∀ c, s'.Unmatched c ↔ s.Unmatched c ∧ c.unknownSkillId ≠ some u

-- Links are only made for JDs that had some before.
def LinksFrom (s s' : SkillStore) : Prop :=
  ∀ link ∈ s'.jdUnknownSkills.rows, ∃ old ∈ s.jdUnknownSkills.rows, old.jdId = link.jdId

theorem LinksFrom.trans (h : LinksFrom s s') (h' : LinksFrom s' s'') : LinksFrom s s'' := by
  intro link hlink
  obtain ⟨mid, hmid, heq⟩ := h' link hlink
  obtain ⟨old, hold, heq'⟩ := h mid hmid
  exact ⟨old, hold, heq'.trans heq⟩

theorem LinksClosed.again (h : LinksClosed s s' u) (h' : LinksClosed s' s'' u) :
    LinksClosed s s'' u := by
  intro link
  rw [h' link, h link]
  tauto

theorem CandidatesClosed.again (h : CandidatesClosed s s' u) (h' : CandidatesClosed s' s'' u) :
    CandidatesClosed s s'' u := by
  intro c
  rw [h' c, h c]
  tauto

-- An unknown skill is resolved for good: nothing waits for it any more.
structure Closes (s s' : SkillStore) (u : Uuid) : Prop where
  links : LinksClosed s s' u
  candidates : CandidatesClosed s s' u
  others : ∀ v, v ≠ u → s'.statusOf v = s.statusOf v
  origin : LinksFrom s s'

-- The JD side of an unknown skill is resolved and its status is final.
structure Settles (s s' : SkillStore) (u : Uuid) (status : UnknownSkillStatus) : Prop where
  links : LinksClosed s s' u
  candidates : s'.candidateSkills = s.candidateSkills
  others : ∀ v, v ≠ u → s'.statusOf v = s.statusOf v
  settled : s'.statusOf u = some status
  origin : LinksFrom s s'

theorem Closes.open_iff (h : Closes s s' u) (v : Uuid) : s'.Open v ↔ s.Open v ∧ v ≠ u := by
  constructor
  · rintro (⟨link, hlink, rfl⟩ | ⟨c, hc, hv⟩)
    · obtain ⟨hold, hne⟩ := (h.links link).mp hlink
      exact ⟨.inl ⟨link, hold, rfl⟩, hne⟩
    · obtain ⟨hold, hne⟩ := (h.candidates c).mp hc
      exact ⟨.inr ⟨c, hold, hv⟩, fun he => hne (he ▸ hv)⟩
  · rintro ⟨⟨link, hlink, rfl⟩ | ⟨c, hc, hv⟩, hne⟩
    · exact .inl ⟨link, (h.links link).mpr ⟨hlink, hne⟩, rfl⟩
    · refine .inr ⟨c, (h.candidates c).mpr ⟨hc, fun he => hne ?_⟩, hv⟩
      exact Option.some.inj (hv.symm.trans he)

theorem Settles.open_iff {status : UnknownSkillStatus} (h : Settles s s' u status) (v : Uuid) :
    s'.Open v ↔ (s.Open v ∧ v ≠ u) ∨ (v = u ∧ ∃ c, s.Unmatched c ∧ c.unknownSkillId = some u) := by
  have hunmatched (c : CandidateSkill) : s'.Unmatched c ↔ s.Unmatched c := by
    rw [Unmatched, Unmatched, h.candidates]
  constructor
  · rintro (⟨link, hlink, rfl⟩ | ⟨c, hc, hv⟩)
    · obtain ⟨hold, hne⟩ := (h.links link).mp hlink
      exact .inl ⟨.inl ⟨link, hold, rfl⟩, hne⟩
    · have hold := (hunmatched c).mp hc
      by_cases hne : v = u
      · exact .inr ⟨hne, c, hold, hne ▸ hv⟩
      · exact .inl ⟨.inr ⟨c, hold, hv⟩, hne⟩
  · rintro (⟨⟨link, hlink, rfl⟩ | ⟨c, hc, hv⟩, hne⟩ | ⟨rfl, c, hc, hv⟩)
    · exact .inl ⟨link, (h.links link).mpr ⟨hlink, hne⟩, rfl⟩
    · exact .inr ⟨c, (hunmatched c).mpr hc, hv⟩
    · exact .inr ⟨c, (hunmatched c).mpr hc, hv⟩

theorem statusOf_update (status : UnknownSkillStatus)
    (hfound : s.unknownSkills.find? unknownSkill.id = some unknownSkill) (v : Uuid) :
    (updateUnknownSkillStatus s unknownSkill status).statusOf v =
      if v = unknownSkill.id then some status else s.statusOf v := by
  let row : UnknownSkill := { unknownSkill with status := status }
  by_cases hv : v = row.id
  · have hself := s.unknownSkills.find?_replace_self row unknownSkill hfound
    rw [if_pos hv, hv]
    change ((s.unknownSkills.replace row).find? row.id).map (·.status) = _
    rw [hself]
    rfl
  · rw [if_neg hv]
    change ((s.unknownSkills.replace row).find? v).map (·.status) = _
    rw [s.unknownSkills.find?_replace_ne row v hv]
    rfl

theorem find?_delete_ne (t : Table UnknownSkill UnknownSkill.id) (u v : Uuid) (hne : v ≠ u) :
    (t.delete fun row => row.id = u).find? v = t.find? v := by
  ext row
  rw [Table.find?_eq_some, Table.find?_eq_some, Table.rows_delete, List.mem_filter]
  constructor
  · rintro ⟨⟨hrow, -⟩, hid⟩
    exact ⟨hrow, hid⟩
  · rintro ⟨hrow, hid⟩
    have hkeep : row.id ≠ u := fun he => hne (hid.symm.trans he)
    exact ⟨⟨hrow, by simp [hkeep]⟩, hid⟩

theorem retroactive_frame :
    (links.foldl (retroactiveJdSkill canonicalSkillId) s).unknownSkills = s.unknownSkills ∧
      (links.foldl (retroactiveJdSkill canonicalSkillId) s).candidateSkills = s.candidateSkills ∧
      (links.foldl (retroactiveJdSkill canonicalSkillId) s).jdUnknownSkills =
        links.foldl (fun t link => t.replace { link with status := .resolved })
          s.jdUnknownSkills := by
  induction links generalizing s with
  | nil => exact ⟨rfl, rfl, rfl⟩
  | cons link rest ih =>
    obtain ⟨hunknown, hcandidates, hlinks⟩ := @ih (retroactiveJdSkill canonicalSkillId s link)
    have hfirst : (retroactiveJdSkill canonicalSkillId s link).unknownSkills = s.unknownSkills ∧
        (retroactiveJdSkill canonicalSkillId s link).candidateSkills = s.candidateSkills ∧
        (retroactiveJdSkill canonicalSkillId s link).jdUnknownSkills =
          s.jdUnknownSkills.replace { link with status := .resolved } := by
      rw [retroactiveJdSkill]
      split <;> exact ⟨rfl, rfl, rfl⟩
    refine ⟨hunknown.trans hfirst.1, hcandidates.trans hfirst.2.1, ?_⟩
    rw [List.foldl_cons, List.foldl_cons, hlinks, hfirst.2.2]

theorem retroactive_rows :
    (createRetroactiveJdSkills s unknownSkillId canonicalSkillId).jdUnknownSkills.rows =
      s.jdUnknownSkills.rows.map fun link =>
        if link.unknownSkillId = unknownSkillId ∧ link.status = .pending then
          { link with status := .resolved }
        else link := by
  have hframe := (@retroactive_frame s canonicalSkillId (getPendingJdLinks s unknownSkillId)).2.2
  have hfold := s.jdUnknownSkills.foldl_replace (fun _ => true)
    (fun link => { link with status := .resolved }) (fun _ => rfl)
    (getPendingJdLinks s unknownSkillId)
    (s.jdUnknownSkills.nodup.sublist (List.filter_sublist.map _))
    (fun link hlink => (List.mem_filter.mp hlink).1)
  simp only [if_true] at hfold
  rw [createRetroactiveJdSkills, hframe, hfold, Table.rows_modify]
  apply List.map_congr_left
  intro link hlink
  have hiff : link.id ∈ (getPendingJdLinks s unknownSkillId).map JDUnknownSkill.id ↔
      link.unknownSkillId = unknownSkillId ∧ link.status = .pending := by
    rw [List.mem_map]
    constructor
    · rintro ⟨other, hother, hid⟩
      obtain ⟨hmem, hpending⟩ := List.mem_filter.mp hother
      rw [← s.jdUnknownSkills.eq_of_key_eq hmem hlink hid]
      exact of_decide_eq_true hpending
    · intro hpending
      exact ⟨link, List.mem_filter.mpr ⟨hlink, decide_eq_true hpending⟩, rfl⟩
  by_cases hpending : link.unknownSkillId = unknownSkillId ∧ link.status = .pending
  · rw [if_pos ⟨hiff.mpr hpending, trivial⟩, if_pos hpending]
  · rw [if_neg fun h => hpending (hiff.mp h.1), if_neg hpending]

theorem retroactive_closes :
    LinksClosed s (createRetroactiveJdSkills s unknownSkillId canonicalSkillId)
      unknownSkillId := by
  intro link
  rw [PendingLink, PendingLink, retroactive_rows, List.mem_map]
  constructor
  · rintro ⟨⟨old, hold, rfl⟩, hpending⟩
    split_ifs at hpending ⊢ with hclosed
    · exact ⟨⟨hold, hpending⟩, fun he => hclosed ⟨he, hpending⟩⟩
  · rintro ⟨⟨hlink, hpending⟩, hne⟩
    exact ⟨⟨link, hlink, if_neg fun h => hne h.1⟩, hpending⟩

theorem retroactive_origin :
    LinksFrom s (createRetroactiveJdSkills s unknownSkillId canonicalSkillId) := by
  intro link hlink
  rw [retroactive_rows] at hlink
  obtain ⟨old, hold, rfl⟩ := List.mem_map.mp hlink
  refine ⟨old, hold, ?_⟩
  split_ifs <;> rfl

theorem deleteLinks_frame :
    (links.foldl deleteJdUnknownSkill s).unknownSkills = s.unknownSkills ∧
      (links.foldl deleteJdUnknownSkill s).candidateSkills = s.candidateSkills ∧
      (links.foldl deleteJdUnknownSkill s).jdUnknownSkills =
        links.foldl (fun t link => t.delete fun row => row.id = link.id) s.jdUnknownSkills := by
  induction links generalizing s with
  | nil => exact ⟨rfl, rfl, rfl⟩
  | cons link rest ih => exact @ih (deleteJdUnknownSkill s link)

theorem mem_deleteLinks (link : JDUnknownSkill) :
    link ∈ (links.foldl deleteJdUnknownSkill s).jdUnknownSkills.rows ↔
      link ∈ s.jdUnknownSkills.rows ∧ link.id ∉ links.map (·.id) := by
  rw [(deleteLinks_frame links).2.2, Table.foldl_delete, List.mem_filter, decide_eq_true_iff]

theorem migrate_frame (batch : List CandidateSkill) :
    (batch.foldl (migrateCandidateSkill canonicalSkillId) s).unknownSkills = s.unknownSkills ∧
      (batch.foldl (migrateCandidateSkill canonicalSkillId) s).jdUnknownSkills =
        s.jdUnknownSkills := by
  induction batch generalizing s with
  | nil => exact ⟨rfl, rfl⟩
  | cons c rest ih =>
    obtain ⟨hunknown, hlinks⟩ := @ih (migrateCandidateSkill canonicalSkillId s c)
    have hfirst : (migrateCandidateSkill canonicalSkillId s c).unknownSkills = s.unknownSkills ∧
        (migrateCandidateSkill canonicalSkillId s c).jdUnknownSkills = s.jdUnknownSkills := by
      rw [migrateCandidateSkill]
      split <;> exact ⟨rfl, rfl⟩
    exact ⟨hunknown.trans hfirst.1, hlinks.trans hfirst.2⟩

-- A migrated row is matched, so migrating only takes unmatched rows away.
theorem migrate_unmatched (batch : List CandidateSkill) (c : CandidateSkill) :
    (batch.foldl (migrateCandidateSkill canonicalSkillId) s).Unmatched c ↔
      s.Unmatched c ∧ c.id ∉ batch.map (·.id) := by
  induction batch generalizing s with
  | nil => simp
  | cons first rest ih =>
    have hfirst : (migrateCandidateSkill canonicalSkillId s first).Unmatched c ↔
        s.Unmatched c ∧ c.id ≠ first.id := by
      simp only [migrateCandidateSkill, Unmatched, deleteCandidateSkill, Table.rows_delete,
        List.mem_filter, Bool.not_eq_true', decide_eq_false_iff_not]
      split
      · tauto
      · have hrows : (createCandidateSkill s (manualCandidateSkill first canonicalSkillId)
            fun _ => rfl).candidateSkills.rows = s.candidateSkills.rows ++
              [manualCandidateSkill first canonicalSkillId s.candidateSkills.next] := rfl
        rw [hrows, List.mem_append, List.mem_singleton]
        constructor
        · rintro ⟨⟨hold | rfl, hid⟩, hnone⟩
          · exact ⟨⟨hold, hnone⟩, hid⟩
          · simp [manualCandidateSkill] at hnone
        · rintro ⟨⟨hold, hnone⟩, hid⟩
          exact ⟨⟨.inl hold, hid⟩, hnone⟩
    rw [List.foldl_cons, ih, hfirst, List.map_cons, List.mem_cons, not_or, and_assoc]

theorem migrate_links :
    LinksClosed s (migrateOccurrences s unknownSkillId canonicalSkillId) unknownSkillId ∧
      LinksFrom s (migrateOccurrences s unknownSkillId canonicalSkillId) := by
  have hclosed := @retroactive_closes s unknownSkillId canonicalSkillId
  have horigin := @retroactive_origin s unknownSkillId canonicalSkillId
  constructor
  · intro link
    rw [PendingLink, migrateOccurrences, (migrate_frame _ _).2, mem_deleteLinks]
    constructor
    · rintro ⟨⟨hlink, -⟩, hpending⟩
      exact (hclosed link).mp ⟨hlink, hpending⟩
    · rintro ⟨hlink, hne⟩
      obtain ⟨hmem, hpending⟩ := (hclosed link).mpr ⟨hlink, hne⟩
      refine ⟨⟨hmem, ?_⟩, hpending⟩
      rintro hin
      obtain ⟨other, hother, hid⟩ := List.mem_map.mp hin
      obtain ⟨hrow, hselected⟩ := List.mem_filter.mp hother
      rw [s.jdUnknownSkills.eq_of_key_eq hrow hlink.1 hid] at hselected
      exact hne (of_decide_eq_true hselected).1
  · intro link hlink
    rw [migrateOccurrences, (migrate_frame _ _).2, mem_deleteLinks] at hlink
    exact horigin link hlink.1

theorem migrate_candidates :
    CandidatesClosed s (migrateOccurrences s unknownSkillId canonicalSkillId)
      unknownSkillId := by
  intro c
  have hsame : ((getPendingJdLinks s unknownSkillId).foldl deleteJdUnknownSkill
      (createRetroactiveJdSkills s unknownSkillId canonicalSkillId)).candidateSkills =
        s.candidateSkills := by
    rw [(deleteLinks_frame _).2.1]
    exact (retroactive_frame _ _).2.1
  rw [migrateOccurrences, migrate_unmatched, Unmatched, hsame, getCandidateSkillsByUnknownSkillId,
    hsame]
  constructor
  · rintro ⟨hc, hnot⟩
    refine ⟨hc, fun hu => hnot (List.mem_map.mpr ⟨c, ?_, rfl⟩)⟩
    exact List.mem_filter.mpr ⟨hc.1, decide_eq_true hu⟩
  · rintro ⟨hc, hne⟩
    refine ⟨hc, fun hin => ?_⟩
    obtain ⟨other, hother, hid⟩ := List.mem_map.mp hin
    obtain ⟨hrow, hselected⟩ := List.mem_filter.mp hother
    rw [s.candidateSkills.eq_of_key_eq hrow hc.1 hid] at hselected
    exact hne (of_decide_eq_true hselected)

theorem migrate_unknownSkills :
    (migrateOccurrences s unknownSkillId canonicalSkillId).unknownSkills = s.unknownSkills := by
  rw [migrateOccurrences, (migrate_frame _ _).1, (deleteLinks_frame _).1]
  exact (retroactive_frame _ _).1

theorem settle_settles (status : UnknownSkillStatus)
    (hfound : s.unknownSkills.find? unknownSkill.id = some unknownSkill) :
    Settles s (updateUnknownSkillStatus
      (createRetroactiveJdSkills s unknownSkill.id canonicalSkillId) unknownSkill status)
      unknownSkill.id status := by
  obtain ⟨hunknown, hcandidates, -⟩ :=
    @retroactive_frame s canonicalSkillId (getPendingJdLinks s unknownSkill.id)
  have hfound' : (createRetroactiveJdSkills s unknownSkill.id canonicalSkillId).unknownSkills.find?
      unknownSkill.id = some unknownSkill := by
    rw [createRetroactiveJdSkills, hunknown, hfound]
  have hstatus := statusOf_update unknownSkill status hfound'
  constructor
  · exact retroactive_closes unknownSkill.id canonicalSkillId
  · exact hcandidates
  · intro v hv
    rw [hstatus, if_neg hv, statusOf, createRetroactiveJdSkills, hunknown]
    rfl
  · rw [hstatus, if_pos rfl]
  · exact retroactive_origin unknownSkill.id canonicalSkillId

-- Migrated and mapped: the row stays, with nothing that waits for it.
theorem resolve_closes (status : UnknownSkillStatus)
    (hfound : s.unknownSkills.find? unknownSkill.id = some unknownSkill) :
    Closes s (updateUnknownSkillStatus (migrateOccurrences s unknownSkill.id canonicalSkillId)
      unknownSkill status) unknownSkill.id := by
  obtain ⟨hlinks, horigin⟩ := @migrate_links s unknownSkill.id canonicalSkillId
  have hunknown := @migrate_unknownSkills s unknownSkill.id canonicalSkillId
  constructor
  · exact hlinks
  · exact migrate_candidates unknownSkill.id canonicalSkillId
  · intro v hv
    rw [statusOf_update unknownSkill status (by rw [hunknown, hfound]), if_neg hv, statusOf,
      hunknown]
    rfl
  · exact horigin

theorem cascade_closes :
    Closes s (deleteUnknownSkillCascade s unknownSkill) unknownSkill.id := by
  constructor
  · intro link
    simp only [PendingLink, deleteUnknownSkillCascade, Table.rows_delete, List.mem_filter,
      Bool.not_eq_true', decide_eq_false_iff_not]
    tauto
  · intro c
    simp only [Unmatched, deleteUnknownSkillCascade, Table.rows_delete, List.mem_filter,
      Bool.not_eq_true', decide_eq_false_iff_not]
    tauto
  · intro v hv
    exact congrArg (Option.map (·.status)) (find?_delete_ne s.unknownSkills _ v hv)
  · intro link hlink
    exact ⟨link, (List.mem_filter.mp hlink).1, rfl⟩

theorem finalize_closes :
    Closes s (deleteUnknownSkillCascade (migrateOccurrences s unknownSkill.id canonicalSkillId)
      unknownSkill) unknownSkill.id := by
  obtain ⟨hlinks, horigin⟩ := @migrate_links s unknownSkill.id canonicalSkillId
  have hunknown := @migrate_unknownSkills s unknownSkill.id canonicalSkillId
  have hcascade := @cascade_closes (migrateOccurrences s unknownSkill.id canonicalSkillId)
    unknownSkill
  constructor
  · exact hlinks.again hcascade.links
  · exact (migrate_candidates unknownSkill.id canonicalSkillId).again hcascade.candidates
  · intro v hv
    rw [hcascade.others v hv, statusOf, hunknown]
    rfl
  · exact horigin.trans hcascade.origin

end SkillStore

end AiHiring
