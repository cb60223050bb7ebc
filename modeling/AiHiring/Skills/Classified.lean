import AiHiring.Jd.StoredMatches
import AiHiring.Skills.JdSkills
import AiHiring.Skills.Names
import AiHiring.Skills.Normalization

namespace AiHiring

open Library SkillRepository

namespace SkillCurationService

open SkillStore

section Edits

variable {upper : String → String} {db db' : JdDatabase} {jdSkillId : Uuid}

theorem getEditableJdSkill_stored {jdSkill : JDSkill}
    (h : getEditableJdSkill db jdSkillId = .ok jdSkill) : jdSkill ∈ db.jdSkills.rows := by
  rw [getEditableJdSkill] at h
  cases hfound : getJdSkillById db.toSkillStore jdSkillId with
  | none =>
    rw [hfound] at h
    cases h
  | some row =>
    simp only [hfound, raise_eq_ok] at h
    obtain rfl := Except.ok.inj h.2
    exact ((db.jdSkills.find?_eq_some _ _).mp hfound).1

theorem ensureCoreLeft_ok {jdSkill : JDSkill} (h : ensureCoreLeft db true jdSkill = .ok ()) :
    1 < countCoreJdSkills db.toSkillStore jdSkill.jdId := by
  rw [ensureCoreLeft, if_pos rfl, ensureNotLastCoreSkill, raise_eq_ok] at h
  omega

theorem classification_ok {mandatory : Bool} {importance : Option String}
    {newImportance : Option JDSkillImportance}
    (h : classification upper mandatory importance = .ok newImportance) :
    newImportance.isSome = mandatory := by
  unfold classification at h
  cases mandatory with
  | false =>
    cases h
    rfl
  | true =>
    cases importance with
    | none => cases h
    | some given =>
      obtain ⟨importance, -, rfl⟩ := (map_eq_ok _ _ _).mp h
      rfl

theorem updateJdSkill_edits {mandatory : Bool} {importance : Option String}
    (h : updateJdSkill upper db jdSkillId mandatory importance = .ok db') :
    ∃ old new, Edits db.toSkillStore db'.toSkillStore old new := by
  simp only [updateJdSkill, bind_eq_ok] at h
  obtain ⟨jdSkill, hfound, newImportance, hclassified, ⟨⟩, hlast, h⟩ := h
  cases h
  let updated : JDSkill := { jdSkill with
    mandatory := mandatory
    importance := newImportance
    matchTier := .manualHr
    verificationStatus := .autoVerified }
  refine ⟨jdSkill, updated, getEditableJdSkill_stored hfound, rfl, rfl, rfl, rfl, fun _ => ?_,
    fun hcore => ?_⟩
  · exact JDSkill.classified_of_isSome (classification_ok hclassified)
  · by_cases hkeeps : newImportance = some .core
    · exact .inl hkeeps
    · rw [decide_eq_true ⟨hcore, hkeeps⟩] at hlast
      exact .inr (ensureCoreLeft_ok hlast)

theorem remapJdSkill_edits {newCanonicalSkillId : Uuid}
    (h : remapJdSkill db jdSkillId newCanonicalSkillId = .ok db') :
    ∃ old new, Edits db.toSkillStore db'.toSkillStore old new := by
  simp only [remapJdSkill, bind_eq_ok] at h
  obtain ⟨jdSkill, hfound, newSkill, -, h⟩ := h
  obtain ⟨s, hs, rfl⟩ := (map_eq_ok _ _ _).mp h
  rw [SkillRepository.remapJdSkill, raise_eq_ok] at hs
  obtain rfl := Except.ok.inj hs.2
  let remapped : JDSkill := { jdSkill with
    canonicalSkillId := newSkill.id
    matchTier := .manualHr
    confidence := some 1
    verificationStatus := .autoVerified }
  exact ⟨jdSkill, remapped, getEditableJdSkill_stored hfound, rfl, rfl, rfl, rfl,
    fun hold => ⟨hold.mandatory, hold.preferred⟩, fun hcore => .inl hcore⟩

theorem removeJdSkill_removes (h : removeJdSkill db jdSkillId = .ok db') :
    ∃ old, Removes db.toSkillStore db'.toSkillStore old := by
  simp only [removeJdSkill, bind_eq_ok] at h
  obtain ⟨jdSkill, hfound, ⟨⟩, hlast, h⟩ := h
  cases h
  refine ⟨jdSkill, getEditableJdSkill_stored hfound, rfl, rfl, fun hcore => ?_⟩
  rw [decide_eq_true hcore] at hlast
  exact ensureCoreLeft_ok hlast

end Edits

end SkillCurationService

namespace SkillStore

open SkillCurationService

section Retroactive

variable {s : SkillStore} {jdId canonicalSkillId : Uuid}

theorem manualJdSkill_classified (link : JDUnknownSkill) (id : Uuid) :
    (manualJdSkill link canonicalSkillId id).Classified ↔ link.mandatory ≠ some true := by
  constructor
  · intro h hmandatory
    have hflag : (manualJdSkill link canonicalSkillId id).mandatory = true := by
      rw [manualJdSkill, hmandatory]
      rfl
    obtain hcore | hsupporting := h.mandatory hflag
    · cases hcore
    · cases hsupporting
  · intro hmandatory
    refine ⟨fun hflag => absurd ?_ hmandatory, fun _ => rfl⟩
    change link.mandatory.getD false = true at hflag
    cases hlink : link.mandatory with
    | none =>
      rw [hlink] at hflag
      cases hflag
    | some flag =>
      rw [hlink] at hflag
      exact congrArg some hflag

theorem getJdSkill_eq_find? : getJdSkill s jdId canonicalSkillId =
      (s.jdSkillsOf jdId).find? fun row => row.canonicalSkillId = canonicalSkillId := by
  rw [getJdSkill, jdSkillsOf, List.find?_filter]
  simp

-- One link: a row for its JD, if that has none yet; none for another JD.
theorem retroactiveJdSkill_jdSkillsOf (link : JDUnknownSkill) :
    (retroactiveJdSkill canonicalSkillId s link).jdSkillsOf jdId = s.jdSkillsOf jdId ++
      if link.jdId = jdId ∧ getJdSkill s jdId canonicalSkillId = none then
        [manualJdSkill link canonicalSkillId s.jdSkills.next]
      else [] := by
  have hrows : (createJdSkill s (manualJdSkill link canonicalSkillId) fun _ => rfl).jdSkills.rows =
      s.jdSkills.rows ++ [manualJdSkill link canonicalSkillId s.jdSkills.next] := rfl
  have hnew : (manualJdSkill link canonicalSkillId s.jdSkills.next).jdId = link.jdId := rfl
  rw [retroactiveJdSkill]
  by_cases hjd : link.jdId = jdId
  · subst hjd
    cases hfound : getJdSkill s link.jdId canonicalSkillId with
    | some row => simp [jdSkillsOf, markJdUnknownSkillResolved]
    | none => simp [jdSkillsOf, markJdUnknownSkillResolved, hrows, hnew]
  · cases hfound : getJdSkill s link.jdId canonicalSkillId with
    | some row => simp [jdSkillsOf, markJdUnknownSkillResolved, hjd]
    | none => simp [jdSkillsOf, markJdUnknownSkillResolved, hrows, hnew, hjd]

theorem foldl_retroactiveJdSkill_other (links : List JDUnknownSkill)
    (hother : ∀ link ∈ links, link.jdId ≠ jdId) :
    (links.foldl (retroactiveJdSkill canonicalSkillId) s).jdSkillsOf jdId = s.jdSkillsOf jdId := by
  induction links generalizing s with
  | nil => rfl
  | cons link rest ih =>
    obtain ⟨hne, hrest⟩ := List.forall_mem_cons.mp hother
    rw [List.foldl_cons, ih hrest, retroactiveJdSkill_jdSkillsOf, if_neg fun h => hne h.1,
      List.append_nil]

-- The rows that the links add to a JD are classified unless one of a mandatory link
-- is among them.
theorem foldl_retroactiveJdSkill (links : List JDUnknownSkill)
    (hnodup : (links.map JDUnknownSkill.jdId).Nodup) :
    ∃ added, (links.foldl (retroactiveJdSkill canonicalSkillId) s).jdSkillsOf jdId =
        s.jdSkillsOf jdId ++ added ∧
      ((∀ row ∈ added, row.Classified) ↔ ∀ link ∈ links, link.jdId = jdId →
        link.mandatory = some true → (getJdSkill s jdId canonicalSkillId).isSome = true) := by
  induction links generalizing s with
  | nil => exact ⟨[], by simp, by simp⟩
  | cons link rest ih =>
    rw [List.map_cons, List.nodup_cons] at hnodup
    obtain ⟨hnew, hrest⟩ := hnodup
    have hfirst := @retroactiveJdSkill_jdSkillsOf s jdId canonicalSkillId link
    by_cases hjd : link.jdId = jdId
    · -- the other links are those of other JDs
      have hother : ∀ other ∈ rest, other.jdId ≠ jdId := by
        intro other hmem heq
        exact hnew (List.mem_map.mpr ⟨other, hmem, heq.trans hjd.symm⟩)
      have hlater : ∀ other ∈ rest, other.jdId = jdId → other.mandatory = some true →
          (getJdSkill s jdId canonicalSkillId).isSome = true :=
        fun other hmem heq => absurd heq (hother other hmem)
      rw [List.foldl_cons, foldl_retroactiveJdSkill_other rest hother, hfirst]
      refine ⟨_, rfl, ?_⟩
      rw [List.forall_mem_cons, and_iff_left hlater]
      cases hfound : getJdSkill s jdId canonicalSkillId with
      | some row =>
        rw [if_neg fun h => by cases h.2]
        simp
      | none =>
        rw [if_pos ⟨hjd, rfl⟩, List.forall_mem_singleton, manualJdSkill_classified]
        simp [hjd]
    · rw [if_neg fun h => hjd h.1, List.append_nil] at hfirst
      have hsame : getJdSkill (retroactiveJdSkill canonicalSkillId s link) jdId
          canonicalSkillId = getJdSkill s jdId canonicalSkillId := by
        rw [getJdSkill_eq_find?, getJdSkill_eq_find?, hfirst]
      obtain ⟨added, hadded, hiff⟩ := @ih (retroactiveJdSkill canonicalSkillId s link) hrest
      rw [hfirst] at hadded
      rw [hsame] at hiff
      refine ⟨added, hadded, hiff.trans ?_⟩
      rw [List.forall_mem_cons]
      exact ⟨fun h => ⟨fun heq => absurd heq hjd, h⟩, fun h => h.2⟩

end Retroactive

section Links

variable {s s' : SkillStore} {jdId u canonicalSkillId : Uuid}

-- The unique (jd_id, unknown_skill_id) of jd_unknown_skills.
def linkPairs (s : SkillStore) : List (Uuid × Uuid) :=
  s.jdUnknownSkills.rows.map fun link => (link.jdId, link.unknownSkillId)

def LinksUnique (s : SkillStore) : Prop := s.linkPairs.Nodup

theorem nodup_getPendingJdLinks (h : s.LinksUnique) (u : Uuid) :
    ((getPendingJdLinks s u).map JDUnknownSkill.jdId).Nodup := by
  have hpairs : ((getPendingJdLinks s u).map fun link => (link.jdId, link.unknownSkillId)).Nodup :=
    h.sublist (List.filter_sublist.map _)
  rw [List.nodup_map_iff_inj_on (hpairs.of_map _)]
  intro link hlink other hother hjd
  have hu {row : JDUnknownSkill} (hrow : row ∈ getPendingJdLinks s u) : row.unknownSkillId = u :=
    (of_decide_eq_true (List.mem_filter.mp hrow).2).1
  refine List.inj_on_of_nodup_map hpairs hlink hother ?_
  rw [hjd, hu hlink, hu hother]

-- The pending links to an unknown skill become rows of a canonical skill.
structure Converts (s s' : SkillStore) (u canonicalSkillId : Uuid) : Prop where
  adds : ∀ jdId, s.LinksUnique → ∃ added, s'.jdSkillsOf jdId = s.jdSkillsOf jdId ++ added ∧
    ((∀ row ∈ added, row.Classified) ↔ ∀ link ∈ getPendingJdLinks s u, link.jdId = jdId →
      link.mandatory = some true → (getJdSkill s jdId canonicalSkillId).isSome = true)
  links : s'.linkPairs.Sublist s.linkPairs

theorem Converts.keepsCore (h : Converts s s' u canonicalSkillId) (hunique : s.LinksUnique)
    (hcore : s.HasCore jdId) : s'.HasCore jdId := by
  obtain ⟨added, hadded, -⟩ := h.adds jdId hunique
  obtain ⟨row, hrow, himportance⟩ := hcore
  refine ⟨row, ?_, himportance⟩
  rw [hadded]
  exact List.mem_append_left _ hrow

theorem Converts.classified_iff (h : Converts s s' u canonicalSkillId)
    (hunique : s.LinksUnique) (hclassified : s.Classified jdId) :
    s'.Classified jdId ↔ ∀ link ∈ getPendingJdLinks s u, link.jdId = jdId →
      link.mandatory = some true → (getJdSkill s jdId canonicalSkillId).isSome = true := by
  obtain ⟨added, hadded, hiff⟩ := h.adds jdId hunique
  rw [← hiff, Classified, hadded, List.forall_mem_append]
  exact and_iff_right hclassified

theorem createRetroactiveJdSkills_converts :
    Converts s (createRetroactiveJdSkills s u canonicalSkillId) u canonicalSkillId := by
  constructor
  · intro jdId hunique
    exact foldl_retroactiveJdSkill _ (nodup_getPendingJdLinks hunique u)
  · have hpairs : (createRetroactiveJdSkills s u canonicalSkillId).linkPairs = s.linkPairs := by
      rw [linkPairs, retroactive_rows, List.map_map, linkPairs]
      refine List.map_congr_left fun link _ => ?_
      rw [Function.comp_apply]
      split_ifs <;> rfl
    rw [hpairs]

theorem Converts.then {s'' : SkillStore} (h : Converts s s' u canonicalSkillId)
    (hrows : s''.jdSkills = s'.jdSkills)
    (hlinks : s''.jdUnknownSkills.rows.Sublist s'.jdUnknownSkills.rows) :
    Converts s s'' u canonicalSkillId := by
  refine ⟨fun jdId hunique => ?_, (hlinks.map _).trans h.links⟩
  obtain ⟨added, hadded, hiff⟩ := h.adds jdId hunique
  have hsame : s''.jdSkillsOf jdId = s'.jdSkillsOf jdId := by rw [jdSkillsOf, hrows, jdSkillsOf]
  exact ⟨added, hsame.trans hadded, hiff⟩

theorem migrateOccurrences_converts :
    Converts s (migrateOccurrences s u canonicalSkillId) u canonicalSkillId := by
  let made := createRetroactiveJdSkills s u canonicalSkillId
  let unlinked := (getPendingJdLinks s u).foldl deleteJdUnknownSkill made
  have hdeleted : unlinked.jdSkills = made.jdSkills :=
    foldl_keeps SkillStore.jdSkills deleteJdUnknownSkill (fun _ _ => rfl) made _
  have hunlinked : unlinked.jdUnknownSkills.rows.Sublist made.jdUnknownSkills.rows := by
    rw [(deleteLinks_frame _).2.2, Table.foldl_delete]
    exact List.filter_sublist
  have hmigrated : ((migrateOccurrences s u canonicalSkillId).jdSkills,
      (migrateOccurrences s u canonicalSkillId).jdUnknownSkills) =
      (unlinked.jdSkills, unlinked.jdUnknownSkills) := by
    refine foldl_keeps (fun s : SkillStore => (s.jdSkills, s.jdUnknownSkills)) _ (fun s c => ?_)
      unlinked _
    rw [migrateCandidateSkill]
    cases getCandidateSkillByCanonical s c.resumeId canonicalSkillId <;> rfl
  obtain ⟨hrows, hlinks⟩ := Prod.mk.inj hmigrated
  refine createRetroactiveJdSkills_converts.then (hrows.trans hdeleted) ?_
  rw [hlinks]
  exact hunlinked

section Persist

open JDService

theorem addUnknownSkill_linksUnique (hunique : s.LinksUnique) (m : SkillMatchResult) :
    (addUnknownSkill jdId s m).LinksUnique := by
  unfold addUnknownSkill
  cases m.canonicalSkillId with
  | some c => exact hunique
  | none =>
    have hsame : (upsertUnknownSkill s m.rawText (some m.normalizedText)).1.jdUnknownSkills =
        s.jdUnknownSkills := by
      unfold upsertUnknownSkill
      split <;> rfl
    dsimp only
    generalize upsertUnknownSkill s m.rawText (some m.normalizedText) = upserted at hsame
    unfold linkUnknownSkillToJd
    cases hfound : upserted.1.jdUnknownSkills.rows.find? (fun link =>
        decide (link.jdId = jdId ∧ link.unknownSkillId = upserted.2.1.id)) with
    | some link =>
      rw [LinksUnique, linkPairs, hsame]
      exact hunique
    | none =>
      rw [hsame] at hfound
      have hnew : (jdId, upserted.2.1.id) ∉ s.linkPairs := by
        intro hin
        obtain ⟨link, hlink, hpair⟩ := List.mem_map.mp hin
        obtain ⟨hjd, hu⟩ := Prod.mk.inj hpair
        exact List.find?_eq_none.mp hfound link hlink (decide_eq_true ⟨hjd, hu⟩)
      have hpairs : (upserted.1.jdUnknownSkills.insert (fun id =>
          (⟨id, jdId, upserted.2.1.id, some m.mandatory, .pending⟩ : JDUnknownSkill))
          fun _ => rfl).rows.map (fun link => (link.jdId, link.unknownSkillId)) =
          s.linkPairs ++ [(jdId, upserted.2.1.id)] := by
        rw [Table.rows_insert, List.map_append, hsame]
        rfl
      rw [LinksUnique, linkPairs]
      refine hpairs ▸ ?_
      rw [List.nodup_append]
      refine ⟨hunique, List.nodup_singleton _, fun a ha b hb hab => hnew ?_⟩
      rw [← List.mem_singleton.mp hb, ← hab]
      exact ha

theorem persistSkills_linksUnique (hunique : s.LinksUnique) (skillMatches : List SkillMatchResult) :
    (persistSkills s jdId skillMatches).LinksUnique := by
  have hmatched : ((matchedBySkill skillMatches).foldl (addJdSkill jdId skillMatches)
      s).LinksUnique := by
    rw [LinksUnique, linkPairs, (addJdSkill_frame jdId skillMatches _).2.1]
    exact hunique
  have hfold (unmatched : List SkillMatchResult) {s : SkillStore} (hs : s.LinksUnique) :
      (unmatched.foldl (addUnknownSkill jdId) s).LinksUnique := by
    induction unmatched generalizing s with
    | nil => exact hs
    | cons m rest ih => exact ih (addUnknownSkill_linksUnique hs m)
  exact hfold skillMatches hmatched

theorem mem_newRows (skillMatches kept : List SkillMatchResult) (next : ℕ) (row : JDSkill)
    (hrow : row ∈ newRows jdId skillMatches next kept) :
    ∃ m ∈ kept, row.mandatory = m.mandatory ∧ row.importance = m.importance := by
  induction kept generalizing next with
  | nil => cases hrow
  | cons m rest ih =>
    rw [newRows] at hrow
    cases hc : m.canonicalSkillId with
    | none =>
      rw [hc] at hrow
      obtain ⟨other, hother, hsame⟩ := ih next hrow
      exact ⟨other, List.mem_cons_of_mem m hother, hsame⟩
    | some c =>
      rw [hc] at hrow
      obtain rfl | hrow := List.mem_cons.mp hrow
      · exact ⟨m, List.mem_cons_self, rfl, rfl⟩
      · obtain ⟨other, hother, hsame⟩ := ih (next + 1) hrow
        exact ⟨other, List.mem_cons_of_mem m hother, hsame⟩

theorem mem_matchedBySkill (skillMatches : List SkillMatchResult) :
    ∀ m ∈ matchedBySkill skillMatches, m ∈ skillMatches := by
  have hfold (rest kept : List SkillMatchResult) :
      ∀ m ∈ rest.foldl collapse kept, m ∈ kept ∨ m ∈ rest := by
    induction rest generalizing kept with
    | nil =>
      intro m hm
      exact .inl hm
    | cons first rest ih =>
      intro m hm
      obtain hkept | hrest := ih (collapse kept first) m hm
      · have hfirst : m ∈ kept ∨ m = first := by
          unfold collapse at hkept
          split_ifs at hkept
          · exact .inl hkept
          · split at hkept
            · simpa using hkept
            · split_ifs at hkept
              · obtain ⟨old, hold, rfl⟩ := List.mem_map.mp hkept
                split_ifs
                · exact .inr rfl
                · exact .inl hold
              · exact .inl hkept
        exact hfirst.imp_right fun heq : m = first => heq ▸ List.mem_cons_self
      · exact .inr (List.mem_cons_of_mem first hrest)
  intro m hm
  exact (hfold skillMatches [] m hm).resolve_left List.not_mem_nil

theorem persistSkills_classified (hnew : ∀ row ∈ s.jdSkills.rows, row.jdId ≠ jdId)
    (skillMatches : List SkillMatchResult)
    (hmatches : ∀ m ∈ skillMatches, m.importance.isSome = m.mandatory) :
    (persistSkills s jdId skillMatches).Classified jdId := by
  intro row hrow
  obtain ⟨hmem, hjd⟩ := (mem_jdSkillsOf row).mp hrow
  have hskills : (persistSkills s jdId skillMatches).jdSkills =
      ((matchedBySkill skillMatches).foldl (addJdSkill jdId skillMatches) s).jdSkills :=
    foldl_addUnknownSkill_frame jdId skillMatches _
  rw [hskills, rows_foldl_addJdSkill, List.mem_append] at hmem
  obtain hold | hadded := hmem
  · exact absurd hjd (hnew row hold)
  · obtain ⟨m, hm, hmandatory, himportance⟩ := mem_newRows skillMatches _ _ row hadded
    refine JDSkill.classified_of_isSome ?_
    rw [himportance, hmandatory]
    exact hmatches m (mem_matchedBySkill skillMatches m hm)

end Persist

end Links

end SkillStore

namespace SkillNormalizationService

variable (catalog : String → CatalogMatch)

theorem matchWithAliases_flags (mandatory : Bool) (importance : Option JDSkillImportance)
    (item : JDSkillSpec) :
    (matchWithAliases catalog mandatory importance item).mandatory = mandatory ∧
      (matchWithAliases catalog mandatory importance item).importance = importance := by
  let flags (m : SkillMatchResult) := (m.mandatory, m.importance)
  -- an alias that stands in for the name is matched with the flags of the name
  have hfold (aliases : List String) (state : SkillMatchResult × List Uuid)
      (hstate : flags state.1 = (mandatory, importance)) :
      flags (aliases.foldl (resolveAlias catalog mandatory importance) state).1 =
        (mandatory, importance) := by
    induction aliases generalizing state with
    | nil => exact hstate
    | cons aliasText rest ih =>
      refine ih _ ?_
      unfold resolveAlias
      dsimp only
      split
      · exact hstate
      · split_ifs
        · rfl
        · exact hstate
  have hflags : flags (matchWithAliases catalog mandatory importance item) =
      (mandatory, importance) := by
    unfold matchWithAliases
    split_ifs
    · rfl
    · exact hfold item.aliases _ rfl
  exact Prod.mk.inj hflags

theorem normalizeSkills_flags (requiredSkills preferredSkills : List JDSkillSpec)
    (hrequired : ∀ item ∈ requiredSkills, item.importance.isSome = true) :
    ∀ m ∈ normalizeSkills catalog requiredSkills preferredSkills,
      m.importance.isSome = m.mandatory := by
  intro m hm
  obtain hm | hm := List.mem_append.mp hm
  · obtain ⟨item, hitem, rfl⟩ := List.mem_map.mp hm
    obtain ⟨hmandatory, himportance⟩ := matchWithAliases_flags catalog true item.importance item
    rw [hmandatory, himportance]
    exact hrequired item hitem
  · obtain ⟨item, -, rfl⟩ := List.mem_map.mp hm
    obtain ⟨hmandatory, himportance⟩ := matchWithAliases_flags catalog false none item
    rw [hmandatory, himportance]
    rfl

end SkillNormalizationService

end AiHiring
