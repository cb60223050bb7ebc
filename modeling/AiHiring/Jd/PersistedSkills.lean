import AiHiring.Jd.StoredMatches
import AiHiring.Jd.Verification
import AiHiring.Library.Listing
import AiHiring.Skills.Resolution

namespace AiHiring

open Library SkillRepository SkillStore

namespace JDService

open SkillNormalizationService

def matchedTo (c : Uuid) (m : SkillMatchResult) : Bool := m.canonicalSkillId = some c

theorem canonicalSkillId_of_find? (skillMatches : List SkillMatchResult) (c : Uuid)
    (m : SkillMatchResult) (h : skillMatches.find? (matchedTo c) = some m) :
    m.canonicalSkillId = some c := by
  have hselected := List.find?_some h
  exact of_decide_eq_true hselected

-- The required matches come before the preferred ones.
def RequiredFirst (skillMatches : List SkillMatchResult) : Prop :=
  skillMatches.Pairwise fun m later => later.mandatory = true → m.mandatory = true

theorem collapse_requiredFirst (kept : List SkillMatchResult) (m : SkillMatchResult)
    (hordered : ∀ old ∈ kept, m.mandatory = true → old.mandatory = true) :
    collapse kept m =
      if m.canonicalSkillId = none ∨ m.canonicalSkillId ∈ kept.map (·.canonicalSkillId) then kept
      else kept ++ [m] := by
  unfold collapse
  by_cases hnone : m.canonicalSkillId = none
  · rw [if_pos hnone, if_pos (.inl hnone)]
  · rw [if_neg hnone]
    cases hfind : kept.find? fun old => decide (old.canonicalSkillId = m.canonicalSkillId) with
    | none =>
      have habsent : m.canonicalSkillId ∉ kept.map (·.canonicalSkillId) := by
        intro hmem
        obtain ⟨old, hold, heq⟩ := List.mem_map.mp hmem
        exact absurd (decide_eq_true heq) (by simpa using List.find?_eq_none.mp hfind old hold)
      rw [if_neg (not_or.mpr ⟨hnone, habsent⟩)]
    | some existing =>
      have hexisting := List.mem_of_find?_eq_some hfind
      have hsame : existing.canonicalSkillId = m.canonicalSkillId := by
        simpa using List.find?_some hfind
      have hkeep : ¬(m.mandatory = true ∧ (!existing.mandatory) = true) := by
        rintro ⟨hmandatory, hweaker⟩
        rw [hordered existing hexisting hmandatory] at hweaker
        simp at hweaker
      have hpresent : m.canonicalSkillId ∈ kept.map (·.canonicalSkillId) :=
        hsame ▸ List.mem_map_of_mem hexisting
      dsimp only
      rw [if_neg hkeep, if_pos (.inr hpresent)]

theorem foldl_collapse (skillMatches kept : List SkillMatchResult)
    (hordered : RequiredFirst (kept ++ skillMatches))
    (hnodup : (kept.map (·.canonicalSkillId)).Nodup) :
    ((skillMatches.foldl collapse kept).map (·.canonicalSkillId)).Nodup ∧
      ∀ c, (skillMatches.foldl collapse kept).find? (matchedTo c) =
        (kept ++ skillMatches).find? (matchedTo c) := by
  induction skillMatches generalizing kept with
  | nil => exact ⟨hnodup, fun c => by simp⟩
  | cons m rest ih =>
    have hbefore : ∀ old ∈ kept, m.mandatory = true → old.mandatory = true := fun old hold =>
      (List.pairwise_append.mp hordered).2.2 old hold m List.mem_cons_self
    have hsplit : kept ++ m :: rest = kept ++ [m] ++ rest := by simp
    rw [List.foldl_cons, collapse_requiredFirst kept m hbefore]
    split_ifs with hskip
    · have hsub : (kept ++ rest).Sublist (kept ++ m :: rest) :=
        (List.sublist_cons_self m rest).append_left kept
      obtain ⟨hrest, hfind⟩ := ih kept (hordered.sublist hsub) hnodup
      refine ⟨hrest, ?_⟩
      intro c
      rw [hfind c, List.find?_append, List.find?_append, List.find?_cons]
      by_cases hmatched : m.canonicalSkillId = some c
      · -- the skill has an earlier match
        have hmem : some c ∈ kept.map (·.canonicalSkillId) := by
          rcases hskip with hnone | hmem
          · simp [hnone] at hmatched
          · exact hmatched ▸ hmem
        obtain ⟨old, hold, heq⟩ := List.mem_map.mp hmem
        have hsome : (kept.find? (matchedTo c)).isSome = true :=
          List.find?_isSome.mpr ⟨old, hold, decide_eq_true heq⟩
        obtain ⟨first, hfirst⟩ := Option.isSome_iff_exists.mp hsome
        rw [hfirst, Option.some_or, Option.some_or]
      · simp [matchedTo, hmatched]
    · obtain ⟨-, habsent⟩ := not_or.mp hskip
      have hnodup' : ((kept ++ [m]).map (·.canonicalSkillId)).Nodup := by
        rw [List.map_append, List.map_singleton]
        exact List.nodup_append.mpr ⟨hnodup, by simp, by
          intro key hkey other hother heq
          rw [List.mem_singleton] at hother
          exact habsent (hother ▸ heq ▸ hkey)⟩
      rw [hsplit] at hordered ⊢
      exact ih (kept ++ [m]) hordered hnodup'

theorem matchedBySkill_first (skillMatches : List SkillMatchResult)
    (hordered : RequiredFirst skillMatches) :
    ((matchedBySkill skillMatches).map (·.canonicalSkillId)).Nodup ∧
      ∀ c, (matchedBySkill skillMatches).find? (matchedTo c) = skillMatches.find? (matchedTo c) :=
  foldl_collapse skillMatches [] hordered (by simp)

section Rows

variable (jdId : Uuid)

theorem canonicalSkillIds_newRows (skillMatches kept : List SkillMatchResult) (next : ℕ) :
    (newRows jdId skillMatches next kept).map (·.canonicalSkillId) =
      kept.filterMap (·.canonicalSkillId) := by
  induction kept generalizing next with
  | nil => rfl
  | cons m rest ih =>
    cases hc : m.canonicalSkillId with
    | none => simp only [newRows, hc, List.filterMap_cons, ih]
    | some c =>
      simp only [newRows, hc, List.filterMap_cons, List.map_cons, ih]
      rfl

theorem mem_newRows (skillMatches kept : List SkillMatchResult) (next : ℕ) (row : JDSkill)
    (h : row ∈ newRows jdId skillMatches next kept) :
    ∃ m ∈ kept, ∃ c id, m.canonicalSkillId = some c ∧
      row = jdSkillRow jdId skillMatches m c id := by
  induction kept generalizing next with
  | nil => simp [newRows] at h
  | cons m rest ih =>
    cases hc : m.canonicalSkillId with
    | none =>
      simp only [newRows, hc] at h
      obtain ⟨found, hfound, hrow⟩ := ih next h
      exact ⟨found, List.mem_cons_of_mem _ hfound, hrow⟩
    | some c =>
      simp only [newRows, hc] at h
      rcases List.mem_cons.mp h with rfl | hrest
      · exact ⟨m, List.mem_cons_self, c, next, hc, rfl⟩
      · obtain ⟨found, hfound, hrow⟩ := ih (next + 1) hrest
        exact ⟨found, List.mem_cons_of_mem _ hfound, hrow⟩

theorem aliasSkillIds_spec (skillMatches : List SkillMatchResult) (c : Uuid) :
    ((aliasSkillIds skillMatches c).getD []).Nodup ∧
      ∀ other, other ∈ (aliasSkillIds skillMatches c).getD [] ↔
        ∃ m ∈ skillMatches, m.canonicalSkillId = some c ∧ other ∈ m.aliasSkillIds := by
  have hgetD : (aliasSkillIds skillMatches c).getD [] =
      ((skillMatches.filter fun m => decide (m.canonicalSkillId = some c)).flatMap
        (·.aliasSkillIds)).eraseDups := by
    unfold aliasSkillIds
    dsimp only
    split_ifs with hempty
    · rw [hempty, Option.getD_none]
    · rw [Option.getD_some]
  rw [hgetD]
  refine ⟨nodup_eraseDups _, ?_⟩
  intro other
  simp only [List.mem_eraseDups, List.mem_flatMap, List.mem_filter, decide_eq_true_eq, and_assoc]

end Rows

section Links

variable (jdId : Uuid)

def idOfText (store : SkillStore) (rawText : String) : Option Uuid :=
  (store.byText rawText).map (·.id)

theorem idOfText_upsertUnknownSkill (store : SkillStore) (rawText : String)
    (key : Option String) (other : String) :
    idOfText (upsertUnknownSkill store rawText key).1 other =
      if other = rawText then some (upsertUnknownSkill store rawText key).2.1.id
      else idOfText store other := by
  unfold upsertUnknownSkill
  cases hfind : store.unknownSkills.rows.find? fun u => decide (u.rawText = rawText) with
  | some existing =>
    have hexisting := List.mem_of_find?_eq_some hfind
    have hsame (u : UnknownSkill) : (if u.id = existing.id then bump u else u).rawText = u.rawText ∧
          (if u.id = existing.id then bump u else u).id = u.id := by
      split_ifs <;> exact ⟨rfl, rfl⟩
    have hbumped : idOfText { store with
        unknownSkills := store.unknownSkills.replace (bump existing) } other =
          idOfText store other := by
      have hpred : ((fun u : UnknownSkill => decide (u.rawText = other)) ∘
          fun u => if u.id = existing.id then bump u else u) =
            fun u => decide (u.rawText = other) := by
        funext u
        rw [Function.comp_apply, (hsame u).1]
      rw [idOfText, byText, bump_rows existing hexisting, List.find?_map, hpred, idOfText, byText,
        Option.map_map]
      congr 1
      funext u
      exact (hsame u).2
    rw [hbumped]
    split_ifs with htext
    · rw [idOfText, byText, htext, hfind]
      rfl
    · rfl
  | none =>
    rw [idOfText, byText, Table.rows_insert, List.find?_append, idOfText, byText]
    split_ifs with htext
    · rw [htext, hfind, Option.none_or, List.find?_cons]
      simp
    · have hnew : ¬rawText = other := fun heq => htext heq.symm
      simp [hnew]

theorem idOfText_upsertUnknownSkill_of_some (store : SkillStore) (rawText : String)
    (key : Option String) (other : String) (id : Uuid) (h : idOfText store other = some id) :
    idOfText (upsertUnknownSkill store rawText key).1 other = some id := by
  rw [idOfText_upsertUnknownSkill]
  split_ifs with htext
  · subst htext
    unfold upsertUnknownSkill
    unfold idOfText byText at h
    cases hfind : store.unknownSkills.rows.find? fun u => decide (u.rawText = other) with
    | some existing =>
      rw [hfind] at h
      exact h
    | none => simp [hfind] at h
  · exact h

theorem eq_of_idOfText (store : SkillStore) (rawText other : String) (id : Uuid)
    (h : idOfText store rawText = some id) (hother : idOfText store other = some id) :
    rawText = other := by
  obtain ⟨u, hu, rfl⟩ := Option.map_eq_some_iff.mp h
  obtain ⟨u', hu', hid⟩ := Option.map_eq_some_iff.mp hother
  have hsame := store.unknownSkills.eq_of_key_eq (List.mem_of_find?_eq_some hu')
    (List.mem_of_find?_eq_some hu) hid
  have htext : u.rawText = rawText := by simpa using List.find?_some hu
  have htext' : u'.rawText = other := by simpa using List.find?_some hu'
  rw [← htext, ← htext', hsame]

def unmatchedText (rawText : String) (m : SkillMatchResult) : Bool :=
  m.canonicalSkillId = none ∧ m.rawText = rawText

-- Each unmatched text has its link, which is as the first match with the text made it.
structure LinkedFirst (skillMatches : List SkillMatchResult) (store : SkillStore) : Prop where
  made : ∀ m ∈ skillMatches, m.canonicalSkillId = none →
    ∃ link ∈ store.jdUnknownSkills.rows, link.jdId = jdId ∧
      idOfText store m.rawText = some link.unknownSkillId
  first : ∀ link ∈ store.jdUnknownSkills.rows, link.jdId = jdId →
    ∃ rawText m, idOfText store rawText = some link.unknownSkillId ∧
      skillMatches.find? (unmatchedText rawText) = some m ∧ link.mandatory = some m.mandatory

theorem linkedFirst_addUnknownSkill (done : List SkillMatchResult) (store : SkillStore)
    (m : SkillMatchResult) (h : LinkedFirst jdId done store) :
    LinkedFirst jdId (done ++ [m]) (addUnknownSkill jdId store m) := by
  unfold addUnknownSkill
  cases hc : m.canonicalSkillId with
  | some c =>
    constructor
    · intro old hold hnone
      rcases List.mem_append.mp hold with hold | hnew
      · exact h.made old hold hnone
      · obtain rfl := List.mem_singleton.mp hnew
        simp [hc] at hnone
    · intro link hlink hjd
      obtain ⟨rawText, first, hid, hfirst, hmandatory⟩ := h.first link hlink hjd
      exact ⟨rawText, first, hid, by rw [List.find?_append, hfirst, Option.some_or], hmandatory⟩
  | none =>
    have hkeep := idOfText_upsertUnknownSkill_of_some store m.rawText (some m.normalizedText)
    have hown : idOfText (upsertUnknownSkill store m.rawText (some m.normalizedText)).1
        m.rawText = some (upsertUnknownSkill store m.rawText (some m.normalizedText)).2.1.id := by
      rw [idOfText_upsertUnknownSkill, if_pos rfl]
    have hlinks := (@upsert_frame store m.rawText (some m.normalizedText)).1
    dsimp only
    generalize (upsertUnknownSkill store m.rawText (some m.normalizedText)).1 = store' at *
    generalize (upsertUnknownSkill store m.rawText (some m.normalizedText)).2.1.id = u at *
    have hold : LinkedFirst jdId done store' := by
      constructor
      · intro old hold hnone
        obtain ⟨link, hlink, hjd, hid⟩ := h.made old hold hnone
        exact ⟨link, hlinks ▸ hlink, hjd, hkeep old.rawText _ hid⟩
      · intro link hlink hjd
        obtain ⟨rawText, first, hid, hfirst⟩ := h.first link (hlinks ▸ hlink) hjd
        exact ⟨rawText, first, hkeep rawText _ hid, hfirst⟩
    have hfirst (link : JDUnknownSkill) (hlink : link ∈ store'.jdUnknownSkills.rows)
        (hjd : link.jdId = jdId) : ∃ rawText first,
          idOfText store' rawText = some link.unknownSkillId ∧
          (done ++ [m]).find? (unmatchedText rawText) = some first ∧
          link.mandatory = some first.mandatory := by
      obtain ⟨rawText, first, hid, hfind, hmandatory⟩ := hold.first link hlink hjd
      exact ⟨rawText, first, hid, by rw [List.find?_append, hfind, Option.some_or], hmandatory⟩
    unfold linkUnknownSkillToJd
    split
    · next existing hexisting =>
        have hsame : existing.jdId = jdId ∧ existing.unknownSkillId = u := by
          simpa using List.find?_some hexisting
        constructor
        · intro old hmem hnone
          rcases List.mem_append.mp hmem with hmem | hnew
          · exact hold.made old hmem hnone
          · obtain rfl := List.mem_singleton.mp hnew
            exact ⟨existing, List.mem_of_find?_eq_some hexisting, hsame.1, hsame.2 ▸ hown⟩
        · exact hfirst
    · next habsent =>
        -- no earlier match had this text: it would have left a link
        have hfresh : done.find? (unmatchedText m.rawText) = none := by
          apply List.find?_eq_none.mpr
          intro old hmem hsame
          have htext : old.canonicalSkillId = none ∧ old.rawText = m.rawText := by
            simpa [unmatchedText] using hsame
          obtain ⟨link, hlink, hjd, hid⟩ := hold.made old hmem htext.1
          rw [htext.2, hown] at hid
          have hunknown : link.unknownSkillId = u := (Option.some.inj hid).symm
          exact absurd (decide_eq_true (And.intro hjd hunknown))
            (by simpa using List.find?_eq_none.mp habsent link hlink)
        constructor
        · intro old hmem hnone
          rcases List.mem_append.mp hmem with hmem | hnew
          · obtain ⟨link, hlink, hjd, hid⟩ := hold.made old hmem hnone
            exact ⟨link, List.mem_append_left _ hlink, hjd, hid⟩
          · obtain rfl := List.mem_singleton.mp hnew
            exact ⟨_, List.mem_append_right _ (List.mem_singleton.mpr rfl), rfl, hown⟩
        · intro link hlink hjd
          rcases List.mem_append.mp hlink with hlink | hnew
          · exact hfirst link hlink hjd
          · obtain rfl := List.mem_singleton.mp hnew
            refine ⟨m.rawText, m, hown, ?_, rfl⟩
            rw [List.find?_append, hfresh, Option.none_or]
            simp [unmatchedText, hc]

theorem linkedFirst_foldl (done rest : List SkillMatchResult) (store : SkillStore)
    (h : LinkedFirst jdId done store) :
    LinkedFirst jdId (done ++ rest) (rest.foldl (addUnknownSkill jdId) store) := by
  induction rest generalizing done store with
  | nil => simpa using h
  | cons m rest ih =>
    have hstep := ih (done ++ [m]) _ (linkedFirst_addUnknownSkill jdId done store m h)
    rwa [List.append_assoc, List.singleton_append] at hstep

end Links

section Reflected

variable (catalog : String → CatalogMatch) (extraction : JDExtractionResponse)

-- Some spec of the extraction stands for the skill.
def RequiredFor (importance : JDSkillImportance) (c : Uuid) : Prop :=
  ∃ spec ∈ extraction.requiredSkillSpecs,
    spec.importance = some importance ∧ skillOf catalog spec = some c

def specs : List JDSkillSpec := extraction.requiredSkillSpecs ++ extraction.preferredSkillSpecs

structure RowReflects (row : JDSkill) : Prop where
  mandatory : row.mandatory = true ↔
    ∃ spec ∈ extraction.requiredSkillSpecs, skillOf catalog spec = some row.canonicalSkillId
  core : row.importance = some .core ↔ RequiredFor catalog extraction .core row.canonicalSkillId
  supporting : row.importance = some .supporting ↔
    RequiredFor catalog extraction .supporting row.canonicalSkillId ∧
      ¬RequiredFor catalog extraction .core row.canonicalSkillId
  aliases : ∀ other, other ∈ row.aliasSkillIds.getD [] ↔
    ∃ spec ∈ specs extraction, skillOf catalog spec = some row.canonicalSkillId ∧
      AliasSkill catalog spec other
  once : (row.aliasSkillIds.getD []).Nodup
  others : row.canonicalSkillId ∉ row.aliasSkillIds.getD []

-- The jd_skills rows of the JD, one for each skill, and its links to unknown skills.
structure SkillsReflect (db db' : JdDatabase) (jd : JobDescription) : Prop where
  rows : ∃ new, db'.jdSkills.rows = db.jdSkills.rows ++ new ∧
    (∀ row ∈ new, row.jdId = jd.id ∧ RowReflects catalog extraction row) ∧
    (new.map (·.canonicalSkillId)).Nodup ∧
    ∀ c, c ∈ new.map (·.canonicalSkillId) ↔ ∃ spec ∈ specs extraction, skillOf catalog spec = some c
  links : ∀ spec ∈ specs extraction, skillOf catalog spec = none →
    ∃ link ∈ db'.jdUnknownSkills.rows, ∃ mandatory,
      link.jdId = jd.id ∧ idOfText db'.toSkillStore spec.name = some link.unknownSkillId ∧
      link.mandatory = some mandatory ∧
      (mandatory = true ↔ ∃ required ∈ extraction.requiredSkillSpecs,
        skillOf catalog required = none ∧ required.name = spec.name)
  verified : jd.isVerified = .verified ↔ ¬∃ link ∈ db'.jdUnknownSkills.rows, link.jdId = jd.id

def matchesOf : List SkillMatchResult :=
  normalizeSkills catalog extraction.requiredSkillSpecs extraction.preferredSkillSpecs

theorem mem_matchesOf (m : SkillMatchResult) :
    m ∈ matchesOf catalog extraction ↔ (∃ spec ∈ extraction.requiredSkillSpecs,
        m = matchWithAliases catalog true spec.importance spec) ∨
      ∃ spec ∈ extraction.preferredSkillSpecs, m = matchWithAliases catalog false none spec := by
  rw [matchesOf, normalizeSkills, List.mem_append, List.mem_map, List.mem_map]
  simp only [eq_comm]

theorem matchesOf_of_spec (spec : JDSkillSpec) (h : spec ∈ specs extraction) :
    ∃ m ∈ matchesOf catalog extraction, ∃ mandatory importance,
      MatchOf catalog mandatory importance spec m ∧
        (mandatory = true → spec ∈ extraction.requiredSkillSpecs) := by
  have hmatch := matchOf_matchWithAliases catalog
  rcases List.mem_append.mp h with hrequired | hpreferred
  · exact ⟨_, (mem_matchesOf catalog extraction _).mpr (.inl ⟨spec, hrequired, rfl⟩), true,
      spec.importance, hmatch true spec.importance spec, fun _ => hrequired⟩
  · exact ⟨_, (mem_matchesOf catalog extraction _).mpr (.inr ⟨spec, hpreferred, rfl⟩), false,
      none, hmatch false none spec, fun h => absurd h (by simp)⟩

theorem spec_of_matchesOf (m : SkillMatchResult) (h : m ∈ matchesOf catalog extraction) :
    ∃ spec ∈ specs extraction, ∃ mandatory importance,
      MatchOf catalog mandatory importance spec m := by
  have hmatch := matchOf_matchWithAliases catalog
  rcases (mem_matchesOf catalog extraction m).mp h with ⟨spec, hspec, rfl⟩ | ⟨spec, hspec, rfl⟩
  · exact ⟨spec, List.mem_append_left _ hspec, _, _, hmatch true spec.importance spec⟩
  · exact ⟨spec, List.mem_append_right _ hspec, _, _, hmatch false none spec⟩

theorem requiredFirst_matchesOf : RequiredFirst (matchesOf catalog extraction) := by
  have hmatch := matchOf_matchWithAliases catalog
  unfold RequiredFirst matchesOf normalizeSkills
  apply List.pairwise_append.mpr
  have hrequired : ∀ m ∈ extraction.requiredSkillSpecs.map fun item =>
      matchWithAliases catalog true item.importance item, m.mandatory = true := by
    intro m hm
    obtain ⟨spec, -, rfl⟩ := List.mem_map.mp hm
    exact (hmatch true spec.importance spec).mandatory
  have hpreferred : ∀ m ∈ extraction.preferredSkillSpecs.map
      (matchWithAliases catalog false none), m.mandatory = false := by
    intro m hm
    obtain ⟨spec, -, rfl⟩ := List.mem_map.mp hm
    exact (hmatch false none spec).mandatory
  refine ⟨?_, ?_, fun m hm _ _ _ => hrequired m hm⟩
  · exact List.pairwise_of_forall_mem_list fun m hm _ _ _ => hrequired m hm
  · apply List.pairwise_of_forall_mem_list
    intro m _ later hlater hmandatory
    simp [hpreferred later hlater] at hmandatory

-- Where the first match of a kind comes from: the core, the supporting or the preferred skills.
inductive FirstOf (selected : SkillMatchResult → Bool) (m : SkillMatchResult) : Prop where
  | core (spec : JDSkillSpec) (hspec : spec ∈ extraction.requiredSkillSpecs)
      (himportance : spec.importance = some .core)
      (hm : MatchOf catalog true (some .core) spec m)
  | supporting (spec : JDSkillSpec) (hspec : spec ∈ extraction.requiredSkillSpecs)
      (himportance : spec.importance = some .supporting)
      (hm : MatchOf catalog true (some .supporting) spec m)
      (hnone : ∀ other ∈ extraction.requiredSkillSpecs, other.importance = some .core →
        selected (matchWithAliases catalog true (some .core) other) = false)
  | preferred (hmandatory : m.mandatory = false) (himportance : m.importance = none)
      (hnone : ∀ other ∈ extraction.requiredSkillSpecs,
        selected (matchWithAliases catalog true other.importance other) = false)

theorem firstOf_find? (selected : SkillMatchResult → Bool) (m : SkillMatchResult)
    (h : (matchesOf catalog extraction).find? selected = some m) :
    FirstOf catalog extraction selected m := by
  have hmatch := matchOf_matchWithAliases catalog
  rw [matchesOf, normalizeSkills, List.find?_append] at h
  rw [JDExtractionResponse.requiredSkillSpecs, List.map_append, List.find?_append] at h
  have hnone (specs : List JDSkillSpec) (f : JDSkillSpec → SkillMatchResult)
      (hfind : (specs.map f).find? selected = none) :
      ∀ spec ∈ specs, selected (f spec) = false := by
    intro spec hspec
    simpa using List.find?_eq_none.mp hfind (f spec) (List.mem_map_of_mem hspec)
  cases hcore : ((extraction.requiredSkills.core.map (extraction.skillSpec (some .core))).map
      fun item => matchWithAliases catalog true item.importance item).find? selected with
  | some first =>
    rw [hcore, Option.some_or, Option.some_or] at h
    cases h
    obtain ⟨spec, hspec, rfl⟩ := List.mem_map.mp (List.mem_of_find?_eq_some hcore)
    obtain ⟨name, -, rfl⟩ := List.mem_map.mp hspec
    exact .core _ (List.mem_append_left _ hspec) rfl (hmatch true (some .core) _)
  | none =>
    have hnocore := hnone _ _ hcore
    cases hsupporting : ((extraction.requiredSkills.supporting.map
        (extraction.skillSpec (some .supporting))).map
          fun item => matchWithAliases catalog true item.importance item).find? selected with
    | some first =>
      rw [hcore, hsupporting, Option.none_or, Option.some_or] at h
      cases h
      obtain ⟨spec, hspec, rfl⟩ := List.mem_map.mp (List.mem_of_find?_eq_some hsupporting)
      obtain ⟨name, -, rfl⟩ := List.mem_map.mp hspec
      refine .supporting _ (List.mem_append_right _ hspec) rfl (hmatch true (some .supporting) _) ?_
      intro other hother himportance
      rcases List.mem_append.mp hother with hother | hother
      · exact himportance ▸ hnocore other hother
      · obtain ⟨name', -, rfl⟩ := List.mem_map.mp hother
        simp [JDExtractionResponse.skillSpec] at himportance
    | none =>
      have hnosupporting := hnone _ _ hsupporting
      rw [hcore, hsupporting, Option.none_or, Option.none_or] at h
      obtain ⟨spec, hspec, rfl⟩ := List.mem_map.mp (List.mem_of_find?_eq_some h)
      have hm := hmatch false none spec
      refine .preferred hm.mandatory hm.importance ?_
      intro other hother
      rcases List.mem_append.mp hother with hother | hother
      · exact hnocore other hother
      · exact hnosupporting other hother

theorem mandatory_iff_of_find? (selected : Option Uuid → String → Bool) (m : SkillMatchResult)
    (h : (matchesOf catalog extraction).find?
      (fun m => selected m.canonicalSkillId m.rawText) = some m) :
    m.mandatory = true ↔
      ∃ spec ∈ extraction.requiredSkillSpecs, selected (skillOf catalog spec) spec.name = true := by
  have hselected := List.find?_some h
  have hown (spec : JDSkillSpec) (importance : Option JDSkillImportance)
      (hm : MatchOf catalog true importance spec m) :
      selected (skillOf catalog spec) spec.name = true := by
    rw [← hm.canonicalSkillId, ← hm.rawText]
    exact hselected
  cases firstOf_find? catalog extraction _ m h with
  | core spec hspec _ hm => exact ⟨fun _ => ⟨spec, hspec, hown spec _ hm⟩, fun _ => hm.mandatory⟩
  | supporting spec hspec _ hm _ =>
    exact ⟨fun _ => ⟨spec, hspec, hown spec _ hm⟩, fun _ => hm.mandatory⟩
  | preferred hmandatory _ hnone =>
    constructor
    · intro hm
      simp [hmandatory] at hm
    · rintro ⟨spec, hspec, hsel⟩
      have hmatch := matchOf_matchWithAliases catalog true spec.importance spec
      have hfalse := hnone spec hspec
      rw [hmatch.canonicalSkillId, hmatch.rawText, hsel] at hfalse
      simp at hfalse

theorem importance_iff_of_find? (c : Uuid) (m : SkillMatchResult)
    (h : (matchesOf catalog extraction).find? (matchedTo c) = some m) :
    (m.importance = some .core ↔ RequiredFor catalog extraction .core c) ∧
      (m.importance = some .supporting ↔ RequiredFor catalog extraction .supporting c ∧
        ¬RequiredFor catalog extraction .core c) := by
  have hselected := canonicalSkillId_of_find? _ c m h
  have hskill (importance : Option JDSkillImportance) (spec : JDSkillSpec) :
      matchedTo c (matchWithAliases catalog true importance spec) =
        decide (skillOf catalog spec = some c) := by
    rw [matchedTo, (matchOf_matchWithAliases catalog true importance spec).canonicalSkillId]
  cases firstOf_find? catalog extraction _ m h with
  | core spec hspec himportance hm =>
    have hcore : RequiredFor catalog extraction .core c :=
      ⟨spec, hspec, himportance, hm.canonicalSkillId ▸ hselected⟩
    rw [hm.importance]
    simp [hcore]
  | supporting spec hspec himportance hm hnone =>
    have hsupporting : RequiredFor catalog extraction .supporting c :=
      ⟨spec, hspec, himportance, hm.canonicalSkillId ▸ hselected⟩
    have hnocore : ¬RequiredFor catalog extraction .core c := by
      rintro ⟨other, hother, hcore, hc⟩
      have hfalse := hnone other hother hcore
      rw [hskill, decide_eq_false_iff_not] at hfalse
      exact hfalse hc
    rw [hm.importance]
    simp [hsupporting, hnocore]
  | preferred _ himportance hnone =>
    have hnever (importance : JDSkillImportance) :
        ¬RequiredFor catalog extraction importance c := by
      rintro ⟨other, hother, -, hc⟩
      have hfalse := hnone other hother
      rw [hskill, decide_eq_false_iff_not] at hfalse
      exact hfalse hc
    rw [himportance]
    simp [hnever]

theorem find?_kept (c : Uuid) (m : SkillMatchResult)
    (hm : m ∈ matchedBySkill (matchesOf catalog extraction)) (hc : m.canonicalSkillId = some c) :
    (matchesOf catalog extraction).find? (matchedTo c) = some m := by
  obtain ⟨hnodup, hfind⟩ := matchedBySkill_first _ (requiredFirst_matchesOf catalog extraction)
  rw [← hfind c]
  have hsome :
      ((matchedBySkill (matchesOf catalog extraction)).find? (matchedTo c)).isSome = true :=
    List.find?_isSome.mpr ⟨m, hm, decide_eq_true hc⟩
  obtain ⟨found, hfound⟩ := Option.isSome_iff_exists.mp hsome
  have hsame := canonicalSkillId_of_find? _ c found hfound
  rw [hfound, List.inj_on_of_nodup_map hnodup (List.mem_of_find?_eq_some hfound) hm
    (hsame.trans hc.symm)]

theorem rowReflects_newRows (jdId : Uuid) (next : ℕ) (row : JDSkill)
    (h : row ∈ newRows jdId (matchesOf catalog extraction) next
      (matchedBySkill (matchesOf catalog extraction))) :
    row.jdId = jdId ∧ RowReflects catalog extraction row := by
  obtain ⟨m, hm, c, id, hc, rfl⟩ := mem_newRows jdId _ _ next row h
  have hfirst := find?_kept catalog extraction c m hm hc
  obtain ⟨hcore, hsupporting⟩ := importance_iff_of_find? catalog extraction _ m hfirst
  have hmandatory := mandatory_iff_of_find? catalog extraction
    (fun canonicalSkillId _ => decide (canonicalSkillId = some c)) m hfirst
  simp only [decide_eq_true_eq] at hmandatory
  obtain ⟨honce, hids⟩ := aliasSkillIds_spec (matchesOf catalog extraction) c
  have haliases (other : Uuid) : other ∈ (aliasSkillIds (matchesOf catalog extraction) c).getD [] ↔
        ∃ spec ∈ specs extraction, skillOf catalog spec = some c ∧
          AliasSkill catalog spec other := by
    rw [hids]
    constructor
    · rintro ⟨found, hfound, hsame, hother⟩
      obtain ⟨spec, hspec, _, _, hmatch⟩ := spec_of_matchesOf catalog extraction found hfound
      exact ⟨spec, hspec, hmatch.canonicalSkillId ▸ hsame, (hmatch.aliasSkillIds other).mp hother⟩
    · rintro ⟨spec, hspec, hsame, hother⟩
      obtain ⟨found, hfound, _, _, hmatch, -⟩ := matchesOf_of_spec catalog extraction spec hspec
      exact ⟨found, hfound, hmatch.canonicalSkillId.trans hsame,
        (hmatch.aliasSkillIds other).mpr hother⟩
  refine ⟨rfl, hmandatory, hcore, hsupporting, haliases, honce, ?_⟩
  intro hown
  obtain ⟨spec, -, hsame, hother, -⟩ := (haliases c).mp hown
  exact hother hsame.symm

theorem mem_keptSkills (c : Uuid) :
    some c ∈ (matchedBySkill (matchesOf catalog extraction)).map (·.canonicalSkillId) ↔
      ∃ spec ∈ specs extraction, skillOf catalog spec = some c := by
  obtain ⟨-, hfind⟩ := matchedBySkill_first _ (requiredFirst_matchesOf catalog extraction)
  have hany (skillMatches : List SkillMatchResult) :
      some c ∈ skillMatches.map (·.canonicalSkillId) ↔
        (skillMatches.find? (matchedTo c)).isSome = true := by
    rw [List.mem_map, List.find?_isSome]
    simp only [matchedTo, decide_eq_true_eq]
  rw [hany, hfind c, ← hany, List.mem_map]
  constructor
  · rintro ⟨m, hm, hc⟩
    obtain ⟨spec, hspec, _, _, hmatch⟩ := spec_of_matchesOf catalog extraction m hm
    exact ⟨spec, hspec, hmatch.canonicalSkillId ▸ hc⟩
  · rintro ⟨spec, hspec, hc⟩
    obtain ⟨m, hm, _, _, hmatch, -⟩ := matchesOf_of_spec catalog extraction spec hspec
    exact ⟨m, hm, hmatch.canonicalSkillId.trans hc⟩

end Reflected

section Persisted

variable (catalog : String → CatalogMatch) (extraction : JDExtractionResponse)

theorem rows_persistSkills (store : SkillStore) (jdId : Uuid) :
    ∃ new, (persistSkills store jdId (matchesOf catalog extraction)).jdSkills.rows =
        store.jdSkills.rows ++ new ∧
      (∀ row ∈ new, row.jdId = jdId ∧ RowReflects catalog extraction row) ∧
      (new.map (·.canonicalSkillId)).Nodup ∧
      ∀ c, c ∈ new.map (·.canonicalSkillId) ↔
        ∃ spec ∈ specs extraction, skillOf catalog spec = some c := by
  refine ⟨newRows jdId (matchesOf catalog extraction) store.jdSkills.next
    (matchedBySkill (matchesOf catalog extraction)), ?_, ?_, ?_, ?_⟩
  · rw [persistSkills, foldl_addUnknownSkill_frame, rows_foldl_addJdSkill]
  · intro row hrow
    exact rowReflects_newRows catalog extraction jdId _ row hrow
  · have hnodup := (matchedBySkill_first _ (requiredFirst_matchesOf catalog extraction)).1
    rw [canonicalSkillIds_newRows]
    have hfilter := hnodup.filterMap (f := id) (by
      intro a a' b hb hb'
      exact (Option.mem_def.mp hb).trans (Option.mem_def.mp hb').symm)
    rwa [List.filterMap_map] at hfilter
  · intro c
    rw [canonicalSkillIds_newRows, ← mem_keptSkills, List.mem_filterMap, List.mem_map]

theorem linkedFirst_persistSkills (store : SkillStore) (jdId : Uuid)
    (hfresh : ∀ link ∈ store.jdUnknownSkills.rows, link.jdId ≠ jdId)
    (skillMatches : List SkillMatchResult) :
    LinkedFirst jdId skillMatches (persistSkills store jdId skillMatches) := by
  have hlinks := (@addJdSkill_frame store jdId skillMatches (matchedBySkill skillMatches)).2.1
  have hstart : LinkedFirst jdId []
      ((matchedBySkill skillMatches).foldl (addJdSkill jdId skillMatches) store) := by
    constructor
    · simp
    · intro link hlink hjd
      rw [hlinks] at hlink
      exact absurd hjd (hfresh link hlink)
  exact linkedFirst_foldl jdId [] skillMatches _ hstart

theorem persistProcessedJd_id (db db' : JdDatabase) (request : PersistRequest) (jdId : Uuid)
    (h : persistProcessedJd db request = .ok (db', jdId)) :
    jdId = db.jobDescriptions.versions.next := by
  simp only [persistProcessedJd, bind_eq_ok] at h
  obtain ⟨-, -, hwrites⟩ := h
  obtain ⟨columns, jobDescriptions, hinsert, -⟩ := persistWrites_eq_ok _ _ _ hwrites
  obtain ⟨-, -, hid⟩ := JobDescriptionTable.insert_eq_ok _ _ _ _ hinsert
  have hnext : (deactivateExisting db request).jobDescriptions.versions.next =
      db.jobDescriptions.versions.next := by
    rw [deactivateExisting]
    split <;> rfl
  exact hid.trans hnext

theorem skillsReflect_persistProcessedJd (db db' : JdDatabase) (hknown : SkillRun.LinksKnown db)
    (request : PersistRequest) (jdId : Uuid)
    (hmatches : request.skillMatches = matchesOf catalog request.extraction)
    (h : persistProcessedJd db request = .ok (db', jdId)) :
    ∃ jd ∈ db'.jobDescriptions.rows,
      jd.id = jdId ∧ SkillsReflect catalog request.extraction db db' jd := by
  have hwritten : (persistProcessedJd db request).toOption.map Prod.fst = some db' := by rw [h]; rfl
  obtain ⟨jd, hw, hverified, hstore⟩ := SkillRun.persistProcessedJd_writes request hwritten
  have hid := (persistProcessedJd_id db db' request jdId h).trans hw.id.symm
  have hfresh : ∀ link ∈ db.jdUnknownSkills.rows, link.jdId ≠ jd.id := by
    intro link hlink
    rw [hw.id]
    exact Nat.ne_of_lt (hknown link hlink)
  have hlinked := linkedFirst_persistSkills db.toSkillStore jd.id hfresh request.skillMatches
  rw [← hstore, hmatches] at hlinked
  refine ⟨jd, hw.has, hid.symm, ?_, ?_, ?_⟩
  · have hrows := rows_persistSkills catalog request.extraction db.toSkillStore jd.id
    rw [← hmatches, ← hstore] at hrows
    exact hrows
  · intro spec hspec hnone
    obtain ⟨m, hm, _, _, hmatch, -⟩ := matchesOf_of_spec catalog request.extraction spec hspec
    obtain ⟨link, hlink, hjd, hlinkId⟩ := hlinked.made m hm (hmatch.canonicalSkillId.trans hnone)
    rw [hmatch.rawText] at hlinkId
    obtain ⟨rawText, first, hfound, hfirst, hmandatory⟩ := hlinked.first link hlink hjd
    obtain rfl := eq_of_idOfText db'.toSkillStore rawText spec.name _ hfound hlinkId
    have hiff := mandatory_iff_of_find? catalog request.extraction
      (fun canonicalSkillId text => decide (canonicalSkillId = none ∧ text = spec.name))
      first hfirst
    simp only [decide_eq_true_eq] at hiff
    exact ⟨link, hlink, first.mandatory, hjd, hlinkId, hmandatory, hiff⟩
  · rw [hverified, hmatches, verification]
    have hall : ((matchesOf catalog request.extraction).all fun m =>
        m.canonicalSkillId.isSome) = true ↔
          ¬∃ link ∈ db'.jdUnknownSkills.rows, link.jdId = jd.id := by
      rw [List.all_eq_true]
      constructor
      · rintro hsome ⟨link, hlink, hjd⟩
        obtain ⟨rawText, first, -, hfirst, -⟩ := hlinked.first link hlink hjd
        have hunmatched := List.find?_some hfirst
        have hnone : first.canonicalSkillId = none := (of_decide_eq_true hunmatched).1
        have hmatched := hsome first (List.mem_of_find?_eq_some hfirst)
        rw [hnone] at hmatched
        simp at hmatched
      · intro hnolink m hm
        by_contra hunmatched
        have hnone : m.canonicalSkillId = none := by simpa using hunmatched
        obtain ⟨link, hlink, hjd, -⟩ := hlinked.made m hm hnone
        exact hnolink ⟨link, hlink, hjd⟩
    split_ifs with hsome
    · exact iff_of_true rfl (hall.mp hsome)
    · exact iff_of_false (by simp) fun hnolink => hsome (hall.mpr hnolink)

def pythonSkills : JDExtractionResponse :=
  { JDExtractionResponse.empty with
    requiredSkills := ⟨["python", "py"], []⟩
    preferredSkills := ["cobol"] }

def pythonCatalog (rawText : String) : CatalogMatch :=
  if rawText = "cobol" then ⟨none, .unknown, none, rawText⟩ else ⟨some 0, .exact, some 1, rawText⟩

def pythonJd : PersistRequest :=
  { JdLineage.content "jd" with
    extraction := pythonSkills
    skillMatches := matchesOf pythonCatalog pythonSkills }

theorem skillsReflect_python : ∃ db' jdId,
    persistProcessedJd SkillRun.noSkills pythonJd = .ok (db', jdId) ∧
      ∃ jd ∈ db'.jobDescriptions.rows,
        jd.id = jdId ∧ SkillsReflect pythonCatalog pythonSkills SkillRun.noSkills db' jd := by
  obtain ⟨⟨db', jdId⟩, hresult⟩ : ∃ result,
      persistProcessedJd SkillRun.noSkills pythonJd = .ok result := ⟨_, rfl⟩
  have hknown : SkillRun.LinksKnown SkillRun.noSkills := by
    intro link hlink
    simp [SkillRun.noSkills, SkillRun.begin, Table.empty] at hlink
  exact ⟨db', jdId, hresult, skillsReflect_persistProcessedJd pythonCatalog SkillRun.noSkills db'
    hknown pythonJd jdId rfl hresult⟩

end Persisted

end JDService

end AiHiring
