import AiHiring.Jd.Revalidation

namespace AiHiring

open Library

namespace ExtractionData

variable (casefold : String → String)

-- One of the texts has the key, once it is stripped.
def Among (texts : List String) (key : String) : Prop :=
  ∃ text ∈ texts, strip text ≠ "" ∧ casefold (strip text) = key

instance (texts : List String) (key : String) : Decidable (Among casefold texts key) :=
  inferInstanceAs (Decidable (∃ text ∈ texts, strip text ≠ "" ∧ casefold (strip text) = key))

variable (data : ExtractionData)

def requiredNames : List String :=
  (coerceRequired data.requiredSkills).core ++ (coerceRequired data.requiredSkills).supporting

def skillNames : List String := data.requiredNames ++ data.preferredSkills.filterMap itemName

def Capability (key : String) : Prop :=
  Among casefold (data.domainCapabilities.required ++ data.domainCapabilities.preferred) key

-- Some owner claims the key as an alias, both with the blanks they came with.
def Claimed (key : String) : Prop :=
  ∃ entry ∈ coerceAliases data, ∃ other ∈ entry.2,
    casefold other = key ∧ casefold other ≠ casefold entry.1

-- The same without the blanks.
def AliasFor (key owner : String) : Prop :=
  ∃ entry ∈ coerceAliases data, casefold (strip entry.1) = owner ∧
    Among casefold entry.2 key ∧ key ≠ owner

def Skill (key : String) : Prop :=
  Among casefold data.skillNames key ∧ ¬data.Capability casefold key ∧ ¬data.Claimed casefold key

end ExtractionData

section Cleaning

variable (casefold : String → String)

theorem mem_keys_cleanAfter (seen values : List String) (key : String) :
    key ∈ (cleanAfter casefold seen values).map casefold ↔
      key ∉ seen ∧ ExtractionData.Among casefold values key := by
  induction values generalizing seen with
  | nil => simp [cleanAfter, ExtractionData.Among]
  | cons value rest ih =>
    have hcons : ExtractionData.Among casefold (value :: rest) key ↔
        (strip value ≠ "" ∧ casefold (strip value) = key) ∨
          ExtractionData.Among casefold rest key := by
      simp [ExtractionData.Among]
    rw [cleanAfter, hcons]
    split_ifs with hskip
    · rw [ih]
      -- a value that is skipped is blank or has been seen
      apply and_congr_right
      intro hunseen
      apply (or_iff_right _).symm
      rintro ⟨hnonempty, rfl⟩
      exact hskip.elim hnonempty hunseen
    · obtain ⟨hnonempty, hunseen⟩ := not_or.mp hskip
      rw [List.map_cons, List.mem_cons, ih, List.mem_cons, not_or]
      by_cases hkey : key = casefold (strip value)
      · subst hkey
        simp [hnonempty, hunseen]
      · have hother : ¬casefold (strip value) = key := fun h => hkey h.symm
        simp [hkey, hother]

theorem mem_keys_cleanStringList (values : List String) (key : String) :
    key ∈ (cleanStringList casefold values).map casefold ↔
      ExtractionData.Among casefold values key := by
  rw [cleanStringList, mem_keys_cleanAfter]
  simp

theorem among_append (texts others : List String) (key : String) :
    ExtractionData.Among casefold (texts ++ others) key ↔
      ExtractionData.Among casefold texts key ∨ ExtractionData.Among casefold others key := by
  simp only [ExtractionData.Among, List.mem_append, or_and_right, exists_or]

theorem among_of_clean {values : List String} (h : Clean casefold values) (key : String) :
    ExtractionData.Among casefold values key ↔ key ∈ values.map casefold := by
  rw [← mem_keys_cleanStringList, cleanStringList_of_clean casefold values h]

end Cleaning

namespace JDExtractionResponse

variable (casefold : String → String)

theorem mem_keys_keepNames (blocked : String → Bool) (seen names : List String) (key : String) :
    key ∈ (keepNames casefold blocked seen names).map casefold ↔
      key ∉ seen ∧ blocked key = false ∧ key ∈ names.map casefold := by
  induction names generalizing seen with
  | nil => simp [keepNames]
  | cons name rest ih =>
    rw [keepNames, List.map_cons, List.mem_cons]
    split_ifs with hskip
    · rw [ih]
      apply and_congr_right
      intro hunseen
      apply and_congr_right
      intro hfree
      apply (or_iff_right _).symm
      rintro rfl
      rcases hskip with hseen | hblocked
      · exact hunseen hseen
      · simp [hfree] at hblocked
    · obtain ⟨hunseen, hfree⟩ := not_or.mp hskip
      rw [List.map_cons, List.mem_cons, ih, List.mem_cons, not_or]
      by_cases hkey : key = casefold name
      · subst hkey
        simp [hunseen, hfree]
      · simp [hkey]

theorem mem_keys_withKeptNames (self : JDExtractionResponse) (key : String) :
    key ∈ (self.withKeptNames casefold).allSkillNames.map casefold ↔
      key ∈ self.allSkillNames.map casefold ∧ self.blocked casefold key = false := by
  simp only [withKeptNames, allSkillNames, List.map_append, List.mem_append,
    mem_keys_keepNames, List.map_nil, List.not_mem_nil]
  -- a name that an earlier list keeps is still there
  by_cases hfree : self.blocked casefold key = false
  · simp only [hfree]
    tauto
  · simp [hfree]

section AliasKeys

open ExtractionData

-- The keys of what a map of aliases holds for one skill.
def aliasKeys (aliases : List (String × List String)) (skillName : String) : List String :=
  ((aliases.lookup skillName).getD []).map casefold

theorem mem_aliasKeys (aliases : List (String × List String))
    (hkeys : (aliases.map Prod.fst).Nodup) (skillName key : String) :
    key ∈ aliasKeys casefold aliases skillName ↔
      ∃ entry ∈ aliases, entry.1 = skillName ∧ ∃ other ∈ entry.2, casefold other = key := by
  unfold aliasKeys
  constructor
  · intro h
    obtain ⟨other, hother, rfl⟩ := List.mem_map.mp h
    cases hlookup : aliases.lookup skillName with
    | none => simp [hlookup] at hother
    | some values =>
      rw [hlookup, Option.getD_some] at hother
      have hentry := (mem_iff_lookup aliases hkeys skillName values).mpr hlookup
      exact ⟨(skillName, values), hentry, rfl, other, hother, rfl⟩
  · rintro ⟨⟨owner, values⟩, hentry, rfl, other, hother, rfl⟩
    rw [(mem_iff_lookup aliases hkeys owner values).mp hentry, Option.getD_some]
    exact List.mem_map_of_mem hother

theorem clean_previous (names : List String) (aliases : List (String × List String))
    (h : CleanAliases casefold names aliases) (skillName : String) :
    Clean casefold ((aliases.lookup skillName).getD []) ∧
      casefold skillName ∉ aliasKeys casefold aliases skillName := by
  unfold aliasKeys
  cases hlookup : aliases.lookup skillName with
  | none => exact ⟨clean_nil casefold, by simp⟩
  | some values =>
    have hentry := h.entries _ ((mem_iff_lookup aliases h.keys skillName values).mpr hlookup)
    refine ⟨hentry.clean, ?_⟩
    intro hmem
    obtain ⟨other, hother, heq⟩ := List.mem_map.mp hmem
    exact hentry.apart other hother heq

theorem mem_keys_mergedAliases (previous values : List String) (skillName key : String)
    (hprevious : Clean casefold previous) :
    key ∈ (mergedAliases casefold previous values skillName).map casefold ↔
      (key ∈ previous.map casefold ∨ Among casefold values key) ∧ key ≠ casefold skillName := by
  have hfilter (texts : List String) :
      key ∈ (texts.filter fun other => casefold other ≠ casefold skillName).map casefold ↔
        key ∈ texts.map casefold ∧ key ≠ casefold skillName := by
    simp only [List.mem_map, List.mem_filter, decide_eq_true_eq]
    constructor
    · rintro ⟨other, ⟨hother, hne⟩, rfl⟩
      exact ⟨⟨other, hother, rfl⟩, hne⟩
    · rintro ⟨⟨other, hother, rfl⟩, hne⟩
      exact ⟨other, ⟨hother, hne⟩, rfl⟩
  rw [mergedAliases, hfilter, mem_keys_cleanStringList, among_append,
    among_of_clean casefold hprevious]

theorem mem_aliasKeys_addCleaned (self : JDExtractionResponse)
    (cleaned : List (String × List String)) (entry : String × List String)
    (h : CleanAliases casefold self.allSkillNames cleaned) (skillName key : String) :
    key ∈ aliasKeys casefold (addCleaned casefold (self.skillByKey casefold) cleaned entry)
        skillName ↔
      key ∈ aliasKeys casefold cleaned skillName ∨
        (self.skillByKey casefold).lookup (casefold (strip entry.1)) = some skillName ∧
          Among casefold entry.2 key ∧ key ≠ casefold skillName := by
  rw [addCleaned]
  cases hlookup : (self.skillByKey casefold).lookup (casefold (strip entry.1)) with
  | none => simp
  | some owner =>
    obtain ⟨hprevious, hself⟩ := clean_previous casefold self.allSkillNames cleaned h owner
    have hkeys := mem_keys_mergedAliases casefold ((cleaned.lookup owner).getD []) entry.2 owner
    dsimp only
    generalize hmerged :
      mergedAliases casefold ((cleaned.lookup owner).getD []) entry.2 owner = merged
    have hmem (key : String) : key ∈ merged.map casefold ↔ key ∈ aliasKeys casefold cleaned owner ∨
          Among casefold entry.2 key ∧ key ≠ casefold owner := by
      rw [← hmerged, hkeys key hprevious, or_and_right]
      apply or_congr_left
      apply and_iff_left_of_imp
      rintro hold rfl
      exact hself hold
    by_cases howner : skillName = owner
    · subst howner
      simp only [true_and]
      split_ifs with hempty
      · -- nothing was merged, so nothing was there before either
        rw [hempty] at hmem
        have hnone := hmem key
        simp only [List.map_nil, List.not_mem_nil, false_iff, not_or] at hnone
        simp [hnone.1, hnone.2]
      · rw [← hmem key, aliasKeys, lookup_assign_self, Option.getD_some]
    · have hother : (some owner = some skillName) ↔ False := by
        simp [Ne.symm howner]
      rw [hother, false_and, or_false]
      split_ifs with hempty
      · rfl
      · rw [aliasKeys, lookup_assign_ne _ _ _ _ howner, aliasKeys]

theorem mem_aliasKeys_withCleanedAliases (self : JDExtractionResponse)
    (hnodup : (self.allSkillNames.map casefold).Nodup) (skillName key : String) :
    key ∈ aliasKeys casefold (self.withCleanedAliases casefold).aliases skillName ↔
      ∃ entry ∈ self.aliases,
        (self.skillByKey casefold).lookup (casefold (strip entry.1)) = some skillName ∧
          Among casefold entry.2 key ∧ key ≠ casefold skillName := by
  have hfold (entries cleaned : List (String × List String))
      (h : CleanAliases casefold self.allSkillNames cleaned) :
      key ∈ aliasKeys casefold
          (entries.foldl (addCleaned casefold (self.skillByKey casefold)) cleaned) skillName ↔
        key ∈ aliasKeys casefold cleaned skillName ∨ ∃ entry ∈ entries,
          (self.skillByKey casefold).lookup (casefold (strip entry.1)) = some skillName ∧
            Among casefold entry.2 key ∧ key ≠ casefold skillName := by
    induction entries generalizing cleaned with
    | nil => simp
    | cons entry rest ih =>
      rw [List.foldl_cons, ih _ (cleanAliases_addCleaned casefold self hnodup cleaned entry h),
        mem_aliasKeys_addCleaned casefold self cleaned entry h]
      simp only [List.mem_cons, exists_eq_or_imp, or_assoc]
  rw [withCleanedAliases, hfold self.aliases [] ⟨by simp, by simp⟩]
  simp [aliasKeys]

end AliasKeys

section Accepted

variable (data : ExtractionData) (self : JDExtractionResponse)

theorem mem_keys_validateFields (experience : Option Experience) (key : String) :
    key ∈ (validateFields casefold data experience).allSkillNames.map casefold ↔
      ExtractionData.Among casefold data.skillNames key := by
  simp only [validateFields, allSkillNames, List.map_append, List.mem_append,
    mem_keys_cleanStringList, ExtractionData.skillNames, ExtractionData.requiredNames,
    among_append]

theorem mem_capabilityKeys_validateFields (experience : Option Experience) (key : String) :
    key ∈ (validateFields casefold data experience).capabilityKeys casefold ↔
      data.Capability casefold key := by
  simp only [validateFields, capabilityKeys, List.map_append, List.mem_append,
    mem_keys_cleanStringList, ExtractionData.Capability, among_append]

theorem blocked_validateFields (experience : Option Experience) (key : String) :
    (validateFields casefold data experience).blocked casefold key = false ↔
      ¬data.Capability casefold key ∧ ¬data.Claimed casefold key := by
  rw [blocked, decide_eq_false_iff_not, not_or, mem_capabilityKeys_validateFields, aliasOwner_any]
  rfl

variable (h : modelValidate casefold data = .ok self)

include h

theorem mem_skillKeys (key : String) :
    key ∈ self.allSkillNames.map casefold ↔ data.Skill casefold key := by
  obtain ⟨-, rfl⟩ := (modelValidate_eq_ok casefold data self).mp h
  have hkept := mem_keys_withKeptNames casefold (validateFields casefold data data.experience) key
  rw [mem_keys_validateFields, blocked_validateFields] at hkept
  exact hkept

theorem mem_capabilityKeys (key : String) :
    key ∈ self.capabilityKeys casefold ↔ data.Capability casefold key := by
  obtain ⟨-, rfl⟩ := (modelValidate_eq_ok casefold data self).mp h
  rw [← mem_capabilityKeys_validateFields casefold data data.experience]
  generalize validateFields casefold data data.experience = fields
  -- what a preferred capability loses stays as a required one
  show key ∈ (fields.domainCapabilities.required ++
      fields.domainCapabilities.preferred.filter fun value =>
        casefold value ∉ fields.domainCapabilities.required.map casefold).map casefold ↔ _
  rw [capabilityKeys, List.map_append, List.map_append, List.mem_append, List.mem_append]
  by_cases hrequired : key ∈ fields.domainCapabilities.required.map casefold
  · simp [hrequired]
  · rw [or_iff_right hrequired, or_iff_right hrequired]
    constructor
    · exact fun hmem => (List.filter_sublist.map casefold).subset hmem
    · intro hmem
      obtain ⟨value, hvalue, rfl⟩ := List.mem_map.mp hmem
      exact List.mem_map_of_mem (List.mem_filter.mpr ⟨hvalue, decide_eq_true hrequired⟩)

theorem isAlias_iff (key : String) : self.IsAlias casefold key ↔
      ∃ owner, data.AliasFor casefold key owner ∧ data.Skill casefold owner := by
  have hwell := wellFormed_modelValidate casefold data self h
  have hskill := mem_skillKeys casefold data self h
  obtain ⟨-, hself⟩ := (modelValidate_eq_ok casefold data self).mp h
  generalize hkept : (validateFields casefold data data.experience).withKeptNames casefold = kept
  have hnames : kept.allSkillNames = self.allSkillNames := by
    rw [← hself, ← hkept]
    rfl
  have haliases : self.aliases = (kept.withCleanedAliases casefold).aliases := by
    rw [← hself, ← hkept]
    rfl
  have hsource : kept.aliases = coerceAliases data := by
    rw [← hkept]
    rfl
  have hnodup : (kept.allSkillNames.map casefold).Nodup := hnames ▸ hwell.names.nodup
  have hholds := mem_aliasKeys casefold self.aliases hwell.aliases.keys
  have hadded := mem_aliasKeys_withCleanedAliases casefold kept hnodup
  rw [← haliases, hsource] at hadded
  have hlookup := lookup_skillByKey casefold kept hnodup
  constructor
  · rintro ⟨entry, hentry, other, hother, rfl⟩
    have hmem := (hholds entry.1 _).mpr ⟨entry, hentry, rfl, other, hother, rfl⟩
    obtain ⟨source, hin, howner, hamong, hne⟩ := (hadded entry.1 _).mp hmem
    obtain ⟨hname, hkey⟩ := (hlookup _ _).mp howner
    rw [hnames] at hname
    refine ⟨casefold entry.1, ⟨source, hin, hkey.symm, hamong, hne⟩, ?_⟩
    exact (hskill _).mp (List.mem_map_of_mem hname)
  · rintro ⟨owner, ⟨source, hin, rfl, hamong, hne⟩, howner⟩
    obtain ⟨name, hname, hkey⟩ := List.mem_map.mp ((hskill _).mpr howner)
    have hfound := (hlookup _ _).mpr ⟨hnames ▸ hname, hkey⟩
    have hmem := (hadded name key).mpr ⟨source, hin, hfound, hamong, hkey ▸ hne⟩
    obtain ⟨entry, hentry, -, other, hother, hsame⟩ := (hholds name key).mp hmem
    exact ⟨entry, hentry, other, hother, hsame⟩

end Accepted

-- The rules of `dedupe_skill_lists`, and that it changes nothing the second time.
structure NormalForm (extraction : JDExtractionResponse) : Prop where
  once : (extraction.allSkillNames.map casefold).Nodup
  noAlias : ∀ name ∈ extraction.allSkillNames, ∀ entry ∈ extraction.aliases,
    casefold entry.1 ≠ casefold name → ∀ other ∈ entry.2, casefold other ≠ casefold name
  noCapability : ∀ name ∈ extraction.allSkillNames,
    casefold name ∉ extraction.capabilityKeys casefold
  owner : ∀ entry ∈ extraction.aliases, entry.1 ∈ extraction.allSkillNames
  others : ∀ entry ∈ extraction.aliases, ∀ other ∈ entry.2, casefold other ≠ casefold entry.1
  repeated : ∀ entry ∈ extraction.aliases, (entry.2.map casefold).Nodup
  disjoint : ∀ value ∈ extraction.domainCapabilities.preferred,
    casefold value ∉ extraction.domainCapabilities.required.map casefold
  fixed : modelValidate casefold extraction.modelDump = .ok extraction

theorem normalForm_of_noSkillIsAlias (self : JDExtractionResponse) (h : WellFormed casefold self)
    (hnone : self.NoSkillIsAlias casefold) : NormalForm casefold self where
  once := h.names.nodup
  noAlias name hname entry hentry _ other hother heq :=
    hnone name hname ⟨entry, hentry, other, hother, heq⟩
  noCapability := h.noCapability
  owner entry hentry := (h.aliases.entries entry hentry).owner
  others entry hentry := (h.aliases.entries entry hentry).apart
  repeated entry hentry := (h.aliases.entries entry hentry).clean.nodup
  disjoint := h.disjoint
  fixed := by
    have howner := fun entry hentry => (h.aliases.entries entry hentry).owner
    rw [modelValidate_modelDump casefold self h,
      withoutAliasNames_of_noSkillIsAlias casefold self howner hnone]

theorem NormalForm.noSkillIsAlias {self : JDExtractionResponse} (h : NormalForm casefold self) :
    self.NoSkillIsAlias casefold := by
  rintro name hname ⟨entry, hentry, other, hother, heq⟩
  have hapart : casefold entry.1 ≠ casefold name := by
    intro howner
    exact h.others entry hentry other hother (heq.trans howner.symm)
  exact h.noAlias name hname entry hentry hapart other hother heq

end JDExtractionResponse

namespace ExtractionData

variable (casefold : String → String) (data : ExtractionData)

-- Two listed skills, one the other's alias but for the blanks around it: one of them is dropped.
def AliasesApart : Prop :=
  ∀ key owner, data.AliasFor casefold key owner → data.Skill casefold owner →
    ¬data.Skill casefold key

-- What the owner of a dropped name must be for the name to stay under it.
def ClaimedByASkill (key : String) : Prop :=
  ∃ owner, data.AliasFor casefold key owner ∧ data.Skill casefold owner

end ExtractionData

namespace JdCleaning

open JDExtractionResponse

variable (casefold : String → String) (data : ExtractionData) (self : JDExtractionResponse)

theorem normalForm_iff (h : modelValidate casefold data = .ok self) :
    NormalForm casefold self ↔ data.AliasesApart casefold := by
  have hwell := wellFormed_modelValidate casefold data self h
  have hskill := mem_skillKeys casefold data self h
  have halias := isAlias_iff casefold data self h
  constructor
  · intro hnormal key owner hfor howner hkey
    obtain ⟨name, hname, rfl⟩ := List.mem_map.mp ((hskill key).mpr hkey)
    exact hnormal.noSkillIsAlias casefold name hname ((halias _).mpr ⟨owner, hfor, howner⟩)
  · intro hapart
    apply normalForm_of_noSkillIsAlias casefold self hwell
    intro name hname hisAlias
    obtain ⟨owner, hfor, howner⟩ := (halias _).mp hisAlias
    exact hapart _ owner hfor howner ((hskill _).mp (List.mem_map_of_mem hname))

-- A skill, a domain capability, or an alias that a kept skill lists.
def Accounted (key : String) : Prop :=
  key ∈ self.allSkillNames.map casefold ∨ key ∈ self.capabilityKeys casefold ∨
    ∃ entry ∈ self.aliases, entry.1 ∈ self.allSkillNames ∧ ∃ other ∈ entry.2, casefold other = key

theorem accounted_iff (h : modelValidate casefold data = .ok self) (key : String) :
    Accounted casefold self key ↔ data.Skill casefold key ∨ data.Capability casefold key ∨
      data.ClaimedByASkill casefold key := by
  have hwell := wellFormed_modelValidate casefold data self h
  have hlisted : (∃ entry ∈ self.aliases, entry.1 ∈ self.allSkillNames ∧
      ∃ other ∈ entry.2, casefold other = key) ↔ self.IsAlias casefold key := by
    constructor
    · rintro ⟨entry, hentry, -, hother⟩
      exact ⟨entry, hentry, hother⟩
    · rintro ⟨entry, hentry, hother⟩
      exact ⟨entry, hentry, (hwell.aliases.entries entry hentry).owner, hother⟩
  rw [Accounted, mem_skillKeys casefold data self h, mem_capabilityKeys casefold data self h,
    hlisted, isAlias_iff casefold data self h]
  rfl

theorem required_accounted_iff (h : modelValidate casefold data = .ok self) (name : String)
    (hname : name ∈ data.requiredNames) (hblank : NonBlank name) :
    Accounted casefold self (casefold (strip name)) ↔
      (data.Claimed casefold (casefold (strip name)) →
        data.Capability casefold (casefold (strip name)) ∨
          data.ClaimedByASkill casefold (casefold (strip name))) := by
  have hamong : ExtractionData.Among casefold data.skillNames (casefold (strip name)) :=
    ⟨name, List.mem_append_left _ hname, (strip_ne_empty name).mpr hblank, rfl⟩
  rw [accounted_iff casefold data self h]
  generalize casefold (strip name) = key at hamong ⊢
  constructor
  · rintro (hskill | hother) hclaimed
    · exact absurd hclaimed hskill.2.2
    · exact hother
  · intro hfree
    by_cases hclaimed : data.Claimed casefold key
    · exact .inr (hfree hclaimed)
    · by_cases hcapability : data.Capability casefold key
      · exact .inr (.inl hcapability)
      · exact .inl ⟨hamong, hcapability, hclaimed⟩

def coreSkills (core : List String) (aliases : List (String × List String)) : ExtractionData :=
  { JDExtractionResponse.empty.modelDump with
    requiredSkills := .lists ⟨core, []⟩
    aliases := .map aliases }

def accepted (data : ExtractionData) : JDExtractionResponse :=
  (validateFields id data none).dedupeSkillLists id

theorem modelValidate_coreSkills (core : List String) (aliases : List (String × List String)) :
    modelValidate id (coreSkills core aliases) = .ok (accepted (coreSkills core aliases)) :=
  rfl

theorem normalForm_iff_synonym :
    NormalForm id (accepted (coreSkills ["java", "jdk"] [("java", ["jdk"])])) ↔
      (coreSkills ["java", "jdk"] [("java", ["jdk"])]).AliasesApart id :=
  normalForm_iff id _ _ (modelValidate_coreSkills ["java", "jdk"] [("java", ["jdk"])])

-- The alias that comes with a blank is only met when the dump is validated again.
theorem spaced_alias_is_a_skill :
    ¬∀ (casefold : String → String) (data : ExtractionData) (self : JDExtractionResponse),
      (∀ text, casefold (casefold text) = casefold text) →
        modelValidate casefold data = .ok self → NormalForm casefold self := by
  intro h
  have hnormal := h id _ _ (fun _ => rfl)
    (modelValidate_coreSkills ["java", "jdk"] [("java", [" jdk"])])
  have hnone := hnormal.noSkillIsAlias id "jdk" (by decide)
  exact hnone (by decide)

theorem required_accounted_iff_synonym :
    Accounted id (accepted (coreSkills ["java", "jdk"] [("java", ["jdk"])])) (id (strip "jdk")) ↔
      ((coreSkills ["java", "jdk"] [("java", ["jdk"])]).Claimed id (id (strip "jdk")) →
        (coreSkills ["java", "jdk"] [("java", ["jdk"])]).Capability id (id (strip "jdk")) ∨
          (coreSkills ["java", "jdk"] [("java", ["jdk"])]).ClaimedByASkill id (id (strip "jdk"))) :=
  required_accounted_iff id _ _ (modelValidate_coreSkills ["java", "jdk"] [("java", ["jdk"])])
    "jdk" (by decide) (by decide)

-- Each of the two names is the other's alias, and neither is left.
theorem mutual_aliases_vanish :
    ¬∀ (casefold : String → String) (data : ExtractionData) (self : JDExtractionResponse),
      (∀ text, casefold (casefold text) = casefold text) →
        modelValidate casefold data = .ok self → ∀ name ∈ data.requiredNames, NonBlank name →
            Accounted casefold self (casefold (strip name)) := by
  intro h
  have haccounted := h id _ _ (fun _ => rfl)
    (modelValidate_coreSkills ["java", "jdk"] [("java", ["jdk"]), ("jdk", ["java"])])
    "java" (by decide) (by decide)
  unfold Accounted at haccounted
  exact absurd haccounted (by decide)

end JdCleaning

end AiHiring
