import AiHiring.Jd.Validation

namespace AiHiring

open Library

section Cleaning

variable (casefold : String → String)

-- What `_clean_string_list` returns: no blank ends, nothing empty, nothing twice.
structure Clean (values : List String) : Prop where
  stripped : ∀ value ∈ values, strip value = value
  nonempty : ∀ value ∈ values, value ≠ ""
  nodup : (values.map casefold).Nodup

theorem clean_nil : Clean casefold [] := ⟨by simp, by simp, by simp⟩

variable {casefold}

theorem Clean.sublist {values kept : List String} (h : Clean casefold values)
    (hkept : kept.Sublist values) : Clean casefold kept where
  stripped value hvalue := h.stripped value (hkept.subset hvalue)
  nonempty value hvalue := h.nonempty value (hkept.subset hvalue)
  nodup := h.nodup.sublist (hkept.map casefold)

theorem Clean.filter {values : List String} (h : Clean casefold values) (p : String → Bool) :
    Clean casefold (values.filter p) :=
  h.sublist List.filter_sublist

variable (casefold)

theorem cleanAfter_spec (seen values : List String) :
    Clean casefold (cleanAfter casefold seen values) ∧
      ∀ value ∈ cleanAfter casefold seen values, casefold value ∉ seen := by
  induction values generalizing seen with
  | nil => exact ⟨clean_nil casefold, by simp [cleanAfter]⟩
  | cons value rest ih =>
    rw [cleanAfter]
    split_ifs with hskip
    · exact ih seen
    · obtain ⟨hnonempty, hunseen⟩ := not_or.mp hskip
      obtain ⟨hclean, hfresh⟩ := ih (casefold (strip value) :: seen)
      have hnodup : casefold (strip value) ∉
          (cleanAfter casefold (casefold (strip value) :: seen) rest).map casefold := by
        intro hmem
        obtain ⟨other, hother, heq⟩ := List.mem_map.mp hmem
        exact hfresh other hother (heq ▸ List.mem_cons_self)
      refine ⟨⟨?_, ?_, ?_⟩, ?_⟩
      · exact List.forall_mem_cons.mpr ⟨strip_strip value, hclean.stripped⟩
      · exact List.forall_mem_cons.mpr ⟨hnonempty, hclean.nonempty⟩
      · exact List.nodup_cons.mpr ⟨hnodup, hclean.nodup⟩
      · intro other hother hseen
        rcases List.mem_cons.mp hother with heq | hother
        · exact hunseen (heq ▸ hseen)
        · exact hfresh other hother (List.mem_cons_of_mem _ hseen)

theorem clean_cleanStringList (values : List String) :
    Clean casefold (cleanStringList casefold values) :=
  (cleanAfter_spec casefold [] values).1

theorem cleanAfter_of_clean (seen values : List String) (h : Clean casefold values)
    (hseen : ∀ value ∈ values, casefold value ∉ seen) :
    cleanAfter casefold seen values = values := by
  induction values generalizing seen with
  | nil => rfl
  | cons value rest ih =>
    have hstrip := h.stripped value List.mem_cons_self
    have hnonempty := h.nonempty value List.mem_cons_self
    have hunseen := hseen value List.mem_cons_self
    obtain ⟨hfresh, -⟩ := List.nodup_cons.mp h.nodup
    rw [cleanAfter, hstrip, if_neg (not_or.mpr ⟨hnonempty, hunseen⟩)]
    congr 1
    apply ih _ (h.sublist (List.sublist_cons_self value rest))
    intro other hother hmem
    rcases List.mem_cons.mp hmem with heq | hmem
    · exact hfresh (heq ▸ List.mem_map_of_mem hother)
    · exact hseen other (List.mem_cons_of_mem _ hother) hmem

theorem cleanStringList_of_clean (values : List String) (h : Clean casefold values) :
    cleanStringList casefold values = values :=
  cleanAfter_of_clean casefold [] values h (by simp)

theorem cleanOptionalString_idem (value : Option String) :
    cleanOptionalString (cleanOptionalString value) = cleanOptionalString value := by
  cases value with
  | none => rfl
  | some given =>
    by_cases hempty : strip given = ""
    · simp [cleanOptionalString, hempty, Option.filter]
    · simp [cleanOptionalString, hempty, strip_strip, Option.filter]

theorem ofVocabulary_idem (vocabulary : List String) (value : String) :
    ofVocabulary vocabulary (ofVocabulary vocabulary value) = ofVocabulary vocabulary value := by
  unfold ofVocabulary
  split_ifs <;> rfl

theorem validateEducation_idem (education : Education) :
    validateEducation (validateEducation education) = validateEducation education := by
  simp only [validateEducation, cleanOptionalString_idem, ofVocabulary_idem]

theorem validateExperience_eq_ok (given experience : Experience)
    (h : validateExperience given = .ok experience) : experience = given := by
  unfold validateExperience at h
  split_ifs at h
  exact (Except.ok.inj h).symm

end Cleaning

namespace JDExtractionResponse

variable (casefold : String → String)

theorem keepNames_sublist (blocked : String → Bool) (seen names : List String) :
    (keepNames casefold blocked seen names).Sublist names := by
  induction names generalizing seen with
  | nil => exact List.Sublist.slnil
  | cons name rest ih =>
    rw [keepNames]
    split_ifs
    · exact (ih seen).cons name
    · exact (ih _).cons_cons name

theorem keepNames_spec (blocked : String → Bool) (seen names : List String) :
    ((keepNames casefold blocked seen names).map casefold).Nodup ∧
      ∀ name ∈ keepNames casefold blocked seen names,
        casefold name ∉ seen ∧ blocked (casefold name) = false := by
  induction names generalizing seen with
  | nil => exact ⟨by simp [keepNames], by simp [keepNames]⟩
  | cons name rest ih =>
    rw [keepNames]
    split_ifs with hskip
    · exact ih seen
    · obtain ⟨hunseen, hfree⟩ := not_or.mp hskip
      obtain ⟨hnodup, hkept⟩ := ih (casefold name :: seen)
      constructor
      · apply List.nodup_cons.mpr ⟨?_, hnodup⟩
        intro hmem
        obtain ⟨other, hother, heq⟩ := List.mem_map.mp hmem
        exact (hkept other hother).1 (heq ▸ List.mem_cons_self)
      · intro other hother
        rcases List.mem_cons.mp hother with rfl | hother
        · exact ⟨hunseen, by simpa using hfree⟩
        · obtain ⟨hnew, hfree'⟩ := hkept other hother
          exact ⟨fun hseen => hnew (List.mem_cons_of_mem _ hseen), hfree'⟩

theorem keepNames_eq_filter (blocked : String → Bool) (seen names : List String)
    (hnodup : (names.map casefold).Nodup) (hseen : ∀ name ∈ names, casefold name ∉ seen) :
    keepNames casefold blocked seen names = names.filter fun name => !blocked (casefold name) := by
  induction names generalizing seen with
  | nil => rfl
  | cons name rest ih =>
    obtain ⟨hfresh, hrest⟩ := List.nodup_cons.mp hnodup
    have hunseen := hseen name List.mem_cons_self
    have hlater := fun other hother => hseen other (List.mem_cons_of_mem _ hother)
    cases hblocked : blocked (casefold name) with
    | true =>
      rw [keepNames, if_pos (.inr hblocked), ih seen hrest hlater]
      simp [hblocked]
    | false =>
      have hkeep : ¬(casefold name ∈ seen ∨ blocked (casefold name) = true) := by
        simp [hunseen, hblocked]
      rw [keepNames, if_neg hkeep, List.filter_cons_of_pos (by simp [hblocked])]
      congr 1
      apply ih _ hrest
      intro other hother hmem
      rcases List.mem_cons.mp hmem with heq | hmem
      · exact hfresh (heq ▸ List.mem_map_of_mem hother)
      · exact hlater other hother hmem

variable (aliases : List (String × List String)) (data : ExtractionData)
  (self : JDExtractionResponse)

theorem withKeptNames_clean (hcore : Clean casefold self.requiredSkills.core)
    (hsupporting : Clean casefold self.requiredSkills.supporting)
    (hpreferred : Clean casefold self.preferredSkills) :
    Clean casefold (self.withKeptNames casefold).allSkillNames ∧
      ∀ name ∈ (self.withKeptNames casefold).allSkillNames,
        self.blocked casefold (casefold name) = false := by
  simp only [withKeptNames, allSkillNames, List.map_nil]
  have hspec := keepNames_spec casefold (self.blocked casefold)
  have hsub := keepNames_sublist casefold (self.blocked casefold)
  -- the names kept of each list
  generalize hkept₁ : keepNames casefold (self.blocked casefold) [] self.requiredSkills.core = kept₁
  generalize hkept₂ : keepNames casefold (self.blocked casefold) (kept₁.map casefold)
    self.requiredSkills.supporting = kept₂
  generalize hkept₃ : keepNames casefold (self.blocked casefold) ((kept₁ ++ kept₂).map casefold)
    self.preferredSkills = kept₃
  have hclean₁ := hcore.sublist (hkept₁ ▸ hsub [] _)
  have hclean₂ := hsupporting.sublist (hkept₂ ▸ hsub (kept₁.map casefold) _)
  have hclean₃ := hpreferred.sublist (hkept₃ ▸ hsub ((kept₁ ++ kept₂).map casefold) _)
  have hspec₁ := hkept₁ ▸ hspec [] self.requiredSkills.core
  have hspec₂ := hkept₂ ▸ hspec (kept₁.map casefold) self.requiredSkills.supporting
  have hspec₃ := hkept₃ ▸ hspec ((kept₁ ++ kept₂).map casefold) self.preferredSkills
  have hapart {seen fresh : List String} (hnew : ∀ name ∈ fresh, casefold name ∉ seen.map casefold) :
      ∀ key ∈ seen.map casefold, ∀ other ∈ fresh.map casefold, key ≠ other := by
    intro key hkey other hother heq
    obtain ⟨name, hname, rfl⟩ := List.mem_map.mp hother
    exact hnew name hname (heq ▸ hkey)
  refine ⟨⟨?_, ?_, ?_⟩, ?_⟩
  · exact List.forall_mem_append.mpr
      ⟨List.forall_mem_append.mpr ⟨hclean₁.stripped, hclean₂.stripped⟩, hclean₃.stripped⟩
  · exact List.forall_mem_append.mpr
      ⟨List.forall_mem_append.mpr ⟨hclean₁.nonempty, hclean₂.nonempty⟩, hclean₃.nonempty⟩
  · rw [List.map_append]
    apply List.nodup_append.mpr ⟨?_, hclean₃.nodup, hapart fun name hname => (hspec₃.2 name hname).1⟩
    rw [List.map_append]
    exact List.nodup_append.mpr
      ⟨hclean₁.nodup, hclean₂.nodup, hapart fun name hname => (hspec₂.2 name hname).1⟩
  · have hfree₁ := fun name hname => (hspec₁.2 name hname).2
    have hfree₂ := fun name hname => (hspec₂.2 name hname).2
    have hfree₃ := fun name hname => (hspec₃.2 name hname).2
    exact List.forall_mem_append.mpr ⟨List.forall_mem_append.mpr ⟨hfree₁, hfree₂⟩, hfree₃⟩

-- Some skill's aliases hold the key.
def IsAlias (key : String) : Prop :=
  ∃ entry ∈ self.aliases, ∃ other ∈ entry.2, casefold other = key

instance (self : JDExtractionResponse) (key : String) : Decidable (self.IsAlias casefold key) :=
  inferInstanceAs (Decidable (∃ entry ∈ self.aliases, ∃ other ∈ entry.2, casefold other = key))

def NoSkillIsAlias : Prop :=
  ∀ name ∈ self.allSkillNames, ¬self.IsAlias casefold (casefold name)

instance (self : JDExtractionResponse) : Decidable (self.NoSkillIsAlias casefold) :=
  inferInstanceAs (Decidable (∀ name ∈ self.allSkillNames, ¬self.IsAlias casefold (casefold name)))

theorem mem_aliasPairs (key owner : String) :
    (key, owner) ∈ self.aliasPairs casefold ↔ ∃ entry ∈ self.aliases, owner = casefold entry.1 ∧
        ∃ other ∈ entry.2, casefold other = key ∧ key ≠ owner := by
  simp only [aliasPairs, List.mem_flatMap, List.mem_map, List.mem_filter, Prod.mk.injEq,
    decide_eq_true_eq]
  constructor
  · rintro ⟨entry, hentry, other, ⟨hother, hne⟩, rfl, rfl⟩
    exact ⟨entry, hentry, rfl, other, hother, rfl, hne⟩
  · rintro ⟨entry, hentry, rfl, other, hother, rfl, hne⟩
    exact ⟨entry, hentry, other, ⟨hother, hne⟩, rfl, rfl⟩

-- The owner that a later entry leaves in `alias_owner` never matters.
theorem aliasOwner_any (key : String) :
    ((self.aliasOwner casefold).lookup key).any (· ≠ key) = true ↔
      ∃ entry ∈ self.aliases, ∃ other ∈ entry.2, casefold other = key ∧
        casefold other ≠ casefold entry.1 := by
  constructor
  · intro h
    cases hlookup : (self.aliasOwner casefold).lookup key with
    | none => simp [hlookup] at h
    | some owner =>
      have hpair := mem_of_lookup_ofPairs _ _ _ hlookup
      obtain ⟨entry, hentry, rfl, other, hother, rfl, hne⟩ :=
        (mem_aliasPairs casefold self _ _).mp hpair
      exact ⟨entry, hentry, other, hother, rfl, hne⟩
  · rintro ⟨entry, hentry, other, hother, rfl, hne⟩
    have hpair := (mem_aliasPairs casefold self _ _).mpr
      ⟨entry, hentry, rfl, other, hother, rfl, hne⟩
    have hsome := (lookup_ofPairs_isSome _ _).mpr (List.mem_map_of_mem hpair)
    obtain ⟨owner, hlookup⟩ := Option.isSome_iff_exists.mp hsome
    have howner := mem_of_lookup_ofPairs _ _ _ hlookup
    obtain ⟨-, -, -, -, -, -, hdiffer⟩ := (mem_aliasPairs casefold self _ _).mp howner
    rw [aliasOwner, hlookup]
    simpa using hdiffer.symm

theorem lookup_skillByKey (hnodup : (self.allSkillNames.map casefold).Nodup) (key name : String) :
    (self.skillByKey casefold).lookup key = some name ↔
      name ∈ self.allSkillNames ∧ casefold name = key := by
  have hkeys : ((self.allSkillNames.map fun name => (casefold name, name)).map Prod.fst).Nodup := by
    rw [List.map_map]
    exact hnodup
  rw [skillByKey, lookup_ofPairs_of_nodup _ hkeys]
  simp only [List.mem_map, Prod.mk.injEq]
  constructor
  · rintro ⟨found, hfound, hkey, rfl⟩
    exact ⟨hfound, hkey⟩
  · intro h
    exact ⟨name, h.1, h.2, rfl⟩

-- An entry of `cleaned_aliases`.
structure CleanEntry (names : List String) (entry : String × List String) : Prop where
  owner : entry.1 ∈ names
  clean : Clean casefold entry.2
  nonempty : entry.2 ≠ []
  apart : ∀ other ∈ entry.2, casefold other ≠ casefold entry.1

structure CleanAliases (names : List String) (aliases : List (String × List String)) : Prop where
  keys : (aliases.map Prod.fst).Nodup
  entries : ∀ entry ∈ aliases, CleanEntry casefold names entry

theorem mem_assign (dict : List (String × List String)) (name : String) (values : List String)
    (entry : String × List String) (h : entry ∈ assign dict name values) :
    entry = (name, values) ∨ entry ∈ dict := by
  induction dict with
  | nil => exact .inl (by simpa [assign] using h)
  | cons first rest ih =>
    rcases first with ⟨key, value⟩
    by_cases hkey : key = name
    · rw [assign, if_pos hkey] at h
      rcases List.mem_cons.mp h with heq | h
      · exact .inl (by rw [heq, hkey])
      · exact .inr (List.mem_cons_of_mem _ h)
    · rw [assign, if_neg hkey] at h
      rcases List.mem_cons.mp h with heq | h
      · exact .inr (heq ▸ List.mem_cons_self)
      · exact (ih h).imp_right (List.mem_cons_of_mem _)

theorem cleanAliases_addCleaned
    (hnodup : (self.allSkillNames.map casefold).Nodup) (cleaned : List (String × List String))
    (entry : String × List String) (h : CleanAliases casefold self.allSkillNames cleaned) :
    CleanAliases casefold self.allSkillNames
      (addCleaned casefold (self.skillByKey casefold) cleaned entry) := by
  rw [addCleaned]
  cases hlookup : (self.skillByKey casefold).lookup (casefold (strip entry.1)) with
  | none => exact h
  | some skillName =>
    obtain ⟨howner, -⟩ := (lookup_skillByKey casefold self hnodup _ _).mp hlookup
    dsimp only
    generalize hmerged : mergedAliases casefold ((cleaned.lookup skillName).getD []) entry.2
      skillName = merged
    split_ifs with hempty
    · exact h
    · have hclean : Clean casefold merged :=
        hmerged ▸ (clean_cleanStringList casefold _).filter _
      have hapart : ∀ other ∈ merged, casefold other ≠ casefold skillName := by
        intro other hother
        rw [← hmerged, mergedAliases] at hother
        simpa using (List.mem_filter.mp hother).2
      refine ⟨nodup_keys_assign _ _ _ h.keys, ?_⟩
      intro added hadded
      rcases mem_assign cleaned skillName merged added hadded with rfl | hadded
      · exact ⟨howner, hclean, hempty, hapart⟩
      · exact h.entries added hadded

theorem cleanAliases_withCleanedAliases (hnodup : (self.allSkillNames.map casefold).Nodup) :
    CleanAliases casefold self.allSkillNames (self.withCleanedAliases casefold).aliases := by
  have hfold (entries cleaned : List (String × List String))
      (h : CleanAliases casefold self.allSkillNames cleaned) :
      CleanAliases casefold self.allSkillNames
        (entries.foldl (addCleaned casefold (self.skillByKey casefold)) cleaned) := by
    induction entries generalizing cleaned with
    | nil => exact h
    | cons entry rest ih =>
      exact ih _ (cleanAliases_addCleaned casefold self hnodup cleaned entry h)
  exact hfold self.aliases [] ⟨by simp, by simp⟩

-- What `model_validate` makes of any input.
structure WellFormed (extraction : JDExtractionResponse) : Prop where
  names : Clean casefold extraction.allSkillNames
  aliases : CleanAliases casefold extraction.allSkillNames extraction.aliases
  noCapability : ∀ name ∈ extraction.allSkillNames, casefold name ∉ extraction.capabilityKeys casefold
  required : Clean casefold extraction.domainCapabilities.required
  preferred : Clean casefold extraction.domainCapabilities.preferred
  disjoint : ∀ value ∈ extraction.domainCapabilities.preferred,
    casefold value ∉ extraction.domainCapabilities.required.map casefold
  softSkills : Clean casefold extraction.softSkills
  responsibilities : Clean casefold extraction.responsibilities
  certifications : Clean casefold extraction.certifications
  experience : ∀ given, extraction.experience = some given → validateExperience given = .ok given
  education : extraction.education.map validateEducation = extraction.education
  employmentType : cleanOptionalString extraction.employmentType = extraction.employmentType
  workMode : cleanOptionalString extraction.workMode = extraction.workMode
  location : cleanOptionalString extraction.location = extraction.location

theorem validateGiven_eq_ok (experience checked : Option Experience) :
    validateGiven experience = .ok checked ↔ checked = experience ∧
      ∀ given, experience = some given → validateExperience given = .ok given := by
  cases experience with
  | none => simp [validateGiven, eq_comm]
  | some given =>
    simp only [validateGiven, map_eq_ok, Option.some.injEq, forall_eq']
    constructor
    · rintro ⟨found, hfound, rfl⟩
      obtain rfl := validateExperience_eq_ok given found hfound
      exact ⟨rfl, hfound⟩
    · rintro ⟨rfl, hvalid⟩
      exact ⟨given, hvalid, rfl⟩

theorem modelValidate_eq_ok :
    modelValidate casefold data = .ok self ↔
      (∀ given, data.experience = some given → validateExperience given = .ok given) ∧
        (validateFields casefold data data.experience).dedupeSkillLists casefold = self := by
  simp only [modelValidate, map_eq_ok, validateGiven_eq_ok]
  constructor
  · rintro ⟨experience, ⟨rfl, hvalid⟩, hself⟩
    exact ⟨hvalid, hself⟩
  · rintro ⟨hvalid, hself⟩
    exact ⟨data.experience, ⟨rfl, hvalid⟩, hself⟩

theorem wellFormed_modelValidate
    (h : modelValidate casefold data = .ok self) : WellFormed casefold self := by
  obtain ⟨hexperience, rfl⟩ := (modelValidate_eq_ok casefold data self).mp h
  have hclean := clean_cleanStringList casefold
  generalize hfields : validateFields casefold data data.experience = fields
  have hkept := withKeptNames_clean casefold fields (hfields ▸ hclean _) (hfields ▸ hclean _)
    (hfields ▸ hclean _)
  have hcapability : ∀ key, key ∉ fields.capabilityKeys casefold →
      key ∉ (fields.dedupeSkillLists casefold).capabilityKeys casefold := by
    intro key hkey hmem
    obtain ⟨value, hvalue, rfl⟩ := List.mem_map.mp hmem
    apply hkey
    apply List.mem_map_of_mem
    rcases List.mem_append.mp hvalue with hvalue | hvalue
    · exact List.mem_append_left _ hvalue
    · exact List.mem_append_right _ (List.mem_filter.mp hvalue).1
  constructor
  case names => exact hkept.1
  case aliases => exact cleanAliases_withCleanedAliases casefold _ hkept.1.nodup
  case noCapability =>
    intro name hname
    have hfree := hkept.2 name hname
    rw [blocked, decide_eq_false_iff_not, not_or] at hfree
    exact hcapability _ hfree.1
  case required => exact hfields ▸ hclean _
  case preferred => exact hfields ▸ (hclean _).filter _
  case disjoint =>
    intro value hvalue
    exact of_decide_eq_true (List.mem_filter.mp hvalue).2
  case softSkills => exact hfields ▸ hclean _
  case responsibilities => exact hfields ▸ hclean _
  case certifications => exact hfields ▸ hclean _
  case experience => exact hfields ▸ hexperience
  case education =>
    subst hfields
    show (data.education.map validateEducation).map validateEducation = _
    rw [Option.map_map]
    congr 1
    exact funext validateEducation_idem
  case employmentType => exact hfields ▸ cleanOptionalString_idem _
  case workMode => exact hfields ▸ cleanOptionalString_idem _
  case location => exact hfields ▸ cleanOptionalString_idem _

-- A skill that another skill's aliases hold is dropped, with its own aliases.
def withoutAliasNames : JDExtractionResponse :=
  let keep (name : String) : Bool := ¬self.IsAlias casefold (casefold name)
  { self with
    requiredSkills :=
      ⟨self.requiredSkills.core.filter keep, self.requiredSkills.supporting.filter keep⟩
    preferredSkills := self.preferredSkills.filter keep
    aliases := self.aliases.filter fun entry => keep entry.1 }

theorem filterMap_itemName (names : List String) (h : ∀ name ∈ names, name ≠ "") :
    (names.map SkillItem.name).filterMap itemName = names := by
  induction names with
  | nil => rfl
  | cons name rest ih =>
    have hname := h name List.mem_cons_self
    have hrest := ih fun other hother => h other (List.mem_cons_of_mem _ hother)
    simp [itemName, hname, hrest]

theorem foldl_itemAliases_name (names : List String) (aliases : List (String × List String)) :
    (names.map SkillItem.name).foldl itemAliases aliases = aliases := by
  induction names with
  | nil => rfl
  | cons name rest ih => exact ih

theorem validateFields_modelDump (h : WellFormed casefold self) :
    validateFields casefold self.modelDump self.modelDump.experience = self := by
  have hfixed := cleanStringList_of_clean casefold
  have hcore := h.names.sublist (List.sublist_append_of_sublist_left
    (List.sublist_append_left self.requiredSkills.core self.requiredSkills.supporting))
  have hsupporting := h.names.sublist (List.sublist_append_of_sublist_left
    (List.sublist_append_right self.requiredSkills.core self.requiredSkills.supporting))
  have hpreferred := h.names.sublist (List.sublist_append_right _ self.preferredSkills)
  have haliases : coerceAliases self.modelDump = self.aliases :=
    foldl_itemAliases_name self.preferredSkills self.aliases
  rw [validateFields, haliases]
  simp only [modelDump, coerceRequired, filterMap_itemName _ hpreferred.nonempty, h.education,
    h.employmentType, h.workMode, h.location, hfixed _ hcore, hfixed _ hsupporting,
    hfixed _ hpreferred, hfixed _ h.required, hfixed _ h.preferred, hfixed _ h.softSkills,
    hfixed _ h.responsibilities, hfixed _ h.certifications]

theorem blocked_eq (h : WellFormed casefold self) (name : String)
    (hname : name ∈ self.allSkillNames) :
    self.blocked casefold (casefold name) = decide (self.IsAlias casefold (casefold name)) := by
  rw [blocked]
  apply decide_eq_decide.mpr
  rw [aliasOwner_any, IsAlias, or_iff_right (h.noCapability name hname)]
  constructor
  · rintro ⟨entry, hentry, other, hother, hkey, -⟩
    exact ⟨entry, hentry, other, hother, hkey⟩
  · rintro ⟨entry, hentry, other, hother, hkey⟩
    exact ⟨entry, hentry, other, hother, hkey, (h.aliases.entries entry hentry).apart other hother⟩

theorem withKeptNames_eq (h : WellFormed casefold self) :
    let keep (name : String) : Bool := ¬self.IsAlias casefold (casefold name)
    self.withKeptNames casefold = { self with
      requiredSkills :=
        ⟨self.requiredSkills.core.filter keep, self.requiredSkills.supporting.filter keep⟩
      preferredSkills := self.preferredSkills.filter keep } := by
  intro keep
  have hnodup := h.names.nodup
  rw [allSkillNames, List.map_append, List.map_append, List.nodup_append, List.nodup_append]
    at hnodup
  obtain ⟨⟨hcore, hsupporting, hapart⟩, hpreferred, hapart'⟩ := hnodup
  have hkeep (seen names : List String) (hmem : ∀ name ∈ names, name ∈ self.allSkillNames)
      (hn : (names.map casefold).Nodup) (hseen : ∀ name ∈ names, casefold name ∉ seen) :
      keepNames casefold (self.blocked casefold) seen names = names.filter keep := by
    rw [keepNames_eq_filter casefold _ seen names hn hseen]
    apply List.filter_congr
    intro name hname
    rw [blocked_eq casefold self h name (hmem name hname)]
    simp [keep]
  have hcore' := hkeep [] self.requiredSkills.core (by simp [allSkillNames]; tauto) hcore (by simp)
  have hsupporting' := hkeep ((self.requiredSkills.core.filter keep).map casefold)
    self.requiredSkills.supporting (by simp [allSkillNames]; tauto) hsupporting (by
      intro name hname hmem
      have hold := (List.filter_sublist.map casefold).subset hmem
      exact hapart _ hold _ (List.mem_map_of_mem hname) rfl)
  have hpreferred' := hkeep ((self.requiredSkills.core.filter keep ++
    self.requiredSkills.supporting.filter keep).map casefold)
    self.preferredSkills (by simp [allSkillNames]; tauto) hpreferred (by
      intro name hname hmem
      have hold : casefold name ∈ self.requiredSkills.core.map casefold ++
          self.requiredSkills.supporting.map casefold := by
        rw [← List.map_append]
        exact ((List.filter_sublist.append List.filter_sublist).map casefold).subset hmem
      exact hapart' _ hold _ (List.mem_map_of_mem hname) rfl)
  simp only [withKeptNames, List.map_nil, hcore', hsupporting', hpreferred']

-- The entries of the skills in `kept` come out as they went in.
theorem foldl_addCleaned (names : List String) (kept : JDExtractionResponse)
    (hnames : Clean casefold names) (hkept : kept.allSkillNames.Sublist names)
    (entries cleaned : List (String × List String)) (hclean : CleanAliases casefold names entries)
    (hapart : ∀ entry ∈ entries, entry.1 ∉ cleaned.map Prod.fst) :
    entries.foldl (addCleaned casefold (kept.skillByKey casefold)) cleaned =
      cleaned ++ entries.filter fun entry => entry.1 ∈ kept.allSkillNames := by
  induction entries generalizing cleaned with
  | nil => simp
  | cons entry rest ih =>
    rcases entry with ⟨owner, values⟩
    have hentry := hclean.entries (owner, values) List.mem_cons_self
    obtain ⟨hfresh, hkeys⟩ := List.nodup_cons.mp hclean.keys
    have hrest : CleanAliases casefold names rest :=
      ⟨hkeys, fun other hother => hclean.entries other (List.mem_cons_of_mem _ hother)⟩
    have habsent := hapart (owner, values) List.mem_cons_self
    have hlookup (name : String) : (kept.skillByKey casefold).lookup (casefold (strip owner)) =
        some name ↔ name ∈ kept.allSkillNames ∧ name = owner := by
      rw [hnames.stripped owner hentry.owner,
        lookup_skillByKey casefold kept (hnames.sublist hkept).nodup]
      constructor
      · rintro ⟨hname, hkey⟩
        exact ⟨hname, List.inj_on_of_nodup_map hnames.nodup (hkept.subset hname) hentry.owner hkey⟩
      · rintro ⟨hname, rfl⟩
        exact ⟨hname, rfl⟩
    by_cases howner : owner ∈ kept.allSkillNames
    · have hmerged : mergedAliases casefold ((cleaned.lookup owner).getD []) values owner =
          values := by
        rw [mergedAliases, lookup_of_absent cleaned owner habsent, Option.getD_none,
          List.nil_append, cleanStringList_of_clean casefold values hentry.clean]
        apply List.filter_eq_self.mpr
        intro other hother
        exact decide_eq_true (hentry.apart other hother)
      have hstep : addCleaned casefold (kept.skillByKey casefold) cleaned (owner, values) =
          cleaned ++ [(owner, values)] := by
        rw [addCleaned, (hlookup owner).mpr ⟨howner, rfl⟩]
        dsimp only
        rw [hmerged, if_neg hentry.nonempty, assign_of_absent cleaned owner values habsent]
      rw [List.foldl_cons, hstep, ih _ hrest]
      · simp [howner]
      · intro other hother hmem
        rw [List.map_append, List.mem_append, List.map_singleton, List.mem_singleton] at hmem
        rcases hmem with hmem | heq
        · exact hapart other (List.mem_cons_of_mem _ hother) hmem
        · exact hfresh (heq ▸ List.mem_map_of_mem hother)
    · have hnone : (kept.skillByKey casefold).lookup (casefold (strip owner)) = none := by
        apply Option.eq_none_iff_forall_ne_some.mpr
        intro name hname
        obtain ⟨hmem, rfl⟩ := (hlookup name).mp hname
        exact howner hmem
      have hstep : addCleaned casefold (kept.skillByKey casefold) cleaned (owner, values) =
          cleaned := by
        rw [addCleaned, hnone]
      rw [List.foldl_cons, hstep, ih _ hrest]
      · simp [howner]
      · intro other hother
        exact hapart other (List.mem_cons_of_mem _ hother)

theorem allSkillNames_withoutAliasNames :
    (self.withoutAliasNames casefold).allSkillNames =
      self.allSkillNames.filter fun name => ¬self.IsAlias casefold (casefold name) := by
  simp only [allSkillNames, withoutAliasNames, List.filter_append]

theorem modelValidate_modelDump (h : WellFormed casefold self) :
    modelValidate casefold self.modelDump = .ok (self.withoutAliasNames casefold) := by
  apply (modelValidate_eq_ok casefold _ _).mpr
  refine ⟨h.experience, ?_⟩
  rw [validateFields_modelDump casefold self h, dedupeSkillLists]
  have hkept := withKeptNames_eq casefold self h
  generalize hself' : self.withKeptNames casefold = kept at hkept
  have hnames : kept.allSkillNames =
      self.allSkillNames.filter fun name => ¬self.IsAlias casefold (casefold name) := by
    rw [hkept]
    simp only [allSkillNames, List.filter_append]
  have haliases : (kept.withCleanedAliases casefold).aliases =
      self.aliases.filter fun entry => ¬self.IsAlias casefold (casefold entry.1) := by
    have hsame : kept.aliases = self.aliases := by rw [hkept]
    have hsub : kept.allSkillNames.Sublist self.allSkillNames := hnames ▸ List.filter_sublist
    rw [withCleanedAliases, hsame, foldl_addCleaned casefold _ kept h.names hsub self.aliases []
      h.aliases (by simp), List.nil_append]
    apply List.filter_congr
    intro entry hentry
    have howner := (h.aliases.entries entry hentry).owner
    simp [hnames, howner]
  have hdisjoint : (self.domainCapabilities.preferred.filter fun value =>
      casefold value ∉ self.domainCapabilities.required.map casefold) =
      self.domainCapabilities.preferred :=
    List.filter_eq_self.mpr fun value hvalue => decide_eq_true (h.disjoint value hvalue)
  have hcleaned : kept.withCleanedAliases casefold = { kept with
      aliases := self.aliases.filter fun entry => ¬self.IsAlias casefold (casefold entry.1) } := by
    rw [← haliases]
    rfl
  rw [hcleaned, hkept, withDisjointCapabilities]
  simp only [hdisjoint]
  rfl

theorem isAlias_jsonb (key : String) :
    self.jsonb.IsAlias casefold key ↔ self.IsAlias casefold key := by
  have hmem (entry : String × List String) : entry ∈ self.jsonb.aliases ↔ entry ∈ self.aliases :=
    mem_sortKeys keyRank self.aliases entry
  simp only [IsAlias, hmem]

theorem WellFormed.jsonb {extraction : JDExtractionResponse} (h : WellFormed casefold extraction) :
    WellFormed casefold extraction.jsonb where
  names := h.names
  aliases :=
    ⟨(nodup_keys_sortKeys keyRank _).mpr h.aliases.keys, fun entry hentry =>
      h.aliases.entries entry ((mem_sortKeys keyRank _ entry).mp hentry)⟩
  noCapability := h.noCapability
  required := h.required
  preferred := h.preferred
  disjoint := h.disjoint
  softSkills := h.softSkills
  responsibilities := h.responsibilities
  certifications := h.certifications
  experience := h.experience
  education := h.education
  employmentType := h.employmentType
  workMode := h.workMode
  location := h.location

-- What comes back when a validated extraction is stored and read again.
def reload : JDExtractionResponse :=
  self.jsonb.withoutAliasNames casefold

theorem modelValidate_stored (h : WellFormed casefold self) :
    modelValidate casefold self.modelDump.jsonb = .ok (self.reload casefold) := by
  rw [jsonb_modelDump]
  exact modelValidate_modelDump casefold self.jsonb h.jsonb

theorem wellFormed_reload (h : WellFormed casefold self) :
    WellFormed casefold (self.reload casefold) :=
  wellFormed_modelValidate casefold _ _ (modelValidate_stored casefold self h)

theorem jsonb_reload :
    (self.reload casefold).jsonb = self.reload casefold := by
  have hsorted : sortKeys keyRank (self.reload casefold).aliases = (self.reload casefold).aliases :=
    sortKeys_of_keysSorted keyRank _ ((keysSorted_sortKeys keyRank self.aliases).filter keyRank _)
  have hmetadata : jsonbObject (self.reload casefold).metadata =
      (self.reload casefold).metadata := jsonbObject_jsonbObject self.metadata
  rw [JDExtractionResponse.jsonb, hsorted, hmetadata]

theorem withoutAliasNames_of_noSkillIsAlias
    (howner : ∀ entry ∈ self.aliases, entry.1 ∈ self.allSkillNames)
    (h : self.NoSkillIsAlias casefold) : self.withoutAliasNames casefold = self := by
  have hkeep (names : List String) (hnames : ∀ name ∈ names, name ∈ self.allSkillNames) :
      (names.filter fun name => ¬self.IsAlias casefold (casefold name)) = names :=
    List.filter_eq_self.mpr fun name hname => decide_eq_true (h name (hnames name hname))
  have hcore := hkeep self.requiredSkills.core (by simp [allSkillNames]; tauto)
  have hsupporting := hkeep self.requiredSkills.supporting (by simp [allSkillNames]; tauto)
  have hpreferred := hkeep self.preferredSkills (by simp [allSkillNames]; tauto)
  have haliases : (self.aliases.filter fun entry => ¬self.IsAlias casefold (casefold entry.1)) =
      self.aliases :=
    List.filter_eq_self.mpr fun entry hentry => decide_eq_true (h entry.1 (howner entry hentry))
  rw [withoutAliasNames, hcore, hsupporting, hpreferred, haliases]

theorem noSkillIsAlias_withoutAliasNames :
    (self.withoutAliasNames casefold).NoSkillIsAlias casefold := by
  intro name hname hisAlias
  rw [allSkillNames_withoutAliasNames] at hname
  obtain ⟨entry, hentry, halias⟩ := hisAlias
  exact of_decide_eq_true (List.mem_filter.mp hname).2
    ⟨entry, (List.mem_filter.mp hentry).1, halias⟩

theorem reload_reload (h : WellFormed casefold self) :
    (self.reload casefold).reload casefold = self.reload casefold := by
  have howner := fun entry hentry =>
    ((wellFormed_reload casefold self h).aliases.entries entry hentry).owner
  rw [reload, jsonb_reload]
  exact withoutAliasNames_of_noSkillIsAlias casefold _ howner
    (noSkillIsAlias_withoutAliasNames casefold self.jsonb)

theorem reload_of_noSkillIsAlias (h : WellFormed casefold self)
    (hnone : self.NoSkillIsAlias casefold) : self.reload casefold = self.jsonb := by
  apply withoutAliasNames_of_noSkillIsAlias casefold self.jsonb
  · intro entry hentry
    exact (h.jsonb.aliases.entries entry hentry).owner
  · intro name hname
    rw [isAlias_jsonb]
    exact hnone name hname

theorem noSkillIsAlias_of_reload (h : (self.reload casefold).allSkillNames = self.allSkillNames) :
    self.NoSkillIsAlias casefold := by
  rw [reload, allSkillNames_withoutAliasNames] at h
  intro name hname
  have hkept := List.filter_eq_self.mp h name hname
  rw [← isAlias_jsonb]
  exact of_decide_eq_true hkept

-- The pairs of an owner and an alias, whatever the order of the owners.
def AliasOf (owner other : String) : Prop :=
  ∃ values, (owner, values) ∈ aliases ∧ other ∈ values

theorem aliasOf_extendAliases (name : String) (values : List String) (owner other : String) :
    AliasOf (extendAliases aliases name values) owner other ↔
      AliasOf aliases owner other ∨ owner = name ∧ other ∈ values := by
  unfold extendAliases AliasOf
  induction aliases with
  | nil => simp [assign]
  | cons entry rest ih =>
    rcases entry with ⟨key, old⟩
    by_cases hkey : key = name
    · subst hkey
      simp only [assign, if_true, lookup_cons_ite, Option.getD_some, List.mem_cons, Prod.mk.injEq]
      constructor
      · rintro ⟨found, ⟨rfl, rfl⟩ | hrest, hother⟩
        · rcases List.mem_append.mp hother with hold | hnew
          · exact .inl ⟨old, .inl ⟨rfl, rfl⟩, hold⟩
          · exact .inr ⟨rfl, hnew⟩
        · exact .inl ⟨found, .inr hrest, hother⟩
      · rintro (⟨found, ⟨rfl, rfl⟩ | hrest, hother⟩ | ⟨rfl, hother⟩)
        · exact ⟨_, .inl ⟨rfl, rfl⟩, List.mem_append_left _ hother⟩
        · exact ⟨found, .inr hrest, hother⟩
        · exact ⟨_, .inl ⟨rfl, rfl⟩, List.mem_append_right _ hother⟩
    · rw [assign, if_neg hkey, lookup_cons_ite, if_neg (Ne.symm hkey)]
      simp only [List.mem_cons, or_and_right, exists_or, ih, or_assoc]

theorem aliasOf_itemAliases (aliases' : List (String × List String))
    (h : ∀ owner other, AliasOf aliases owner other ↔ AliasOf aliases' owner other)
    (item : SkillItem) (owner other : String) :
    AliasOf (itemAliases aliases item) owner other ↔
      AliasOf (itemAliases aliases' item) owner other := by
  unfold itemAliases
  split
  · split_ifs
    · exact h owner other
    · rw [aliasOf_extendAliases, aliasOf_extendAliases, h]
  · exact h owner other

theorem aliasOf_coerceAliases_jsonb (owner other : String) :
    AliasOf (coerceAliases data.jsonb) owner other ↔ AliasOf (coerceAliases data) owner other := by
  have hfold (items : List SkillItem) (aliases aliases' : List (String × List String))
      (h : ∀ owner other, AliasOf aliases owner other ↔ AliasOf aliases' owner other) :
      AliasOf (items.foldl itemAliases aliases) owner other ↔
        AliasOf (items.foldl itemAliases aliases') owner other := by
    induction items generalizing aliases aliases' with
    | nil => exact h owner other
    | cons item rest ih => exact ih _ _ (aliasOf_itemAliases aliases aliases' h item)
  apply hfold
  intro owner other
  cases hdata : data.aliases with
  | map aliases =>
    simp only [ExtractionData.jsonb, hdata, AliasesData.jsonb, initialAliases, AliasOf,
      mem_sortKeys]
  | entries aliases => simp only [ExtractionData.jsonb, hdata, AliasesData.jsonb]

theorem blocked_congr (other : JDExtractionResponse)
    (hcapabilities : self.domainCapabilities = other.domainCapabilities)
    (haliases : ∀ owner name, AliasOf self.aliases owner name ↔ AliasOf other.aliases owner name) :
    self.blocked casefold = other.blocked casefold := by
  funext key
  have howner (extraction : JDExtractionResponse) :
      (∃ entry ∈ extraction.aliases, ∃ name ∈ entry.2, casefold name = key ∧
        casefold name ≠ casefold entry.1) ↔
      ∃ owner name, AliasOf extraction.aliases owner name ∧ casefold name = key ∧
        casefold name ≠ casefold owner := by
    constructor
    · rintro ⟨entry, hentry, name, hname, hkey⟩
      exact ⟨entry.1, name, ⟨entry.2, hentry, hname⟩, hkey⟩
    · rintro ⟨owner, name, ⟨values, hentry, hname⟩, hkey⟩
      exact ⟨(owner, values), hentry, name, hname, hkey⟩
  rw [blocked, blocked]
  apply decide_eq_decide.mpr
  rw [aliasOwner_any, aliasOwner_any, howner self, howner other, capabilityKeys, capabilityKeys,
    hcapabilities]
  simp only [haliases]

-- The order of the aliases never decides which skills there are.
theorem allSkillNames_modelValidate_jsonb
    (stored : JDExtractionResponse) (h : modelValidate casefold data = .ok self)
    (hstored : modelValidate casefold data.jsonb = .ok stored) :
    stored.allSkillNames = self.allSkillNames := by
  obtain ⟨-, rfl⟩ := (modelValidate_eq_ok casefold _ _).mp h
  obtain ⟨-, rfl⟩ := (modelValidate_eq_ok casefold _ _).mp hstored
  have hblocked := blocked_congr casefold (validateFields casefold data.jsonb data.jsonb.experience)
    (validateFields casefold data data.experience) rfl (aliasOf_coerceAliases_jsonb data)
  have hkept : ((validateFields casefold data.jsonb data.jsonb.experience).withKeptNames
      casefold).allSkillNames =
      ((validateFields casefold data data.experience).withKeptNames casefold).allSkillNames := by
    simp only [withKeptNames, hblocked]
    rfl
  exact hkept

theorem exists_modelValidate_jsonb :
    (∃ stored, modelValidate casefold data.jsonb = .ok stored) ↔
      ∃ self, modelValidate casefold data = .ok self := by
  constructor
  · rintro ⟨stored, h⟩
    obtain ⟨hvalid, -⟩ := (modelValidate_eq_ok casefold _ _).mp h
    exact ⟨_, (modelValidate_eq_ok casefold _ _).mpr ⟨hvalid, rfl⟩⟩
  · rintro ⟨self, h⟩
    obtain ⟨hvalid, -⟩ := (modelValidate_eq_ok casefold _ _).mp h
    exact ⟨_, (modelValidate_eq_ok casefold _ _).mpr ⟨hvalid, rfl⟩⟩

end JDExtractionResponse

end AiHiring
