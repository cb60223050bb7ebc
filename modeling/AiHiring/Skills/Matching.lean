import AiHiring.Library.Tiers
import AiHiring.Skills.Names
import AiHiring.Skills.Normalization
import Mathlib.Algebra.Order.Ring.Unbundled.Rat
import Mathlib.Data.List.MinMax

namespace AiHiring

open Library

-- What is read of a skill by the tiers; a NULL in aliases is read as the empty list.
structure CatalogSkill where
  id : Uuid
  canonicalName : String
  aliases : List String
  deriving DecidableEq, Repr

-- The active skills in the order in which the query returned them.
structure SkillCatalog where
  skills : List CatalogSkill
  ids : (skills.map CatalogSkill.id).Nodup

-- NFKC and `str.lower` of the Unicode database.
structure UnicodeForms where
  nfkc : String → String
  lower : String → String

-- `fuzz.ratio`, and `find_by_embedding` of the embedding of a text.
structure SimilarityScorers where
  ratio : String → String → ℚ
  findByEmbedding : String → Option (Uuid × ℚ)

-- `re.sub` of every run of such characters by one space.
def replaceRuns (inRun : Bool) (p : Char → Bool) : List Char → List Char
  | [] => []
  | c :: rest =>
    if p c then
      if inRun then replaceRuns true p rest else ' ' :: replaceRuns true p rest
    else c :: replaceRuns false p rest

def subRuns (p : Char → Bool) (text : String) : String :=
  String.ofList (replaceRuns false p text.toList)

namespace SkillNormalizationService.MatchSkill

section Scans

variable (forms : UnicodeForms)

def normalize (rawText : String) : String :=
  if rawText = "" then "" else subRuns isSpace (strip (forms.nfkc rawText))

def ruleNormalize (text : String) : String :=
  strip (subRuns isSpace (subRuns (fun c => c ∈ ['.', '-', '_', '/']) (strip (forms.lower text))))

def matchExact (rawText : String) (catalog : List CatalogSkill) : Option CatalogSkill :=
  catalog.find? fun skill => skill.canonicalName = rawText

def matchAlias (rawText : String) (catalog : List CatalogSkill) : Option CatalogSkill :=
  catalog.find? fun skill => rawText ∈ skill.aliases

-- The names and the aliases that are the same text up to a form.
def sameName (form : String → String) (rawText : String) (skill : CatalogSkill) : Bool :=
  form skill.canonicalName = form rawText

def sameAlias (form : String → String) (rawText : String) (skill : CatalogSkill) : Bool :=
  skill.aliases.any fun aliasText => form aliasText = form rawText

def matchCaseInsensitive (rawText : String) (catalog : List CatalogSkill) : Option CatalogSkill :=
  scanBoth (sameName forms.lower rawText) (sameAlias forms.lower rawText) catalog

def matchRuleBased (rawText : String) (catalog : List CatalogSkill) : Option CatalogSkill :=
  scanBoth (sameName (ruleNormalize forms) rawText) (sameAlias (ruleNormalize forms) rawText)
    catalog

end Scans

section Similarity

variable (scorers : SimilarityScorers)

-- `choices` keeps the place of the first skill with a name and the value of the last one.
def matchFuzzy (rawText : String) (catalog : List CatalogSkill) : Option (CatalogSkill × ℚ) :=
  let choices := (catalog.map CatalogSkill.canonicalName).eraseDups
  match choices.argmax (scorers.ratio rawText) with
  | none => none
  | some matchedText =>
    (catalog.reverse.find? fun skill => skill.canonicalName = matchedText).map fun skill =>
      (skill, scorers.ratio rawText matchedText)

def fuzzyScoreThreshold : ℚ := 85

def semanticSimilarityThreshold : ℚ := 4 / 5

end Similarity

section Tiers

variable (forms : UnicodeForms) (scorers : SimilarityScorers) (catalog : SkillCatalog)

-- `_match_skill` for the catalog at hand: what `normalizeSkills` takes its matches from.
def matchCatalog (rawText : String) : CatalogMatch :=
  let normalizedText := normalize forms rawText
  match matchExact normalizedText catalog.skills with
  | some skill => ⟨some skill.id, .exact, some 1, normalizedText⟩
  | none =>
  match matchAlias normalizedText catalog.skills with
  | some skill => ⟨some skill.id, .alias, some 1, normalizedText⟩
  | none =>
  match matchCaseInsensitive forms normalizedText catalog.skills with
  | some skill => ⟨some skill.id, .caseInsensitive, some 1, normalizedText⟩
  | none =>
  match matchRuleBased forms normalizedText catalog.skills with
  | some skill => ⟨some skill.id, .ruleBased, some 1, normalizedText⟩
  | none =>
  match (matchFuzzy scorers normalizedText catalog.skills).filter
      fun found => fuzzyScoreThreshold ≤ found.2 with
  | some (skill, score) => ⟨some skill.id, .fuzzy, some (score / 100), normalizedText⟩
  | none =>
  match (scorers.findByEmbedding normalizedText).filter
      fun found => semanticSimilarityThreshold ≤ found.2 with
  | some (skillId, similarity) => ⟨some skillId, .semantic, some similarity, normalizedText⟩
  | none => ⟨none, .unknown, none, normalizedText⟩

end Tiers

-- Over the rows of the table the tiers that compare texts are those of the names.
section Rows

variable (rawText : String) (rows : List SkillOntology)

def catalogSkill (skill : SkillOntology) : CatalogSkill :=
  ⟨skill.id, skill.canonicalName, skill.aliases⟩

end Rows

end SkillNormalizationService.MatchSkill

-- The documented order of the steps.
inductive MatchStep where
  | exactCanonical
  | exactAlias
  | caseInsensitiveCanonical
  | caseInsensitiveAlias
  | ruleBasedCanonical
  | ruleBasedAlias
  | fuzzyCanonical
  | semanticCanonical
  deriving DecidableEq, Repr

namespace MatchStep

def documented : List MatchStep :=
  [exactCanonical, exactAlias, caseInsensitiveCanonical, caseInsensitiveAlias, ruleBasedCanonical,
    ruleBasedAlias, fuzzyCanonical, semanticCanonical]

def tier : MatchStep → SkillMatchTier
  | exactCanonical => .exact
  | exactAlias => .alias
  | caseInsensitiveCanonical | caseInsensitiveAlias => .caseInsensitive
  | ruleBasedCanonical | ruleBasedAlias => .ruleBased
  | fuzzyCanonical => .fuzzy
  | semanticCanonical => .semantic

end MatchStep

namespace MatchOrder

open SkillNormalizationService.MatchSkill

variable (forms : UnicodeForms) (scorers : SimilarityScorers) (skills : List CatalogSkill)
  (text : String)

-- What a step asks of a skill; the closest names stand for the fuzzy step.
def meets : MatchStep → CatalogSkill → Bool
  | .exactCanonical => fun skill => skill.canonicalName = text
  | .exactAlias => fun skill => text ∈ skill.aliases
  | .caseInsensitiveCanonical => sameName forms.lower text
  | .caseInsensitiveAlias => sameAlias forms.lower text
  | .ruleBasedCanonical => sameName (ruleNormalize forms) text
  | .ruleBasedAlias => sameAlias (ruleNormalize forms) text
  | .fuzzyCanonical => fun skill =>
    fuzzyScoreThreshold ≤ scorers.ratio text skill.canonicalName ∧
      ∀ other ∈ skills, scorers.ratio text other.canonicalName ≤
        scorers.ratio text skill.canonicalName
  | .semanticCanonical => fun _ => false

-- The skills that a step reaches; the semantic one asks the database.
def reached : MatchStep → List Uuid
  | .semanticCanonical =>
    ((scorers.findByEmbedding text).filter fun found =>
      semanticSimilarityThreshold ≤ found.2).toList.map Prod.fst
  | step => (skills.filter (meets forms scorers skills text step)).map CatalogSkill.id

def firstStep : Option MatchStep :=
  MatchStep.documented.find? fun step => reached forms scorers skills text step ≠ []

-- What the docstring promises of a match.
def FollowsOrder (found : CatalogMatch) : Prop :=
  match firstStep forms scorers skills text with
  | none => found.canonicalSkillId = none ∧ found.matchTier = .unknown
  | some step => ∃ id ∈ reached forms scorers skills text step,
      found.canonicalSkillId = some id ∧ found.matchTier = step.tier

def silent (step : MatchStep) : Prop := reached forms scorers skills text step = []

-- Where a scan that tests names and aliases together decides, no skill that matches
-- by an alias only is listed ahead of all whose name matches.
def NamesAhead : Prop :=
  (silent forms scorers skills text .exactCanonical → silent forms scorers skills text .exactAlias →
      FirstAhead (sameName forms.lower text) (sameAlias forms.lower text) skills) ∧
  (silent forms scorers skills text .exactCanonical → silent forms scorers skills text .exactAlias →
    silent forms scorers skills text .caseInsensitiveCanonical →
    silent forms scorers skills text .caseInsensitiveAlias →
      FirstAhead (sameName (ruleNormalize forms) text) (sameAlias (ruleNormalize forms) text)
        skills)

section Scans

variable {forms scorers skills text}

variable {step : MatchStep} {skill : CatalogSkill}

theorem silent_iff (hstep : step ≠ .semanticCanonical) :
    silent forms scorers skills text step ↔
      ∀ skill ∈ skills, meets forms scorers skills text step skill = false := by
  have hreached : reached forms scorers skills text step =
      (skills.filter (meets forms scorers skills text step)).map CatalogSkill.id := by
    cases step with
    | semanticCanonical => exact absurd rfl hstep
    | _ => rfl
  rw [silent, hreached, List.map_eq_nil_iff, List.filter_eq_nil_iff]
  simp only [Bool.not_eq_true]

theorem mem_reached (hstep : step ≠ .semanticCanonical)
    (hmem : skill ∈ skills) (hmeets : meets forms scorers skills text step skill = true) :
    skill.id ∈ reached forms scorers skills text step := by
  have hin : skill.id ∈ (skills.filter (meets forms scorers skills text step)).map
      CatalogSkill.id := List.mem_map.mpr ⟨skill, List.mem_filter.mpr ⟨hmem, hmeets⟩, rfl⟩
  cases step with
  | semanticCanonical => exact absurd rfl hstep
  | _ => exact hin

-- One skill has an id, so an id that is reached belongs to a skill that meets the step.
theorem meets_of_mem_reached (hids : (skills.map CatalogSkill.id).Nodup)
    (hstep : step ≠ .semanticCanonical) (hmem : skill ∈ skills)
    (h : skill.id ∈ reached forms scorers skills text step) :
    meets forms scorers skills text step skill = true := by
  have hin : skill.id ∈ (skills.filter (meets forms scorers skills text step)).map
      CatalogSkill.id := by
    cases step with
    | semanticCanonical => exact absurd rfl hstep
    | _ => exact h
  obtain ⟨other, hother, hid⟩ := List.mem_map.mp hin
  obtain ⟨hother, hmeets⟩ := List.mem_filter.mp hother
  have hsame : other = skill := List.inj_on_of_nodup_map hids hother hmem hid
  rwa [hsame] at hmeets

-- The steps before the first one that reaches something are silent.
theorem firstStep_eq (before after : List MatchStep)
    (hdocumented : MatchStep.documented = before ++ step :: after)
    (hsilent : ∀ earlier ∈ before, silent forms scorers skills text earlier)
    (hreached : reached forms scorers skills text step ≠ []) :
    firstStep forms scorers skills text = some step := by
  have hnone : before.find? (fun step => reached forms scorers skills text step ≠ []) = none := by
    rw [List.find?_eq_none]
    intro earlier hearlier hne
    exact of_decide_eq_true hne (hsilent earlier hearlier)
  rw [firstStep, hdocumented, List.find?_append, hnone, Option.none_or,
    List.find?_cons_of_pos (by simpa using hreached)]

theorem follows_of_firstStep {found : CatalogMatch}
    (hfirst : firstStep forms scorers skills text = some step) :
    FollowsOrder forms scorers skills text found ↔ ∃ id ∈ reached forms scorers skills text step,
        found.canonicalSkillId = some id ∧ found.matchTier = step.tier := by
  rw [FollowsOrder, hfirst]

theorem follows_of_meets (before after : List MatchStep) {found : CatalogMatch}
    (hdocumented : MatchStep.documented = before ++ step :: after)
    (hsilent : ∀ earlier ∈ before, silent forms scorers skills text earlier)
    (hstep : step ≠ .semanticCanonical) (hmem : skill ∈ skills)
    (hmeets : meets forms scorers skills text step skill = true)
    (hid : found.canonicalSkillId = some skill.id) (htier : found.matchTier = step.tier) :
    FollowsOrder forms scorers skills text found := by
  have hreached := mem_reached hstep hmem hmeets
  have hfirst := firstStep_eq before after hdocumented hsilent (List.ne_nil_of_mem hreached)
  exact (follows_of_firstStep hfirst).mpr ⟨skill.id, hreached, hid, htier⟩

theorem follows_scanBoth_iff (hids : (skills.map CatalogSkill.id).Nodup)
    (before after : List MatchStep) {nameStep aliasStep : MatchStep}
    {found : CatalogMatch}
    (hdocumented : MatchStep.documented = before ++ nameStep :: aliasStep :: after)
    (hsilent : ∀ earlier ∈ before, silent forms scorers skills text earlier)
    (hname : nameStep ≠ .semanticCanonical) (halias : aliasStep ≠ .semanticCanonical)
    (hfound : scanBoth (meets forms scorers skills text nameStep)
      (meets forms scorers skills text aliasStep) skills = some skill)
    (hid : found.canonicalSkillId = some skill.id) (htier : found.matchTier = nameStep.tier)
    (hsame : nameStep.tier = aliasStep.tier) :
    FollowsOrder forms scorers skills text found ↔
      FirstAhead (meets forms scorers skills text nameStep)
        (meets forms scorers skills text aliasStep) skills := by
  obtain ⟨hmem, hmeets⟩ := scanBoth_eq_some hfound
  by_cases hsome : ∃ y ∈ skills, meets forms scorers skills text nameStep y = true
  · obtain ⟨y, hy, hynamed⟩ := hsome
    have hfirst := firstStep_eq before (aliasStep :: after) hdocumented hsilent
      (List.ne_nil_of_mem (mem_reached hname hy hynamed))
    rw [← scanBoth_first_iff ⟨y, hy, hynamed⟩ hfound, follows_of_firstStep hfirst]
    constructor
    · rintro ⟨id, hreached, hfoundId, -⟩
      obtain rfl : skill.id = id := Option.some.inj (hid.symm.trans hfoundId)
      exact meets_of_mem_reached hids hname hmem hreached
    · intro hnamed
      exact ⟨skill.id, mem_reached hname hmem hnamed, hid, htier⟩
  · have hnone : ∀ y ∈ skills, meets forms scorers skills text nameStep y = false := by
      intro y hy
      by_contra hnamed
      exact hsome ⟨y, hy, by simpa using hnamed⟩
    have hmeets : meets forms scorers skills text aliasStep skill = true := by
      obtain hnamed | haliased := hmeets
      · rw [hnone skill hmem] at hnamed
        exact absurd hnamed Bool.false_ne_true
      · exact haliased
    have hdocumented' : MatchStep.documented = (before ++ [nameStep]) ++ aliasStep :: after := by
      rw [hdocumented, List.append_assoc, List.singleton_append]
    have hsilent' : ∀ earlier ∈ before ++ [nameStep], silent forms scorers skills text earlier := by
      intro earlier hearlier
      obtain hbefore | hlast := List.mem_append.mp hearlier
      · exact hsilent earlier hbefore
      · rw [List.mem_singleton.mp hlast]
        exact (silent_iff hname).mpr hnone
    refine iff_of_true (follows_of_meets (before ++ [nameStep]) after hdocumented' hsilent' halias
      hmem hmeets hid (htier.trans hsame)) fun hany => absurd hany hsome

theorem silent_scanBoth {nameStep aliasStep : MatchStep} (hname : nameStep ≠ .semanticCanonical)
    (halias : aliasStep ≠ .semanticCanonical)
    (hfound : scanBoth (meets forms scorers skills text nameStep)
      (meets forms scorers skills text aliasStep) skills = none) :
    silent forms scorers skills text nameStep ∧ silent forms scorers skills text aliasStep := by
  have hnone := scanBoth_eq_none.mp hfound
  exact ⟨(silent_iff hname).mpr fun skill hskill => (hnone skill hskill).1,
    (silent_iff halias).mpr fun skill hskill => (hnone skill hskill).2⟩

theorem silent_find? (hstep : step ≠ .semanticCanonical)
    (hfound : skills.find? (meets forms scorers skills text step) = none) :
    silent forms scorers skills text step := by
  refine (silent_iff hstep).mpr fun skill hskill => ?_
  simpa using List.find?_eq_none.mp hfound skill hskill

theorem matchFuzzy_some {score : ℚ} (h : matchFuzzy scorers text skills = some (skill, score)) :
    skill ∈ skills ∧ score = scorers.ratio text skill.canonicalName ∧
      ∀ other ∈ skills, scorers.ratio text other.canonicalName ≤ score := by
  unfold matchFuzzy at h
  dsimp only at h
  split at h
  · simp at h
  · rename_i matchedText hmatched
    obtain ⟨found, hfound, heq⟩ := Option.map_eq_some_iff.mp h
    obtain ⟨rfl, rfl⟩ := Prod.mk.inj heq
    have hname : found.canonicalName = matchedText := by simpa using List.find?_some hfound
    refine ⟨List.mem_reverse.mp (List.mem_of_find?_eq_some hfound), by rw [hname], ?_⟩
    intro other hother
    refine List.le_of_mem_argmax ?_ hmatched
    exact List.mem_eraseDups.mpr (List.mem_map.mpr ⟨other, hother, rfl⟩)

theorem matchFuzzy_none (h : matchFuzzy scorers text skills = none) : skills = [] := by
  unfold matchFuzzy at h
  dsimp only at h
  split at h
  · rename_i hnone
    have hchoices := List.argmax_eq_none.mp hnone
    rw [List.eq_nil_iff_forall_not_mem]
    intro skill hskill
    have hin : skill.canonicalName ∈ (skills.map CatalogSkill.canonicalName).eraseDups :=
      List.mem_eraseDups.mpr (List.mem_map.mpr ⟨skill, hskill, rfl⟩)
    rw [hchoices] at hin
    simp at hin
  · rename_i matchedText hmatched
    have hin := List.mem_eraseDups.mp (List.argmax_mem hmatched)
    obtain ⟨skill, hskill, hname⟩ := List.mem_map.mp hin
    have hnone := Option.map_eq_none_iff.mp h
    have hno := List.find?_eq_none.mp hnone skill (List.mem_reverse.mpr hskill)
    exact absurd (decide_eq_true hname) hno

theorem silent_fuzzy (h : (matchFuzzy scorers text skills).filter
    (fun found => fuzzyScoreThreshold ≤ found.2) = none) :
    silent forms scorers skills text .fuzzyCanonical := by
  rw [silent_iff (by simp)]
  intro skill hskill
  cases hfound : matchFuzzy scorers text skills with
  | none =>
    rw [matchFuzzy_none hfound] at hskill
    simp at hskill
  | some found =>
    obtain ⟨closest, score⟩ := found
    obtain ⟨-, -, hmost⟩ := matchFuzzy_some hfound
    rw [hfound, Option.filter_eq_none_iff] at h
    have hlow := h (closest, score) rfl
    simp only [meets, decide_eq_false_iff_not]
    rintro ⟨hhigh, -⟩
    exact hlow (decide_eq_true (hhigh.trans (hmost skill hskill)))

end Scans

variable (catalog : SkillCatalog) (rawText : String)

theorem follows_iff_namesAhead : FollowsOrder forms scorers catalog.skills (normalize forms rawText)
        (matchCatalog forms scorers catalog rawText) ↔
      NamesAhead forms scorers catalog.skills (normalize forms rawText) := by
  obtain ⟨text, htext⟩ : ∃ text, text = normalize forms rawText := ⟨_, rfl⟩
  rw [matchCatalog, ← htext]
  -- each case adds one step to the silent ones
  cases hexact : matchExact text catalog.skills with
  | some skill =>
    have hmeets : meets forms scorers catalog.skills text .exactCanonical skill = true :=
      List.find?_some hexact
    have hmem := List.mem_of_find?_eq_some hexact
    have hloud : ¬silent forms scorers catalog.skills text .exactCanonical :=
      List.ne_nil_of_mem (mem_reached (by simp) hmem hmeets)
    refine iff_of_true ?_ ⟨fun h => absurd h hloud, fun h => absurd h hloud⟩
    exact follows_of_meets [] _ rfl (by simp) (by simp) hmem hmeets rfl rfl
  | none =>
  have h1 : silent forms scorers catalog.skills text .exactCanonical :=
    silent_find? (by simp) hexact
  cases halias : matchAlias text catalog.skills with
  | some skill =>
    have hmeets : meets forms scorers catalog.skills text .exactAlias skill = true :=
      List.find?_some halias
    have hmem := List.mem_of_find?_eq_some halias
    have hloud : ¬silent forms scorers catalog.skills text .exactAlias :=
      List.ne_nil_of_mem (mem_reached (by simp) hmem hmeets)
    refine iff_of_true ?_ ⟨fun _ h => absurd h hloud, fun _ h => absurd h hloud⟩
    exact follows_of_meets [.exactCanonical] _ rfl (by simpa using h1) (by simp) hmem hmeets rfl rfl
  | none =>
  have h2 : silent forms scorers catalog.skills text .exactAlias := silent_find? (by simp) halias
  have hearly : ∀ earlier ∈ [MatchStep.exactCanonical, .exactAlias],
      silent forms scorers catalog.skills text earlier := by simp [h1, h2]
  cases hcase : matchCaseInsensitive forms text catalog.skills with
  | some skill =>
    have hiff : FollowsOrder forms scorers catalog.skills text
        ⟨some skill.id, .caseInsensitive, some 1, text⟩ ↔
          FirstAhead (meets forms scorers catalog.skills text .caseInsensitiveCanonical)
            (meets forms scorers catalog.skills text .caseInsensitiveAlias) catalog.skills :=
      follows_scanBoth_iff catalog.ids [.exactCanonical, .exactAlias] _ rfl hearly (by simp)
        (by simp) hcase rfl rfl rfl
    refine hiff.trans ⟨fun h => ⟨fun _ _ => h, fun _ _ h3 h4 => ?_⟩, fun h => h.1 h1 h2⟩
    -- the scan has found something
    obtain ⟨hmem, hmeets⟩ := scanBoth_eq_some hcase
    obtain hname | haliased := hmeets
    · exact absurd h3 (List.ne_nil_of_mem (mem_reached (by simp) hmem hname))
    · exact absurd h4 (List.ne_nil_of_mem (mem_reached (by simp) hmem haliased))
  | none =>
  obtain ⟨h3, h4⟩ : silent forms scorers catalog.skills text .caseInsensitiveCanonical ∧
      silent forms scorers catalog.skills text .caseInsensitiveAlias :=
    silent_scanBoth (by simp) (by simp) hcase
  have hahead : FirstAhead (sameName forms.lower text) (sameAlias forms.lower text)
      catalog.skills := by
    rintro ⟨skill, hskill, hnamed⟩
    rw [(scanBoth_eq_none.mp hcase skill hskill).1] at hnamed
    exact absurd hnamed Bool.false_ne_true
  have hearly' : ∀ earlier ∈ [MatchStep.exactCanonical, .exactAlias, .caseInsensitiveCanonical,
      .caseInsensitiveAlias], silent forms scorers catalog.skills text earlier := by
    simp [h1, h2, h3, h4]
  cases hrule : matchRuleBased forms text catalog.skills with
  | some skill =>
    have hiff : FollowsOrder forms scorers catalog.skills text
        ⟨some skill.id, .ruleBased, some 1, text⟩ ↔
          FirstAhead (meets forms scorers catalog.skills text .ruleBasedCanonical)
            (meets forms scorers catalog.skills text .ruleBasedAlias) catalog.skills :=
      follows_scanBoth_iff catalog.ids [.exactCanonical, .exactAlias, .caseInsensitiveCanonical,
        .caseInsensitiveAlias] _ rfl hearly' (by simp) (by simp) hrule rfl rfl rfl
    exact hiff.trans ⟨fun h => ⟨fun _ _ => hahead, fun _ _ _ _ => h⟩, fun h => h.2 h1 h2 h3 h4⟩
  | none =>
  obtain ⟨h5, h6⟩ : silent forms scorers catalog.skills text .ruleBasedCanonical ∧
      silent forms scorers catalog.skills text .ruleBasedAlias :=
    silent_scanBoth (by simp) (by simp) hrule
  have hahead' : FirstAhead (sameName (ruleNormalize forms) text)
      (sameAlias (ruleNormalize forms) text) catalog.skills := by
    rintro ⟨skill, hskill, hnamed⟩
    rw [(scanBoth_eq_none.mp hrule skill hskill).1] at hnamed
    exact absurd hnamed Bool.false_ne_true
  refine iff_of_true ?_ ⟨fun _ _ => hahead, fun _ _ _ _ => hahead'⟩
  cases hfuzzy : (matchFuzzy scorers text catalog.skills).filter
      fun found => fuzzyScoreThreshold ≤ found.2 with
  | some found =>
    obtain ⟨skill, score⟩ := found
    obtain ⟨hfound, hhigh⟩ := Option.filter_eq_some_iff.mp hfuzzy
    obtain ⟨hmem, rfl, hmost⟩ := matchFuzzy_some hfound
    refine follows_of_meets [.exactCanonical, .exactAlias, .caseInsensitiveCanonical,
      .caseInsensitiveAlias, .ruleBasedCanonical, .ruleBasedAlias] _ rfl ?_ (by simp) hmem ?_ rfl
      rfl
    · simp [h1, h2, h3, h4, h5, h6]
    · exact decide_eq_true ⟨of_decide_eq_true hhigh, hmost⟩
  | none =>
  have h7 : silent forms scorers catalog.skills text .fuzzyCanonical := silent_fuzzy hfuzzy
  have hall : ∀ earlier ∈ [MatchStep.exactCanonical, .exactAlias, .caseInsensitiveCanonical,
      .caseInsensitiveAlias, .ruleBasedCanonical, .ruleBasedAlias, .fuzzyCanonical],
      silent forms scorers catalog.skills text earlier := by
    simp [h1, h2, h3, h4, h5, h6, h7]
  cases hsemantic : (scorers.findByEmbedding text).filter
      fun found => semanticSimilarityThreshold ≤ found.2 with
  | some found =>
    have hreached : reached forms scorers catalog.skills text .semanticCanonical = [found.1] := by
      rw [reached, hsemantic]
      rfl
    have hfirst := firstStep_eq _ [] rfl hall (hreached ▸ List.cons_ne_nil _ _)
    rw [follows_of_firstStep hfirst]
    exact ⟨found.1, hreached ▸ List.mem_singleton.mpr rfl, rfl, rfl⟩
  | none =>
    have h8 : silent forms scorers catalog.skills text .semanticCanonical := by
      rw [silent, reached, hsemantic]
      rfl
    have hnone : firstStep forms scorers catalog.skills text = none := by
      rw [firstStep, List.find?_eq_none]
      intro step _ hloud
      have hsilent : silent forms scorers catalog.skills text step := by
        cases step with
        | semanticCanonical => exact h8
        | _ => exact hall _ (by simp)
      exact of_decide_eq_true hloud hsilent
    rw [FollowsOrder, hnone]
    exact ⟨rfl, rfl⟩

section Permutations

variable {forms scorers skills text catalog rawText} {others : List CatalogSkill}

theorem reached_perm (h : others.Perm skills) (step : MatchStep) :
    (reached forms scorers others text step).Perm (reached forms scorers skills text step) := by
  have hmeets : meets forms scorers others text step = meets forms scorers skills text step := by
    cases step with
    | fuzzyCanonical =>
      funext skill
      simp only [meets, h.mem_iff]
    | _ => rfl
  have hperm : ((others.filter (meets forms scorers others text step)).map CatalogSkill.id).Perm
      ((skills.filter (meets forms scorers skills text step)).map CatalogSkill.id) := by
    rw [hmeets]
    exact (h.filter _).map CatalogSkill.id
  cases step with
  | semanticCanonical => exact List.Perm.refl _
  | _ => exact hperm

theorem firstStep_perm (h : others.Perm skills) :
    firstStep forms scorers others text = firstStep forms scorers skills text := by
  have hsame : (fun step => decide (reached forms scorers others text step ≠ [])) =
      fun step => decide (reached forms scorers skills text step ≠ []) := by
    funext step
    have hperm : (reached forms scorers others text step).Perm
        (reached forms scorers skills text step) := reached_perm h step
    rw [decide_eq_decide, Ne, Ne, ← List.length_eq_zero_iff, ← List.length_eq_zero_iff,
      hperm.length_eq]
  rw [firstStep, firstStep, hsame]

end Permutations

-- Both are nothing, or both are reached by the same step.
def Tied (found other : CatalogMatch) : Prop :=
  (found.canonicalSkillId = none ∧ other.canonicalSkillId = none) ∨
    ∃ step, firstStep forms scorers skills text = some step ∧
      ∃ id ∈ reached forms scorers skills text step, ∃ id' ∈ reached forms scorers skills text step,
          found.canonicalSkillId = some id ∧ other.canonicalSkillId = some id'

theorem tied_of_follows {others : List CatalogSkill} {found other : CatalogMatch}
    (hperm : others.Perm skills) (h : FollowsOrder forms scorers skills text found)
    (h' : FollowsOrder forms scorers others text other) :
    Tied forms scorers skills text found other := by
  cases hfirst : firstStep forms scorers skills text with
  | none =>
    rw [FollowsOrder, hfirst] at h
    rw [FollowsOrder, firstStep_perm hperm, hfirst] at h'
    exact .inl ⟨h.1, h'.1⟩
  | some step =>
    obtain ⟨id, hid, hfound, -⟩ := (follows_of_firstStep hfirst).mp h
    obtain ⟨id', hid', hother, -⟩ :=
      (follows_of_firstStep ((firstStep_perm hperm).trans hfirst)).mp h'
    exact .inr ⟨step, hfirst, id, hid, id', (reached_perm hperm step).mem_iff.mp hid', hfound,
      hother⟩

-- The documented order is followed exactly where names come ahead of aliases, and
-- then the order of the catalog decides between ties only.
theorem match_order_iff : (FollowsOrder forms scorers catalog.skills (normalize forms rawText)
        (matchCatalog forms scorers catalog rawText) ↔
      NamesAhead forms scorers catalog.skills (normalize forms rawText)) ∧
    ∀ other : SkillCatalog, other.skills.Perm catalog.skills →
      NamesAhead forms scorers catalog.skills (normalize forms rawText) →
      NamesAhead forms scorers other.skills (normalize forms rawText) →
        Tied forms scorers catalog.skills (normalize forms rawText)
          (matchCatalog forms scorers catalog rawText)
          (matchCatalog forms scorers other rawText) := by
  refine ⟨follows_iff_namesAhead forms scorers catalog rawText, ?_⟩
  intro other hperm hcatalog hother
  exact tied_of_follows forms scorers catalog.skills (normalize forms rawText) hperm
    ((follows_iff_namesAhead forms scorers catalog rawText).mpr hcatalog)
    ((follows_iff_namesAhead forms scorers other rawText).mpr hother)

def asciiForms : UnicodeForms where
  nfkc := id
  lower text := String.ofList (text.toList.map Char.toLower)

def noSimilarity : SimilarityScorers where
  ratio _ _ := 0
  findByEmbedding _ := none

def aliasListedFirst : SkillCatalog where
  skills := [⟨1, "Python", ["PY"]⟩, ⟨2, "Py", []⟩]
  ids := by decide

def nameListedFirst : SkillCatalog where
  skills := [⟨2, "Py", []⟩, ⟨1, "Python", ["PY"]⟩]
  ids := by decide

theorem match_order_iff_nameListedFirst :
    FollowsOrder asciiForms noSimilarity nameListedFirst.skills (normalize asciiForms "py")
      (matchCatalog asciiForms noSimilarity nameListedFirst "py") := by
  refine (match_order_iff asciiForms noSimilarity nameListedFirst "py").1.mpr ⟨fun _ _ => ?_,
    fun _ _ _ _ => ?_⟩
  · decide +kernel
  · decide +kernel

theorem alias_beats_name :
    ¬∀ (forms : UnicodeForms) (scorers : SimilarityScorers) (catalog : SkillCatalog)
      (rawText : String), FollowsOrder forms scorers catalog.skills (normalize forms rawText)
        (matchCatalog forms scorers catalog rawText) := by
  intro h
  have hfollows := h asciiForms noSimilarity aliasListedFirst "py"
  have hfirst : firstStep asciiForms noSimilarity aliasListedFirst.skills
      (normalize asciiForms "py") = some .caseInsensitiveCanonical := by decide +kernel
  have hreached : reached asciiForms noSimilarity aliasListedFirst.skills
      (normalize asciiForms "py") .caseInsensitiveCanonical = [2] := by decide +kernel
  have hfound : (matchCatalog asciiForms noSimilarity aliasListedFirst "py").canonicalSkillId =
      some 1 := by decide +kernel
  rw [FollowsOrder, hfirst] at hfollows
  obtain ⟨id, hid, hsome, -⟩ := hfollows
  rw [hreached, List.mem_singleton] at hid
  rw [hfound, hid] at hsome
  exact absurd (Option.some.inj hsome) (by decide)

end MatchOrder

end AiHiring
