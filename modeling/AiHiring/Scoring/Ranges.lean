import Mathlib.Algebra.Order.BigOperators.Group.List
import AiHiring.Scoring.Deterministic
import AiHiring.Tasks.CompositeScore

namespace AiHiring

open Library CandidateScoringService SkillRepository SkillOntologyRepository

def Percent (q : ℚ) : Prop := 0 ≤ q ∧ q ≤ 100

def Share (q : ℚ) : Prop := 0 ≤ q ∧ q ≤ 1

theorem Rounding.round_percent (r : Rounding) (n : ℕ) {q : ℚ} (h : Percent q) :
    Percent (r.round n q) := by
  have hle : q ≤ ((100 : ℤ) : ℚ) := by exact_mod_cast h.2
  have hround := r.round_le_int n hle
  exact ⟨r.round_nonneg n h.1, by exact_mod_cast hround⟩

theorem percent_hundred : Percent 100 := ⟨by norm_num, le_rfl⟩

theorem percent_ratio {part whole : ℚ} (hpart : 0 ≤ part) (hle : part ≤ whole) :
    Percent (part / whole * 100) := by
  have hshare : part / whole ≤ 1 := div_le_one_of_le₀ hle (hpart.trans hle)
  have hnonneg : 0 ≤ part / whole := div_nonneg hpart (hpart.trans hle)
  exact ⟨by positivity, by linarith⟩

theorem percent_blend {share p q : ℚ} (hshare : Share share) (hp : Percent p) (hq : Percent q) :
    Percent ((1 - share) * p + share * q) := by
  obtain ⟨h0, h1⟩ := hshare
  have hrest : 0 ≤ 1 - share := by linarith
  constructor
  · have hleft := mul_nonneg hrest hp.1
    have hright := mul_nonneg h0 hq.1
    linarith
  · have hleft := mul_le_mul_of_nonneg_left hp.2 hrest
    have hright := mul_le_mul_of_nonneg_left hq.2 h0
    linarith

-- What the JD, the pool and the configuration have to look like.
structure Admissible (context : ScoringContext) (jdId resumeId : Uuid) : Prop where
  weights : ∀ row ∈ context.store.jdSkills.rows, row.jdId = jdId → ∀ w ∈ row.weight, 0 ≤ w
  pool : ∀ skill ∈ context.store.candidateSkills.rows, skill.resumeId = resumeId →
    Share skill.scoringWeight
  core : ∀ v ∈ context.config "CORE_IMPORTANCE_WEIGHT_MULTIPLIER", 0 ≤ v
  supporting : ∀ v ∈ context.config "SUPPORTING_IMPORTANCE_WEIGHT_MULTIPLIER", 0 ≤ v
  grandchild : ∀ v ∈ context.config "HIERARCHY_GRANDCHILD_MULTIPLIER", Share v
  preferred : ∀ v ∈ context.config "PREFERRED_SKILL_SHARE", Share v

def BreakdownEntry.weight (entry : BreakdownEntry) : ℚ := entry.effectiveJdWeight.getD 0

def BreakdownEntry.contribution (entry : BreakdownEntry) : ℚ := entry.skillContribution.getD 0

-- An entry contributes at most its weight.
structure BreakdownEntry.Bounded (entry : BreakdownEntry) : Prop where
  nonneg : 0 ≤ entry.contribution
  le : entry.contribution ≤ entry.weight

section Entries

variable {r : Rounding} {m : ScoringMultipliers} {jdSkill : JDSkill}

theorem breakdownEntry_bounded {name : Option String} {matchType : MandatorySkillMatchType}
    {multiplier : ℚ} {scoringWeight : Option ℚ} {matchTier : Option SkillMatchTier}
    {confidence : Option ℚ} {matchedName : Option String}
    {importance : Option JDSkillImportance}
    (hweight : ∀ w ∈ jdSkill.weight, 0 ≤ w)
    (himportance : 0 ≤ importanceMultiplierForLabel m importance)
    (hmultiplier : Share multiplier) (hscoring : ∀ s ∈ scoringWeight, Share s) :
    (breakdownEntry r m jdSkill name matchType multiplier scoringWeight matchTier confidence
      matchedName importance).Bounded := by
  cases hw : jdSkill.weight with
  | none =>
    -- without a weight nothing is contributed
    refine ⟨le_of_eq ?_, le_of_eq ?_⟩
    · by_cases hmissing : matchType = .missing <;>
        simp [breakdownEntry, BreakdownEntry.contribution, hw, hmissing]
    · by_cases hmissing : matchType = .missing <;>
        simp [breakdownEntry, BreakdownEntry.contribution, BreakdownEntry.weight, hw, hmissing]
  | some weight =>
    have heffective : 0 ≤ r.round 4 (weight * importanceMultiplierForLabel m importance) :=
      r.round_nonneg 4 (mul_nonneg (hweight weight hw) himportance)
    by_cases hmissing : matchType = .missing
    · constructor
      · simp [breakdownEntry, BreakdownEntry.contribution, hmissing]
      · simpa [breakdownEntry, BreakdownEntry.contribution, BreakdownEntry.weight, hw, hmissing]
          using heffective
    · cases hs : scoringWeight with
      | none =>
        constructor
        · simp [breakdownEntry, BreakdownEntry.contribution, hw, hmissing]
        · simpa [breakdownEntry, BreakdownEntry.contribution, BreakdownEntry.weight, hw,
            hmissing] using heffective
      | some scoring =>
        obtain ⟨hs0, hs1⟩ := hscoring scoring hs
        obtain ⟨hm0, hm1⟩ := hmultiplier
        have hfactor : scoring * multiplier ≤ 1 := mul_le_one₀ hs1 hm0 hm1
        have hle : r.round 4 (weight * importanceMultiplierForLabel m importance) * scoring *
            multiplier ≤ r.round 4 (weight * importanceMultiplierForLabel m importance) := by
          rw [mul_assoc]
          exact mul_le_of_le_one_right heffective hfactor
        have hnonneg := mul_nonneg (mul_nonneg heffective hs0) hm0
        constructor
        · simpa [breakdownEntry, BreakdownEntry.contribution, hw, hmissing] using
            r.round_nonneg 4 hnonneg
        · simpa [breakdownEntry, BreakdownEntry.contribution, BreakdownEntry.weight, hw,
            hmissing] using r.round_le_round 4 hle

variable {skills : List CandidateSkill} {found : CandidateSkill × Option String}

theorem candidateSkillById_mem {id : Uuid} {skill : CandidateSkill}
    (h : candidateSkillById skills id = some skill) : skill ∈ skills :=
  List.mem_reverse.mp (List.mem_of_find?_eq_some h)

theorem bestMatch_mem {ids : List (Uuid × Option String)} (h : bestMatch skills ids = some found) :
    found.1 ∈ skills := by
  have hmem := List.argmax_mem h
  obtain ⟨entry, -, hentry⟩ := List.mem_filterMap.mp hmem
  obtain ⟨skill, hskill, rfl⟩ := Option.map_eq_some_iff.mp hentry
  exact candidateSkillById_mem hskill

theorem matchedEntry_bounded {name : Option String} {matchType : MandatorySkillMatchType}
    {multiplier : ℚ}
    (hweight : ∀ w ∈ jdSkill.weight, 0 ≤ w)
    (himportance : ∀ label, 0 ≤ importanceMultiplierForLabel m label)
    (hmultiplier : Share multiplier) (hfound : Share found.1.scoringWeight) :
    (matchedEntry r m jdSkill name matchType multiplier found).Bounded := by
  refine breakdownEntry_bounded hweight (himportance _) hmultiplier ?_
  intro s hs
  rw [← Option.some.inj hs]
  exact hfound

theorem share_one : Share 1 := ⟨zero_le_one, le_rfl⟩

theorem siblingMatch_mem {hierarchy : SkillHierarchy} {id : Uuid} {target : Option SkillOntology}
    (h : siblingMatch hierarchy skills id target = some found) : found.1 ∈ skills := by
  obtain ⟨parentId, -, hbest⟩ := Option.bind_eq_some_iff.mp h
  exact bestMatch_mem hbest

theorem semanticMatch_mem {context : ScoringContext}
    {target : Option SkillOntology} {found : CandidateSkill × Option String × ℚ}
    (h : semanticMatch context m skills target = some found) : found.1 ∈ skills := by
  unfold semanticMatch at h
  split at h
  · split_ifs at h
    split at h
    · split_ifs at h
      obtain ⟨skill, hskill, rfl⟩ := Option.map_eq_some_iff.mp h
      exact candidateSkillById_mem hskill
    · simp at h
  · simp at h

theorem share_zero : Share 0 := ⟨le_rfl, zero_le_one⟩

theorem missingEntry_bounded (name : Option String) {importance : Option JDSkillImportance}
    (hweight : ∀ w ∈ jdSkill.weight, 0 ≤ w)
    (himportance : 0 ≤ importanceMultiplierForLabel m importance) :
    (breakdownEntry r m jdSkill name .missing 0 none none none none importance).Bounded := by
  refine breakdownEntry_bounded hweight himportance share_zero ?_
  intro s hs
  simp at hs

theorem scoreOneMandatorySkill_bounded {context : ScoringContext} {hierarchy : SkillHierarchy}
    {rows : List CoverageRow} {row : CoverageRow}
    (hweight : ∀ w ∈ row.jdSkill.weight, 0 ≤ w)
    (himportance : ∀ label, 0 ≤ importanceMultiplierForLabel m label)
    (hgrandchild : Share m.grandchild)
    (hcandidate : ∀ skill ∈ row.candidate, Share skill.scoringWeight)
    (hskills : ∀ skill ∈ skills, Share skill.scoringWeight) :
    (scoreOneMandatorySkill context m hierarchy skills rows row).Bounded := by
  have hmatched (name : Option String) (matchType : MandatorySkillMatchType) (multiplier : ℚ)
      (found : CandidateSkill × Option String) (hmultiplier : Share multiplier)
      (hfound : Share found.1.scoringWeight) :
      (matchedEntry context.rounding m row.jdSkill name matchType multiplier found).Bounded :=
    matchedEntry_bounded hweight himportance hmultiplier hfound
  simp only [scoreOneMandatorySkill]
  split
  · next candidate hrow => exact hmatched _ _ _ _ share_one (hcandidate candidate hrow)
  split
  · next found hfound =>
      have hentry := hmatched ((hierarchy.skillsById row.jdSkill.canonicalSkillId).map
        SkillOntology.canonicalName) .exact 1 found share_one (hskills _ (bestMatch_mem hfound))
      exact ⟨hentry.nonneg, hentry.le⟩
  split
  · next found hfound =>
      exact hmatched _ _ _ _ ⟨by norm_num, by norm_num⟩ (hskills _ (bestMatch_mem hfound))
  split
  · next found hfound => exact hmatched _ _ _ _ hgrandchild (hskills _ (bestMatch_mem hfound))
  split
  · next found hfound =>
      exact hmatched _ _ _ _ ⟨by norm_num, by norm_num⟩ (hskills _ (siblingMatch_mem hfound))
  split
  · next candidate matchedName similarity hfound =>
      have hentry := hmatched ((hierarchy.skillsById row.jdSkill.canonicalSkillId).map
        SkillOntology.canonicalName) .semantic (1 / 5) (candidate, matchedName)
        ⟨by norm_num, by norm_num⟩ (hskills _ (semanticMatch_mem hfound))
      exact ⟨hentry.nonneg, hentry.le⟩
  · have hentry := missingEntry_bounded (r := context.rounding)
      ((hierarchy.skillsById row.jdSkill.canonicalSkillId).map SkillOntology.canonicalName)
      hweight (himportance row.jdSkill.importance)
    exact ⟨hentry.nonneg, hentry.le⟩

theorem scoreOnePreferredSkill_bounded {context : ScoringContext}
    {rows : List CoverageRow} {row : CoverageRow} (hweight : ∀ w ∈ row.jdSkill.weight, 0 ≤ w)
    (hcandidate : ∀ skill ∈ row.candidate, Share skill.scoringWeight)
    (hskills : ∀ skill ∈ skills, Share skill.scoringWeight) :
    (scoreOnePreferredSkill context skills rows row).Bounded := by
  have hneutral : 0 ≤ importanceMultiplierForLabel neutral none := zero_le_one
  have hfound (name matchedName : Option String) (skill : CandidateSkill)
      (hskill : Share skill.scoringWeight) :
      (breakdownEntry context.rounding neutral row.jdSkill name .exact 1
        (some skill.scoringWeight) (some skill.matchTier) skill.confidence matchedName
        none).Bounded := by
    refine breakdownEntry_bounded hweight hneutral share_one ?_
    intro s hs
    rw [← Option.some.inj hs]
    exact hskill
  simp only [scoreOnePreferredSkill]
  split
  · next candidate hrow => exact hfound _ _ candidate (hcandidate candidate hrow)
  split
  · next found halias =>
      have hentry := hfound ((getSkillById context.store.ontology
        row.jdSkill.canonicalSkillId).map SkillOntology.canonicalName) found.2 found.1
        (hskills _ (bestMatch_mem halias))
      exact ⟨hentry.nonneg, hentry.le⟩
  · exact missingEntry_bounded _ hweight hneutral

end Entries

-- What holds of the sums over entries that are bounded.
section Sums

variable {r : Rounding} {entries : List BreakdownEntry}

theorem actualSum_nonneg (h : ∀ entry ∈ entries, entry.Bounded) : 0 ≤ actualSum entries := by
  refine List.sum_nonneg ?_
  intro contribution hmem
  obtain ⟨entry, hentry, rfl⟩ := List.mem_map.mp hmem
  exact (h entry hentry).nonneg

theorem actualSum_le_maxSum (h : ∀ entry ∈ entries, entry.Bounded) :
    actualSum entries ≤ maxSum entries :=
  List.sum_le_sum fun entry hentry => (h entry hentry).le

theorem coveragePct_percent : Percent (coveragePct r entries) := by
  unfold coveragePct
  by_cases hnil : entries = []
  · rw [if_pos hnil]
    exact percent_hundred
  · rw [if_neg hnil]
    have hcount : entries.countP covered ≤ entries.length := List.countP_le_length
    exact Rounding.round_percent r 2 (percent_ratio (Nat.cast_nonneg _) (by exact_mod_cast hcount))

theorem ratioScore_percent (h : ∀ entry ∈ entries, entry.Bounded) :
    Percent (ratioScore r entries) := by
  unfold ratioScore
  by_cases hpos : 0 < maxSum entries
  · rw [if_pos hpos]
    exact Rounding.round_percent r 2 (percent_ratio (actualSum_nonneg h) (actualSum_le_maxSum h))
  · rw [if_neg hpos]
    exact percent_hundred

theorem weightedRatio_percent (h : ∀ entry ∈ entries, entry.Bounded) {q : ℚ}
    (hq : weightedRatio entries = some q) : Percent q := by
  unfold weightedRatio at hq
  split_ifs at hq
  rw [← Option.some.inj hq]
  exact percent_ratio (actualSum_nonneg h) (actualSum_le_maxSum h)

theorem scoredEntries_subset : scoredEntries entries ⊆ entries := by
  intro entry hentry
  simp only [scoredEntries] at hentry
  split_ifs at hentry
  · exact hentry
  · exact List.mem_of_mem_filter hentry

end Sums

theorem coverage_mem {s : SkillStore} {jdId resumeId : Uuid} {mandatory : Bool}
    {row : CoverageRow} (h : row ∈ getMandatorySkillCoverage s jdId resumeId mandatory) :
    row.jdSkill ∈ s.jdSkills.rows ∧ row.jdSkill.jdId = jdId ∧ row.jdSkill.mandatory = mandatory ∧
      ∀ skill ∈ row.candidate, skill ∈ s.candidateSkills.rows ∧ skill.resumeId = resumeId := by
  obtain ⟨jdSkill, hjdSkill, hrow⟩ := List.mem_flatMap.mp h
  obtain ⟨hmem, hjd⟩ := List.mem_filter.mp hjdSkill
  obtain ⟨hjdId, hmandatory⟩ := of_decide_eq_true hjd
  split at hrow
  · rw [List.mem_singleton.mp hrow]
    exact ⟨hmem, hjdId, hmandatory, fun skill hskill => absurd hskill (by simp)⟩
  · obtain ⟨candidate, hcandidate, rfl⟩ := List.mem_map.mp hrow
    obtain ⟨hrows, hfilter⟩ := List.mem_filter.mp hcandidate
    refine ⟨hmem, hjdId, hmandatory, ?_⟩
    intro skill hskill
    rw [← Option.some.inj hskill]
    exact ⟨hrows, (of_decide_eq_true hfilter).2.1⟩

theorem inPlaySkills_mem {s : SkillStore} {resumeId : Uuid} {skill : CandidateSkill}
    (h : skill ∈ inPlaySkills s resumeId) :
    skill ∈ s.candidateSkills.rows ∧ skill.resumeId = resumeId := by
  obtain ⟨hrows, hresume⟩ := List.mem_filter.mp (List.mem_of_mem_filter h)
  exact ⟨hrows, (of_decide_eq_true hresume).1⟩

namespace Admissible

variable {context : ScoringContext} {jdId resumeId : Uuid} (h : Admissible context jdId resumeId)
  {hierarchy : Option SkillHierarchy}

include h

theorem importance_nonneg (label : Option JDSkillImportance) :
    0 ≤ importanceMultiplierForLabel (multipliers context.config) label := by
  cases label with
  | none => exact zero_le_one
  | some label =>
    cases label with
    | core =>
      show 0 ≤ (context.config "CORE_IMPORTANCE_WEIGHT_MULTIPLIER").getD 1
      cases hv : context.config "CORE_IMPORTANCE_WEIGHT_MULTIPLIER" with
      | none => exact zero_le_one
      | some v => exact h.core v hv
    | supporting =>
      show 0 ≤ (context.config "SUPPORTING_IMPORTANCE_WEIGHT_MULTIPLIER").getD 1
      cases hv : context.config "SUPPORTING_IMPORTANCE_WEIGHT_MULTIPLIER" with
      | none => exact zero_le_one
      | some v => exact h.supporting v hv

theorem grandchild_share : Share (multipliers context.config).grandchild := by
  show Share ((context.config "HIERARCHY_GRANDCHILD_MULTIPLIER").getD (1 / 2))
  cases hv : context.config "HIERARCHY_GRANDCHILD_MULTIPLIER" with
  | none => exact ⟨by norm_num, by norm_num⟩
  | some v => exact h.grandchild v hv

theorem preferred_share :
    Share ((context.config "PREFERRED_SKILL_SHARE").getD defaultPreferredSkillShare) := by
  cases hv : context.config "PREFERRED_SKILL_SHARE" with
  | none =>
    show Share (1 / 10)
    exact ⟨by norm_num, by norm_num⟩
  | some v => exact h.preferred v hv

theorem inPlay_share {skill : CandidateSkill}
    (hskill : skill ∈ inPlaySkills context.store resumeId) : Share skill.scoringWeight :=
  h.pool skill (inPlaySkills_mem hskill).1 (inPlaySkills_mem hskill).2

theorem mandatory_bounded :
    ∀ entry ∈ (buildMandatorySkillBreakdown context jdId resumeId hierarchy).mandatorySkills,
      entry.Bounded := by
  intro entry hentry
  obtain ⟨row, hrow, rfl⟩ := List.mem_map.mp hentry
  obtain ⟨hmem, hjd, -, hcandidate⟩ := coverage_mem hrow
  refine scoreOneMandatorySkill_bounded (h.weights _ hmem hjd) h.importance_nonneg
    h.grandchild_share ?_ fun skill hskill => h.inPlay_share hskill
  intro skill hskill
  exact h.pool skill (hcandidate skill hskill).1 (hcandidate skill hskill).2

theorem preferred_bounded :
    ∀ entry ∈ (buildPreferredSkillBreakdown context jdId resumeId).preferredSkills,
      entry.Bounded := by
  intro entry hentry
  obtain ⟨row, hrow, rfl⟩ := List.mem_map.mp hentry
  obtain ⟨hmem, hjd, -, hcandidate⟩ := coverage_mem hrow
  refine scoreOnePreferredSkill_bounded (h.weights _ hmem hjd) ?_ ?_
  · intro skill hskill
    exact h.pool skill (hcandidate skill hskill).1 (hcandidate skill hskill).2
  · intro skill hskill
    split at hskill
    · exact h.inPlay_share hskill
    · simp at hskill

theorem technical_percent {q : ℚ} (hq : computeTechnicalScore context
      (buildMandatorySkillBreakdown context jdId resumeId hierarchy)
      (buildPreferredSkillBreakdown context jdId resumeId) = some q) : Percent q := by
  have hrequired {p : ℚ} (hp : weightedRatio (scoredEntries
      (buildMandatorySkillBreakdown context jdId resumeId hierarchy).mandatorySkills) = some p) :
      Percent p :=
    weightedRatio_percent
      (fun entry hentry => h.mandatory_bounded entry (scoredEntries_subset hentry)) hp
  have hpreferred {p : ℚ} (hp : weightedRatio
      (buildPreferredSkillBreakdown context jdId resumeId).preferredSkills = some p) :
      Percent p :=
    weightedRatio_percent h.preferred_bounded hp
  simp only [computeTechnicalScore] at hq
  split at hq
  · simp at hq
  · next required hsome hnone =>
      rw [← Option.some.inj hq]
      exact Rounding.round_percent _ 2 (hrequired hsome)
  · next preferred hnone hsome =>
      rw [← Option.some.inj hq]
      exact Rounding.round_percent _ 2 (hpreferred hsome)
  · next required preferred hleft hright =>
      rw [← Option.some.inj hq]
      exact Rounding.round_percent _ 2
        (percent_blend h.preferred_share (hrequired hleft) (hpreferred hright))

end Admissible

end AiHiring
