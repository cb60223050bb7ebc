import AiHiring.Scoring.Rungs

namespace AiHiring

open Library SkillRepository SkillOntologyRepository

namespace CandidateScoringService

section Pool

variable {s s' : SkillStore} {resumeId : Uuid} {added : CandidateSkill}

-- The partial unique index on (resume_id, canonical_skill_id).
def UniqueSkills (s : SkillStore) (resumeId : Uuid) : Prop :=
  ∀ a ∈ s.candidateSkills.rows, ∀ b ∈ s.candidateSkills.rows, a.resumeId = resumeId →
    b.resumeId = resumeId → a.canonicalSkillId = b.canonicalSkillId → a.canonicalSkillId ≠ none →
    a = b

-- One more canonical skill for the resume, with the weight of its tier.
structure AddsSkill (s s' : SkillStore) (resumeId : Uuid) (added : CandidateSkill) : Prop where
  jdSkills : s'.jdSkills = s.jdSkills
  ontology : s'.ontology = s.ontology
  candidateSkills : s'.candidateSkills.rows = s.candidateSkills.rows ++ [added]
  resume : added.resumeId = resumeId
  new : ∀ row ∈ s.candidateSkills.rows, row.resumeId = resumeId →
    row.canonicalSkillId ≠ none → row.canonicalSkillId ≠ added.canonicalSkillId
  weight : added.scoringWeight = scoringWeightForTier added.matchTier

theorem AddsSkill.unique (h : AddsSkill s s' resumeId added) (hunique : UniqueSkills s resumeId) :
    UniqueSkills s' resumeId := by
  intro a ha b hb hresume hresume' hsame hsome
  rw [h.candidateSkills, List.mem_append, List.mem_singleton] at ha hb
  rcases ha with ha | rfl
  · rcases hb with hb | rfl
    · exact hunique a ha b hb hresume hresume' hsame hsome
    · exact absurd hsame (h.new a ha hresume hsome)
  · rcases hb with hb | rfl
    · rw [hsame] at hsome
      exact absurd hsame.symm (h.new b hb hresume' hsome)
    · rfl

theorem candidateSkillById_eq_some (hunique : UniqueSkills s resumeId) (id : Uuid)
    (skill : CandidateSkill) :
    candidateSkillById (inPlaySkills s resumeId) id = some skill ↔
      skill ∈ s.candidateSkills.rows ∧ skill.resumeId = resumeId ∧
        skill.canonicalSkillId = some id ∧ 0 < skill.scoringWeight := by
  have hmem (other : CandidateSkill) : other ∈ inPlaySkills s resumeId ↔
      other ∈ s.candidateSkills.rows ∧ other.resumeId = resumeId ∧
        other.canonicalSkillId.isSome = true ∧ 0 < other.scoringWeight := by
    simp only [inPlaySkills, getCandidateNormalizedSkills, List.mem_filter, decide_eq_true_iff,
      and_assoc]
  have hfound (other : CandidateSkill)
      (h : candidateSkillById (inPlaySkills s resumeId) id = some other) :
      other ∈ s.candidateSkills.rows ∧ other.resumeId = resumeId ∧
        other.canonicalSkillId = some id ∧ 0 < other.scoringWeight := by
    have hid : other.canonicalSkillId = some id := by simpa using List.find?_some h
    obtain ⟨hin, hresume, -, hweight⟩ := (hmem other).mp (candidateSkillById_mem h)
    exact ⟨hin, hresume, hid, hweight⟩
  constructor
  · exact hfound skill
  · rintro ⟨hin, hresume, hid, hweight⟩
    have hplay : skill ∈ inPlaySkills s resumeId :=
      (hmem skill).mpr ⟨hin, hresume, by simp [hid], hweight⟩
    cases hother : candidateSkillById (inPlaySkills s resumeId) id with
    | none =>
      have hnone := List.find?_eq_none.mp hother skill (List.mem_reverse.mpr hplay)
      exact absurd hid (by simpa using hnone)
    | some other =>
      obtain ⟨hin', hresume', hid', -⟩ := hfound other hother
      rw [hunique other hin' skill hin hresume' hresume (hid'.trans hid.symm) (by simp [hid'])]

theorem AddsSkill.grown (h : AddsSkill s s' resumeId added) (hunique : UniqueSkills s resumeId) :
    Grown (inPlaySkills s resumeId) (inPlaySkills s' resumeId) := by
  intro id skill hskill
  obtain ⟨hin, hrest⟩ := (candidateSkillById_eq_some hunique id skill).mp hskill
  refine (candidateSkillById_eq_some (h.unique hunique) id skill).mpr ⟨?_, hrest⟩
  rw [h.candidateSkills]
  exact List.mem_append_left _ hin

theorem AddsSkill.eq_added (h : AddsSkill s s' resumeId added) (hunique : UniqueSkills s resumeId)
    {id : Uuid} {skill : CandidateSkill}
    (hold : candidateSkillById (inPlaySkills s resumeId) id = none)
    (hnew : candidateSkillById (inPlaySkills s' resumeId) id = some skill) :
    skill = added ∧ added.canonicalSkillId = some id ∧ 0 < added.scoringWeight := by
  obtain ⟨hin, hresume, hid, hweight⟩ :=
    (candidateSkillById_eq_some (h.unique hunique) id skill).mp hnew
  rw [h.candidateSkills, List.mem_append, List.mem_singleton] at hin
  rcases hin with hin | rfl
  · have hsome := (candidateSkillById_eq_some hunique id skill).mpr ⟨hin, hresume, hid, hweight⟩
    exact absurd (hold.symm.trans hsome) nofun
  · exact ⟨rfl, hid, hweight⟩

def jdSkillsOf (s : SkillStore) (jdId : Uuid) (mandatory : Bool) : List JDSkill :=
  s.jdSkills.rows.filter fun row => row.jdId = jdId ∧ row.mandatory = mandatory

def joined (s : SkillStore) (resumeId : Uuid) (jdSkill : JDSkill) : CoverageRow :=
  ⟨jdSkill, candidateSkillById (inPlaySkills s resumeId) jdSkill.canonicalSkillId⟩

theorem getMandatorySkillCoverage_eq (hunique : UniqueSkills s resumeId) (jdId : Uuid)
    (mandatory : Bool) :
    getMandatorySkillCoverage s jdId resumeId mandatory =
      (jdSkillsOf s jdId mandatory).map (joined s resumeId) := by
  unfold getMandatorySkillCoverage jdSkillsOf
  rw [List.map_eq_flatMap]
  congr 1
  funext row
  have hmem (skill : CandidateSkill) : skill ∈ (s.candidateSkills.rows.filter fun skill =>
      skill.canonicalSkillId = some row.canonicalSkillId ∧ skill.resumeId = resumeId ∧
        0 < skill.scoringWeight) ↔
      candidateSkillById (inPlaySkills s resumeId) row.canonicalSkillId = some skill := by
    rw [candidateSkillById_eq_some hunique, List.mem_filter, decide_eq_true_iff]
    tauto
  have hnodup := s.candidateSkills.nodup.of_map.filter fun skill =>
    decide (skill.canonicalSkillId = some row.canonicalSkillId ∧ skill.resumeId = resumeId ∧
      0 < skill.scoringWeight)
  generalize (s.candidateSkills.rows.filter fun skill =>
    decide (skill.canonicalSkillId = some row.canonicalSkillId ∧ skill.resumeId = resumeId ∧
      0 < skill.scoringWeight)) = found at hmem hnodup
  unfold joined
  cases found with
  | nil =>
    cases hskill : candidateSkillById (inPlaySkills s resumeId) row.canonicalSkillId with
    | none => rfl
    | some skill => exact absurd ((hmem skill).mpr hskill) List.not_mem_nil
  | cons first rest =>
    have hfirst := (hmem first).mp List.mem_cons_self
    cases rest with
    | nil =>
      rw [hfirst]
      rfl
    | cons second rest =>
      have hsecond := (hmem second).mp (List.mem_cons_of_mem _ List.mem_cons_self)
      cases hfirst.symm.trans hsecond
      exact absurd List.mem_cons_self (List.nodup_cons.mp hnodup).1

end Pool

section Breakdowns

variable (context : ScoringContext) (jdId resumeId : Uuid) (hierarchy : Option SkillHierarchy)

def coverageRows (mandatory : Bool) : List CoverageRow :=
  (jdSkillsOf context.store jdId mandatory).map (joined context.store resumeId)

def usedHierarchy : SkillHierarchy :=
  hierarchy.getD (loadMandatorySkillHierarchy context.store.ontology
    ((jdSkillsOf context.store jdId true).map JDSkill.canonicalSkillId))

def mandatoryEntry (jdSkill : JDSkill) : BreakdownEntry :=
  scoreOneMandatorySkill context (multipliers context.config) (usedHierarchy context jdId hierarchy)
    (inPlaySkills context.store resumeId) (coverageRows context jdId resumeId true)
    (joined context.store resumeId jdSkill)

-- The pool that the preferred skills' aliases are looked up in.
def preferredPool : List CandidateSkill :=
  let rows := coverageRows context jdId resumeId false
  if (aliasSkillIds rows).any fun id => (aliasName context rows id).isSome then
    inPlaySkills context.store resumeId
  else []

def preferredEntry (jdSkill : JDSkill) : BreakdownEntry :=
  scoreOnePreferredSkill context (preferredPool context jdId resumeId)
    (coverageRows context jdId resumeId false) (joined context.store resumeId jdSkill)

def mandatoryLadder (jdSkill : JDSkill) : List (ℚ × Option ℚ) :=
  mandatoryRungs context (multipliers context.config) (usedHierarchy context jdId hierarchy)
    (inPlaySkills context.store resumeId) (coverageRows context jdId resumeId true)
    (joined context.store resumeId jdSkill)

theorem mandatoryEntry_entered (jdSkill : JDSkill) :
    Entered context.rounding (multipliers context.config) jdSkill jdSkill.importance
      (mandatoryLadder context jdId resumeId hierarchy jdSkill)
      (mandatoryEntry context jdId resumeId hierarchy jdSkill) := by
  have h := @scoreOneMandatorySkill_entered context (multipliers context.config)
    (usedHierarchy context jdId hierarchy) (inPlaySkills context.store resumeId)
    (coverageRows context jdId resumeId true) (joined context.store resumeId jdSkill)
  exact h

def preferredLadder (jdSkill : JDSkill) : List (ℚ × Option ℚ) :=
  [exactRung context (preferredPool context jdId resumeId)
    (coverageRows context jdId resumeId false) (joined context.store resumeId jdSkill)]

theorem preferredEntry_entered (jdSkill : JDSkill) :
    Entered context.rounding neutral jdSkill none (preferredLadder context jdId resumeId jdSkill)
      (preferredEntry context jdId resumeId jdSkill) := by
  have h := @scoreOnePreferredSkill_entered context (preferredPool context jdId resumeId)
    (coverageRows context jdId resumeId false) (joined context.store resumeId jdSkill)
  exact h

variable {context resumeId}

theorem mandatorySkills_eq (hunique : UniqueSkills context.store resumeId) :
    (buildMandatorySkillBreakdown context jdId resumeId hierarchy).mandatorySkills =
      (jdSkillsOf context.store jdId true).map
        (mandatoryEntry context jdId resumeId hierarchy) := by
  simp only [buildMandatorySkillBreakdown, getMandatorySkillCoverage_eq hunique, List.map_map]
  rfl

theorem preferredSkills_eq (hunique : UniqueSkills context.store resumeId) :
    (buildPreferredSkillBreakdown context jdId resumeId).preferredSkills =
      (jdSkillsOf context.store jdId false).map (preferredEntry context jdId resumeId) := by
  simp only [buildPreferredSkillBreakdown, getMandatorySkillCoverage_eq hunique, List.map_map]
  rfl

end Breakdowns

-- What every entry keeps, and what it keeps when nothing displaces its match.
structure Kept (old new : BreakdownEntry) : Prop where
  importance : new.importance = old.importance
  effectiveJdWeight : new.effectiveJdWeight = old.effectiveJdWeight
  covered : covered old = true → covered new = true

structure NoLess (old new : BreakdownEntry) : Prop extends Kept old new where
  contribution : old.contribution ≤ new.contribution

section Scores

variable {old new : List BreakdownEntry} {r : Rounding}

theorem isClassified_kept (h : List.Forall₂ Kept old new) :
    isClassified new = isClassified old := by
  induction h with
  | nil => rfl
  | cons hentry hrest ih =>
    unfold isClassified at ih ⊢
    rw [List.any_cons, List.any_cons, ih, hentry.importance]

theorem filter_kept {R : BreakdownEntry → BreakdownEntry → Prop}
    (hR : ∀ old new, R old new → new.importance = old.importance)
    (p : Option JDSkillImportance → Bool) (h : List.Forall₂ R old new) :
    List.Forall₂ R (old.filter fun entry => p entry.importance)
      (new.filter fun entry => p entry.importance) := by
  refine List.rel_filter ?_ h
  intro a b hab
  show p a.importance = true ↔ p b.importance = true
  rw [hR a b hab]

theorem countP_le_countP {R : BreakdownEntry → BreakdownEntry → Prop} (p : BreakdownEntry → Bool)
    (h : List.Forall₂ R old new) (hp : ∀ old new, R old new → p old = true → p new = true) :
    old.countP p ≤ new.countP p := by
  induction h with
  | nil => exact le_rfl
  | cons hentry hrest ih =>
    rename_i a b rest rest'
    rw [List.countP_cons, List.countP_cons]
    have hone := hp a b hentry
    split_ifs with hold hnew
    · omega
    · exact absurd (hone hold) hnew
    · omega
    · omega

theorem coveragePct_kept (h : List.Forall₂ Kept old new) :
    coveragePct r old ≤ coveragePct r new := by
  have hlength := h.length_eq
  have hcount : old.countP covered ≤ new.countP covered :=
    countP_le_countP covered h fun _ _ hkept => hkept.covered
  unfold coveragePct
  by_cases hempty : old = []
  · have hnew : new = [] := by
      rw [hempty, List.length_nil] at hlength
      exact List.eq_nil_of_length_eq_zero hlength.symm
    rw [if_pos hempty, if_pos hnew]
  · have hnew : new ≠ [] := by
      rintro rfl
      exact hempty (List.eq_nil_of_length_eq_zero hlength)
    rw [if_neg hempty, if_neg hnew, hlength]
    apply r.mono
    gcongr

theorem gateSkills_kept (h : List.Forall₂ Kept old new) :
    List.Forall₂ Kept (gateSkills old) (gateSkills new) := by
  unfold gateSkills
  rw [isClassified_kept h]
  split_ifs
  · exact filter_kept (fun _ _ hkept => hkept.importance) (fun label => label = some .core) h
  · exact h

theorem missingCoreSkillCount_kept (h : List.Forall₂ Kept old new) :
    missingCoreSkillCount new ≤ missingCoreSkillCount old := by
  refine countP_le_countP (R := fun new old => Kept old new) _ h.flip ?_
  intro new old hkept hmissing
  obtain ⟨htype, hcore⟩ := of_decide_eq_true hmissing
  apply decide_eq_true
  constructor
  · -- a covered entry would have stayed covered
    by_contra hne
    exact of_decide_eq_true (hkept.covered (decide_eq_true hne)) htype
  · rw [← hkept.importance]
    exact hcore

theorem maxSum_noLess (h : List.Forall₂ NoLess old new) : maxSum new = maxSum old := by
  unfold maxSum
  congr 1
  induction h with
  | nil => rfl
  | cons hentry hrest ih => rw [List.map_cons, List.map_cons, ih, hentry.effectiveJdWeight]

theorem actualSum_noLess (h : List.Forall₂ NoLess old new) : actualSum old ≤ actualSum new := by
  unfold actualSum
  apply List.Forall₂.sum_le_sum
  rw [List.forall₂_map_left_iff, List.forall₂_map_right_iff]
  exact h.imp fun _ _ hentry => hentry.contribution

theorem ratio_noLess (h : List.Forall₂ NoLess old new) (hpos : 0 < maxSum old) :
    actualSum old / maxSum old * 100 ≤ actualSum new / maxSum new * 100 := by
  have hle := actualSum_noLess h
  rw [maxSum_noLess h]
  gcongr

theorem ratioScore_noLess (h : List.Forall₂ NoLess old new) :
    ratioScore r old ≤ ratioScore r new := by
  have hsum := maxSum_noLess h
  unfold ratioScore
  by_cases hpos : 0 < maxSum old
  · rw [if_pos hpos, if_pos (by rw [hsum]; exact hpos)]
    exact r.mono 2 (ratio_noLess h hpos)
  · rw [if_neg hpos, if_neg (by rw [hsum]; exact hpos)]

theorem weightedRatio_noLess (h : List.Forall₂ NoLess old new) :
    Option.Rel (· ≤ ·) (weightedRatio old) (weightedRatio new) := by
  have hsum := maxSum_noLess h
  unfold weightedRatio
  by_cases hpos : maxSum old ≤ 0
  · rw [if_pos hpos, if_pos (by rw [hsum]; exact hpos)]
    exact .none
  · rw [if_neg hpos, if_neg (by rw [hsum]; exact hpos)]
    exact .some (ratio_noLess h (not_le.mp hpos))

theorem scoredEntries_noLess (h : List.Forall₂ NoLess old new) :
    List.Forall₂ NoLess (scoredEntries old) (scoredEntries new) := by
  have hfilter := filter_kept (fun _ _ hentry => hentry.importance)
    (fun label => label ≠ some .core) h
  unfold scoredEntries
  generalize (old.filter fun entry => decide (entry.importance ≠ some .core)) = kept at hfilter ⊢
  generalize (new.filter fun entry => decide (entry.importance ≠ some .core)) = kept' at hfilter ⊢
  cases hfilter with
  | nil => exact h
  | cons hfirst hrest => exact .cons hfirst hrest

theorem computeTechnicalScore_noLess {context context' : ScoringContext}
    {mandatory mandatory' : MandatoryBreakdown} {preferred preferred' : PreferredBreakdown}
    (hconfig : context'.config = context.config) (hrounding : context'.rounding = context.rounding)
    (hshare : Share ((context.config "PREFERRED_SKILL_SHARE").getD defaultPreferredSkillShare))
    (hmandatory : List.Forall₂ NoLess mandatory.mandatorySkills mandatory'.mandatorySkills)
    (hpreferred : List.Forall₂ NoLess preferred.preferredSkills preferred'.preferredSkills) :
    Option.Rel (· ≤ ·) (computeTechnicalScore context mandatory preferred)
      (computeTechnicalScore context' mandatory' preferred') := by
  have hrequired := weightedRatio_noLess (scoredEntries_noLess hmandatory)
  have hother := weightedRatio_noLess hpreferred
  unfold computeTechnicalScore
  rw [hconfig, hrounding]
  generalize weightedRatio (scoredEntries mandatory.mandatorySkills) = p at hrequired ⊢
  generalize weightedRatio (scoredEntries mandatory'.mandatorySkills) = p' at hrequired ⊢
  generalize weightedRatio preferred.preferredSkills = q at hother ⊢
  generalize weightedRatio preferred'.preferredSkills = q' at hother ⊢
  cases hrequired with
  | none =>
    cases hother with
    | none => exact .none
    | some hq => exact .some (context.rounding.mono 2 hq)
  | some hp =>
    cases hother with
    | none => exact .some (context.rounding.mono 2 hp)
    | some hq =>
      have hrest := sub_nonneg.mpr hshare.2
      exact .some (context.rounding.mono 2 (add_le_add (mul_le_mul_of_nonneg_left hp hrest)
        (mul_le_mul_of_nonneg_left hq hshare.1)))

theorem evaluateSkillQualification_noLess {breakdown breakdown' : MandatoryBreakdown}
    {score score' : Option ℚ} (hcoverage : breakdown.coreCoveragePct ≤ breakdown'.coreCoveragePct)
    (hmissing : missingCoreSkillCount breakdown'.mandatorySkills ≤
      missingCoreSkillCount breakdown.mandatorySkills)
    (hscore : Option.Rel (· ≤ ·) score score') (deterministicThreshold coverageThreshold : ℚ)
    (maxMissing : ℤ)
    (hpassed : (evaluateSkillQualification breakdown score deterministicThreshold
      coverageThreshold maxMissing).skillQualificationPassed = true) :
    (evaluateSkillQualification breakdown' score' deterministicThreshold coverageThreshold
      maxMissing).skillQualificationPassed = true := by
  simp only [evaluateSkillQualification, Bool.and_eq_true, decide_eq_true_iff] at hpassed ⊢
  obtain ⟨⟨hcovered, hscored⟩, hgap⟩ := hpassed
  refine ⟨⟨hcovered.trans hcoverage, ?_⟩, ?_⟩
  · cases hscore with
    | none => exact hscored
    | some hle =>
      simp only [Option.all_some, decide_eq_true_iff] at hscored ⊢
      exact hscored.trans hle
  · omega

end Scores

-- A JD with weights from zero on, matches weighted by their tiers, and multipliers that
-- leave the order of the tiers as it is.
structure TieredScoring (context : ScoringContext) (jdId resumeId : Uuid) : Prop
    extends Admissible context jdId resumeId where
  unique : UniqueSkills context.store resumeId
  tiers : ∀ skill ∈ context.store.candidateSkills.rows, skill.resumeId = resumeId →
    skill.scoringWeight = scoringWeightForTier skill.matchTier
  grandchildDefault : (multipliers context.config).grandchild = defaultGrandchildMultiplier

section Displaced

variable (context : ScoringContext) (s' : SkillStore) (jdId resumeId : Uuid)
  (hierarchy : Option SkillHierarchy) (added : CandidateSkill) (jdSkill : JDSkill)

-- The skill itself is put in the place of an alias that weighs more.
def TakesAliasPlace (skills : List CandidateSkill) (rows : List CoverageRow) : Prop :=
  added.canonicalSkillId = some jdSkill.canonicalSkillId ∧ 0 < added.scoringWeight ∧
    ∃ found ∈ bestAliasMatch context skills rows ⟨jdSkill, none⟩,
      added.scoringWeight < found.1.scoringWeight

def withStore : ScoringContext := { context with store := s' }

def mandatoryUpperRungs : List (ℚ × Option ℚ) :=
  upperRungs context (multipliers context.config) (usedHierarchy context jdId hierarchy)
    (inPlaySkills context.store resumeId) (coverageRows context jdId resumeId true)
    (joined context.store resumeId jdSkill)

def nearestMatch : Option (CandidateSkill × Option String × ℚ) :=
  semanticMatch context (multipliers context.config) (inPlaySkills context.store resumeId)
    (target (usedHierarchy context jdId hierarchy) (joined context.store resumeId jdSkill))

-- Only the semantic tier is left, and the nearest skill weighs less than the one before.
def NearestIsLighter : Prop :=
  (∀ rung ∈ mandatoryUpperRungs (withStore context s') jdId resumeId hierarchy jdSkill,
      rung.2 = none) ∧
    ∃ old ∈ nearestMatch context jdId resumeId hierarchy jdSkill,
      ∃ new ∈ nearestMatch (withStore context s') jdId resumeId hierarchy jdSkill,
        new.1.scoringWeight < old.1.scoringWeight

def MandatoryDisplaced : Prop :=
  TakesAliasPlace context added jdSkill (inPlaySkills context.store resumeId)
      (coverageRows context jdId resumeId true) ∨
    NearestIsLighter context s' jdId resumeId hierarchy jdSkill

def PreferredDisplaced : Prop :=
  TakesAliasPlace context added jdSkill (preferredPool context jdId resumeId)
    (coverageRows context jdId resumeId false)

end Displaced

section Larger

variable {context : ScoringContext} {s' : SkillStore} {jdId resumeId : Uuid}
  {hierarchy : Option SkillHierarchy} {added : CandidateSkill}

theorem jdSkillsOf_larger (hadds : AddsSkill context.store s' resumeId added) (mandatory : Bool) :
    jdSkillsOf s' jdId mandatory = jdSkillsOf context.store jdId mandatory := by
  rw [jdSkillsOf, hadds.jdSkills, jdSkillsOf]

theorem usedHierarchy_larger (hadds : AddsSkill context.store s' resumeId added) :
    usedHierarchy (withStore context s') jdId hierarchy = usedHierarchy context jdId hierarchy := by
  unfold usedHierarchy withStore
  rw [jdSkillsOf_larger hadds, hadds.ontology]

theorem rescored_inPlay (hadds : AddsSkill context.store s' resumeId added)
    (hunique : UniqueSkills context.store resumeId) (jdSkill : JDSkill) :
    Rescored context (withStore context s') (inPlaySkills context.store resumeId)
      (inPlaySkills s' resumeId) (joined context.store resumeId jdSkill)
      (joined s' resumeId jdSkill) :=
  ⟨rfl, hadds.grown hunique, rfl, fun candidate h => hadds.grown hunique _ candidate h⟩

theorem preferredPool_larger (jdId : Uuid) (hadds : AddsSkill context.store s' resumeId added) :
    (preferredPool context jdId resumeId = [] ∧
        preferredPool (withStore context s') jdId resumeId = []) ∨
      (preferredPool context jdId resumeId = inPlaySkills context.store resumeId ∧
        preferredPool (withStore context s') jdId resumeId = inPlaySkills s' resumeId) := by
  have hids : aliasSkillIds (coverageRows (withStore context s') jdId resumeId false) =
      aliasSkillIds (coverageRows context jdId resumeId false) := by
    unfold coverageRows aliasSkillIds
    rw [List.flatMap_map, List.flatMap_map]
    show (jdSkillsOf s' jdId false).flatMap _ = _
    rw [jdSkillsOf_larger hadds]
    rfl
  have hname : ∀ id, aliasName (withStore context s')
      (coverageRows (withStore context s') jdId resumeId false) id =
        aliasName context (coverageRows context jdId resumeId false) id := by
    intro id
    unfold aliasName
    rw [hids]
    show (if _ then (getSkillById s'.ontology id).map _ else none) = _
    rw [hadds.ontology]
  unfold preferredPool
  simp only [hids, hname]
  split_ifs
  · exact .inr ⟨rfl, rfl⟩
  · exact .inl ⟨rfl, rfl⟩

theorem rescored_preferred (jdId : Uuid) (hadds : AddsSkill context.store s' resumeId added)
    (hunique : UniqueSkills context.store resumeId) (jdSkill : JDSkill) :
    Rescored context (withStore context s') (preferredPool context jdId resumeId)
      (preferredPool (withStore context s') jdId resumeId)
      (joined context.store resumeId jdSkill) (joined s' resumeId jdSkill) := by
  refine ⟨rfl, ?_, rfl, fun candidate h => hadds.grown hunique _ candidate h⟩
  rcases preferredPool_larger jdId hadds with ⟨hold, hnew⟩ | ⟨hold, hnew⟩
  · rw [hold, hnew]
    exact fun _ _ h => h
  · rw [hold, hnew]
    exact hadds.grown hunique

-- The exact tier gets better, unless the skill itself pushes an alias aside.
theorem exactRung_larger {skills skills' : List CandidateSkill} {rows : List CoverageRow}
    (rows' : List CoverageRow) (hadds : AddsSkill context.store s' resumeId added)
    (hunique : UniqueSkills context.store resumeId) (jdSkill : JDSkill)
    (h : Rescored context (withStore context s') skills skills'
      (joined context.store resumeId jdSkill) (joined s' resumeId jdSkill))
    (hkept : ¬TakesAliasPlace context added jdSkill skills rows) :
    ∀ weight ∈ (exactRung context skills rows (joined context.store resumeId jdSkill)).2,
      ∃ weight' ∈ (exactRung (withStore context s') skills' rows'
        (joined s' resumeId jdSkill)).2, weight ≤ weight' := by
  intro weight hweight
  obtain ⟨match_, hmatch, rfl⟩ := Option.map_eq_some_iff.mp hweight
  unfold exactMatch at hmatch
  unfold exactRung exactMatch
  cases hold : (joined context.store resumeId jdSkill).candidate with
  | some candidate =>
    rw [h.candidate candidate hold]
    rw [hold] at hmatch
    cases hmatch
    exact ⟨_, rfl, le_rfl⟩
  | none =>
    rw [hold] at hmatch
    obtain ⟨found, hfound, rfl⟩ := Option.map_eq_some_iff.mp hmatch
    cases hnew : (joined s' resumeId jdSkill).candidate with
    | none =>
      obtain ⟨found', hfound', hle⟩ := aliasMatch_grown h rows' found hfound
      rw [hfound']
      exact ⟨_, rfl, hle⟩
    | some candidate =>
      obtain ⟨rfl, hid, hpos⟩ := hadds.eq_added hunique hold hnew
      refine ⟨_, rfl, not_lt.mp fun hlt => hkept ⟨hid, hpos, found, hfound, hlt⟩⟩

theorem scoringWeightForTier_range {tier : SkillMatchTier} (h : 0 < scoringWeightForTier tier) :
    4 / 5 ≤ scoringWeightForTier tier ∧ scoringWeightForTier tier ≤ 1 := by
  cases tier <;> simp_all [scoringWeightForTier] <;> norm_num

theorem inPlaySkills_weight {s : SkillStore} {skill : CandidateSkill}
    (htiers : ∀ skill ∈ s.candidateSkills.rows, skill.resumeId = resumeId →
      skill.scoringWeight = scoringWeightForTier skill.matchTier)
    (hskill : skill ∈ inPlaySkills s resumeId) :
    4 / 5 ≤ skill.scoringWeight ∧ skill.scoringWeight ≤ 1 := by
  obtain ⟨hrow, hresume⟩ := inPlaySkills_mem hskill
  have hpos : 0 < skill.scoringWeight := of_decide_eq_true (List.mem_filter.mp hskill).2
  rw [htiers skill hrow hresume] at hpos ⊢
  exact scoringWeightForTier_range hpos

theorem joined_weight {s : SkillStore} {jdSkill : JDSkill}
    (htiers : ∀ skill ∈ s.candidateSkills.rows, skill.resumeId = resumeId →
      skill.scoringWeight = scoringWeightForTier skill.matchTier) :
    ∀ candidate ∈ (joined s resumeId jdSkill).candidate,
      4 / 5 ≤ candidate.scoringWeight ∧ candidate.scoringWeight ≤ 1 :=
  fun _ hcandidate => inPlaySkills_weight htiers (candidateSkillById_mem hcandidate)

theorem preferredPool_weight
    (htiers : ∀ skill ∈ context.store.candidateSkills.rows, skill.resumeId = resumeId →
      skill.scoringWeight = scoringWeightForTier skill.matchTier) :
    ∀ skill ∈ preferredPool context jdId resumeId,
      4 / 5 ≤ skill.scoringWeight ∧ skill.scoringWeight ≤ 1 := by
  intro skill hskill
  unfold preferredPool at hskill
  dsimp only at hskill
  split_ifs at hskill
  · exact inPlaySkills_weight htiers hskill
  · simp at hskill

variable (h : TieredScoring context jdId resumeId)
  (hadds : AddsSkill context.store s' resumeId added)

include h hadds

theorem tiers_larger : ∀ skill ∈ s'.candidateSkills.rows, skill.resumeId = resumeId →
    skill.scoringWeight = scoringWeightForTier skill.matchTier := by
  intro skill hskill hresume
  rw [hadds.candidateSkills, List.mem_append, List.mem_singleton] at hskill
  rcases hskill with hskill | rfl
  · exact h.tiers skill hskill hresume
  · exact hadds.weight

variable {similarity : Uuid → Uuid → Option ℚ}

theorem mandatoryEntry_kept (hnearest : Nearest context.vectors similarity) (jdSkill : JDSkill) :
    Kept (mandatoryEntry context jdId resumeId hierarchy jdSkill)
      (mandatoryEntry (withStore context s') jdId resumeId hierarchy jdSkill) := by
  have hold := mandatoryEntry_entered context jdId resumeId hierarchy jdSkill
  have hnew := mandatoryEntry_entered (withStore context s') jdId resumeId hierarchy jdSkill
  refine ⟨hnew.importance.trans hold.importance.symm,
    hnew.effectiveJdWeight.trans hold.effectiveJdWeight.symm, ?_⟩
  rw [hold.covered, hnew.covered, mandatoryLadder, mandatoryLadder, usedHierarchy_larger hadds]
  exact reached_mandatoryRungs (rescored_inPlay hadds h.unique jdSkill) hnearest

theorem mandatoryLadder_improves (hnearest : Nearest context.vectors similarity) (jdSkill : JDSkill)
    (hkept : ¬MandatoryDisplaced context s' jdId resumeId hierarchy added jdSkill) :
    Improves (mandatoryLadder context jdId resumeId hierarchy jdSkill)
      (mandatoryLadder (withStore context s') jdId resumeId hierarchy jdSkill) := by
  obtain ⟨hplace, hlighter⟩ := not_or.mp hkept
  have hrescored := rescored_inPlay hadds h.unique jdSkill
  unfold NearestIsLighter mandatoryUpperRungs nearestMatch at hlighter
  unfold mandatoryLadder
  rw [usedHierarchy_larger hadds] at hlighter ⊢
  refine improves_mandatoryRungs hrescored
    (exactRung_larger _ hadds h.unique jdSkill hrescored hplace) ?_
  intro hupper weight hweight
  obtain ⟨found, hfound, rfl⟩ := Option.map_eq_some_iff.mp hweight
  -- some skill is still near enough, and it does not weigh less
  obtain ⟨found', hfound'⟩ := Option.isSome_iff_exists.mp
    (semanticMatch_grown hnearest hrescored.vectors hrescored.grown _
      (Option.isSome_iff_exists.mpr ⟨found, hfound⟩))
  refine ⟨_, Option.map_eq_some_iff.mpr ⟨found', hfound', rfl⟩, ?_⟩
  exact not_lt.mp fun hlt => hlighter ⟨hupper, found, hfound, found', hfound', hlt⟩

theorem mandatoryEntry_noLess (hnearest : Nearest context.vectors similarity) (jdSkill : JDSkill)
    (hjdSkill : jdSkill ∈ jdSkillsOf context.store jdId true)
    (hkept : ¬MandatoryDisplaced context s' jdId resumeId hierarchy added jdSkill) :
    NoLess (mandatoryEntry context jdId resumeId hierarchy jdSkill)
      (mandatoryEntry (withStore context s') jdId resumeId hierarchy jdSkill) := by
  obtain ⟨hmem, hjd⟩ := List.mem_filter.mp hjdSkill
  have hold := mandatoryEntry_entered context jdId resumeId hierarchy jdSkill
  have hnew := mandatoryEntry_entered (withStore context s') jdId resumeId hierarchy jdSkill
  have hlarger := tiers_larger h hadds
  have himproves := mandatoryLadder_improves h hadds hnearest jdSkill hkept
  have hpay := pay_mono (4 / 5) 1 himproves (by norm_num)
    (mandatoryRungs_dominant h.grandchildDefault) (mandatoryRungs_share h.grandchildDefault)
    (fun rung hrung weight hweight => (mandatoryRungs_range (P := fun w => 4 / 5 ≤ w ∧ w ≤ 1)
      (joined_weight h.tiers) (fun _ hskill => inPlaySkills_weight h.tiers hskill) rung hrung
      weight hweight).2)
    fun rung hrung weight hweight => (mandatoryRungs_range (P := fun w => 4 / 5 ≤ w ∧ w ≤ 1)
      (joined_weight hlarger) (fun _ hskill => inPlaySkills_weight hlarger hskill) rung hrung
      weight hweight).1
  exact ⟨mandatoryEntry_kept h hadds hnearest jdSkill, contribution_le hold hnew
    (h.weights jdSkill hmem (of_decide_eq_true hjd).1) (h.importance_nonneg _) hpay⟩

theorem preferredEntry_noLess (jdSkill : JDSkill)
    (hjdSkill : jdSkill ∈ jdSkillsOf context.store jdId false)
    (hkept : ¬PreferredDisplaced context jdId resumeId added jdSkill) :
    NoLess (preferredEntry context jdId resumeId jdSkill)
      (preferredEntry (withStore context s') jdId resumeId jdSkill) := by
  obtain ⟨hmem, hjd⟩ := List.mem_filter.mp hjdSkill
  have hold := preferredEntry_entered context jdId resumeId jdSkill
  have hnew := preferredEntry_entered (withStore context s') jdId resumeId jdSkill
  have hrescored := rescored_preferred jdId hadds h.unique jdSkill
  have hlarger := tiers_larger h hadds
  have hexact := exactRung_larger (coverageRows (withStore context s') jdId resumeId false)
    hadds h.unique jdSkill hrescored hkept
  have hpay : pay (preferredLadder context jdId resumeId jdSkill) ≤
      pay (preferredLadder (withStore context s') jdId resumeId jdSkill) := by
    refine pay_mono (4 / 5) 1 (.cons 1 _ _ _ _ hexact fun _ => .nil)
      (by norm_num) (List.pairwise_singleton _ _) ?_ ?_ ?_
    · intro rung hrung
      rw [List.mem_singleton.mp hrung]
      exact zero_le_one
    · intro rung hrung weight hweight
      rw [List.mem_singleton.mp hrung] at hweight
      exact (exactRung_range (P := fun w => 4 / 5 ≤ w ∧ w ≤ 1) (joined_weight h.tiers)
        (preferredPool_weight h.tiers) weight hweight).2
    · intro rung hrung weight hweight
      rw [List.mem_singleton.mp hrung] at hweight
      exact (exactRung_range (P := fun w => 4 / 5 ≤ w ∧ w ≤ 1) (joined_weight hlarger)
        (preferredPool_weight hlarger) weight hweight).1
  refine ⟨⟨hnew.importance.trans hold.importance.symm,
    hnew.effectiveJdWeight.trans hold.effectiveJdWeight.symm, ?_⟩, ?_⟩
  · rw [hold.covered, hnew.covered]
    exact reached_mono (.cons (isSome_of_le hexact) .nil)
  · exact contribution_le hold hnew (h.weights jdSkill hmem (of_decide_eq_true hjd).1) zero_le_one
      hpay

end Larger

def technicalScore (context : ScoringContext) (jdId resumeId : Uuid)
    (hierarchy : Option SkillHierarchy) : Option ℚ :=
  computeTechnicalScore context (buildMandatorySkillBreakdown context jdId resumeId hierarchy)
    (buildPreferredSkillBreakdown context jdId resumeId)

def NothingDisplaced (context : ScoringContext) (s' : SkillStore) (jdId resumeId : Uuid)
    (hierarchy : Option SkillHierarchy) (added : CandidateSkill) : Prop :=
  ∀ jdSkill ∈ jdSkillsOf context.store jdId true,
    ¬MandatoryDisplaced context s' jdId resumeId hierarchy added jdSkill

def NoAliasDisplaced (context : ScoringContext) (jdId resumeId : Uuid)
    (added : CandidateSkill) : Prop :=
  ∀ jdSkill ∈ jdSkillsOf context.store jdId false,
    ¬PreferredDisplaced context jdId resumeId added jdSkill

-- What one more skill leaves at least as good as it was.
structure NotHurt (context context' : ScoringContext) (jdId resumeId : Uuid)
    (hierarchy : Option SkillHierarchy) (added : CandidateSkill) : Prop where
  mandatorySkills : ∀ scored ∈ [context, context'],
    (buildMandatorySkillBreakdown scored jdId resumeId hierarchy).mandatorySkills =
      (jdSkillsOf context.store jdId true).map (mandatoryEntry scored jdId resumeId hierarchy)
  preferredSkills : ∀ scored ∈ [context, context'],
    (buildPreferredSkillBreakdown scored jdId resumeId).preferredSkills =
      (jdSkillsOf context.store jdId false).map (preferredEntry scored jdId resumeId)
  coreCoveragePct : (buildMandatorySkillBreakdown context jdId resumeId hierarchy).coreCoveragePct ≤
      (buildMandatorySkillBreakdown context' jdId resumeId hierarchy).coreCoveragePct
  missingCoreSkillCount : missingCoreSkillCount
        (buildMandatorySkillBreakdown context' jdId resumeId hierarchy).mandatorySkills ≤
      missingCoreSkillCount
        (buildMandatorySkillBreakdown context jdId resumeId hierarchy).mandatorySkills
  mandatoryContribution : ∀ jdSkill ∈ jdSkillsOf context.store jdId true,
    ¬MandatoryDisplaced context context'.store jdId resumeId hierarchy added jdSkill →
      (mandatoryEntry context jdId resumeId hierarchy jdSkill).contribution ≤
        (mandatoryEntry context' jdId resumeId hierarchy jdSkill).contribution
  preferredContribution : ∀ jdSkill ∈ jdSkillsOf context.store jdId false,
    ¬PreferredDisplaced context jdId resumeId added jdSkill →
      (preferredEntry context jdId resumeId jdSkill).contribution ≤
        (preferredEntry context' jdId resumeId jdSkill).contribution
  deterministicScore : NothingDisplaced context context'.store jdId resumeId hierarchy added →
      (buildMandatorySkillBreakdown context jdId resumeId hierarchy).deterministicScore ≤
        (buildMandatorySkillBreakdown context' jdId resumeId hierarchy).deterministicScore
  technicalScore : NothingDisplaced context context'.store jdId resumeId hierarchy added →
      NoAliasDisplaced context jdId resumeId added →
        Option.Rel (· ≤ ·) (technicalScore context jdId resumeId hierarchy)
          (technicalScore context' jdId resumeId hierarchy)
  skillQualification : NothingDisplaced context context'.store jdId resumeId hierarchy added →
      NoAliasDisplaced context jdId resumeId added →
        ∀ deterministicThreshold coverageThreshold maxMissing,
          (evaluateSkillQualification (buildMandatorySkillBreakdown context jdId resumeId hierarchy)
              (CandidateScoringService.technicalScore context jdId resumeId hierarchy)
              deterministicThreshold coverageThreshold
              maxMissing).skillQualificationPassed = true →
            (evaluateSkillQualification
              (buildMandatorySkillBreakdown context' jdId resumeId hierarchy)
              (CandidateScoringService.technicalScore context' jdId resumeId hierarchy)
              deterministicThreshold coverageThreshold maxMissing).skillQualificationPassed = true

theorem forall₂_entries {jdSkills : List JDSkill} {old new : JDSkill → BreakdownEntry}
    {R : BreakdownEntry → BreakdownEntry → Prop}
    (h : ∀ jdSkill ∈ jdSkills, R (old jdSkill) (new jdSkill)) :
    List.Forall₂ R (jdSkills.map old) (jdSkills.map new) := by
  rw [List.forall₂_map_left_iff, List.forall₂_map_right_iff]
  exact List.forall₂_same.mpr h

theorem more_skills (context : ScoringContext) (s' : SkillStore) (jdId resumeId : Uuid)
    (hierarchy : Option SkillHierarchy) (added : CandidateSkill)
    (similarity : Uuid → Uuid → Option ℚ) (h : TieredScoring context jdId resumeId)
    (hadds : AddsSkill context.store s' resumeId added)
    (hnearest : Nearest context.vectors similarity) :
    NotHurt context (withStore context s') jdId resumeId hierarchy added := by
  let old := buildMandatorySkillBreakdown context jdId resumeId hierarchy
  let new := buildMandatorySkillBreakdown (withStore context s') jdId resumeId hierarchy
  have hold : old.mandatorySkills = _ := mandatorySkills_eq jdId hierarchy h.unique
  have hother := preferredSkills_eq jdId h.unique
  have hnew : new.mandatorySkills = (jdSkillsOf context.store jdId true).map
      (mandatoryEntry (withStore context s') jdId resumeId hierarchy) := by
    rw [← jdSkillsOf_larger hadds]
    exact mandatorySkills_eq jdId hierarchy (hadds.unique h.unique)
  have hother' : (buildPreferredSkillBreakdown (withStore context s') jdId
      resumeId).preferredSkills = (jdSkillsOf context.store jdId false).map
        (preferredEntry (withStore context s') jdId resumeId) := by
    rw [← jdSkillsOf_larger hadds]
    exact preferredSkills_eq jdId (hadds.unique h.unique)
  have hkept : List.Forall₂ Kept old.mandatorySkills new.mandatorySkills := by
    rw [hold, hnew]
    exact forall₂_entries fun jdSkill _ => mandatoryEntry_kept h hadds hnearest jdSkill
  have hmandatory (hnot : NothingDisplaced context s' jdId resumeId hierarchy added) :
      List.Forall₂ NoLess old.mandatorySkills new.mandatorySkills := by
    rw [hold, hnew]
    exact forall₂_entries fun jdSkill hin =>
      mandatoryEntry_noLess h hadds hnearest jdSkill hin (hnot jdSkill hin)
  have hpreferred (hnot : NoAliasDisplaced context jdId resumeId added) :
      List.Forall₂ NoLess (buildPreferredSkillBreakdown context jdId resumeId).preferredSkills
        (buildPreferredSkillBreakdown (withStore context s') jdId resumeId).preferredSkills := by
    rw [hother, hother']
    exact forall₂_entries fun jdSkill hin =>
      preferredEntry_noLess h hadds jdSkill hin (hnot _ hin)
  have hcoverage : old.coreCoveragePct ≤ new.coreCoveragePct :=
    coveragePct_kept (gateSkills_kept hkept)
  have htechnical (hnot : NothingDisplaced context s' jdId resumeId hierarchy added)
      (hnot' : NoAliasDisplaced context jdId resumeId added) :
      Option.Rel (· ≤ ·) (technicalScore context jdId resumeId hierarchy)
        (technicalScore (withStore context s') jdId resumeId hierarchy) :=
    computeTechnicalScore_noLess rfl rfl h.preferred_share (hmandatory hnot) (hpreferred hnot')
  constructor
  · exact List.forall_mem_cons.mpr ⟨hold, List.forall_mem_singleton.mpr hnew⟩
  · exact List.forall_mem_cons.mpr ⟨hother, List.forall_mem_singleton.mpr hother'⟩
  · exact hcoverage
  · exact missingCoreSkillCount_kept hkept
  · intro jdSkill hin hnot
    exact (mandatoryEntry_noLess h hadds hnearest jdSkill hin hnot).contribution
  · intro jdSkill hin hnot
    exact (preferredEntry_noLess h hadds jdSkill hin hnot).contribution
  · intro hnot
    exact ratioScore_noLess (hmandatory hnot)
  · exact htechnical
  · intro hnot hnot' deterministicThreshold coverageThreshold maxMissing
    exact evaluateSkillQualification_noLess hcoverage (missingCoreSkillCount_kept hkept)
      (htechnical hnot hnot') deterministicThreshold coverageThreshold maxMissing

theorem addsSkill_createCandidateSkill {s : SkillStore} {resumeId : Uuid}
    (row : Uuid → CandidateSkill) (hrow : ∀ id, (row id).id = id)
    (hresume : (row s.candidateSkills.next).resumeId = resumeId)
    (hnew : ∀ old ∈ s.candidateSkills.rows, old.resumeId = resumeId → old.canonicalSkillId ≠ none →
        old.canonicalSkillId ≠ (row s.candidateSkills.next).canonicalSkillId)
    (hweight : (row s.candidateSkills.next).scoringWeight =
      scoringWeightForTier (row s.candidateSkills.next).matchTier) :
    AddsSkill s (createCandidateSkill s row hrow) resumeId (row s.candidateSkills.next) :=
  ⟨rfl, rfl, rfl, hresume, hnew, hweight⟩

def aliasStore : SkillStore where
  ontology := SkillOntologyTable.empty
  unknownSkills := Table.empty
  jdSkills := Table.empty.insert
    (fun id => ⟨id, 0, 0, true, some 1, none, some [1], none, .exact, .autoVerified⟩) fun _ => rfl
  jdUnknownSkills := Table.empty
  candidateSkills := Table.empty.insert
    (fun id => ⟨id, 0, 0, some 1, none, "itbm", none, .exact, 1, .autoVerified⟩) fun _ => rfl

def aliasContext : ScoringContext where
  store := aliasStore
  vectors := ⟨fun _ => false, fun _ _ => none⟩
  config _ := none
  rounding := Rounding.halfUp

def fuzzySkill (id : Uuid) : CandidateSkill :=
  ⟨id, 0, 0, some 0, none, "spm", none, .fuzzy, 4 / 5, .pendingReview⟩

def fuzzyStore : SkillStore := createCandidateSkill aliasStore fuzzySkill fun _ => rfl

theorem aliasContext_tiered : TieredScoring aliasContext 0 0 where
  weights := by simp [aliasContext, aliasStore, Table.insert, Table.empty]
  pool := by simp [aliasContext, aliasStore, Table.insert, Table.empty, share_one]
  core := by simp [aliasContext]
  supporting := by simp [aliasContext]
  grandchild := by simp [aliasContext]
  preferred := by simp [aliasContext]
  unique := by simp [UniqueSkills, aliasContext, aliasStore, Table.insert, Table.empty]
  tiers := by
    simp [aliasContext, aliasStore, Table.insert, Table.empty, scoringWeightForTier]
  grandchildDefault := rfl

theorem fuzzyStore_adds : AddsSkill aliasContext.store fuzzyStore 0 (fuzzySkill 1) := by
  refine addsSkill_createCandidateSkill fuzzySkill (fun _ => rfl) rfl ?_ rfl
  simp [aliasContext, aliasStore, Table.insert, Table.empty, fuzzySkill]

theorem aliasContext_nearest : Nearest aliasContext.vectors fun _ _ => none :=
  ⟨fun _ _ _ _ h => absurd h nofun, fun _ _ _ _ _ => rfl⟩

theorem more_skills_fuzzy : NotHurt aliasContext (withStore aliasContext fuzzyStore) 0 0 none
    (fuzzySkill 1) :=
  more_skills aliasContext fuzzyStore 0 0 none (fuzzySkill 1) (fun _ _ => none) aliasContext_tiered
    fuzzyStore_adds aliasContext_nearest

-- The direct match with 0.8 takes the place of the alias with 1.0.
theorem direct_match_pays_less :
    ¬∀ (context : ScoringContext) (s' : SkillStore) (jdId resumeId : Uuid)
      (hierarchy : Option SkillHierarchy) (added : CandidateSkill)
      (similarity : Uuid → Uuid → Option ℚ), TieredScoring context jdId resumeId →
      AddsSkill context.store s' resumeId added → Nearest context.vectors similarity →
        ∀ jdSkill ∈ jdSkillsOf context.store jdId true,
          (mandatoryEntry context jdId resumeId hierarchy jdSkill).contribution ≤
            (mandatoryEntry (withStore context s') jdId resumeId hierarchy
              jdSkill).contribution := by
  intro h
  have hle := h aliasContext fuzzyStore 0 0 none (fuzzySkill 1) (fun _ _ => none)
    aliasContext_tiered fuzzyStore_adds aliasContext_nearest
  revert hle
  decide +kernel

end CandidateScoringService

end AiHiring
