import AiHiring.Library.Blend
import AiHiring.Scoring.Layers

namespace AiHiring

open Library CandidateScoringService

namespace ExperienceEducationValidationService

variable (self : ExperienceEducationValidationService) (r : Rounding)
  (classifyDegreeLevel : Option String → Option DegreeLevel)

section Experience

variable {minExperienceYears extractedMin : Option ℚ} {years years' weight : ℚ}

def yearsScore (effectiveMin years : ℚ) : ℚ :=
  if effectiveMin ≤ years then 100
  else if 0 < effectiveMin then r.round 2 (years / effectiveMin * 100) else 100

theorem yearsScore_le (effectiveMin years : ℚ) : yearsScore r effectiveMin years ≤ 100 := by
  unfold yearsScore
  split_ifs with hreached hpos
  · exact le_rfl
  · have hshare : years / effectiveMin ≤ 1 := (div_le_one hpos).mpr (not_le.mp hreached).le
    have hle : years / effectiveMin * 100 ≤ ((100 : ℤ) : ℚ) := by
      push_cast
      linarith
    exact_mod_cast r.round_le_int 2 hle
  · exact le_rfl

theorem yearsScore_mono (h : years ≤ years') (effectiveMin : ℚ) :
    yearsScore r effectiveMin years ≤ yearsScore r effectiveMin years' := by
  by_cases hreached : effectiveMin ≤ years'
  · have hfull : yearsScore r effectiveMin years' = 100 := if_pos hreached
    rw [hfull]
    exact yearsScore_le r effectiveMin years
  · have hshort : ¬effectiveMin ≤ years := fun hle => hreached (hle.trans h)
    unfold yearsScore
    rw [if_neg hreached, if_neg hshort]
    split_ifs with hpos
    · apply r.mono 2
      gcongr
    · exact le_rfl

theorem validateExperience_passed (h : years ≤ years')
    (hpassed : (validateExperience self r minExperienceYears (some years) extractedMin).passed) :
    (validateExperience self r minExperienceYears (some years') extractedMin).passed := by
  unfold validateExperience at hpassed ⊢
  cases hmin : extractedMin.or minExperienceYears with
  | none => rfl
  | some minYears =>
    simp only [hmin, decide_eq_true_eq] at hpassed ⊢
    exact hpassed.trans h

def experienceComponent (result : ExperienceResult) (weight : ℚ) : List (ℚ × ℚ) :=
  component result.applicable result.score weight

theorem experienceComponent_eq (minExperienceYears extractedMin : Option ℚ) (weight : ℚ) :
    ∃ effectiveMin : Option ℚ, ∀ years, experienceComponent
      (validateExperience self r minExperienceYears (some years) extractedMin) weight =
        (effectiveMin.map fun m => (yearsScore r m years, weight)).toList := by
  unfold validateExperience experienceComponent component
  cases extractedMin.or minExperienceYears with
  | none => exact ⟨none, fun _ => rfl⟩
  | some minYears =>
    refine ⟨some (max (minYears - self.experienceToleranceYears) 0), fun years => ?_⟩
    simp only [if_true, Option.map_some, Option.toList_some, decide_eq_true_eq, yearsScore]

theorem experienceComponent_raised (h : years ≤ years') (hweight : 0 ≤ weight) :
    ScoresRaised (experienceComponent
        (validateExperience self r minExperienceYears (some years) extractedMin) weight)
      (experienceComponent
        (validateExperience self r minExperienceYears (some years') extractedMin) weight) := by
  obtain ⟨effectiveMin, heq⟩ := experienceComponent_eq self r minExperienceYears extractedMin weight
  rw [heq, heq]
  cases effectiveMin with
  | none => exact .nil
  | some m => exact .cons ⟨yearsScore_mono r h m, rfl, hweight⟩ .nil

theorem experienceComponent_bounds (hweight : 0 ≤ weight) : ∀ c ∈ experienceComponent
      (validateExperience self r minExperienceYears (some years) extractedMin) weight,
      c.1 ≤ 100 ∧ 0 ≤ c.2 := by
  intro c hc
  obtain ⟨effectiveMin, heq⟩ := experienceComponent_eq self r minExperienceYears extractedMin weight
  rw [heq] at hc
  obtain ⟨m, -, rfl⟩ := Option.map_eq_some_iff.mp (Option.mem_toList.mp hc)
  exact ⟨yearsScore_le r m years, hweight⟩

end Experience

section Education

variable {self classifyDegreeLevel} {entries entries' : List EducationEntry} {years years' : ℚ}

theorem meetsEquivalentExperience_mono (h : years ≤ years')
    (hmeets : meetsEquivalentExperience self (some years)) :
    meetsEquivalentExperience self (some years') := by
  unfold meetsEquivalentExperience at hmeets ⊢
  cases hequivalent : self.equivalentExperienceYears with
  | none => simp [hequivalent] at hmeets
  | some equivalent =>
    simp only [hequivalent, decide_eq_true_eq] at hmeets ⊢
    exact hmeets.trans h

theorem bestEntry_eq_none :
    bestEntry classifyDegreeLevel entries = none ↔ rankedEntries classifyDegreeLevel entries = [] :=
  List.argmax_eq_none

theorem bestEntry_mono (h : entries ⊆ entries') {best : (ℕ × DegreeLevel) × EducationEntry}
    (hbest : bestEntry classifyDegreeLevel entries = some best) :
    ∃ best', bestEntry classifyDegreeLevel entries' = some best' ∧ best.1.1 ≤ best'.1.1 := by
  have hmem : best ∈ rankedEntries classifyDegreeLevel entries := List.argmax_mem hbest
  have hmem' : best ∈ rankedEntries classifyDegreeLevel entries' := List.filterMap_subset _ h hmem
  cases hbest' : bestEntry classifyDegreeLevel entries' with
  | none =>
    rw [bestEntry_eq_none.mp hbest'] at hmem'
    simp at hmem'
  | some best' =>
    have hle := List.le_of_mem_argmax (f := fun ranked : (ℕ × DegreeLevel) × EducationEntry =>
      ranked.1.1) hmem' hbest'
    exact ⟨best', rfl, hle⟩

end Education

end ExperienceEducationValidationService

-- What a JD asks of a candidate's years and degrees.
structure RecordRequirement where
  (minExperienceYears extractedMin : Option ℚ)
  requiredDegreeText : Option String
  extracted : Option EducationEntry

structure CandidateRecord where
  totalYears : ℚ
  education : List EducationEntry

section StrongerRecord

open ExperienceEducationValidationService

variable (self : ExperienceEducationValidationService) (r : Rounding)
  (classifyDegreeLevel : Option String → Option DegreeLevel) (requirement : RecordRequirement)

def experienceOf (record : CandidateRecord) : ExperienceResult :=
  self.validateExperience r requirement.minExperienceYears (some record.totalYears)
    requirement.extractedMin

def educationOf (record : CandidateRecord) : EducationResult :=
  self.validateEducation r classifyDegreeLevel requirement.requiredDegreeText record.education
    (some record.totalYears) requirement.extracted

def requiredLevel : Option (ℕ × DegreeLevel) :=
  rankedLevel classifyDegreeLevel (requirement.extracted.bind EducationEntry.degreeLevel)
    requirement.requiredDegreeText

def meetsYears (record : CandidateRecord) : Bool :=
  meetsEquivalentExperience self (some record.totalYears)

def degreeScore (required best : ℕ) (meets : Bool) : ℚ :=
  if required ≤ best ∨ meets then 100 else r.round 2 ((best : ℚ) / (required : ℚ) * 100)

def educationComponent (result : EducationResult) (weight : ℚ) : List (ℚ × ℚ) :=
  component result.applicable result.score weight

variable {classifyDegreeLevel requirement}

theorem educationOf_skipped (record : CandidateRecord) (weight : ℚ)
    (hrequired : requiredLevel classifyDegreeLevel requirement = none) :
    educationComponent (educationOf self r classifyDegreeLevel requirement record) weight = [] ∧
    (educationOf self r classifyDegreeLevel requirement record).passed = true := by
  unfold requiredLevel at hrequired
  simp [educationOf, ExperienceEducationValidationService.validateEducation, hrequired,
    educationComponent, component]

theorem educationOf_unranked (record : CandidateRecord) (weight : ℚ) {required : ℕ × DegreeLevel}
    (hrequired : requiredLevel classifyDegreeLevel requirement = some required)
    (hbest : bestEntry classifyDegreeLevel record.education = none) :
    educationComponent (educationOf self r classifyDegreeLevel requirement record) weight =
      (if meetsYears self record then [(100, weight)] else []) ∧
    (educationOf self r classifyDegreeLevel requirement record).passed = true := by
  unfold requiredLevel at hrequired
  simp only [educationOf, ExperienceEducationValidationService.validateEducation, hrequired,
    hbest, educationComponent, component,
    meetsYears]
  by_cases hmeets : meetsEquivalentExperience self (some record.totalYears)
  · simp [hmeets]
  · simp [hmeets]

theorem educationOf_ranked (record : CandidateRecord) (weight : ℚ) {required : ℕ × DegreeLevel}
    (hrequired : requiredLevel classifyDegreeLevel requirement = some required)
    {best : (ℕ × DegreeLevel) × EducationEntry}
    (hbest : bestEntry classifyDegreeLevel record.education = some best) :
    educationComponent (educationOf self r classifyDegreeLevel requirement record) weight =
      [(degreeScore r required.1 best.1.1 (meetsYears self record), weight)] ∧
    ((educationOf self r classifyDegreeLevel requirement record).passed = true ↔
      required.1 ≤ best.1.1 ∨ meetsYears self record = true) := by
  unfold requiredLevel at hrequired
  simp only [educationOf, ExperienceEducationValidationService.validateEducation, hrequired,
    hbest, educationComponent, component,
    degreeScore, meetsYears]
  by_cases hreached : required.1 ≤ best.1.1
  · simp [hreached]
  · simp [hreached]

theorem degreeScore_mono {r : Rounding} {required best best' : ℕ} {meets meets' : Bool}
    (h : best ≤ best') (hmeets : meets → meets') :
    degreeScore r required best meets ≤ degreeScore r required best' meets' := by
  unfold degreeScore
  by_cases hpassed : required ≤ best ∨ meets
  · have hpassed' : required ≤ best' ∨ meets' := hpassed.imp (fun hle => hle.trans h) hmeets
    rw [if_pos hpassed, if_pos hpassed']
  · obtain ⟨hshort, -⟩ := not_or.mp hpassed
    have hpositive : 0 < required := by omega
    have hpos : (0 : ℚ) < required := by exact_mod_cast hpositive
    rw [if_neg hpassed]
    split_ifs
    · have hle : (best : ℚ) ≤ required := by exact_mod_cast (not_le.mp hshort).le
      have hshare : (best : ℚ) / required ≤ 1 := (div_le_one hpos).mpr hle
      have hscore : (best : ℚ) / required * 100 ≤ ((100 : ℤ) : ℚ) := by
        push_cast
        linarith
      exact_mod_cast r.round_le_int 2 hscore
    · have hcast : (best : ℚ) ≤ best' := by exact_mod_cast h
      apply r.mono 2
      gcongr

-- What goes into the combined score beside the record.
structure OtherInputs where
  mandatorySkillsPassed : Bool
  skillScore : Option ℚ
  domainResult : Option DomainResult
  scoreWeights : Option ScoreWeights
  deterministicThreshold : ℚ

structure Judgement where
  experience : ExperienceResult
  education : EducationResult
  combinedScore : ℚ
  combinedPassed : Bool

variable (classifyDegreeLevel requirement) (other : OtherInputs)

def judge (record : CandidateRecord) : Judgement :=
  let experience := experienceOf self r requirement record
  let education := educationOf self r classifyDegreeLevel requirement record
  let combined := combineDeterministicScore r other.mandatorySkillsPassed
    ⟨other.skillScore, some experience, some education, other.domainResult⟩ other.scoreWeights
    other.deterministicThreshold
  ⟨experience, education, combined.1, combined.2⟩

-- At least the years, and all of the education entries.
structure Stronger (weaker stronger : CandidateRecord) : Prop where
  totalYears : weaker.totalYears ≤ stronger.totalYears
  education : weaker.education ⊆ stronger.education

structure NotLowered (before after : Judgement) : Prop where
  experience : before.experience.passed → after.experience.passed
  education : before.education.passed → after.education.passed
  score : before.combinedScore ≤ after.combinedScore
  passed : before.combinedPassed → after.combinedPassed

-- The weaker record is let through for want of a degree that can be ranked; the
-- stronger has some, all below the one asked for, and not the years instead.
def DegreeFallsShort (weaker stronger : CandidateRecord) : Prop :=
  ∃ required, requiredLevel classifyDegreeLevel requirement = some required ∧
    rankedEntries classifyDegreeLevel weaker.education = [] ∧
    rankedEntries classifyDegreeLevel stronger.education ≠ [] ∧
    (∀ ranked ∈ rankedEntries classifyDegreeLevel stronger.education, ranked.1.1 < required.1) ∧
    meetsYears self stronger = false

variable {self r classifyDegreeLevel requirement other} {weaker stronger : CandidateRecord}

-- What more entries can do to the degree's part of the score: raise it, or bring in
-- a full one.
structure EducationKept (before after : EducationResult) (weight : ℚ) : Prop where
  passed : before.passed → after.passed
  component : ScoresRaised (educationComponent before weight) (educationComponent after weight) ∨
    educationComponent before weight = [] ∧ educationComponent after weight = [(100, weight)]

theorem raised_singleton {score score' weight : ℚ} (h : score ≤ score') (hweight : 0 ≤ weight) :
    ScoresRaised [(score, weight)] [(score', weight)] :=
  .cons ⟨h, rfl, hweight⟩ .nil

theorem degreeScore_passed {required best : ℕ} {meets : Bool} (h : required ≤ best ∨ meets) :
    degreeScore r required best meets = 100 := if_pos h

theorem meetsYears_mono (h : Stronger weaker stronger) (hmeets : meetsYears self weaker) :
    meetsYears self stronger :=
  meetsEquivalentExperience_mono h.totalYears hmeets

-- Short of the defect, a record whose best degree is ranked passes on it when the
-- weaker one had none.
theorem passes_of_unranked
    (hshort : ¬DegreeFallsShort self classifyDegreeLevel requirement weaker stronger)
    {required : ℕ × DegreeLevel}
    (hrequired : requiredLevel classifyDegreeLevel requirement = some required)
    (hweaker : bestEntry classifyDegreeLevel weaker.education = none)
    {best : (ℕ × DegreeLevel) × EducationEntry}
    (hbest : bestEntry classifyDegreeLevel stronger.education = some best) :
    required.1 ≤ best.1.1 ∨ meetsYears self stronger = true := by
  by_contra hnot
  obtain ⟨hrank, hyears⟩ := not_or.mp hnot
  have hmem : best ∈ rankedEntries classifyDegreeLevel stronger.education := List.argmax_mem hbest
  refine hshort ⟨required, hrequired, bestEntry_eq_none.mp hweaker, List.ne_nil_of_mem hmem,
    fun ranked hranked => ?_, Bool.eq_false_iff.mpr hyears⟩
  have hle := List.le_of_mem_argmax (f := fun ranked : (ℕ × DegreeLevel) × EducationEntry =>
    ranked.1.1) hranked hbest
  exact lt_of_le_of_lt hle (not_le.mp hrank)

theorem educationKept (h : Stronger weaker stronger) {weight : ℚ} (hweight : 0 ≤ weight)
    (hshort : ¬DegreeFallsShort self classifyDegreeLevel requirement weaker stronger) :
    EducationKept (educationOf self r classifyDegreeLevel requirement weaker)
      (educationOf self r classifyDegreeLevel requirement stronger) weight := by
  cases hrequired : requiredLevel classifyDegreeLevel requirement with
  | none =>
    obtain ⟨hweaker, -⟩ := educationOf_skipped self r weaker weight hrequired
    obtain ⟨hstronger, hpassed⟩ := educationOf_skipped self r stronger weight hrequired
    exact ⟨fun _ => hpassed, .inl (by rw [hweaker, hstronger]; exact .nil)⟩
  | some required =>
    cases hbest : bestEntry classifyDegreeLevel weaker.education with
    | some best =>
      obtain ⟨best', hbest', hle⟩ := bestEntry_mono h.education hbest
      obtain ⟨hweaker, hpassed⟩ := educationOf_ranked self r weaker weight hrequired hbest
      obtain ⟨hstronger, hpassed'⟩ := educationOf_ranked self r stronger weight hrequired hbest'
      refine ⟨fun hbefore => hpassed'.mpr ?_, .inl ?_⟩
      · exact (hpassed.mp hbefore).imp (fun hrank => hrank.trans hle) (meetsYears_mono h)
      · rw [hweaker, hstronger]
        exact raised_singleton (degreeScore_mono hle (meetsYears_mono h)) hweight
    | none =>
      obtain ⟨hweaker, -⟩ := educationOf_unranked self r weaker weight hrequired hbest
      -- the stronger record passes in full, or is not scored either
      have hstronger : (educationOf self r classifyDegreeLevel requirement stronger).passed ∧
          (educationComponent (educationOf self r classifyDegreeLevel requirement stronger)
            weight = [(100, weight)] ∨
          meetsYears self weaker = false ∧
            educationComponent (educationOf self r classifyDegreeLevel requirement stronger)
              weight = []) := by
        cases hbest' : bestEntry classifyDegreeLevel stronger.education with
        | some best' =>
          have hpasses := passes_of_unranked hshort hrequired hbest hbest'
          obtain ⟨hcomponent, hpassed⟩ :=
            educationOf_ranked self r stronger weight hrequired hbest'
          rw [degreeScore_passed hpasses] at hcomponent
          exact ⟨hpassed.mpr hpasses, .inl hcomponent⟩
        | none =>
          obtain ⟨hcomponent, hpassed⟩ :=
            educationOf_unranked self r stronger weight hrequired hbest'
          refine ⟨hpassed, ?_⟩
          by_cases hmeets : meetsYears self stronger = true
          · rw [if_pos hmeets] at hcomponent
            exact .inl hcomponent
          · rw [if_neg hmeets] at hcomponent
            have hweakerMeets := fun hbefore => hmeets (meetsYears_mono h hbefore)
            exact .inr ⟨Bool.eq_false_iff.mpr hweakerMeets, hcomponent⟩
      refine ⟨fun _ => hstronger.1, ?_⟩
      by_cases hmeets : meetsYears self weaker = true
      · rw [if_pos hmeets] at hweaker
        obtain hfull | ⟨hnot, -⟩ := hstronger.2
        · rw [hweaker, hfull]
          exact .inl (raised_singleton le_rfl hweight)
        · rw [hnot] at hmeets
          cases hmeets
      · rw [if_neg hmeets] at hweaker
        obtain hfull | ⟨-, hnone⟩ := hstronger.2
        · exact .inr ⟨hweaker, hfull⟩
        · rw [hweaker, hnone]
          exact .inl .nil

theorem not_educationKept
    (h : DegreeFallsShort self classifyDegreeLevel requirement weaker stronger) :
    (educationOf self r classifyDegreeLevel requirement weaker).passed = true ∧
    ¬(educationOf self r classifyDegreeLevel requirement stronger).passed = true := by
  obtain ⟨required, hrequired, hnone, hsome, hbelow, hyears⟩ := h
  refine ⟨(educationOf_unranked self r weaker 0 hrequired (bestEntry_eq_none.mpr hnone)).2, ?_⟩
  cases hbest : bestEntry classifyDegreeLevel stronger.education with
  | none => exact absurd (bestEntry_eq_none.mp hbest) hsome
  | some best =>
    rw [(educationOf_ranked self r stronger 0 hrequired hbest).2, hyears]
    have hlt := hbelow best (List.argmax_mem hbest)
    simp only [not_or, not_le, Bool.false_eq_true, not_false_eq_true, and_true]
    exact hlt

-- The components that do not come from the record.
def otherComponents (other : OtherInputs) (weights : ScoreWeights) : List (ℚ × ℚ) :=
  component true other.skillScore weights.skills ++
    component (other.domainResult.any DomainResult.applicable)
      (other.domainResult.bind DomainResult.score) weights.functional

theorem judge_combinedScore (record : CandidateRecord) :
    (judge self r classifyDegreeLevel requirement other record).combinedScore =
      blend (r.round 2) (otherComponents other (other.scoreWeights.getD defaultScoreWeights) ++
        experienceComponent (experienceOf self r requirement record)
          (other.scoreWeights.getD defaultScoreWeights).experience ++
        educationComponent (educationOf self r classifyDegreeLevel requirement record)
          (other.scoreWeights.getD defaultScoreWeights).education)
        (other.skillScore.getD 100) := rfl

-- The inputs from elsewhere are what the other layers hand over.
structure OtherInputs.Admissible (other : OtherInputs) : Prop where
  skill : ∀ q ∈ other.skillScore, q ≤ 100
  domain : ∀ result ∈ other.domainResult, ∀ q ∈ result.score, q ≤ 100
  weights : ∀ w ∈ other.scoreWeights, w.Nonneg

theorem OtherInputs.Admissible.nonneg (h : other.Admissible) :
    (other.scoreWeights.getD defaultScoreWeights).Nonneg := by
  cases hw : other.scoreWeights with
  | none => exact defaultScoreWeights_nonneg
  | some w => exact h.weights w hw

theorem component_le {applicable : Bool} {score : Option ℚ} {weight : ℚ}
    (hscore : ∀ q ∈ score, q ≤ 100) (hweight : 0 ≤ weight) :
    ∀ c ∈ component applicable score weight, c.1 ≤ 100 ∧ 0 ≤ c.2 := by
  intro c hc
  unfold component at hc
  split_ifs at hc
  · obtain ⟨q, hq, rfl⟩ := Option.map_eq_some_iff.mp (Option.mem_toList.mp hc)
    exact ⟨hscore q hq, hweight⟩
  · simp at hc

theorem otherComponents_bounds (h : other.Admissible) :
    ∀ c ∈ otherComponents other (other.scoreWeights.getD defaultScoreWeights),
      c.1 ≤ 100 ∧ 0 ≤ c.2 := by
  intro c hc
  obtain hc | hc := List.mem_append.mp hc
  · exact component_le h.skill h.nonneg.skills c hc
  · refine component_le (fun q hq => ?_) h.nonneg.functional c hc
    obtain ⟨result, hresult, hscore⟩ := Option.bind_eq_some_iff.mp hq
    exact h.domain result hresult q hscore

theorem combinedScore_kept (h : Stronger weaker stronger) (hother : other.Admissible)
    (hshort : ¬DegreeFallsShort self classifyDegreeLevel requirement weaker stronger) :
    (judge self r classifyDegreeLevel requirement other weaker).combinedScore ≤
      (judge self r classifyDegreeLevel requirement other stronger).combinedScore := by
  rw [judge_combinedScore, judge_combinedScore]
  have hbase := otherComponents_bounds hother
  have hexperience : ScoresRaised (experienceComponent (experienceOf self r requirement weaker)
        (other.scoreWeights.getD defaultScoreWeights).experience)
      (experienceComponent (experienceOf self r requirement stronger)
        (other.scoreWeights.getD defaultScoreWeights).experience) :=
    experienceComponent_raised self r h.totalYears hother.nonneg.experience
  have hraised := (ScoresRaised.refl fun c hc => (hbase c hc).2).append hexperience
  obtain heducation | ⟨hnone, hfull⟩ :=
    (educationKept (r := r) h hother.nonneg.education hshort).component
  · exact blend_raised (r.mono 2) (hraised.append heducation)
  · rw [hnone, hfull, List.append_nil]
    apply (blend_raised (r.mono 2) hraised).trans
    apply blend_top (r.mono 2) (by exact_mod_cast r.round_int 2 100) _ _ hother.nonneg.education
    · intro c hc
      obtain hc | hc := List.mem_append.mp hc
      · exact hbase c hc
      · exact experienceComponent_bounds self r hother.nonneg.experience c hc
    · cases hskill : other.skillScore with
      | none => exact le_rfl
      | some q => exact hother.skill q hskill

theorem stronger_record (self : ExperienceEducationValidationService) (r : Rounding)
    (classifyDegreeLevel : Option String → Option DegreeLevel) (requirement : RecordRequirement)
    (other : OtherInputs) (hother : other.Admissible) (weaker stronger : CandidateRecord)
    (h : Stronger weaker stronger) :
    NotLowered (judge self r classifyDegreeLevel requirement other weaker)
      (judge self r classifyDegreeLevel requirement other stronger) ↔
      ¬DegreeFallsShort self classifyDegreeLevel requirement weaker stronger := by
  constructor
  · intro hkept hshort
    obtain ⟨hpassed, hfailed⟩ := not_educationKept (r := r) hshort
    exact hfailed (hkept.education hpassed)
  · intro hshort
    have hexperience : (experienceOf self r requirement weaker).passed →
        (experienceOf self r requirement stronger).passed :=
      validateExperience_passed self r h.totalYears
    have heducation :=
      (educationKept (r := r) h hother.nonneg.education hshort).passed
    have hscore := combinedScore_kept (r := r) h hother hshort
    refine ⟨hexperience, heducation, hscore, fun hpassed => ?_⟩
    simp only [judge, combineDeterministicScore, Option.all_some, Bool.and_eq_true,
      decide_eq_true_eq] at hpassed ⊢
    obtain ⟨⟨⟨hskills, hexp⟩, hedu⟩, hthreshold⟩ := hpassed
    exact ⟨⟨⟨hskills, hexperience hexp⟩, heducation hedu⟩, hthreshold.trans hscore⟩

end StrongerRecord

def degreeService : ExperienceEducationValidationService := ⟨0, some 8⟩

def bachelorAsked : RecordRequirement :=
  ⟨none, some 3, some "Bachelor", some ⟨some .bachelor, some "Bachelor"⟩⟩

def skilled : OtherInputs := ⟨true, some 80, none, none, 70⟩

def withoutDegree : CandidateRecord := ⟨5, []⟩

def withDegree (level : DegreeLevel) : CandidateRecord := ⟨6, [⟨some level, none⟩]⟩

theorem skilled_admissible : skilled.Admissible where
  skill q hq := by
    cases hq
    norm_num
  domain result hresult := by cases hresult
  weights w hw := by cases hw

theorem stronger_withDegree (level : DegreeLevel) : Stronger withoutDegree (withDegree level) where
  totalYears := by norm_num [withoutDegree, withDegree]
  education := List.nil_subset _

theorem stronger_record_master : NotLowered
      (judge degreeService Rounding.halfUp (fun _ => none) bachelorAsked skilled withoutDegree)
      (judge degreeService Rounding.halfUp (fun _ => none) bachelorAsked skilled
        (withDegree .master)) ↔
      ¬DegreeFallsShort degreeService (fun _ => none) bachelorAsked withoutDegree
        (withDegree .master) :=
  stronger_record degreeService Rounding.halfUp (fun _ => none) bachelorAsked skilled
    skilled_admissible withoutDegree (withDegree .master) (stronger_withDegree .master)

theorem diploma_turns_down : skilled.Admissible ∧ Stronger withoutDegree (withDegree .diploma) ∧
    ¬NotLowered
      (judge degreeService Rounding.halfUp (fun _ => none) bachelorAsked skilled withoutDegree)
      (judge degreeService Rounding.halfUp (fun _ => none) bachelorAsked skilled
        (withDegree .diploma)) := by
  refine ⟨skilled_admissible, stronger_withDegree .diploma, fun hkept => ?_⟩
  have hbefore : (educationOf degreeService Rounding.halfUp (fun _ => none) bachelorAsked
      withoutDegree).passed = true := by decide
  exact absurd (hkept.education hbefore) (by decide)

end AiHiring
