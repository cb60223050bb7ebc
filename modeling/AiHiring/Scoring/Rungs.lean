import AiHiring.Library.Ladder
import AiHiring.Scoring.Ranges

namespace AiHiring

open Library

namespace CandidateScoringService

-- What an entry is worth: its tiers as a ladder, whichever weight each of them found.
structure Entered (r : Rounding) (m : ScoringMultipliers) (jdSkill : JDSkill)
    (label : Option JDSkillImportance) (ladder : List (ℚ × Option ℚ))
    (entry : BreakdownEntry) : Prop where
  canonicalSkillId : entry.canonicalSkillId = jdSkill.canonicalSkillId
  importance : entry.importance = label
  effectiveJdWeight : entry.effectiveJdWeight = jdSkill.weight.map fun weight =>
    r.round 4 (weight * importanceMultiplierForLabel m label)
  contribution : entry.contribution = r.round 4 (entry.weight * pay ladder)
  covered : covered entry = reached ladder

section Tiers

variable (context : ScoringContext) (m : ScoringMultipliers) (hierarchy : SkillHierarchy)
  (skills : List CandidateSkill) (rows : List CoverageRow) (row : CoverageRow)

-- The skill of the candidate that counts as the JD skill itself.
def exactMatch : Option CandidateSkill :=
  match row.candidate with
  | some candidate => some candidate
  | none => (bestAliasMatch context skills rows row).map Prod.fst

def exactRung : ℚ × Option ℚ :=
  (1, (exactMatch context skills rows row).map CandidateSkill.scoringWeight)

def hierarchyRung (multiplier : ℚ) (found : Option (CandidateSkill × Option String)) :
    ℚ × Option ℚ := (multiplier, found.map fun found => found.1.scoringWeight)

def target : Option SkillOntology := hierarchy.skillsById row.jdSkill.canonicalSkillId

-- The tiers above the semantic one.
def upperRungs : List (ℚ × Option ℚ) :=
  let id := row.jdSkill.canonicalSkillId
  [exactRung context skills rows row,
    hierarchyRung (7 / 10) (bestMatch skills (named (children hierarchy id))),
    hierarchyRung m.grandchild (bestMatch skills (named (grandchildren hierarchy id))),
    hierarchyRung (2 / 5) (siblingMatch hierarchy skills id (target hierarchy row))]

def semanticRung : ℚ × Option ℚ :=
  (1 / 5, (semanticMatch context m skills (target hierarchy row)).map fun found =>
    found.1.scoringWeight)

def mandatoryRungs : List (ℚ × Option ℚ) :=
  upperRungs context m hierarchy skills rows row ++ [semanticRung context m hierarchy skills row]

variable {context m hierarchy skills rows row}

theorem round_zero (r : Rounding) (n : ℕ) : r.round n 0 = 0 := by
  have h := r.round_int n 0
  rwa [Int.cast_zero] at h

theorem entered_missing {r : Rounding} {jdSkill : JDSkill} {name matchedName : Option String}
    {matchTier : Option SkillMatchTier} {confidence : Option ℚ}
    {importance : Option JDSkillImportance} {ladder : List (ℚ × Option ℚ)}
    (hpay : pay ladder = 0) (hreached : reached ladder = false) :
    Entered r m jdSkill importance ladder (breakdownEntry r m jdSkill name .missing 0 none matchTier
      confidence matchedName importance) := by
  refine ⟨rfl, rfl, rfl, ?_, hreached.symm⟩
  rw [hpay, mul_zero, round_zero]
  rfl

theorem entered_found {r : Rounding} {jdSkill : JDSkill} {name matchedName : Option String}
    {matchType : MandatorySkillMatchType} {multiplier weight : ℚ}
    {matchTier : Option SkillMatchTier} {confidence : Option ℚ}
    {importance : Option JDSkillImportance} {ladder : List (ℚ × Option ℚ)}
    (htype : matchType ≠ .missing) (hpay : pay ladder = weight * multiplier)
    (hreached : reached ladder = true) :
    Entered r m jdSkill importance ladder (breakdownEntry r m jdSkill name matchType multiplier
      (some weight) matchTier confidence matchedName importance) := by
  refine ⟨rfl, rfl, rfl, ?_, ?_⟩
  · rw [hpay]
    cases hw : jdSkill.weight with
    | none => simp [breakdownEntry, BreakdownEntry.contribution, BreakdownEntry.weight, hw, htype,
        round_zero]
    | some jdWeight => simp [breakdownEntry, BreakdownEntry.contribution, BreakdownEntry.weight,
        hw, htype, mul_assoc]
  · rw [hreached]
    exact decide_eq_true htype

theorem Entered.noted {r : Rounding} {jdSkill : JDSkill} {label : Option JDSkillImportance}
    {ladder : List (ℚ × Option ℚ)} {entry : BreakdownEntry} {matchedViaAlias : Bool}
    {siblingSkipReason : Option String} {semanticSimilarity : Option ℚ}
    (h : Entered r m jdSkill label ladder entry) : Entered r m jdSkill label ladder
      { entry with
        matchedViaAlias := matchedViaAlias
        siblingSkipReason := siblingSkipReason
        semanticSimilarity := semanticSimilarity } :=
  ⟨h.canonicalSkillId, h.importance, h.effectiveJdWeight, h.contribution, h.covered⟩

theorem entered_matched {r : Rounding} {jdSkill : JDSkill} {name : Option String}
    {matchType : MandatorySkillMatchType} {multiplier : ℚ}
    {found : CandidateSkill × Option String} {ladder : List (ℚ × Option ℚ)}
    (htype : matchType ≠ .missing) (hpay : pay ladder = found.1.scoringWeight * multiplier)
    (hreached : reached ladder = true) :
    Entered r m jdSkill jdSkill.importance ladder
      (matchedEntry r m jdSkill name matchType multiplier found) :=
  entered_found htype hpay hreached

theorem scoreOneMandatorySkill_entered : Entered context.rounding m row.jdSkill
    row.jdSkill.importance (mandatoryRungs context m hierarchy skills rows row)
    (scoreOneMandatorySkill context m hierarchy skills rows row) := by
  unfold scoreOneMandatorySkill mandatoryRungs upperRungs exactRung exactMatch semanticRung target
    hierarchyRung
  dsimp only
  cases row.candidate with
  | some candidate => exact entered_matched (by decide) rfl rfl
  | none =>
  cases bestAliasMatch context skills rows row with
  | some found =>
    apply Entered.noted
    exact entered_matched (by decide) rfl rfl
  | none =>
  cases bestMatch skills (named (children hierarchy row.jdSkill.canonicalSkillId)) with
  | some found => exact entered_matched (by decide) rfl rfl
  | none =>
  cases bestMatch skills (named (grandchildren hierarchy row.jdSkill.canonicalSkillId)) with
  | some found => exact entered_matched (by decide) rfl rfl
  | none =>
  cases siblingMatch hierarchy skills row.jdSkill.canonicalSkillId
      (hierarchy.skillsById row.jdSkill.canonicalSkillId) with
  | some found => exact entered_matched (by decide) rfl rfl
  | none =>
  cases semanticMatch context m skills (hierarchy.skillsById row.jdSkill.canonicalSkillId) with
  | some found =>
    apply Entered.noted
    exact entered_matched (by decide) rfl rfl
  | none =>
    apply Entered.noted
    exact entered_missing rfl rfl

theorem scoreOnePreferredSkill_entered : Entered context.rounding neutral row.jdSkill none
    [exactRung context skills rows row] (scoreOnePreferredSkill context skills rows row) := by
  unfold scoreOnePreferredSkill exactRung exactMatch
  cases row.candidate with
  | some candidate => exact entered_found (by decide) rfl rfl
  | none =>
  cases bestAliasMatch context skills rows row with
  | some found =>
    apply Entered.noted
    exact entered_found (by decide) rfl rfl
  | none => exact entered_missing rfl rfl

end Tiers

-- The nearest of the given skills that have a vector.
structure Nearest (vectors : SkillVectors) (similarity : Uuid → Uuid → Option ℚ) : Prop where
  found : ∀ target ids id q, vectors.bestMatch target ids = some (id, q) →
    id ∈ ids ∧ similarity target id = some q ∧ ∀ other ∈ ids, ∀ q' ∈ similarity target other, q' ≤ q
  nothing : ∀ target ids, vectors.bestMatch target ids = none →
    ∀ id ∈ ids, similarity target id = none

-- A pool that has more skills, and the same rows for the old ones.
def Grown (skills skills' : List CandidateSkill) : Prop :=
  ∀ id skill, candidateSkillById skills id = some skill → candidateSkillById skills' id = some skill

section Grown

variable {context context' : ScoringContext} {m : ScoringMultipliers} {hierarchy : SkillHierarchy}
  {skills skills' : List CandidateSkill} {rows rows' : List CoverageRow} {row row' : CoverageRow}

theorem bestMatch_grown (h : Grown skills skills') {ids ids' : List (Uuid × Option String)}
    (hids : ids'.map Prod.fst = ids.map Prod.fst) (found : CandidateSkill × Option String)
    (hfound : bestMatch skills ids = some found) :
    ∃ found', bestMatch skills' ids' = some found' ∧
      found.1.scoringWeight ≤ found'.1.scoringWeight := by
  obtain ⟨entry, hentry, hmap⟩ := List.mem_filterMap.mp (List.argmax_mem hfound)
  obtain ⟨skill, hskill, rfl⟩ := Option.map_eq_some_iff.mp hmap
  have hin : entry.1 ∈ ids'.map Prod.fst := by
    rw [hids]
    exact List.mem_map_of_mem hentry
  obtain ⟨entry', hentry', hid⟩ := List.mem_map.mp hin
  -- the same row is among those of the larger pool
  have hmem : (skill, entry'.2) ∈ ids'.filterMap fun entry =>
      (candidateSkillById skills' entry.1).map fun skill => (skill, entry.2) := by
    refine List.mem_filterMap.mpr ⟨entry', hentry', ?_⟩
    rw [hid, h entry.1 skill hskill]
    rfl
  cases hbest : bestMatch skills' ids' with
  | none =>
    rw [bestMatch, List.argmax_eq_none] at hbest
    rw [hbest] at hmem
    simp at hmem
  | some found' =>
    refine ⟨found', rfl, ?_⟩
    exact List.le_of_mem_argmax (f := fun found => found.1.scoringWeight) hmem hbest

theorem rung_grown (h : Grown skills skills') {ids ids' : List (Uuid × Option String)}
    (hids : ids'.map Prod.fst = ids.map Prod.fst) (multiplier : ℚ) :
    ∀ weight ∈ (hierarchyRung multiplier (bestMatch skills ids)).2,
      ∃ weight' ∈ (hierarchyRung multiplier (bestMatch skills' ids')).2, weight ≤ weight' := by
  intro weight hweight
  obtain ⟨found, hfound, rfl⟩ := Option.map_eq_some_iff.mp hweight
  obtain ⟨found', hfound', hle⟩ := bestMatch_grown h hids found hfound
  exact ⟨_, Option.map_eq_some_iff.mpr ⟨found', hfound', rfl⟩, hle⟩

theorem aliasIds_fst (rows : List CoverageRow) (row : CoverageRow) :
    ((row.jdSkill.aliasSkillIds.getD []).map fun id =>
      (id, aliasName context rows id)).map Prod.fst = row.jdSkill.aliasSkillIds.getD [] := by
  rw [List.map_map]
  exact List.map_id _

theorem siblingRung_grown (h : Grown skills skills') (id : Uuid) (target : Option SkillOntology) :
    ∀ weight ∈ (hierarchyRung (2 / 5) (siblingMatch hierarchy skills id target)).2,
      ∃ weight' ∈ (hierarchyRung (2 / 5) (siblingMatch hierarchy skills' id target)).2,
        weight ≤ weight' := by
  unfold siblingMatch
  cases target.bind SkillOntology.parentSkillId with
  | none => exact fun weight hweight => absurd hweight nofun
  | some parentId => exact rung_grown h rfl (2 / 5)

theorem mem_poolIds (id : Uuid) : id ∈ skills.filterMap (·.canonicalSkillId) ↔
    (candidateSkillById skills id).isSome = true := by
  rw [candidateSkillById, List.find?_isSome, List.mem_filterMap]
  simp only [List.mem_reverse, decide_eq_true_iff]

theorem semanticMatch_grown {similarity : Uuid → Uuid → Option ℚ}
    (hnearest : Nearest context.vectors similarity) (hvectors : context'.vectors = context.vectors)
    (h : Grown skills skills') (target : Option SkillOntology)
    (hsome : (semanticMatch context m skills target).isSome = true) :
    (semanticMatch context' m skills' target).isSome = true := by
  unfold semanticMatch at hsome ⊢
  rw [hvectors]
  cases hthreshold : m.semanticThreshold with
  | none => simp [hthreshold] at hsome
  | some threshold =>
  cases target with
  | none => simp [hthreshold] at hsome
  | some target =>
  simp only [hthreshold] at hsome ⊢
  split_ifs at hsome ⊢ with hembedded
  · cases hold : context.vectors.bestMatch target.id (skills.filterMap (·.canonicalSkillId)) with
    | none => simp [hold] at hsome
    | some best =>
      obtain ⟨id, q⟩ := best
      obtain ⟨hid, hq, -⟩ := hnearest.found _ _ _ _ hold
      simp only [hold] at hsome
      split_ifs at hsome with hnear
      · have hin : id ∈ skills'.filterMap (·.canonicalSkillId) := by
          obtain ⟨skill, hskill⟩ := Option.isSome_iff_exists.mp ((mem_poolIds id).mp hid)
          exact (mem_poolIds id).mpr (Option.isSome_iff_exists.mpr ⟨skill, h id skill hskill⟩)
        cases hnew : context.vectors.bestMatch target.id
            (skills'.filterMap (·.canonicalSkillId)) with
        | none => exact absurd ((hnearest.nothing _ _ hnew id hin).symm.trans hq) nofun
        | some best' =>
          obtain ⟨id', q'⟩ := best'
          obtain ⟨hid', -, hmax⟩ := hnearest.found _ _ _ _ hnew
          have hle : threshold ≤ q' := hnear.trans (hmax id hin q hq)
          simp only [if_pos hle, Option.isSome_map]
          exact (mem_poolIds id').mp hid'
      · simp at hsome
  · simp at hsome

-- The same entry scored against the larger pool.
structure Rescored (context context' : ScoringContext) (skills skills' : List CandidateSkill)
    (row row' : CoverageRow) : Prop where
  vectors : context'.vectors = context.vectors
  grown : Grown skills skills'
  jdSkill : row'.jdSkill = row.jdSkill
  candidate : ∀ candidate ∈ row.candidate, row'.candidate = some candidate

variable (h : Rescored context context' skills skills' row row')

include h

theorem aliasMatch_grown (rows' : List CoverageRow) (found : CandidateSkill × Option String)
    (hfound : bestAliasMatch context skills rows row = some found) :
    ∃ found', bestAliasMatch context' skills' rows' row' = some found' ∧
      found.1.scoringWeight ≤ found'.1.scoringWeight := by
  refine bestMatch_grown h.grown ?_ found hfound
  rw [aliasIds_fst, aliasIds_fst, h.jdSkill]

theorem exactMatch_isSome (hsome : (exactMatch context skills rows row).isSome = true) :
    (exactMatch context' skills' rows' row').isSome = true := by
  unfold exactMatch at hsome ⊢
  cases hcandidate : row.candidate with
  | some candidate =>
    rw [h.candidate candidate hcandidate]
    rfl
  | none =>
    rw [hcandidate] at hsome
    cases row'.candidate with
    | some candidate => rfl
    | none =>
      obtain ⟨found, hfound⟩ := Option.isSome_iff_exists.mp (Option.isSome_map ▸ hsome)
      obtain ⟨found', hfound', -⟩ := aliasMatch_grown h rows' found hfound
      simp only [hfound', Option.map_some, Option.isSome_some]

omit h in
theorem isSome_of_le {old new : Option ℚ}
    (h : ∀ weight ∈ old, ∃ weight' ∈ new, weight ≤ weight') : old.isSome → new.isSome := by
  intro hold
  obtain ⟨weight, hweight⟩ := Option.isSome_iff_exists.mp hold
  obtain ⟨weight', hweight', -⟩ := h weight hweight
  exact Option.isSome_iff_exists.mpr ⟨weight', hweight'⟩

theorem reached_mandatoryRungs {similarity : Uuid → Uuid → Option ℚ}
    (hnearest : Nearest context.vectors similarity)
    (hreached : reached (mandatoryRungs context m hierarchy skills rows row) = true) :
    reached (mandatoryRungs context' m hierarchy skills' rows' row') = true := by
  refine reached_mono ?_ hreached
  unfold mandatoryRungs upperRungs semanticRung target exactRung
  rw [h.jdSkill]
  refine .cons ?_ (.cons ?_ (.cons ?_ (.cons ?_ (.cons ?_ .nil))))
  · simpa using exactMatch_isSome h
  · exact isSome_of_le (rung_grown h.grown rfl _)
  · exact isSome_of_le (rung_grown h.grown rfl _)
  · exact isSome_of_le (siblingRung_grown h.grown _ _)
  · simpa using semanticMatch_grown hnearest h.vectors h.grown _

theorem improves_mandatoryRungs (hexact : ∀ weight ∈ (exactRung context skills rows row).2,
      ∃ weight' ∈ (exactRung context' skills' rows' row').2, weight ≤ weight')
    (hsemantic : (∀ rung ∈ upperRungs context' m hierarchy skills' rows' row', rung.2 = none) →
      ∀ weight ∈ (semanticRung context m hierarchy skills row).2,
        ∃ weight' ∈ (semanticRung context' m hierarchy skills' row').2, weight ≤ weight') :
    Improves (mandatoryRungs context m hierarchy skills rows row)
      (mandatoryRungs context' m hierarchy skills' rows' row') := by
  unfold mandatoryRungs upperRungs target at *
  rw [h.jdSkill] at *
  refine .cons 1 _ _ _ _ hexact fun hfirst => ?_
  refine .cons (7 / 10) _ _ _ _ (rung_grown h.grown rfl (7 / 10)) fun hchild => ?_
  refine .cons m.grandchild _ _ _ _ (rung_grown h.grown rfl m.grandchild) fun hgrandchild => ?_
  refine .cons (2 / 5) _ _ _ _ (siblingRung_grown h.grown _ _) fun hsibling => ?_
  refine .cons (1 / 5) _ _ _ _ (hsemantic ?_) fun _ => .nil
  intro rung hrung
  simp only [List.mem_cons, List.not_mem_nil, or_false] at hrung
  rcases hrung with rfl | rfl | rfl | rfl
  · exact hfirst
  · exact hchild
  · exact hgrandchild
  · exact hsibling

end Grown

section Range

variable {context : ScoringContext} {m : ScoringMultipliers} {hierarchy : SkillHierarchy}
  {skills : List CandidateSkill} {rows : List CoverageRow} {row : CoverageRow} {P : ℚ → Prop}
  (hcandidate : ∀ candidate ∈ row.candidate, P candidate.scoringWeight)
  (hskills : ∀ skill ∈ skills, P skill.scoringWeight)

include hskills

theorem hierarchyRung_range {multiplier : ℚ} {found : Option (CandidateSkill × Option String)}
    (hfound : ∀ pair, found = some pair → pair.1 ∈ skills) :
    ∀ weight ∈ (hierarchyRung multiplier found).2, P weight := by
  intro weight hweight
  obtain ⟨pair, hpair, rfl⟩ := Option.map_eq_some_iff.mp hweight
  exact hskills _ (hfound pair hpair)

include hcandidate

theorem exactRung_range : ∀ weight ∈ (exactRung context skills rows row).2, P weight := by
  intro weight hweight
  obtain ⟨skill, hskill, rfl⟩ := Option.map_eq_some_iff.mp hweight
  unfold exactMatch at hskill
  split at hskill
  · next candidate hrow =>
      cases hskill
      exact hcandidate _ hrow
  · obtain ⟨found, hfound, rfl⟩ := Option.map_eq_some_iff.mp hskill
    exact hskills _ (bestMatch_mem hfound)

theorem mandatoryRungs_range : ∀ rung ∈ mandatoryRungs context m hierarchy skills rows row,
    ∀ weight ∈ rung.2, P weight := by
  intro rung hrung
  simp only [mandatoryRungs, upperRungs, List.cons_append, List.nil_append, List.mem_cons,
    List.not_mem_nil, or_false] at hrung
  rcases hrung with rfl | rfl | rfl | rfl | rfl
  · exact exactRung_range hcandidate hskills
  · exact hierarchyRung_range hskills fun _ h => bestMatch_mem h
  · exact hierarchyRung_range hskills fun _ h => bestMatch_mem h
  · exact hierarchyRung_range hskills fun _ h => siblingMatch_mem h
  · intro weight hweight
    obtain ⟨found, hfound, rfl⟩ := Option.map_eq_some_iff.mp hweight
    exact hskills _ (semanticMatch_mem hfound)

end Range

section Worth

variable {context : ScoringContext} {m : ScoringMultipliers} {hierarchy : SkillHierarchy}
  {skills : List CandidateSkill} {rows : List CoverageRow} {row : CoverageRow}

theorem mandatoryRungs_share (hm : m.grandchild = 1 / 2) :
    ∀ rung ∈ mandatoryRungs context m hierarchy skills rows row, 0 ≤ rung.1 := by
  intro rung hrung
  simp only [mandatoryRungs, upperRungs, List.cons_append, List.nil_append, List.mem_cons,
    List.not_mem_nil, or_false] at hrung
  rcases hrung with rfl | rfl | rfl | rfl | rfl
  · exact zero_le_one
  · show (0 : ℚ) ≤ 7 / 10
    norm_num
  · show 0 ≤ m.grandchild
    rw [hm]
    norm_num
  · show (0 : ℚ) ≤ 2 / 5
    norm_num
  · show (0 : ℚ) ≤ 1 / 5
    norm_num

theorem mandatoryRungs_dominant (hm : m.grandchild = 1 / 2) :
    Dominant (4 / 5) 1 (mandatoryRungs context m hierarchy skills rows row) := by
  simp only [Dominant, mandatoryRungs, upperRungs, exactRung, hierarchyRung, semanticRung,
    List.cons_append, List.nil_append, List.pairwise_cons, List.forall_mem_cons, hm,
    List.not_mem_nil, false_imp_iff, implies_true, List.Pairwise.nil, and_true]
  norm_num

theorem contribution_le {r : Rounding} {jdSkill : JDSkill} {label : Option JDSkillImportance}
    {ladder ladder' : List (ℚ × Option ℚ)} {entry entry' : BreakdownEntry}
    (h : Entered r m jdSkill label ladder entry) (h' : Entered r m jdSkill label ladder' entry')
    (hweight : ∀ weight ∈ jdSkill.weight, 0 ≤ weight)
    (himportance : 0 ≤ importanceMultiplierForLabel m label) (hpay : pay ladder ≤ pay ladder') :
    entry.contribution ≤ entry'.contribution := by
  have hsame : entry'.weight = entry.weight := by
    rw [BreakdownEntry.weight, h'.effectiveJdWeight, BreakdownEntry.weight, h.effectiveJdWeight]
  have hnonneg : 0 ≤ entry.weight := by
    rw [BreakdownEntry.weight, h.effectiveJdWeight]
    cases hw : jdSkill.weight with
    | none => exact le_rfl
    | some weight => exact r.round_nonneg 4 (mul_nonneg (hweight weight hw) himportance)
  rw [h.contribution, h'.contribution, hsame]
  exact r.mono 4 (mul_le_mul_of_nonneg_left hpay hnonneg)

end Worth

end CandidateScoringService

end AiHiring
