import AiHiring.Library.Listing
import AiHiring.Tasks.DeterministicScore

namespace AiHiring

open Library DeterministicScoring

namespace CampaignRepository

-- An element of a JSONB array as text.
variable (elementText : Json → String)

def decisionDetails (history : CampaignCandidateStageHistory) : Option Json :=
  history.scoresSnapshot.bind (List.lookup "decision_details")

-- `-> key` of a JSONB object.
def field (key : String) : Json → Option Json
  | .obj entries => entries.lookup key
  | _ => none

-- The rejections at the deterministic layer that the campaign's analytics are about.
def isDeterministicRejection (history : CampaignCandidateStageHistory) : Bool :=
  history.toStage = .rejected ∧ (history.scoresSnapshot.bind (List.lookup "decision_source")).bind
    Json.asString? = some DecisionSource.deterministic.value

def deterministicRejections (db : Db) (campaignId : Uuid) : List CampaignCandidateStageHistory :=
  db.stageHistory.rows.filter fun history =>
    (db.campaignCandidates.find? history.campaignCandidateId).any (·.campaignId = campaignId) &&
      isDeterministicRejection history

def missingSkills (history : CampaignCandidateStageHistory) : List String :=
  match (decisionDetails history).bind (field "missing_skills") with
  | some (.arr elements) => elements.map elementText
  | _ => []

-- The groups of the query, in any order that its ORDER BY allows.
def GetMissingMandatorySkillCounts (db : Db) (campaignId : Uuid) (counts : List (String × ℕ)) :
    Prop :=
  let skills := (deterministicRejections db campaignId).flatMap (missingSkills elementText)
  Listing Prod.snd (skills.eraseDups.map fun skill => (skill, skills.count skill)) counts

end CampaignRepository

namespace RejectionAnalytics

open CampaignRepository

-- The keys that the scoring service sets beside those of `ScoreBreakdown`.
def serviceKeys : List String :=
  ["core_coverage_pct", "gate_skill_scope", "semantic_tier_available", "NO_VERIFIED_SKILLS",
    "mandatory_skill_score", "technical_score", "required_skill_coverage_threshold",
    "coverage_passed", "score_passed", "core_gap_passed", "preferred_skills",
    "preferred_skill_bonus", "skill_deterministic_score", "experience_validation",
    "education_validation", "domain_capability_validation", "functional_score",
    "deterministic_threshold"]

structure ServiceBreakdown extends ScoreBreakdown where
  keys : ∀ entry ∈ details, entry.1 ∈ serviceKeys

inductive Write where
  | rejectDeterministic (campaignCandidateId : Uuid) (breakdown : ServiceBreakdown)
      (rejectionReason : String) (now : Instant)
  | other

-- The scoring task's rejection, or any write that adds no rejection at its layer.
def Step (table : TransitionTable) (db : Db) : Write → Db → Prop
  | .rejectDeterministic campaignCandidateId breakdown rejectionReason now, db' =>
    ∃ cc, CampaignCandidateRepository.getById db campaignCandidateId = some cc ∧
      db' = (StageTransitionService.transitionToRejected table db cc
        "Deterministic filter rejection" (some breakdown.toDict) .deterministic
        (some rejectionReason) (some breakdown.toDict) none now).1
  | .other, db' => ∀ history ∈ db'.stageHistory.rows, isDeterministicRejection history →
      history ∈ db.stageHistory.rows

-- Whether an entry of the stored breakdown says that the skill is missing.
def lacks (skill : String) (history : CampaignCandidateStageHistory) : Bool :=
  match (decisionDetails history).bind (field "mandatory_skills") with
  | some (.arr entries) => entries.any fun entry =>
    (field "canonical_name" entry).bind Json.asString? = some skill ∧
      (field "match_type" entry).bind Json.asString? =
        some DeterministicScoring.MandatorySkillMatchType.missing.value
  | _ => false

-- Every skill with the number of rejections that lack it, and no other name.
def CountsMissing (db : Db) (campaignId : Uuid) (counts : List (String × ℕ)) : Prop :=
  (counts.map Prod.fst).Nodup ∧ ∀ skill n, (skill, n) ∈ counts ↔
    0 < n ∧ n = (deterministicRejections db campaignId).countP (lacks skill)

-- What the task's rejections leave in the history.
def Written (db : Db) : Prop :=
  ∀ history ∈ db.stageHistory.rows, isDeterministicRejection history →
    ∃ breakdown : ServiceBreakdown, decisionDetails history = some (.obj breakdown.toDict)

section Runs

variable {table : TransitionTable} {db db' : Db} {elementText : Json → String}

theorem missingSkills_key (breakdown : ServiceBreakdown) :
    breakdown.toDict.lookup "missing_skills" = none := by
  apply lookup_of_absent
  intro hkey
  obtain ⟨entry, hentry, heq⟩ := List.mem_map.mp hkey
  rcases List.mem_append.mp hentry with hread | hother
  · have hnames : entry.1 ∈ ["mandatory_skills", "mandatory_coverage_pct",
        "missing_core_skill_count", "max_missing_core_skills", "skill_qualification_passed",
        "deterministic_score", "deterministic_passed"] :=
      List.mem_map_of_mem (f := Prod.fst) hread
    rw [heq] at hnames
    exact absurd hnames (by decide)
  · have hnames := breakdown.keys entry hother
    rw [heq] at hnames
    exact absurd hnames (by decide)

theorem written_step (write : Write) (h : Written db) (hstep : Step table db write db') :
    Written db' := by
  cases write with
  | other =>
    intro history hmem hrejection
    exact h history (hstep history hmem hrejection) hrejection
  | rejectDeterministic campaignCandidateId breakdown rejectionReason now =>
    obtain ⟨cc, -, rfl⟩ := hstep
    rw [StageTransitionService.transitionToRejected]
    by_cases hblocked : !AllowedTransitionRepository.isTransitionAllowed table cc.pipelineStage
        .rejected cc.previousStage
    · rw [if_pos hblocked]
      exact h
    · rw [if_neg hblocked]
      intro history hmem hrejection
      change history ∈ (db.stageHistory.insert _ _).rows at hmem
      rw [Table.rows_insert, List.mem_append, List.mem_singleton] at hmem
      rcases hmem with hold | rfl
      · exact h history hold hrejection
      · exact ⟨breakdown, lookup_assign_self _ _ _⟩

-- The query looks for a key that no breakdown has.
theorem counts_nil (h : Written db) {campaignId : Uuid} {counts : List (String × ℕ)}
    (hcounts : GetMissingMandatorySkillCounts elementText db campaignId counts) :
    counts = [] := by
  have hnone :
      (deterministicRejections db campaignId).flatMap (missingSkills elementText) = [] := by
    apply List.flatMap_eq_nil_iff.mpr
    intro history hmem
    obtain ⟨hrow, hselected⟩ := List.mem_filter.mp hmem
    obtain ⟨breakdown, hdetails⟩ := h history hrow (Bool.and_eq_true_iff.mp hselected).2
    rw [missingSkills, hdetails, Option.bind_some, field, missingSkills_key]
  have hperm := hcounts.perm
  rw [hnone] at hperm
  exact List.perm_nil.mp hperm

end Runs

-- The counts are right exactly if no rejection lacks a skill: they are always empty.
theorem missing_counts_right_iff (table : TransitionTable) (elementText : Json → String) (db : Db)
    (hnew : ∀ history ∈ db.stageHistory.rows, isDeterministicRejection history = false)
    (path : List (Write × Db)) (hpath : Path (Step table) db path) :
    ∀ db' ∈ visited db path, ∀ campaignId counts,
      GetMissingMandatorySkillCounts elementText db' campaignId counts →
        (CountsMissing db' campaignId counts ↔
          ∀ history ∈ deterministicRejections db' campaignId, ∀ skill,
            lacks skill history = false) := by
  intro db' hdb' campaignId counts hcounts
  have hstart : Written db := fun history hmem hrejection =>
    absurd (hrejection.symm.trans (hnew history hmem)) (by decide)
  have hwritten := hpath.invariant hstart (fun _ write _ => written_step write) db' hdb'
  obtain rfl := counts_nil hwritten hcounts
  simp only [CountsMissing, List.map_nil, List.nodup_nil, List.not_mem_nil, false_iff, true_and]
  constructor
  · intro hnever history hmem skill
    by_contra hlacks
    have hcounted := List.countP_pos_iff.mpr ⟨history, hmem, Bool.not_eq_false _ ▸ hlacks⟩
    exact hnever skill _ ⟨hcounted, rfl⟩
  · rintro hnone skill n ⟨hpos, rfl⟩
    obtain ⟨history, hmem, hlacks⟩ := List.countP_pos_iff.mp hpos
    simp [hnone history hmem skill] at hlacks

def withoutPython : ServiceBreakdown where
  mandatorySkills := [⟨.missing, [("canonical_name", .str "Python")]⟩]
  mandatoryCoveragePct := 0
  missingCoreSkillCount := 0
  maxMissingCoreSkills := 3
  skillQualificationPassed := false
  deterministicScore := 0
  deterministicPassed := false
  details := []
  keys := fun _ h => absurd h List.not_mem_nil

def rejectedDb : Db :=
  match CampaignCandidateRepository.getById screenedDb 0 with
  | some cc => (StageTransitionService.transitionToRejected seededTransitions screenedDb cc
      "Deterministic filter rejection" (some withoutPython.toDict) .deterministic
      (some "Missing mandatory skills: Python") (some withoutPython.toDict) none 2).1
  | none => screenedDb

def rejection : List (Write × Db) :=
  [(.rejectDeterministic 0 withoutPython "Missing mandatory skills: Python" 2, rejectedDb)]

theorem rejection_path : Path (Step seededTransitions) screenedDb rejection :=
  ⟨⟨_, rfl, rfl⟩, trivial⟩

theorem screenedDb_new : ∀ history ∈ screenedDb.stageHistory.rows,
    isDeterministicRejection history = false := by decide

theorem nothing_counted : GetMissingMandatorySkillCounts (fun _ => "") rejectedDb 0 [] :=
  ⟨List.Perm.refl [], List.Pairwise.nil⟩

theorem missing_counts_right_iff_rejected : CountsMissing rejectedDb 0 [] ↔
    ∀ history ∈ deterministicRejections rejectedDb 0, ∀ skill, lacks skill history = false :=
  missing_counts_right_iff seededTransitions (fun _ => "") screenedDb screenedDb_new rejection
    rejection_path rejectedDb (final_mem_visited _ _) 0 [] nothing_counted

-- One rejection for a missing skill, and the chart is empty.
theorem missing_skill_not_counted :
    ¬∀ (table : TransitionTable) (elementText : Json → String) (db : Db) (path : List (Write × Db)),
      (∀ history ∈ db.stageHistory.rows, isDeterministicRejection history = false) →
        Path (Step table) db path → ∀ db' ∈ visited db path, ∀ campaignId counts,
          GetMissingMandatorySkillCounts elementText db' campaignId counts →
            CountsMissing db' campaignId counts := by
  intro h
  have hcounts := h seededTransitions (fun _ => "") screenedDb rejection screenedDb_new
    rejection_path rejectedDb (final_mem_visited _ _) 0 [] nothing_counted
  have hcounted : 1 = (deterministicRejections rejectedDb 0).countP (lacks "Python") := by decide
  exact absurd ((hcounts.2 "Python" 1).mpr ⟨Nat.one_pos, hcounted⟩) List.not_mem_nil

end RejectionAnalytics

end AiHiring
