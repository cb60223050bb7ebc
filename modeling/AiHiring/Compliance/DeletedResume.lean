import AiHiring.Compliance.Whole

namespace AiHiring.Deletion

open Library
open CampaignCandidateRepository (getByResumeId)

-- The campaign_candidate with which the loop of the cleanup takes a row.
def Row.clearedWith : Row → Option Uuid
  | .campaignCandidate id _ _ => some id
  | .campaignCandidateStageHistory _ campaignCandidateId => some campaignCandidateId
  | .campaignCandidateAIEvaluation _ campaignCandidateId => some campaignCandidateId
  | .celeryTaskLog _ _ _ campaignCandidateId => campaignCandidateId
  | .deadLetterQueue _ _ _ campaignCandidateId => campaignCandidateId
  | _ => none

-- The resume with which it takes what the loop left.
def Row.clearedWithResume : Row → Option Uuid
  | .resume id _ _ _ => some id
  | .resumeParseAttempt _ resumeId => some resumeId
  | .resumeEmbedding _ resumeId _ => some resumeId
  | .candidateSkill _ _ resumeId => some resumeId
  | .celeryTaskLog _ _ resumeId _ => resumeId
  | .deadLetterQueue _ _ resumeId _ => resumeId
  | _ => none

-- The campaign_candidate of a row in a table that the cleanup never clears.
def Row.overlooked : Row → Option Uuid
  | .stageTransitionLog _ campaignCandidateId => some campaignCandidateId
  | .candidateCompositeScoreHistory _ campaignCandidateId => some campaignCandidateId
  | .candidateNote _ campaignCandidateId => some campaignCandidateId
  | .interviewSchedule _ campaignCandidateId => some campaignCandidateId
  | .emailNotification _ _ campaignCandidateId _ => campaignCandidateId
  | _ => none

-- A dead letter goes no later than the task log it points at, when a loop over
-- the campaign_candidates is followed by one over the resumes.
structure LetterFirst (rows : List Row) (campaignCandidateIds resumeIds : List Uuid) : Prop where
  loop {id taskId r cc id' r' cc'} : .deadLetterQueue id taskId r cc ∈ rows →
    .celeryTaskLog id' taskId r' cc' ∈ rows →
    position campaignCandidateIds cc ≤ position campaignCandidateIds cc'
  rest {id taskId r cc id' r' cc'} : .deadLetterQueue id taskId r cc ∈ rows →
    .celeryTaskLog id' taskId r' cc' ∈ rows → (∀ x ∈ campaignCandidateIds, cc ≠ some x) →
    position resumeIds r ≤ position resumeIds r'

namespace ResumeCleanupService

-- No table that the cleanup overlooks names a campaign_candidate of the resume.
structure Deletable (rows : List Row) (resumeId : Uuid) : Prop where
  overlooked : ∀ row ∈ rows, ∀ cc ∈ getByResumeId rows resumeId, row.overlooked ≠ some cc
  letters : LetterFirst rows (getByResumeId rows resumeId) [resumeId]

variable {rows : List Row} {resume : ResumeVersion} {s r : Row}

theorem takes_clear (cc : Uuid) (row : Row) :
    takes (Call.statements (clearCampaignCandidate cc)) row = true ↔ row.clearedWith = some cc := by
  cases row <;> simp [clearCampaignCandidate, Row.clearedWith]

theorem takes_clearResume (resume : ResumeVersion) (row : Row) :
    takes (Call.statements (clearResume resume)) row = true ↔
      row.clearedWithResume = some resume.id := by
  cases row <;> simp [clearResume, Row.clearedWithResume]

theorem noLater_clear (h : References s r) (cc : Uuid)
    (hs : takes (Call.statements (clearCampaignCandidate cc)) s = true) :
    NoLater (Call.statements (clearCampaignCandidate cc)) s r := by
  rw [takes_clear] at hs
  cases h <;> simp_all [noLater_cons, clearCampaignCandidate, Row.clearedWith]

theorem noLater_clearResume (h : References s r) (resume : ResumeVersion)
    (hs : takes (Call.statements (clearResume resume)) s = true) :
    NoLater (Call.statements (clearResume resume)) s r := by
  rw [takes_clearResume] at hs
  cases h <;> simp_all [noLater_cons, clearResume, Row.clearedWithResume]

theorem statements_calls (rows : List Row) (resume : ResumeVersion) :
    Call.statements (calls rows resume) = ((getByResumeId rows resume.id).flatMap fun cc =>
        Call.statements (clearCampaignCandidate cc)) ++
      [resume].flatMap fun resume => Call.statements (clearResume resume) := by
  simp [calls, Call.statements_flatMap]

theorem noLater_calls (h : References s r) : NoLater (Call.statements (calls rows resume)) s r ↔
      position (getByResumeId rows resume.id) s.clearedWith ≤
        position (getByResumeId rows resume.id) r.clearedWith ∧
      ((∃ cc ∈ getByResumeId rows resume.id, s.clearedWith = some cc) ∨
        position [resume.id] s.clearedWithResume ≤ position [resume.id] r.clearedWithResume) := by
  have hloop (row : Row) (cc : Uuid) : takes (Call.statements (clearCampaignCandidate cc)) row =
      decide (row.clearedWith = some cc) := by
    rw [Bool.eq_iff_iff, takes_clear, decide_eq_true_eq]
  have hlast (row : Row) (resume : ResumeVersion) :
      takes (Call.statements (clearResume resume)) row =
        decide (row.clearedWithResume = some resume.id) := by
    rw [Bool.eq_iff_iff, takes_clearResume, decide_eq_true_eq]
  rw [statements_calls, noLater_loops _ _ _ _ s r (fun cc _ => noLater_clear h cc)
    fun resume _ => noLater_clearResume h resume]
  simp only [hloop, hlast, decide_eq_true_eq, position, List.findIdx_cons, List.findIdx_nil]

theorem mem_getByResumeId (rows : List Row) (resumeId cc : Uuid) :
    cc ∈ getByResumeId rows resumeId ↔
      ∃ candidateId, .campaignCandidate cc candidateId resumeId ∈ rows := by
  rw [getByResumeId, List.mem_filterMap]
  constructor
  · rintro ⟨row, hrow, hsome⟩
    cases row with
    | campaignCandidate id candidateId rid =>
      by_cases hrid : rid = resumeId
      · obtain rfl : id = cc := by simpa [hrid] using hsome
        exact ⟨candidateId, hrid ▸ hrow⟩
      · simp [hrid] at hsome
    | _ => simp at hsome
  · rintro ⟨candidateId, hrow⟩
    exact ⟨_, hrow, if_pos rfl⟩

theorem getById_eq_some {resumeId : Uuid}
    (h : ResumeRepository.getById rows resumeId = some resume) :
    resume.id = resumeId ∧ ∃ candidateId,
      .resume resume.id candidateId resume.filePath resume.versionNumber ∈ rows := by
  obtain ⟨row, hrow, hsome⟩ := List.exists_of_findSome?_eq_some h
  cases row with
  | resume id candidateId filePath versionNumber =>
    by_cases hid : id = resumeId
    · obtain rfl : _ = resume := by simpa [hid] using hsome
      exact ⟨rfl, candidateId, hid ▸ hrow⟩
    · simp [hid] at hsome
  | _ => simp at hsome

-- The foreign keys accept the statements exactly when the resume is deletable.
theorem deletable_iff : (∀ s ∈ rows, ∀ r ∈ rows, References s r →
    NoLater (Call.statements (calls rows resume)) s r) ↔ Deletable rows resume.id := by
  constructor
  · intro horder
    refine ⟨?_, ?_, ?_⟩
    · intro row hrow cc hcc hoverlooked
      obtain ⟨candidateId, hr⟩ := (mem_getByResumeId rows resume.id cc).mp hcc
      have href : References row (.campaignCandidate cc candidateId resume.id) := by
        cases row <;> simp only [Row.overlooked, reduceCtorEq, Option.some.injEq] at hoverlooked <;>
          subst hoverlooked <;> constructor
      have hnone : row.clearedWith = none := by
        cases row <;> first | rfl | exact absurd hoverlooked (by simp [Row.overlooked])
      have hposition := ((noLater_calls href).mp (horder row hrow _ hr href)).1
      rw [hnone, position_none] at hposition
      exact (length_le_position _ cc).mp hposition hcc
    · intro id taskId r cc id' r' cc' hletter htask
      exact ((noLater_calls .letterTask).mp (horder _ hletter _ htask .letterTask)).1
    · intro id taskId r cc id' r' cc' hletter htask hnot
      rcases ((noLater_calls .letterTask).mp (horder _ hletter _ htask .letterTask)).2 with
        ⟨x, hx, hsome⟩ | hle
      · exact absurd hsome (hnot x hx)
      · exact hle
  · intro ⟨hoverlooked, hletters⟩ s hs r hr href
    rw [noLater_calls href]
    have hmissed {cc : Uuid} (h : s.overlooked = some cc) :
        (getByResumeId rows resume.id).length ≤ position (getByResumeId rows resume.id) (some cc) :=
      (length_le_position _ cc).mpr fun hcc => hoverlooked s hs cc hcc h
    cases href with
    | letterTask =>
      refine ⟨hletters.loop hs hr, ?_⟩
      rw [or_iff_not_imp_left]
      intro hnot
      exact hletters.rest hs hr fun x hx hsome => hnot ⟨x, hx, hsome⟩
    | @applicationResume id c r owner path v =>
      refine ⟨?_, ?_⟩
      · exact position_le_none _ _
      · by_cases hid : r = resume.id
        · exact .inl ⟨id, (mem_getByResumeId rows resume.id id).mpr ⟨c, hid ▸ hs⟩, rfl⟩
        · refine .inr ?_
          simp [Row.clearedWithResume, position, hid]
    | transition | scoreHistory | note | round | emailApplication =>
      refine ⟨?_, .inr (Nat.le_refl _)⟩
      simpa only [Row.clearedWith, position_none] using hmissed rfl
    | _ => simp [Row.clearedWith, Row.clearedWithResume, position_le_none]

-- The keys that must be gone, each of a row that is there.
def gone (rows : List Row) (resumeId : Uuid) : List Key :=
  .resume resumeId :: (getByResumeId rows resumeId).map .campaignCandidate

theorem takes_calls (row : Row) : takes (Call.statements (calls rows resume)) row = true ↔
    (∃ cc ∈ getByResumeId rows resume.id,
      row.clearedWith = some cc) ∨ row.clearedWithResume = some resume.id := by
  rw [statements_calls, takes_append, Bool.or_eq_true, takes_flatMap, takes_flatMap,
    List.any_eq_true]
  simp only [takes_clear, List.any_cons, List.any_nil, Bool.or_false, takes_clearResume]

theorem not_apart_of_takes {row : Row}
    (h : takes (Call.statements (calls rows resume)) row = true) :
    ¬row.Apart (gone rows resume.id) := by
  intro hapart
  rcases (takes_calls row).mp h with ⟨cc, hcc, hcleared⟩ | hcleared
  · have hgone : .campaignCandidate cc ∈ gone rows resume.id := by simp [gone, hcc]
    cases row <;> simp only [Row.clearedWith, reduceCtorEq, Option.some.injEq] at hcleared <;>
      subst hcleared
    all_goals
      first
        | exact hapart.1 _ rfl hgone
        | exact hapart.2 (.campaignCandidate _) (by simp [Row.names]) hgone
  · have hgone : .resume resume.id ∈ gone rows resume.id := by simp [gone]
    cases row <;> simp only [Row.clearedWithResume, reduceCtorEq, Option.some.injEq] at hcleared <;>
      subst hcleared
    all_goals
      first
        | exact hapart.1 _ rfl hgone
        | exact hapart.2 (.resume _) (by simp [Row.names]) hgone

theorem apart_of_not_takes (hfound : ∃ candidateId,
      .resume resume.id candidateId resume.filePath resume.versionNumber ∈ rows)
    (horder : ∀ s ∈ rows, ∀ r ∈ rows, References s r →
      NoLater (Call.statements (calls rows resume)) s r) {row : Row} (hrow : row ∈ rows)
    (h : takes (Call.statements (calls rows resume)) row = false) :
    row.Apart (gone rows resume.id) := by
  have hnot : ¬((∃ cc ∈ getByResumeId rows resume.id,
      row.clearedWith = some cc) ∨ row.clearedWithResume = some resume.id) := by
    rw [← takes_calls, h]
    exact Bool.false_ne_true
  refine ⟨?_, ?_⟩
  · intro k hkey hk
    rcases List.mem_cons.mp hk with rfl | hk
    · cases row <;> simp only [Row.key, Option.mem_def, reduceCtorEq, Option.some.injEq,
        Key.resume.injEq] at hkey
      exact hnot (.inr (congrArg some hkey))
    · obtain ⟨cc, hcc, rfl⟩ := List.mem_map.mp hk
      cases row <;> simp only [Row.key, Option.mem_def, reduceCtorEq, Option.some.injEq,
        Key.campaignCandidate.injEq] at hkey
      exact hnot (.inl ⟨cc, hcc, congrArg some hkey⟩)
  · intro k hnames hk
    rcases List.mem_cons.mp hk with rfl | hk
    · obtain ⟨candidateId, hr⟩ := hfound
      refine not_mem_names horder hrow h hr rfl ((takes_calls _).mpr (.inr rfl)) ?_ hnames
      rintro id resumeId owner rfl hmem
      have heq : resume.id = resumeId := by simpa [Row.names] using hmem
      exact hnot (.inr (congrArg some heq.symm))
    · obtain ⟨cc, hcc, rfl⟩ := List.mem_map.mp hk
      obtain ⟨candidateId, hr⟩ := (mem_getByResumeId rows resume.id cc).mp hcc
      refine not_mem_names horder hrow h hr rfl ((takes_calls _).mpr (.inl ⟨cc, hcc, rfl⟩)) ?_
        hnames
      rintro id resumeId owner rfl hmem
      simp [Row.names] at hmem

-- Deleting a resume is whole exactly when nothing overlooked is in its way and
-- its file is gone already: otherwise a failing commit brings back the row only.
theorem whole_iff {w : World} {resumeId : Uuid}
    (h : ResumeRepository.getById w.rows resumeId = some resume) :
    Whole (deleteResume resumeId) (gone w.rows resumeId) (gone w.rows resumeId) w ↔
      Deletable w.rows resumeId ∧ resume.filePath ∉ w.files := by
  obtain ⟨rfl, hfound⟩ := getById_eq_some h
  rw [whole_lookup (calls w.rows resume) fun fails => by simp only [deleteResume, h],
    transaction_whole_iff fun row _ => not_apart_of_takes, deletable_iff]
  have hfiles : Call.files (calls w.rows resume) = [resume.filePath] := by
    simp [calls, Call.files_flatMap, clearCampaignCandidate, clearResume]
  rw [hfiles]
  constructor
  · rintro ⟨hdeletable, -, habsent⟩
    exact ⟨hdeletable, habsent resume.filePath List.mem_cons_self⟩
  · intro ⟨hdeletable, habsent⟩
    refine ⟨hdeletable, ?_, ?_⟩
    · intro row hrow hstays
      exact apart_of_not_takes hfound (deletable_iff.mpr hdeletable) hrow hstays
    · intro f hf
      rwa [List.mem_singleton.mp hf]

end ResumeCleanupService

end AiHiring.Deletion
