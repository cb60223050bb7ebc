import Mathlib.Data.Finset.Max
import AiHiring.Websocket.Progress

namespace AiHiring

-- What the rows of a task that takes its attempts in order say of a stage.
namespace StageRows

open DocumentProcessingRepository StageSummary

structure WellFormed (rows : List StageExecution) : Prop where
  keys : ∀ row ∈ rows, ∀ other ∈ rows, row.stage = other.stage →
    row.attemptNumber = other.attemptNumber → row = other
  noSkipped : ∀ row ∈ rows, row.status ≠ .skipped

def IsLatest (rows : List StageExecution) (row : StageExecution) : Prop :=
  row ∈ rows ∧ ∀ other ∈ rows, other.stage = row.stage → other.attemptNumber ≤ row.attemptNumber

variable {rows : List StageExecution} {row : StageExecution}

theorem IsLatest.unique (h : WellFormed rows) {other : StageExecution} (hrow : IsLatest rows row)
    (hother : IsLatest rows other) (hstage : row.stage = other.stage) : row = other := by
  have hle := hrow.2 other hother.1 hstage.symm
  have hge := hother.2 row hrow.1 hstage
  exact h.keys row hrow.1 other hother.1 hstage (by omega)

section Collapse

-- `uq (task_id, stage, attempt_number)`
def UniqueAttempts (rows : List StageExecution) : Prop :=
  ∀ row ∈ rows, ∀ other ∈ rows, row.stage = other.stage →
    row.attemptNumber = other.attemptNumber → row = other

-- A row that was not skipped comes before any that was, and then the attempt counts.
def rank (row : StageExecution) : Bool ×ₗ ℕ :=
  toLex (decide (row.status ≠ .skipped), row.attemptNumber)

def IsShown (rows : List StageExecution) (row : StageExecution) : Prop :=
  row ∈ rows ∧ ∀ other ∈ rows, other.stage = row.stage → rank other ≤ rank row

theorem rank_le_iff {row other : StageExecution} : rank other ≤ rank row ↔
    (other.status ≠ .skipped → row.status ≠ .skipped) ∧
      ((row.status = .skipped ↔ other.status = .skipped) →
        other.attemptNumber ≤ row.attemptNumber) := by
  rw [rank, rank, Prod.Lex.toLex_le_toLex]
  by_cases hrow : row.status = .skipped <;> by_cases hother : other.status = .skipped <;>
    simp [hrow, hother]

theorem replaces_iff {incoming current : StageExecution} :
    replaces incoming current = true ↔ rank current ≤ rank incoming := by
  rw [rank_le_iff, replaces]
  by_cases hin : incoming.status = .skipped <;> by_cases hcurrent : current.status = .skipped <;>
    simp [hin, hcurrent]

theorem UniqueAttempts.eq_of_rank (h : UniqueAttempts rows) {other : StageExecution}
    (hrow : row ∈ rows) (hother : other ∈ rows) (hstage : row.stage = other.stage)
    (hle : rank row ≤ rank other) (hge : rank other ≤ rank row) : row = other := by
  have hrank : rank row = rank other := le_antisymm hle hge
  exact h row hrow other hother hstage (congrArg (fun rank => (ofLex rank).2) hrank)

theorem exists_isShown (hrow : row ∈ rows) : ∃ shown, IsShown rows shown ∧
    shown.stage = row.stage := by
  have hnonempty : (rows.toFinset.filter fun other => other.stage = row.stage).Nonempty :=
    ⟨row, by simpa using hrow⟩
  obtain ⟨shown, hshown, hmax⟩ := Finset.exists_max_image _ rank hnonempty
  rw [Finset.mem_filter, List.mem_toFinset] at hshown
  refine ⟨shown, ⟨hshown.1, fun other hother hstage => hmax other ?_⟩, hshown.2⟩
  rw [Finset.mem_filter, List.mem_toFinset]
  exact ⟨hother, hstage.trans hshown.2⟩

theorem isShown_concat {execution : StageExecution} :
    IsShown (rows ++ [execution]) row ↔
      (IsShown rows row ∧ (execution.stage = row.stage → rank execution ≤ rank row)) ∨
        (row = execution ∧ ∀ other ∈ rows, other.stage = execution.stage →
          rank other ≤ rank execution) := by
  rw [IsShown, IsShown, List.forall_mem_append, List.forall_mem_singleton, List.mem_append,
    List.mem_singleton]
  constructor
  · rintro ⟨hold | rfl, hmax, hlast⟩
    · exact .inl ⟨⟨hold, hmax⟩, hlast⟩
    · exact .inr ⟨rfl, hmax⟩
  · rintro (⟨⟨hold, hmax⟩, hlast⟩ | ⟨rfl, hmax⟩)
    · exact ⟨.inl hold, hmax, hlast⟩
    · exact ⟨.inr rfl, hmax, fun _ => le_rfl⟩

theorem mem_recordLatest {latest : List StageExecution} {execution : StageExecution}
    (hunique : UniqueAttempts (rows ++ [execution]))
    (hlatest : ∀ row, row ∈ latest ↔ IsShown rows row) :
    row ∈ recordLatest latest execution ↔ IsShown (rows ++ [execution]) row := by
  have hnew : execution ∈ rows ++ [execution] :=
    List.mem_append_right _ (List.mem_singleton_self _)
  rw [isShown_concat, recordLatest]
  by_cases hstage : ∃ current ∈ latest, current.stage = execution.stage
  · have hany : (latest.any fun current => current.stage = execution.stage) = true := by
      simpa using hstage
    obtain ⟨current, hcurrent, hsame⟩ := hstage
    rw [if_pos hany, List.mem_map]
    constructor
    · rintro ⟨kept, hkept, rfl⟩
      have hkeptShown := (hlatest kept).mp hkept
      split_ifs with hreplace
      · have hle := replaces_iff.mp hreplace.2
        refine .inr ⟨rfl, fun other hother hother' => ?_⟩
        exact (hkeptShown.2 other hother (hother'.trans hreplace.1.symm)).trans hle
      · refine .inl ⟨hkeptShown, fun hexecution => ?_⟩
        by_contra hlt
        exact hreplace ⟨hexecution.symm, replaces_iff.mpr (not_le.mp hlt).le⟩
    · rintro (⟨hrow, hlast⟩ | ⟨rfl, hmax⟩)
      · refine ⟨row, (hlatest row).mpr hrow, ?_⟩
        split_ifs with hreplace
        · have hle := replaces_iff.mp hreplace.2
          have hge := hlast hreplace.1.symm
          exact hunique.eq_of_rank hnew (List.mem_append_left _ hrow.1) hreplace.1.symm hge hle
        · rfl
      · have hle := hmax current ((hlatest current).mp hcurrent).1 hsame
        exact ⟨current, hcurrent, if_pos ⟨hsame, replaces_iff.mpr hle⟩⟩
  · have hany : ¬(latest.any fun current => current.stage = execution.stage) = true := by
      simpa using hstage
    have hnone : ∀ other ∈ rows, other.stage ≠ execution.stage := by
      intro other hother hsame
      obtain ⟨current, hcurrent, hcurrentStage⟩ := exists_isShown hother
      exact hstage ⟨current, (hlatest current).mpr hcurrent, hcurrentStage.trans hsame⟩
    rw [if_neg hany, List.mem_append, List.mem_singleton, hlatest]
    constructor
    · rintro (hrow | rfl)
      · exact .inl ⟨hrow, fun hsame => absurd hsame.symm (hnone row hrow.1)⟩
      · exact .inr ⟨rfl, fun other hother hsame => absurd hsame (hnone other hother)⟩
    · rintro (⟨hrow, -⟩ | ⟨rfl, -⟩)
      · exact .inl hrow
      · exact .inr rfl

theorem mem_latestByStage (hunique : UniqueAttempts rows) :
    row ∈ latestByStage rows ↔ IsShown rows row := by
  induction rows using List.reverseRecOn generalizing row with
  | nil => simp [latestByStage, IsShown]
  | append_singleton rows execution ih =>
    have hlast : latestByStage (rows ++ [execution]) =
        recordLatest (latestByStage rows) execution := by
      rw [latestByStage, List.foldl_append]
      rfl
    rw [hlast]
    refine mem_recordLatest hunique fun row => ih fun row hrow other hother => ?_
    exact hunique row (List.mem_append_left _ hrow) other (List.mem_append_left _ hother)

theorem mem_collapse_iff (hunique : UniqueAttempts rows) :
    row ∈ collapseToLatestAttempt rows ↔ IsShown rows row := by
  rw [collapseToLatestAttempt, (List.perm_insertionSort _ _).mem_iff, mem_latestByStage hunique]

theorem mem_collapse (hwell : WellFormed rows) :
    row ∈ collapseToLatestAttempt rows ↔ IsLatest rows row := by
  rw [mem_collapse_iff hwell.keys]
  refine and_congr_right fun hrow => forall₂_congr fun other hother => ?_
  simp [rank_le_iff, hwell.noSkipped row hrow, hwell.noSkipped other hother]

def InStageOrder (a b : StageExecution) : Prop :=
  JDProcessingPipeline.stageOrderIndex a.stage < JDProcessingPipeline.stageOrderIndex b.stage

instance : Std.Irrefl InStageOrder := ⟨fun _ => lt_irrefl _⟩

instance : Std.Antisymm InStageOrder := ⟨fun _ _ hab hba => absurd hba hab.not_gt⟩

theorem stages_latestByStage (rows : List StageExecution) :
    ((latestByStage rows).map StageExecution.stage).Nodup := by
  refine List.foldlRecOn (motive := fun latest => (latest.map StageExecution.stage).Nodup) rows
    recordLatest (b := []) List.nodup_nil fun latest hlatest execution _ => ?_
  rw [recordLatest]
  split_ifs with hany
  · have hstages : (latest.map fun current => if current.stage = execution.stage ∧
        replaces execution current then execution else current).map StageExecution.stage =
        latest.map StageExecution.stage := by
      rw [List.map_map]
      refine List.map_congr_left fun current _ => ?_
      rw [Function.comp_apply]
      split_ifs with hreplace
      · exact hreplace.1.symm
      · rfl
    rwa [hstages]
  · rw [List.map_append, List.map_singleton]
    refine List.nodup_append.mpr ⟨hlatest, List.nodup_singleton _, ?_⟩
    intro stage hstage other hother
    rintro rfl
    rw [List.mem_singleton] at hother
    obtain ⟨current, hcurrent, hsame⟩ := List.mem_map.mp hstage
    exact hany (List.any_eq_true.mpr ⟨current, hcurrent, decide_eq_true (hsame.trans hother)⟩)

theorem mem_stageOrder (stage : ProcessingStage) : stage ∈ stageOrder := by
  cases stage <;> decide

theorem collapse_inStageOrder (rows : List StageExecution) :
    (collapseToLatestAttempt rows).Pairwise InStageOrder := by
  have hperm := List.perm_insertionSort (fun a b : StageExecution =>
    JDProcessingPipeline.stageOrderIndex a.stage ≤ JDProcessingPipeline.stageOrderIndex b.stage)
    (latestByStage rows)
  have hsorted := List.pairwise_insertionSort (fun a b : StageExecution =>
    JDProcessingPipeline.stageOrderIndex a.stage ≤ JDProcessingPipeline.stageOrderIndex b.stage)
    (latestByStage rows)
  have hnodup := (hperm.map StageExecution.stage).nodup_iff.mpr (stages_latestByStage rows)
  refine (hsorted.and (List.pairwise_map.mp hnodup)).imp fun ⟨hle, hne⟩ => ?_
  refine lt_of_le_of_ne hle fun hindex => hne ?_
  exact (List.idxOf_inj (mem_stageOrder _)).mp hindex

-- The latest attempt of a stage that did anything; a skip is only left when all were skips.
structure LatestOutcome (rows : List StageExecution) (row : StageExecution) : Prop where
  mem : row ∈ rows
  latest : ∀ other ∈ rows, other.stage = row.stage →
    (row.status = .skipped ↔ other.status = .skipped) → other.attemptNumber ≤ row.attemptNumber
  skipped : row.status = .skipped → ∀ other ∈ rows, other.stage = row.stage →
    other.status = .skipped

structure Collapsed (rows shown : List StageExecution) : Prop where
  stages : ∀ execution ∈ rows, ∃ row ∈ shown, row.stage = execution.stage
  outcomes : ∀ row ∈ shown, LatestOutcome rows row
  -- so no stage comes twice
  inStageOrder : shown.Pairwise InStageOrder

theorem collapse_real_outcomes (rows : List StageExecution) (hunique : UniqueAttempts rows) :
    Collapsed rows (collapseToLatestAttempt rows) ∧ ∀ rows', rows.Perm rows' →
      collapseToLatestAttempt rows' = collapseToLatestAttempt rows ∧
      currentStage (collapseToLatestAttempt rows') =
        currentStage (collapseToLatestAttempt rows) ∧
      ∀ status retryCount, retryBudget status retryCount (collapseToLatestAttempt rows') =
        retryBudget status retryCount (collapseToLatestAttempt rows) := by
  constructor
  · constructor
    · intro execution hexecution
      obtain ⟨row, hrow, hstage⟩ := exists_isShown hexecution
      exact ⟨row, (mem_collapse_iff hunique).mpr hrow, hstage⟩
    · intro row hrow
      obtain ⟨hmem, hmax⟩ := (mem_collapse_iff hunique).mp hrow
      refine ⟨hmem, fun other hother hstage => ?_, fun hskipped other hother hstage => ?_⟩
      · exact (rank_le_iff.mp (hmax other hother hstage)).2
      · by_contra hdone
        exact (rank_le_iff.mp (hmax other hother hstage)).1 hdone hskipped
    · exact collapse_inStageOrder rows
  · intro rows' hperm
    have hunique' : UniqueAttempts rows' := fun row hrow other hother =>
      hunique row (hperm.mem_iff.mpr hrow) other (hperm.mem_iff.mpr hother)
    have hsame : collapseToLatestAttempt rows' = collapseToLatestAttempt rows := by
      refine (collapse_inStageOrder rows').eq_of_mem_iff (collapse_inStageOrder rows) fun row => ?_
      rw [mem_collapse_iff hunique, mem_collapse_iff hunique', IsShown, IsShown]
      simp only [hperm.mem_iff]
    rw [hsame]
    exact ⟨rfl, rfl, fun _ _ => rfl⟩

def finishedRow (status : StageExecutionStatus) (attemptNumber : ℕ) : StageExecution :=
  ⟨.textExtraction, status, attemptNumber, none, none⟩

-- Done on the first attempt, and skipped on the second.
theorem collapse_real_outcomes_skipped :
    Collapsed [finishedRow .success 1, finishedRow .skipped 2]
      (collapseToLatestAttempt [finishedRow .success 1, finishedRow .skipped 2]) :=
  (collapse_real_outcomes [finishedRow .success 1, finishedRow .skipped 2]
    (by unfold UniqueAttempts; decide)).1

end Collapse

section Writes

variable {rows' : List StageExecution} {execution : StageExecution}

-- The row of the stage and attempt is written, and the others stay.
def Puts (rows : List StageExecution) (execution : StageExecution)
    (rows' : List StageExecution) : Prop :=
  ∀ row, row ∈ rows' ↔ row = execution ∨
    row ∈ rows ∧ ¬sameTriple row execution.stage execution.attemptNumber = true

theorem puts_map (h : ∃ row ∈ rows, sameTriple row execution.stage execution.attemptNumber = true) :
    Puts rows execution (completeStage rows execution) := by
  intro row
  rw [completeStage, List.mem_map]
  constructor
  · rintro ⟨old, hold, rfl⟩
    split_ifs with hsame
    · exact .inl rfl
    · exact .inr ⟨hold, hsame⟩
  · rintro (rfl | ⟨hrow, hother⟩)
    · obtain ⟨old, hold, hsame⟩ := h
      exact ⟨old, hold, if_pos hsame⟩
    · exact ⟨row, hrow, if_neg hother⟩

theorem puts_startStage (stage : ProcessingStage) (attemptNumber : ℕ) :
    Puts rows (runningRow stage attemptNumber) (startStage rows stage attemptNumber) := by
  by_cases hany : (rows.any fun row => sameTriple row stage attemptNumber) = true
  · rw [startStage, if_pos hany]
    obtain ⟨row, hrow, hsame⟩ := List.any_eq_true.mp hany
    exact puts_map ⟨row, hrow, hsame⟩
  · rw [startStage, if_neg hany]
    intro row
    have hnone (hrow : row ∈ rows) : ¬sameTriple row stage attemptNumber = true := fun hsame =>
      hany (List.any_eq_true.mpr ⟨row, hrow, hsame⟩)
    rw [List.mem_append, List.mem_singleton]
    constructor
    · rintro (hrow | rfl)
      · exact .inr ⟨hrow, hnone hrow⟩
      · exact .inl rfl
    · rintro (rfl | ⟨hrow, -⟩)
      · exact .inr rfl
      · exact .inl hrow

theorem Puts.wellFormed (h : Puts rows execution rows') (hwell : WellFormed rows)
    (hstatus : execution.status ≠ .skipped) : WellFormed rows' := by
  constructor
  · intro row hrow other hother hstage hattempt
    obtain rfl | ⟨hold, hrowOther⟩ := (h row).mp hrow
    · obtain rfl | ⟨-, hotherOther⟩ := (h other).mp hother
      · rfl
      · exact absurd (by simp [sameTriple, hstage, hattempt]) hotherOther
    · obtain rfl | ⟨hotherOld, -⟩ := (h other).mp hother
      · exact absurd (by simp [sameTriple, hstage, hattempt]) hrowOther
      · exact hwell.keys row hold other hotherOld hstage hattempt
  · intro row hrow
    obtain rfl | ⟨hold, -⟩ := (h row).mp hrow
    · exact hstatus
    · exact hwell.noSkipped row hold

theorem Puts.isLatest (h : Puts rows execution rows')
    (hmax : ∀ row ∈ rows, row.stage = execution.stage → row.attemptNumber ≤ execution.attemptNumber)
    (hrow : IsLatest rows' row) :
    row = execution ∨ row.stage ≠ execution.stage ∧ IsLatest rows row := by
  obtain rfl | ⟨hold, hother⟩ := (h row).mp hrow.1
  · exact .inl rfl
  · have hstage : row.stage ≠ execution.stage := by
      intro hsame
      have hle := hmax row hold hsame
      have hge := hrow.2 execution ((h execution).mpr (.inl rfl)) hsame.symm
      have hattempt : row.attemptNumber = execution.attemptNumber := by omega
      exact hother (by simp [sameTriple, hsame, hattempt])
    refine .inr ⟨hstage, hold, fun other hotherRow hsame => ?_⟩
    refine hrow.2 other ((h other).mpr (.inr ⟨hotherRow, fun htriple => ?_⟩)) hsame
    have hotherStage : other.stage = execution.stage := by
      have hboth : other.stage = execution.stage ∧
          other.attemptNumber = execution.attemptNumber := of_decide_eq_true htriple
      exact hboth.1
    exact hstage (hsame.symm.trans hotherStage)

theorem Puts.attempts (h : Puts rows execution rows')
    (hmax : ∀ row ∈ rows, row.stage = execution.stage →
      row.attemptNumber ≤ execution.attemptNumber) :
    ∀ row ∈ rows', row.stage = execution.stage → row.attemptNumber ≤ execution.attemptNumber := by
  intro row hrow hstage
  obtain rfl | ⟨hold, -⟩ := (h row).mp hrow
  · exact le_rfl
  · exact hmax row hold hstage

end Writes

end StageRows

end AiHiring
