import AiHiring.Library.Crew
import AiHiring.Library.Provenance
import AiHiring.Library.Run
import AiHiring.Pipeline.Seed

namespace AiHiring

open Library

-- The columns of campaign_candidates and of its evaluation row that a scoring task writes.
inductive ScoreColumn where
  | screenedAt
  | deterministicScore
  | deterministicPassed
  | deterministicBreakdown
  | semanticScore
  | semanticPassed
  | semanticBreakdown
  | semanticScoreComputedAt
  | compositeScore
  | compositeScoreComputedAt
  | decisionType
  | decisionSource
  | decisionReason
  | decisionDetails
  | decisionAt
  | effectiveAiScore
  | aiConfidence
  | aiRecommendation
  | aiStrengths
  | aiWeaknesses
  | aiResponseJson
  | aiEvaluationStatus
  deriving DecidableEq, Repr

inductive ScoreValue where
  | number (value : ℚ)
  | flag (value : Bool)
  | text (value : String)
  | breakdown (passed : Bool) (content : String)
  | time (value : Instant)
  deriving DecidableEq, Repr

-- A read of the candidate: the resume it named, and how many resets had been committed.
structure ScoreReading where
  resumeId : Uuid
  resets : ℕ
  deriving DecidableEq, Repr

inductive ScoringLayer where
  | deterministic
  | semantic
  | ai
  | composite
  deriving DecidableEq, Repr

structure ScoringCandidate where
  resumeId : Uuid
  pipelineStage : PipelineStage
  previousStage : Option PipelineStage
  columns : Cells ScoreColumn ScoreValue ScoreReading

-- How far a task or a reset is. A task knows what it has read of the candidate, and from
-- which reads the columns it consults were computed.
inductive ScoringActivity where
  | started (layer : ScoringLayer)
  -- past the checks of the semantic task
  | gated (loaded : ScoringCandidate) (readings sources : List ScoreReading)
  | computing (layer : ScoringLayer) (loaded : ScoringCandidate)
      (readings sources : List ScoreReading)
  -- its AI_EVALUATE logs are cancelled, which has committed the rejection
  | rejecting (readings sources : List ScoreReading)
  | rescoring (loaded : ScoringCandidate)
  | ended

-- What the AI layer answered.
structure AiResponse where
  (overallScore confidenceScore : ℚ)
  (recommendation strengths gaps json : String)
  deriving DecidableEq, Repr

-- What a task has computed; `cancels` where AI_EVALUATE logs are QUEUED at a rejection.
inductive ScoringOutcome where
  | deterministic (score : ℚ) (passed : Bool) (breakdown reason : String) (now : Instant)
      (cancels : Bool)
  | semantic (score : ℚ) (passed : Bool) (breakdown explanation : String) (now : Instant)
      (cancels : Bool)
  | missingResumeEmbedding (now : Instant)
  -- no JD embedding after the retries, or one of another model version
  | manualReview
  | ai (response : AiResponse) (reason : String) (now : Instant)
  | composite (score : ℚ) (now : Instant)
  deriving DecidableEq, Repr

structure ScoreWorld where
  candidate : ScoringCandidate
  resets : ℕ
  crew : List ScoringActivity

namespace ScoreWorld

def missingResumeEmbeddingReason : String :=
  "Resume embedding not available — semantic scoring skipped"

section Writes

variable (now : Instant)

def screenedWrites : List (ScoreColumn × Option ScoreValue) := [(.screenedAt, some (.time now))]

def deterministicWrites (score : ℚ) (passed : Bool) (breakdown : String) :
    List (ScoreColumn × Option ScoreValue) :=
  [(.deterministicBreakdown, some (.breakdown passed breakdown)),
    (.deterministicScore, some (.number score)), (.deterministicPassed, some (.flag passed))]

def semanticWrites (score : ℚ) (passed : Bool) (breakdown : String) :
    List (ScoreColumn × Option ScoreValue) :=
  [(.semanticScore, some (.number score)), (.semanticPassed, some (.flag passed)),
    (.semanticBreakdown, some (.breakdown passed breakdown)),
    (.semanticScoreComputedAt, some (.time now))]

def compositeWrites (score : ℚ) : List (ScoreColumn × Option ScoreValue) :=
  [(.compositeScore, some (.number score)), (.compositeScoreComputedAt, some (.time now))]

def evaluationWrites (response : AiResponse) : List (ScoreColumn × Option ScoreValue) :=
  [(.effectiveAiScore, some (.number response.overallScore)),
    (.aiConfidence, some (.number (response.confidenceScore / 100))),
    (.aiRecommendation, some (.text response.recommendation)),
    (.aiStrengths, some (.text response.strengths)), (.aiWeaknesses, some (.text response.gaps)),
    (.aiResponseJson, some (.text response.json)),
    (.aiEvaluationStatus, some (.text "COMPLETED"))]

def decisionWrites (decisionType decisionSource reason details : String) :
    List (ScoreColumn × Option ScoreValue) :=
  [(.decisionType, some (.text decisionType)), (.decisionSource, some (.text decisionSource)),
    (.decisionReason, some (.text reason)), (.decisionDetails, some (.text details)),
    (.decisionAt, some (.time now))]

def statusWrites (status : String) : List (ScoreColumn × Option ScoreValue) :=
  [(.aiEvaluationStatus, some (.text status))]

end Writes

-- The columns that the resets clear, and the two that a resubmission leaves.
def evaluationColumns : List ScoreColumn :=
  [.effectiveAiScore, .aiConfidence, .aiRecommendation, .aiStrengths, .aiWeaknesses,
    .aiResponseJson, .aiEvaluationStatus]

def evaluationDerivedColumns : List ScoreColumn :=
  [.screenedAt, .deterministicScore, .deterministicPassed, .deterministicBreakdown,
    .semanticScore, .semanticPassed, .compositeScore, .compositeScoreComputedAt, .decisionType,
    .decisionSource, .decisionReason, .decisionDetails, .decisionAt]

def rescoredColumns : List ScoreColumn :=
  evaluationDerivedColumns ++ [.semanticBreakdown, .semanticScoreComputedAt]

def consulted : ScoringLayer → List ScoreColumn
  | .deterministic => []
  | .semantic => [.deterministicBreakdown]
  | .ai => [.semanticBreakdown]
  | .composite => [.deterministicScore, .semanticScore, .effectiveAiScore]

section Steps

variable (table : TransitionTable) (w : ScoreWorld)

def reading : ScoreReading := ⟨w.candidate.resumeId, w.resets⟩

def move (i : ℕ) (activity : ScoringActivity) : ScoreWorld :=
  { w with crew := w.crew.set i activity }

def put (candidate : ScoringCandidate) : ScoreWorld := { w with candidate := candidate }

-- A flush onto the row, and a refresh.
def stored (row loaded : ScoringCandidate) (sources : List ScoreReading)
    (writes : List (ScoreColumn × Option ScoreValue)) : ScoringCandidate :=
  { row with columns := writeBack loaded.columns row.columns sources writes }

def movedTo (row : ScoringCandidate) (toStage : PipelineStage) : ScoringCandidate :=
  { row with pipelineStage := toStage, previousStage := some row.pipelineStage }

-- `transition_to_rejected` and `transition_on_ai_success`
def transitionTo (row : ScoringCandidate) (toStage : PipelineStage) (sources : List ScoreReading)
    (writes : List (ScoreColumn × Option ScoreValue)) : ScoringCandidate :=
  if AllowedTransitionRepository.isTransitionAllowed table row.pipelineStage toStage
      row.previousStage then
    stored (movedTo row toStage) row sources writes
  else row

def skipped (row : ScoringCandidate) (sources : List ScoreReading) : ScoringCandidate :=
  stored row row sources (statusWrites "SKIPPED")

-- The row after `transition_to_screening`, and what the session has of it; None where
-- the candidate is still at UPLOADED.
def transitionToScreening (loaded row : ScoringCandidate) :
    Option (ScoringCandidate × ScoringCandidate × Bool) :=
  if loaded.pipelineStage = .uploaded then
    if AllowedTransitionRepository.isTransitionAllowed table .uploaded .screening
        loaded.previousStage then
      let screened := { row with pipelineStage := .screening, previousStage := some .uploaded }
      some (screened, screened, true)
    else none
  else some (loaded, row, false)

-- A rejection, after the result has been writeBack.
def rejected (row : ScoringCandidate) (source reason breakdown : String) (now : Instant)
    (sources : List ScoreReading) : ScoringCandidate :=
  transitionTo table row .rejected sources (decisionWrites now "REJECTED" source reason breakdown)

def decided (row : ScoringCandidate) (response : AiResponse) (reason : String) (now : Instant)
    (sources : List ScoreReading) : ScoringCandidate :=
  if response.recommendation = "REJECT" then
    transitionTo table row .rejected sources
      (decisionWrites now "REJECTED" "AI" reason response.json)
  else if response.recommendation = "SHORTLIST" then
    transitionTo table row .shortlisted sources (decisionWrites now "SHORTLISTED" "AI"
      "AI evaluation recommended shortlisting this candidate." response.json)
  else if response.recommendation = "HOLD" then
    transitionTo table row .hold sources (decisionWrites now "HOLD" "AI"
      "AI evaluation recommended placing this candidate on hold." response.json)
  else row

-- The result is writeBack; a candidate that did not pass is rejected and its evaluation
-- skipped, in a later commit where logs are cancelled in between.
def settle (i : ℕ) (row : ScoringCandidate) (passed cancels : Bool)
    (source reason breakdown : String) (now : Instant) (readings sources : List ScoreReading) :
    ScoreWorld :=
  if passed then (w.put row).move i .ended
  else
    let row := rejected table row source reason breakdown now sources
    if cancels then (w.put row).move i (.rejecting readings sources)
    else (w.put (skipped row sources)).move i .ended

def commit (i : ℕ) : ScoringOutcome → ScoringActivity → Option ScoreWorld
  | .deterministic score passed breakdown reason now cancels,
      .computing .deterministic loaded readings sources =>
      match transitionToScreening table loaded w.candidate with
      | none => some (w.move i .ended)
      | some (session, row, refreshed) =>
        -- the skills are those of the resume that the refreshed row names
        let again := if refreshed then [w.reading] else []
        let sources := sources ++ again
        let row := stored row session sources (deterministicWrites score passed breakdown)
        let row := stored row row sources (screenedWrites now)
        some (w.settle table i row passed cancels "DETERMINISTIC" reason breakdown now
          (readings ++ again) sources)
  | .semantic score passed breakdown explanation now cancels,
      .computing .semantic loaded readings sources =>
      let row := stored w.candidate loaded sources (semanticWrites now score passed breakdown)
      some (w.settle table i row passed cancels "SEMANTIC" explanation breakdown now readings
        sources)
  | .missingResumeEmbedding now, .gated loaded _ sources =>
    let row := stored w.candidate w.candidate sources (statusWrites "MANUAL_REVIEW")
    let known := (loaded.columns .decisionReason).map Cell.value =
      some (.text missingResumeEmbeddingReason)
    let row := if known then row else stored row loaded sources
      [(.decisionSource, some (.text "SEMANTIC")),
        (.decisionReason, some (.text missingResumeEmbeddingReason)),
        (.decisionDetails, some (.text missingResumeEmbeddingReason)),
        (.decisionAt, some (.time now))]
    some ((w.put row).move i .ended)
  | .manualReview, .gated loaded _ sources =>
    let row := stored w.candidate loaded sources [(.semanticScore, none)]
    some ((w.put (stored row row sources (statusWrites "MANUAL_REVIEW"))).move i .ended)
  | .ai response reason now, .computing .ai _ _ sources =>
    let row := stored w.candidate w.candidate sources (evaluationWrites response)
    some ((w.put (decided table row response reason now sources)).move i .ended)
  | .composite score now, .computing .composite loaded _ sources =>
    some ((w.put (stored w.candidate loaded sources (compositeWrites now score))).move i .ended)
  | _, _ => none

def semanticPassed (candidate : ScoringCandidate) : Bool :=
  match (candidate.columns .semanticBreakdown).map Cell.value with
  | some (.breakdown passed _) => passed
  | _ => false

-- The task reads the candidate, or skips it.
def read (i : ℕ) : ScoringLayer → ScoreWorld
  | .semantic =>
    if (w.candidate.columns .deterministicPassed).map Cell.value = some (.flag true) then
      w.move i (.gated w.candidate [w.reading]
        (w.reading :: sourcesOf w.candidate.columns [.deterministicPassed]))
    else w.move i .ended
  | .ai =>
    if w.candidate.pipelineStage ≠ .rejected ∧ semanticPassed w.candidate then
      w.move i (.computing .ai w.candidate [w.reading]
        (w.reading :: sourcesOf w.candidate.columns (consulted .ai)))
    else w.move i .ended
  | layer =>
    w.move i (.computing layer w.candidate [w.reading]
      (w.reading :: sourcesOf w.candidate.columns (consulted layer)))

def resetForResubmission (newResumeId : Uuid) : ScoreWorld :=
  let row := movedTo w.candidate .uploaded
  { w with
    candidate := { row with
      resumeId := newResumeId
      columns := cleared (evaluationDerivedColumns ++ evaluationColumns) row.columns row.columns }
    resets := w.resets + 1 }

-- `reset_for_rescore` clears what the session saw set, the evaluation row is read anew.
def resetForRescore (loaded : ScoringCandidate) : ScoreWorld :=
  let columns := cleared rescoredColumns loaded.columns w.candidate.columns
  { w with
    candidate := { w.candidate with columns := cleared evaluationColumns columns columns }
    resets := w.resets + 1 }

end Steps

inductive Event where
  -- a task of a layer is picked up, for the first time or again
  | start (layer : ScoringLayer)
  | read (i : ℕ)
  -- the semantic task has committed its checks and reads the candidate again
  | preflight (i : ℕ)
  | commit (i : ℕ) (outcome : ScoringOutcome)
  | skipEvaluation (i : ℕ)
  -- a task ends without a result: a skip, an error or a retry
  | leave (i : ℕ)
  | updateResumeForResubmission (newResumeId : Uuid)
  | enqueueManualRescore
  | resetForRescore (i : ℕ)
  -- any other writer of the stage
  | stage (pipelineStage : PipelineStage) (previousStage : Option PipelineStage)
  deriving DecidableEq, Repr

def next? (table : TransitionTable) (w : ScoreWorld) : Event → Option ScoreWorld
  | .start layer => some { w with crew := w.crew ++ [.started layer] }
  | .read i =>
    match w.crew[i]? with
    | some (.started layer) => some (w.read i layer)
    | _ => none
  | .preflight i =>
    match w.crew[i]? with
    | some (.gated _ readings sources) =>
      some (w.move i (.computing .semantic w.candidate (readings ++ [w.reading])
        (sources ++ w.reading :: sourcesOf w.candidate.columns (consulted .semantic))))
    | _ => none
  | .commit i outcome =>
    match w.crew[i]? with
    | some activity => w.commit table i outcome activity
    | none => none
  | .skipEvaluation i =>
    match w.crew[i]? with
    | some (.rejecting _ sources) =>
      some ((w.put (skipped w.candidate sources)).move i .ended)
    | _ => none
  | .leave i => if i < w.crew.length then some (w.move i .ended) else none
  | .updateResumeForResubmission newResumeId =>
    if AllowedTransitionRepository.isTransitionAllowed table w.candidate.pipelineStage .uploaded
        w.candidate.previousStage then
      some (w.resetForResubmission newResumeId)
    else none
  | .enqueueManualRescore => some { w with crew := w.crew ++ [.rescoring w.candidate] }
  | .resetForRescore i =>
    match w.crew[i]? with
    | some (.rescoring loaded) => some ((w.resetForRescore loaded).move i .ended)
    | _ => none
  | .stage pipelineStage previousStage =>
    some (w.put { w.candidate with
      pipelineStage := pipelineStage, previousStage := previousStage })

def Step (table : TransitionTable) (w : ScoreWorld) (event : Event) (w' : ScoreWorld) : Prop :=
  w.next? table event = some w'

section Current

variable (w : ScoreWorld)

-- Every stored result comes, by whatever tasks, from reads of the candidate after the
-- last reset, of the resume that it names.
def Current : Prop := AllFrom (· = w.reading) w.candidate.columns

def readings : ScoringActivity → List ScoreReading
  | .gated _ readings _ | .computing _ _ readings _ | .rejecting readings _ => readings
  | _ => []

def sources : ScoringActivity → List ScoreReading
  | .gated _ _ sources | .computing _ _ _ sources | .rejecting _ sources => sources
  | _ => []

def ReadSinceReset (i : ℕ) : Prop :=
  ∀ activity, w.crew[i]? = some activity → ∀ r ∈ readings activity, r.resets = w.resets

-- No reset comes between the reads of a task and its commits, a resubmission finds the
-- columns that it leaves unset, and the reset of a re-score has seen whatever is set.
def ResetsApart : Event → ScoreWorld → Prop
  | .commit i _, _ | .skipEvaluation i, _ => w.ReadSinceReset i
  | .updateResumeForResubmission _, _ =>
    w.candidate.columns .semanticBreakdown = none ∧
      w.candidate.columns .semanticScoreComputedAt = none
  | .resetForRescore i, _ => ∀ loaded, w.crew[i]? = some (.rescoring loaded) →
      ∀ column ∈ rescoredColumns, loaded.columns column = none → w.candidate.columns column = none
  | _, _ => True

-- What a task has read is not of the future, and its sources are its reads.
structure Timely (activity : ScoringActivity) : Prop where
  past : ∀ r ∈ readings activity, r.resets ≤ w.resets ∧
    (r.resets = w.resets → r.resumeId = w.candidate.resumeId)
  traced : ∀ r ∈ sources activity, r ∈ readings activity

structure Sound : Prop where
  current : w.Current
  timely : ∀ activity ∈ w.crew, w.Timely activity

def CurrentRow (r : ScoreReading) (row : ScoringCandidate) : Prop :=
  row.resumeId = r.resumeId ∧ AllFrom (· = r) row.columns

section Rows

variable {r : ScoreReading} {row loaded : ScoringCandidate} {sources : List ScoreReading}

theorem CurrentRow.stored (h : CurrentRow r row) (hsources : ∀ s ∈ sources, s = r)
    (writes : List (ScoreColumn × Option ScoreValue)) :
    CurrentRow r (stored row loaded sources writes) :=
  ⟨h.1, h.2.writeBack hsources writes⟩

theorem CurrentRow.transitionTo (h : CurrentRow r row) (hsources : ∀ s ∈ sources, s = r)
    (table : TransitionTable) (toStage : PipelineStage)
    (writes : List (ScoreColumn × Option ScoreValue)) :
    CurrentRow r (transitionTo table row toStage sources writes) := by
  unfold ScoreWorld.transitionTo
  split_ifs
  · have hmoved : CurrentRow r (movedTo row toStage) := h
    exact hmoved.stored hsources writes
  · exact h

theorem CurrentRow.decided (h : CurrentRow r row) (hsources : ∀ s ∈ sources, s = r)
    (table : TransitionTable) (response : AiResponse) (reason : String) (now : Instant) :
    CurrentRow r (decided table row response reason now sources) := by
  unfold ScoreWorld.decided
  split_ifs
  · exact h.transitionTo hsources table _ _
  · exact h.transitionTo hsources table _ _
  · exact h.transitionTo hsources table _ _
  · exact h

end Rows

variable {w} {w' : ScoreWorld}

theorem Timely.congr {activity : ScoringActivity} (h : w.Timely activity)
    (hresets : w'.resets = w.resets) (hresume : w'.candidate.resumeId = w.candidate.resumeId) :
    w'.Timely activity := by
  refine ⟨fun r hr => ?_, h.traced⟩
  obtain ⟨hle, hsame⟩ := h.past r hr
  rw [hresets, hresume]
  exact ⟨hle, hsame⟩

theorem Sound.put (h : Sound w) {row : ScoringCandidate} (hrow : CurrentRow w.reading row) :
    Sound (w.put row) := by
  have hresume : row.resumeId = w.candidate.resumeId := hrow.1
  constructor
  · have hreading : (w.put row).reading = w.reading := by
      unfold reading ScoreWorld.put
      rw [hresume]
    unfold Current
    rw [hreading]
    exact hrow.2
  · exact fun activity hactivity => (h.timely activity hactivity).congr rfl hresume

theorem Sound.move (h : Sound w) (i : ℕ) {activity : ScoringActivity}
    (hactivity : w.Timely activity) : Sound (w.move i activity) := by
  refine ⟨h.current, forall_mem_set ?_ (hactivity.congr rfl rfl)⟩
  exact fun other hother => (h.timely other hother).congr rfl rfl

theorem Sound.hire (h : Sound w) {activity : ScoringActivity} (hactivity : w.Timely activity) :
    Sound { w with crew := w.crew ++ [activity] } := by
  refine ⟨h.current, forall_mem_hire ?_ (hactivity.congr rfl rfl)⟩
  exact fun other hother => (h.timely other hother).congr rfl rfl

theorem timely_of_nil {activity : ScoringActivity} (hreadings : readings activity = [])
    (hsources : sources activity = []) : w.Timely activity := by
  constructor
  · rw [hreadings]
    exact fun r hr => absurd hr List.not_mem_nil
  · rw [hsources]
    exact fun r hr => absurd hr List.not_mem_nil

-- A task that reads the candidate: what it consults came from the same read.
theorem Sound.reads (h : Sound w) (columns : List ScoreColumn) :
    ∀ r ∈ w.reading :: sourcesOf w.candidate.columns columns, r = w.reading := by
  intro r hr
  rcases List.mem_cons.mp hr with hr | hr
  · exact hr
  · exact h.current.sourcesOf columns r hr

theorem Sound.timely_computing (h : Sound w) (layer : ScoringLayer) :
    w.Timely (.computing layer w.candidate [w.reading]
      (w.reading :: sourcesOf w.candidate.columns (consulted layer))) := by
  constructor
  · intro r hr
    rw [List.mem_singleton.mp hr]
    exact ⟨Nat.le_refl _, fun _ => rfl⟩
  · intro r hr
    exact List.mem_singleton.mpr (h.reads _ r hr)

theorem Sound.read (h : Sound w) (i : ℕ) (layer : ScoringLayer) : Sound (w.read i layer) := by
  cases layer with
  | deterministic => exact h.move i (h.timely_computing .deterministic)
  | semantic =>
    unfold ScoreWorld.read
    dsimp only
    split_ifs
    · refine h.move i ⟨?_, ?_⟩
      · exact (h.timely_computing .semantic).past
      · exact fun r hr => List.mem_singleton.mpr (h.reads _ r hr)
    · exact h.move i (timely_of_nil rfl rfl)
  | ai =>
    unfold ScoreWorld.read
    dsimp only
    split_ifs
    · exact h.move i (h.timely_computing .ai)
    · exact h.move i (timely_of_nil rfl rfl)
  | composite => exact h.move i (h.timely_computing .composite)

-- What a task stores after no reset since its reads comes from the candidate as it is.
theorem Timely.sources_eq {activity : ScoringActivity} (h : w.Timely activity)
    (hsince : ∀ r ∈ readings activity, r.resets = w.resets) :
    ∀ r ∈ sources activity, r = w.reading := by
  intro r hr
  have hread := h.traced r hr
  have hresets := hsince r hread
  obtain ⟨resumeId, resets⟩ := r
  have hresume : resumeId = w.candidate.resumeId := (h.past _ hread).2 hresets
  have hnow : resets = w.resets := hresets
  unfold reading
  rw [hresume, hnow]

theorem transitionToScreening_row {table : TransitionTable} {loaded row session row' :
    ScoringCandidate} {refreshed : Bool} {r : ScoreReading} (h : CurrentRow r row)
    (hscreening : transitionToScreening table loaded row = some (session, row', refreshed)) :
    CurrentRow r row' := by
  unfold transitionToScreening at hscreening
  split_ifs at hscreening
  · obtain ⟨-, rfl, -⟩ := Prod.mk.inj (Option.some.inj hscreening)
    exact h
  · obtain ⟨-, rfl, -⟩ := Prod.mk.inj (Option.some.inj hscreening)
    exact h

theorem Sound.settle (h : Sound w) (table : TransitionTable) (i : ℕ) {row : ScoringCandidate}
    (hrow : CurrentRow w.reading row) (passed cancels : Bool)
    (source reason breakdown : String) (now : Instant) {readings sources : List ScoreReading}
    (htimely : w.Timely (.rejecting readings sources)) (hsources : ∀ r ∈ sources, r = w.reading) :
    Sound (w.settle table i row passed cancels source reason breakdown now readings sources) := by
  have hended (w : ScoreWorld) : w.Timely .ended := timely_of_nil rfl rfl
  have hrejected := hrow.transitionTo hsources table .rejected
    (decisionWrites now "REJECTED" source reason breakdown)
  unfold ScoreWorld.settle
  split_ifs
  · exact (h.put hrow).move i (hended _)
  · exact (h.put hrejected).move i (htimely.congr rfl hrejected.1)
  · exact (h.put (hrejected.stored hsources _)).move i (hended _)

theorem sound_commit (h : Sound w) (table : TransitionTable) (i : ℕ) (outcome : ScoringOutcome)
    (activity : ScoringActivity) (hactivity : w.crew[i]? = some activity)
    (hguard : w.ReadSinceReset i) (hstep : w.commit table i outcome activity = some w') :
    Sound w' := by
  have htimely := h.timely activity (List.mem_of_getElem? hactivity)
  have hsources := htimely.sources_eq (hguard activity hactivity)
  have hrow : CurrentRow w.reading w.candidate := ⟨rfl, h.current⟩
  have hended (w : ScoreWorld) : w.Timely .ended := timely_of_nil rfl rfl
  unfold commit at hstep
  split at hstep
  · -- deterministic
    rename_i score passed breakdown reason now cancels loaded readings sources
    split at hstep
    · cases hstep
      exact h.move i (hended w)
    · rename_i session row refreshed hscreening
      cases hstep
      have hagain : ∀ r ∈ (if refreshed then [w.reading] else [] : List ScoreReading),
          r = w.reading := by
        intro r hr
        split_ifs at hr
        · exact List.mem_singleton.mp hr
        · simp at hr
      have hall := List.forall_mem_append.mpr ⟨hsources, hagain⟩
      have hscreened := transitionToScreening_row hrow hscreening
      refine h.settle table i ((hscreened.stored hall _).stored hall _) passed cancels _ _ _ now
        ⟨?_, ?_⟩ hall
      · refine List.forall_mem_append.mpr ⟨htimely.past, fun r hr => ?_⟩
        rw [hagain r hr]
        exact ⟨Nat.le_refl _, fun _ => rfl⟩
      · refine List.forall_mem_append.mpr ⟨fun r hr => ?_, fun r hr => ?_⟩
        · exact List.mem_append_left _ (htimely.traced r hr)
        · exact List.mem_append_right _ hr
  · -- semantic
    rename_i score passed breakdown explanation now cancels loaded readings sources
    cases hstep
    exact h.settle table i (hrow.stored hsources _) passed cancels _ _ _ now
      ⟨htimely.past, htimely.traced⟩ hsources
  · rename_i now loaded readings sources
    cases hstep
    refine (h.put ?_).move i (hended _)
    have hstatus : CurrentRow w.reading
        (stored w.candidate w.candidate sources (statusWrites "MANUAL_REVIEW")) :=
      hrow.stored hsources _
    split_ifs
    · exact hstatus
    · exact hstatus.stored hsources _
  · rename_i loaded readings sources
    cases hstep
    exact (h.put ((hrow.stored hsources _).stored hsources _)).move i (hended _)
  · rename_i response reason now loaded readings sources
    cases hstep
    exact (h.put ((hrow.stored hsources _).decided hsources table response reason now)).move i
      (hended _)
  · rename_i score now loaded readings sources
    cases hstep
    exact (h.put (hrow.stored hsources _)).move i (hended _)
  · cases hstep

theorem sound_resetForResubmission (h : Sound w) (newResumeId : Uuid)
    (hbreakdown : w.candidate.columns .semanticBreakdown = none)
    (hcomputedAt : w.candidate.columns .semanticScoreComputedAt = none) :
    Sound (w.resetForResubmission newResumeId) := by
  constructor
  · intro column cell hcell
    obtain ⟨hin, hgone⟩ := cleared_eq_some hcell
    -- the columns that are not cleared are unset
    have hkept : column ∉ evaluationDerivedColumns ++ evaluationColumns := by
      intro hcleared
      exact absurd (hin.symm.trans (hgone hcleared)) nofun
    cases column with
    | semanticBreakdown => exact absurd (hin.symm.trans hbreakdown) nofun
    | semanticScoreComputedAt => exact absurd (hin.symm.trans hcomputedAt) nofun
    | _ => exact absurd (by decide) hkept
  · intro activity hactivity
    obtain ⟨hpast, htraced⟩ := h.timely activity hactivity
    refine ⟨fun r hr => ?_, htraced⟩
    have hle := (hpast r hr).1
    have hresets : (w.resetForResubmission newResumeId).resets = w.resets + 1 := rfl
    exact ⟨by omega, by omega⟩

theorem sound_resetForRescore (h : Sound w) (loaded : ScoringCandidate)
    (hseen : ∀ column ∈ rescoredColumns, loaded.columns column = none →
      w.candidate.columns column = none) :
    Sound (w.resetForRescore loaded) := by
  constructor
  · intro column cell hcell
    obtain ⟨hin, hgone⟩ := cleared_eq_some hcell
    obtain ⟨hstored, hunseen⟩ := cleared_eq_some hin
    have hkept : column ∉ rescoredColumns ++ evaluationColumns := by
      intro hcleared
      rcases List.mem_append.mp hcleared with hcleared | hcleared
      · exact absurd (hstored.symm.trans (hseen column hcleared (hunseen hcleared))) nofun
      · exact absurd (hin.symm.trans (hgone hcleared)) nofun
    exact absurd (by cases column <;> decide) hkept
  · intro activity hactivity
    obtain ⟨hpast, htraced⟩ := h.timely activity hactivity
    refine ⟨fun r hr => ?_, htraced⟩
    have hle := (hpast r hr).1
    have hresets : (w.resetForRescore loaded).resets = w.resets + 1 := rfl
    exact ⟨by omega, by omega⟩

theorem sound_step (table : TransitionTable) {event : Event} (h : Sound w)
    (hguard : w.ResetsApart event w') (hstep : Step table w event w') : Sound w' := by
  have hended (w : ScoreWorld) : w.Timely .ended := timely_of_nil rfl rfl
  unfold Step next? at hstep
  cases event with
  | start layer =>
    cases hstep
    exact h.hire (timely_of_nil rfl rfl)
  | read i =>
    dsimp only at hstep
    split at hstep
    · cases hstep
      exact h.read i _
    · cases hstep
  | preflight i =>
    dsimp only at hstep
    split at hstep
    · rename_i loaded readings sources hactivity
      cases hstep
      have htimely := h.timely _ (List.mem_of_getElem? hactivity)
      have hcomputing := h.timely_computing .semantic
      refine h.move i ⟨List.forall_mem_append.mpr ⟨htimely.past, hcomputing.past⟩, ?_⟩
      refine List.forall_mem_append.mpr ⟨fun r hr => ?_, fun r hr => ?_⟩
      · exact List.mem_append_left _ (htimely.traced r hr)
      · exact List.mem_append_right _ (hcomputing.traced r hr)
    · cases hstep
  | commit i outcome =>
    dsimp only at hstep
    split at hstep
    · rename_i activity hactivity
      exact sound_commit h table i outcome activity hactivity hguard hstep
    · cases hstep
  | skipEvaluation i =>
    dsimp only at hstep
    split at hstep
    · rename_i readings sources hactivity
      cases hstep
      have htimely := h.timely _ (List.mem_of_getElem? hactivity)
      have hrow : CurrentRow w.reading w.candidate := ⟨rfl, h.current⟩
      have hsources := htimely.sources_eq (hguard _ hactivity)
      exact (h.put (hrow.stored hsources _)).move i (hended _)
    · cases hstep
  | leave i =>
    dsimp only at hstep
    split_ifs at hstep
    cases hstep
    exact h.move i (hended w)
  | updateResumeForResubmission newResumeId =>
    split_ifs at hstep
    cases hstep
    exact sound_resetForResubmission h newResumeId hguard.1 hguard.2
  | enqueueManualRescore =>
    cases hstep
    exact h.hire (timely_of_nil rfl rfl)
  | resetForRescore i =>
    dsimp only at hstep
    split at hstep
    · rename_i loaded hactivity
      cases hstep
      exact (sound_resetForRescore h loaded (hguard loaded hactivity)).move i (hended _)
    · cases hstep
  | stage pipelineStage previousStage =>
    cases hstep
    exact h.put ⟨rfl, h.current⟩

end Current

theorem scores_stay_current (table : TransitionTable) (start : ScoreWorld)
    (hcurrent : start.Current) (hidle : start.crew = []) (path : List (Event × ScoreWorld))
    (hpath : Path (Step table) start path) (hguard : EveryStep ResetsApart start path) :
    ∀ w ∈ visited start path, w.Current := by
  have hsound : Sound start := by
    refine ⟨hcurrent, ?_⟩
    rw [hidle]
    exact fun activity hactivity => absurd hactivity List.not_mem_nil
  intro w hw
  have hall := hpath.guarded_invariant hsound hguard
    (fun _ _ _ hs hapart hstep => sound_step table hs hapart hstep) w hw
  exact hall.current

def unscored : ScoreWorld where
  candidate := ⟨1, .screening, some .uploaded, fun _ => none⟩
  resets := 0
  crew := []

theorem unscored_current : unscored.Current := fun _ _ h => nomatch h

def run (events : List Event) : List (Event × ScoreWorld) :=
  execute (next? seededTransitions) unscored events

theorem run_path (events : List Event) : Path (Step seededTransitions) unscored (run events) :=
  execute_path (next? seededTransitions) (fun _ _ _ h => h) unscored events

def rescored : List Event :=
  [.start .deterministic, .read 0, .commit 0 (.deterministic 80 true "skills" "" 5 false),
    .enqueueManualRescore, .resetForRescore 1, .start .deterministic, .read 2,
    .commit 2 (.deterministic 90 true "skills" "" 9 false)]

theorem readSinceReset_of {w : ScoreWorld} {i : ℕ} {activity : ScoringActivity}
    (hactivity : w.crew[i]? = some activity)
    (hsince : ∀ r ∈ readings activity, r.resets = w.resets) : w.ReadSinceReset i := by
  intro other hother
  cases hactivity.symm.trans hother
  exact hsince

theorem scores_stay_current_rescored : (final unscored (run rescored)).Current ∧
      ((final unscored (run rescored)).candidate.columns .deterministicScore).map Cell.value =
        some (.number 90) := by
  refine ⟨scores_stay_current seededTransitions unscored unscored_current rfl _
    (run_path rescored) ?_ _ (final_mem_visited _ _), by decide +kernel⟩
  refine ⟨trivial, trivial, ?_, trivial, ?_, trivial, trivial, ?_, trivial⟩
  · exact readSinceReset_of rfl fun r hr => List.mem_singleton.mp hr ▸ rfl
  · rintro loaded ⟨⟩ column - hnone
    exact hnone
  · exact readSinceReset_of rfl fun r hr => List.mem_singleton.mp hr ▸ rfl

def resubmitted : List Event :=
  [.start .deterministic, .read 0, .updateResumeForResubmission 2,
    .commit 0 (.deterministic 80 true "skills" "" 5 false)]

theorem stale_score_stored :
    ¬∀ (table : TransitionTable) (start : ScoreWorld), start.Current → start.crew = [] →
      ∀ path, Path (Step table) start path → ∀ w ∈ visited start path, w.Current := by
  intro h
  have hcurrent := h seededTransitions unscored unscored_current rfl _ (run_path resubmitted) _
    (final_mem_visited unscored (run resubmitted))
  have hreading : (final unscored (run resubmitted)).reading = ⟨2, 1⟩ := by decide +kernel
  have hscore : (final unscored (run resubmitted)).candidate.columns .deterministicScore =
      some ⟨.number 80, [⟨1, 0⟩]⟩ := rfl
  have hsource := hcurrent .deterministicScore _ hscore ⟨1, 0⟩ (List.mem_singleton.mpr rfl)
  rw [hreading] at hsource
  exact absurd hsource (by decide)

end ScoreWorld

end AiHiring
