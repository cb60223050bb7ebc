import AiHiring.Jd.Lineage
import AiHiring.Jd.Pipeline
import AiHiring.Jd.StoredMatches

namespace AiHiring

open Library JDProcessingPipeline StageExecutionService ContextSerializer
open JDExtractionResponse (modelValidate wellFormed_modelValidate jsonb reload_of_noSkillIsAlias)
open JdLineage (emptyDb)

namespace JDResume

variable (external : ExternalStages) (run : JDSubmission) (db : JdDatabase)

variable (resumePoint : Option ProcessingStage) (stage : ProcessingStage)
  (fault : Option StageFault) (steps : List StageStep)

section Values

def position : ℕ := pipelineStages.idxOf stage

def sourceText : Option String :=
  match run.rawText with
  | some text => some text
  | none => run.filePath.map fun path => external.extractText path (resolveSourceFormat run.filePath)

def llmOutput : Option ExtractionData := do
  let text ← sourceText external run
  let prompt ← db.promptTemplates.find? run.promptTemplateId
  return external.extractRaw (external.normalize text) prompt

variable (failures : List ProcessingStage)

-- Whether some failure came after the stage, so that its result was read back.
def ReadBack (stage : ProcessingStage) : Prop := ∃ f ∈ failures, position stage < position f

instance (stage : ProcessingStage) : Decidable (ReadBack failures stage) :=
  inferInstanceAs (Decidable (∃ f ∈ failures, position stage < position f))

def seenRaw (raw : ExtractionData) : ExtractionData :=
  if ReadBack failures .aiExtraction then raw.jsonb else raw

-- What JSON_VALIDATION was given on the attempt on which it succeeded.
def validatedRaw (raw : ExtractionData) : ExtractionData :=
  if .jsonValidation ∈ failures then raw.jsonb else raw

variable (extraction : JDExtractionResponse)

def seenExtraction : JDExtractionResponse :=
  if ReadBack failures .jsonValidation then extraction.reload external.casefold else extraction

def normalizedExtraction : JDExtractionResponse :=
  if .skillNormalization ∈ failures then extraction.reload external.casefold else extraction

def matchesOf : List SkillMatchResult :=
  SkillNormalizationService.normalizeSkills external.catalog extraction.requiredSkillSpecs
    extraction.preferredSkillSpecs

def seenMatches (skillMatches : List SkillMatchResult) : List SkillMatchResult :=
  if ReadBack failures .skillNormalization then skillMatches.map storedMatch else skillMatches

end Values

section Invariant

variable (failures : List ProcessingStage)

-- The context on an attempt after the failures, once the first `done` stages are
-- over: each field has its own value, or what a checkpoint has made of it.
structure Reached (done : ℕ) (context : JDProcessingContext) : Prop where
  submission : context.toJDSubmission = run
  sourceFormat : context.sourceFormat = some (resolveSourceFormat run.filePath)
  source : context.text = none ∨ context.text = sourceText external run
  contentHash : context.contentHash = none ∨
    context.contentHash = (sourceText external run).map external.generateHash
  text : 0 < done → ∃ source, sourceText external run = some source ∧ context.text = some source ∧
    (run.rawText = none → lookupDuplicate db run (external.generateHash source) = none)
  cleanedText : 1 < done → ∃ source, sourceText external run = some source ∧
    context.cleanedText = some (external.normalize source)
  rawExtraction : 2 < done → ∃ raw, llmOutput external run db = some raw ∧
    context.rawExtraction = some (seenRaw failures raw)
  extraction : 3 < done → ∃ raw extraction, llmOutput external run db = some raw ∧
    modelValidate external.casefold (validatedRaw failures raw) = .ok extraction ∧
    context.extraction = some (seenExtraction external failures extraction)
  skillMatches : 4 < done → ∃ raw extraction, llmOutput external run db = some raw ∧
    modelValidate external.casefold (validatedRaw failures raw) = .ok extraction ∧
    context.skillMatches = some (seenMatches failures
      (matchesOf external (normalizedExtraction external failures extraction)))
  jdId : context.jdId = none

-- What the stage at a position adds to the context.
def Made (context : JDProcessingContext) : ℕ → Prop
  | 0 => ∃ source, sourceText external run = some source ∧ context.text = some source ∧
      (run.rawText = none → lookupDuplicate db run (external.generateHash source) = none)
  | 1 => ∃ source, sourceText external run = some source ∧
      context.cleanedText = some (external.normalize source)
  | 2 => ∃ raw, llmOutput external run db = some raw ∧
      context.rawExtraction = some (seenRaw failures raw)
  | 3 => ∃ raw extraction, llmOutput external run db = some raw ∧
      modelValidate external.casefold (validatedRaw failures raw) = .ok extraction ∧
      context.extraction = some (seenExtraction external failures extraction)
  | 4 => ∃ raw extraction, llmOutput external run db = some raw ∧
      modelValidate external.casefold (validatedRaw failures raw) = .ok extraction ∧
      context.skillMatches = some (seenMatches failures
        (matchesOf external (normalizedExtraction external failures extraction)))
  | _ => True

theorem reached_initial : Reached external run db [] 0 (initialContext run) where
  submission := rfl
  sourceFormat := rfl
  source := .inl rfl
  contentHash := .inl rfl
  text := by omega
  cleanedText := by omega
  rawExtraction := by omega
  extraction := by omega
  skillMatches := by omega
  jdId := rfl

variable {external run db failures}

theorem Reached.mono {done less : ℕ} {context : JDProcessingContext}
    (h : Reached external run db failures done context) (hle : less ≤ done) :
    Reached external run db failures less context where
  submission := h.submission
  sourceFormat := h.sourceFormat
  source := h.source
  contentHash := h.contentHash
  text := fun hlt => h.text (by omega)
  cleanedText := fun hlt => h.cleanedText (by omega)
  rawExtraction := fun hlt => h.rawExtraction (by omega)
  extraction := fun hlt => h.extraction (by omega)
  skillMatches := fun hlt => h.skillMatches (by omega)
  jdId := h.jdId

theorem Reached.succ {done : ℕ} {context : JDProcessingContext}
    (h : Reached external run db failures done context)
    (hmade : Made external run db failures context done) :
    Reached external run db failures (done + 1) context := by
  have hup {p : Prop} (k : ℕ) (hold : k < done → p) (hnew : done = k → p) (hlt : k < done + 1) :
      p := (Nat.lt_succ_iff_lt_or_eq.mp hlt).elim hold fun heq => hnew heq.symm
  exact { h with
    text := hup 0 h.text (by rintro rfl; exact hmade)
    cleanedText := hup 1 h.cleanedText (by rintro rfl; exact hmade)
    rawExtraction := hup 2 h.rawExtraction (by rintro rfl; exact hmade)
    extraction := hup 3 h.extraction (by rintro rfl; exact hmade)
    skillMatches := hup 4 h.skillMatches (by rintro rfl; exact hmade) }

theorem afterStage_db (stage : ProcessingStage) (state : PipelineState) :
    (afterStage stage state).db = state.db := by
  unfold afterStage
  split_ifs <;> rfl

theorem Reached.afterStage {done : ℕ} {state : PipelineState} (stage : ProcessingStage)
    (h : Reached external run db failures done state.context) :
    Reached external run db failures done (afterStage stage state).context := by
  unfold JDProcessingPipeline.afterStage
  split_ifs with hraw
  · have hrun : run.rawText = state.context.rawText :=
      congrArg JDSubmission.rawText h.submission.symm
    obtain ⟨given, hgiven⟩ := Option.isSome_iff_exists.mp hraw.2
    have hsource : sourceText external run = state.context.rawText := by
      rw [sourceText, hrun, hgiven]
    exact { h with
      source := .inr hsource.symm
      text := fun hlt => by
        obtain ⟨source, hsome, -, hdup⟩ := h.text hlt
        exact ⟨source, hsome, hsource.symm.trans hsome, hdup⟩ }
  · exact h

end Invariant

theorem perform_preserves (good : PipelineState → Prop) (steps : List StageStep)
    (hsteps : ∀ step ∈ steps, ∀ s s', good s → step s = .ok s' → good s') (state : PipelineState)
    (h : good state) : good (perform steps state).1 := by
  induction steps generalizing state with
  | nil => exact h
  | cons step rest ih =>
    rw [perform]
    cases hstep : step state with
    | error e => exact h
    | ok state' =>
      have hnext := hsteps step List.mem_cons_self state state' h hstep
      exact ih (fun other hother => hsteps other (List.mem_cons_of_mem _ hother)) state' hnext

theorem perform_error (state : PipelineState) (h : (perform steps state).2 ≠ none) :
    ∃ n, (perform steps state).1 = (perform (steps.dropLast.take n) state).1 := by
  induction steps generalizing state with
  | nil => exact absurd rfl h
  | cons step rest ih =>
    cases hstep : step state with
    | error e => exact ⟨0, by simp [perform, hstep]⟩
    | ok state' =>
      rw [perform, hstep] at h
      cases rest with
      | nil => exact absurd rfl h
      | cons second others =>
        obtain ⟨n, hn⟩ := ih state' h
        refine ⟨n + 1, ?_⟩
        rw [perform, hstep, List.dropLast_cons_cons, List.take_succ_cons, perform, hstep]
        exact hn

theorem runStage_failed
    (state state' : PipelineState) (h : runStage fault steps state = .failed state' true) :
    ∃ n, state' = (perform (steps.dropLast.take n) state).1 := by
  have herror (error : StageError) (hperform : perform steps state = (state', some error)) :
      ∃ n, state' = (perform (steps.dropLast.take n) state).1 := by
    obtain ⟨n, hn⟩ := perform_error steps state (by simp [hperform])
    exact ⟨n, by rw [← hn, hperform]⟩
  cases fault with
  | none =>
    simp only [runStage] at h
    split at h
    · simp at h
    · next found error hperform =>
        obtain rfl := (StageOutcome.failed.inj h).1
        exact herror error hperform
  | some fault =>
    cases fault with
    | start => simp [runStage] at h
    | function n =>
      simp only [runStage] at h
      exact ⟨n, (StageOutcome.failed.inj h).1.symm⟩
    | complete =>
      simp only [runStage] at h
      split at h
      · simp at h
      · next found error hperform =>
          obtain rfl := (StageOutcome.failed.inj h).1
          exact herror error hperform

theorem runStage_completed
    (state state' : PipelineState) (h : runStage fault steps state = .completed state') :
    perform steps state = (state', none) := by
  cases fault with
  | none =>
    simp only [runStage] at h
    split at h
    · next found hperform =>
        obtain rfl := StageOutcome.completed.inj h
        exact hperform
    · simp at h
  | some fault =>
    cases fault with
    | start => simp [runStage] at h
    | function n => simp [runStage] at h
    | complete =>
      simp only [runStage] at h
      split at h <;> exact absurd h (by simp)

theorem perform_one (step : StageStep) (state state' : PipelineState) :
    perform [step] state = (state', none) ↔ step state = .ok state' := by
  rw [perform]
  cases step state with
  | ok found => simp [perform]
  | error e => simp

theorem perform_cons (step : StageStep) (rest : List StageStep) (state state' : PipelineState) :
    perform (step :: rest) state = (state', none) ↔
      ∃ mid, step state = .ok mid ∧ perform rest mid = (state', none) := by
  rw [perform]
  cases step state with
  | ok found => simp
  | error e => simp

section Stages

variable {external : ExternalStages} {run : JDSubmission} {db : JdDatabase}
variable {failures : List ProcessingStage}

theorem Reached.hashText {done : ℕ} {state state' : PipelineState}
    (h : Reached external run db failures done state.context)
    (hstep : hashText external state = .ok state') :
    Reached external run db failures done state'.context ∧ state'.db = state.db ∧
      state'.context.text = state.context.text ∧ state'.context.contentHash =
        (sourceText external run).map external.generateHash := by
  unfold JDProcessingPipeline.hashText at hstep
  split_ifs at hstep with hnone
  · cases htext : state.context.text with
    | none => simp [htext] at hstep
    | some given =>
      rw [htext] at hstep
      cases hstep
      have hsource : sourceText external run = some given := by
        rcases h.source with hmissing | hsource
        · exact absurd (htext.symm.trans hmissing) (by simp)
        · rw [← hsource, htext]
      have hhash : some (external.generateHash given) =
          (sourceText external run).map external.generateHash := by
        rw [hsource, Option.map_some]
      exact ⟨{ h with contentHash := .inr hhash }, rfl, htext, hhash⟩
  · cases hstep
    exact ⟨h, rfl, rfl, h.contentHash.resolve_left hnone⟩

theorem Reached.runTextExtraction {state state' : PipelineState}
    (h : Reached external run db failures 0 state.context) (hraw : run.rawText = none)
    (hstep : runTextExtraction external state = .ok state') :
    Reached external run db failures 0 state'.context ∧ state'.db = state.db ∧
      ∃ source, state'.context.text = some source ∧ sourceText external run = some source := by
  have hpath : state.context.filePath = run.filePath := congrArg JDSubmission.filePath h.submission
  unfold JDProcessingPipeline.runTextExtraction at hstep
  rw [h.sourceFormat, hpath] at hstep
  cases hfile : run.filePath with
  | none => simp [hfile] at hstep
  | some path =>
    rw [hfile] at hstep
    cases hstep
    have hsource : sourceText external run =
        some (external.extractText path (resolveSourceFormat (some path))) := by
      rw [sourceText, hraw, hfile]
      rfl
    refine ⟨?_, rfl, _, rfl, hsource⟩
    exact { h with source := .inr hsource.symm, text := by omega }

-- The assignments before the last one of a stage.
theorem reached_early (context : JDProcessingContext)
    (hcontext : context.rawText = run.rawText) (step : StageStep)
    (hstep : step ∈ (stageSteps external run context stage).dropLast) (state state' : PipelineState)
    (h : Reached external run db failures (position stage) state.context)
    (hok : step state = .ok state') :
    Reached external run db failures (position stage) state'.context ∧ state'.db = state.db := by
  cases stage with
  | textExtraction =>
    rw [stageSteps, hcontext] at hstep
    split_ifs at hstep with hraw
    · simp at hstep
    · have hnone : run.rawText = none := by simpa using hraw
      have hcases : step = JDProcessingPipeline.runTextExtraction external ∨
          step = JDProcessingPipeline.hashText external := by simpa using hstep
      rcases hcases with rfl | rfl
      · obtain ⟨hreached, hdb, -⟩ := Reached.runTextExtraction h hnone hok
        exact ⟨hreached, hdb⟩
      · obtain ⟨hreached, hdb, -⟩ := h.hashText hok
        exact ⟨hreached, hdb⟩
  | persistence =>
    have hcases : step = JDProcessingPipeline.hashText external := by
      simpa [stageSteps] using hstep
    obtain rfl := hcases
    obtain ⟨hreached, hdb, -⟩ := h.hashText hok
    exact ⟨hreached, hdb⟩
  | _ => simp [stageSteps] at hstep

theorem position_inj (hstage : stage ∈ pipelineStages)
    (f : ProcessingStage) (h : position f = position stage) : f = stage :=
  ((List.idxOf_inj hstage).mp h.symm).symm

theorem not_readBack
    (hlast : ∀ f ∈ failures, position f ≤ position stage) : ¬ReadBack failures stage := by
  rintro ⟨f, hf, hlt⟩
  have hle := hlast f hf
  omega

theorem readBack_iff (before stage : ProcessingStage) (hnext : position stage = position before + 1)
    (hstage : stage ∈ pipelineStages)
    (hlast : ∀ f ∈ failures, position f ≤ position stage) :
    ReadBack failures before ↔ stage ∈ failures := by
  constructor
  · rintro ⟨f, hf, hlt⟩
    have hle := hlast f hf
    have hsame := position_inj stage hstage f (by omega)
    exact hsame ▸ hf
  · intro hmem
    exact ⟨stage, hmem, by omega⟩

theorem reached_textExtraction (state state' : PipelineState)
    (h : Reached external run db failures 0 state.context) (hdb : state.db = db)
    (hok : perform (stageSteps external run state.context .textExtraction) state = (state', none))
    (hdup : raisesDuplicate .textExtraction state' = false) :
    Reached external run db failures 1 state'.context ∧ state'.db = db := by
  have hrawText : state.context.rawText = run.rawText := congrArg JDSubmission.rawText h.submission
  have hpast (context : JDProcessingContext)
      (hcontext : Reached external run db failures 0 context) (source : String)
      (hsource : sourceText external run = some source) (htext : context.text = some source)
      (hfresh : run.rawText = none → lookupDuplicate db run (external.generateHash source) = none) :
      Reached external run db failures 1 context :=
    hcontext.succ ⟨source, hsource, htext, hfresh⟩
  rw [stageSteps, hrawText] at hok
  cases hraw : run.rawText with
  | some given =>
    simp only [hraw, Option.isSome_some, if_true] at hok
    have hstep := (perform_one _ _ _).mp hok
    cases hstep
    have hsource : sourceText external run = some given := by rw [sourceText, hraw]
    have hgiven : state.context.rawText = some given := hrawText.trans hraw
    refine ⟨hpast _ ?_ given hsource hgiven (by simp [hraw]), hdb⟩
    exact { h with
      source := .inr (hgiven.trans hsource.symm)
      text := fun hlt => absurd hlt (by decide) }
  | none =>
    simp only [hraw, Option.isSome_none, Bool.false_eq_true, if_false] at hok
    obtain ⟨first, hfirst, hok⟩ := (perform_cons _ _ _ _).mp hok
    obtain ⟨second, hsecond, hok⟩ := (perform_cons _ _ _ _).mp hok
    have hthird := (perform_one _ _ _).mp hok
    obtain ⟨hreached, hdb₁, source, htext, hsource⟩ := h.runTextExtraction hraw hfirst
    obtain ⟨hreached, hdb₂, htext₂, hhash⟩ := hreached.hashText hsecond
    rw [hsource, Option.map_some] at hhash
    have hdb' : second.db = db := (hdb₂.trans hdb₁).trans hdb
    have hraw' : second.context.rawText = none :=
      (congrArg JDSubmission.rawText hreached.submission).trans hraw
    unfold checkDuplicate at hthird
    rw [hhash] at hthird
    dsimp only at hthird
    split at hthird
    · next hnone =>
        cases hthird
        rw [hdb'] at hnone
        exact ⟨hpast _ { hreached with } source hsource (htext₂.trans htext) fun _ => hnone, hdb'⟩
    · -- a duplicate ends the run
      cases hthird
      simp [raisesDuplicate, hraw'] at hdup

theorem reached_stage (hpersist : stage ≠ .persistence)
    (hstage : stage ∈ pipelineStages) (hlast : ∀ f ∈ failures, position f ≤ position stage)
    (state state' : PipelineState)
    (h : Reached external run db failures (position stage) state.context) (hdb : state.db = db)
    (hok : perform (stageSteps external run state.context stage) state = (state', none))
    (hdup : raisesDuplicate stage state' = false) :
    Reached external run db failures (position stage + 1) state'.context ∧ state'.db = db := by
  cases stage with
  | textExtraction => exact reached_textExtraction state state' h hdb hok hdup
  | textCleaning =>
    have hstep := (perform_one _ _ _).mp hok
    obtain ⟨source, hsource, htext, -⟩ := h.text (by decide)
    unfold runTextCleaning at hstep
    rw [htext] at hstep
    cases hstep
    exact ⟨Reached.succ { h with cleanedText := fun hlt => absurd hlt (by decide) }
      ⟨source, hsource, rfl⟩, hdb⟩
  | aiExtraction =>
    have hstep := (perform_one _ _ _).mp hok
    obtain ⟨source, hsource, hcleaned⟩ := h.cleanedText (by decide)
    have htemplate : state.context.promptTemplateId = run.promptTemplateId :=
      congrArg JDSubmission.promptTemplateId h.submission
    unfold runAiExtraction at hstep
    rw [hdb, htemplate, hcleaned] at hstep
    cases hprompt : db.promptTemplates.find? run.promptTemplateId with
    | none => simp [hprompt] at hstep
    | some prompt =>
      rw [hprompt] at hstep
      cases hstep
      have hraw : llmOutput external run db =
          some (external.extractRaw (external.normalize source) prompt) := by
        rw [llmOutput, hsource, hprompt]
        rfl
      exact ⟨Reached.succ { h with rawExtraction := fun hlt => absurd hlt (by decide) }
        ⟨_, hraw, by rw [seenRaw, if_neg (not_readBack _ hlast)]⟩, hdb⟩
  | jsonValidation =>
    have hstep := (perform_one _ _ _).mp hok
    obtain ⟨raw, hraw, hseen⟩ := h.rawExtraction (by decide)
    have hread := readBack_iff .aiExtraction .jsonValidation (by decide) hstage hlast
    have hgiven : seenRaw failures raw = validatedRaw failures raw := by
      simp only [seenRaw, validatedRaw, hread]
    unfold runJsonValidation at hstep
    rw [hseen, hgiven] at hstep
    dsimp only at hstep
    split at hstep
    · simp at hstep
    · next extraction hvalid =>
        cases hstep
        exact ⟨Reached.succ { h with extraction := fun hlt => absurd hlt (by decide) }
          ⟨raw, extraction, hraw, hvalid, by
            rw [seenExtraction, if_neg (not_readBack _ hlast)]⟩, hdb⟩
  | skillNormalization =>
    have hstep := (perform_one _ _ _).mp hok
    obtain ⟨raw, extraction, hraw, hvalid, hseen⟩ := h.extraction (by decide)
    have hread := readBack_iff .jsonValidation .skillNormalization (by decide) hstage hlast
    have hgiven : seenExtraction external failures extraction =
        normalizedExtraction external failures extraction := by
      simp only [seenExtraction, normalizedExtraction, hread]
    unfold runSkillNormalization at hstep
    rw [hseen, hgiven] at hstep
    cases hstep
    exact ⟨Reached.succ { h with skillMatches := fun hlt => absurd hlt (by decide) }
      ⟨raw, extraction, hraw, hvalid, by
        rw [seenMatches, if_neg (not_readBack _ hlast)]
        rfl⟩, hdb⟩
  | embeddingGeneration =>
    have hstep := (perform_one _ _ _).mp hok
    cases hstep
    exact ⟨Reached.succ { h with } trivial, hdb⟩
  | persistence => exact absurd rfl hpersist
  | _ => exact absurd hstage (by decide)

end Stages

section Checkpoints

variable {external : ExternalStages} {run : JDSubmission} {db : JdDatabase}
variable {failures : List ProcessingStage}

theorem readBack_append (before : ProcessingStage) (hlt : position before < position stage) :
    ReadBack (failures ++ [stage]) before :=
  ⟨stage, List.mem_append_right _ (List.mem_singleton.mpr rfl), hlt⟩

theorem mem_append_ne (other : ProcessingStage) (hne : other ≠ stage) :
    other ∈ failures ++ [stage] ↔ other ∈ failures := by
  simp [hne]

theorem reload_seenExtraction (extraction : JDExtractionResponse)
    (hwell : JDExtractionResponse.WellFormed external.casefold extraction) :
    (seenExtraction external failures extraction).reload external.casefold =
      extraction.reload external.casefold := by
  unfold seenExtraction
  split_ifs
  · exact JDExtractionResponse.reload_reload external.casefold extraction hwell
  · rfl

theorem reached_checkpoint (context restored : JDProcessingContext)
    (h : Reached external run db failures (position stage) context)
    (hrestored : fromDict external.casefold (toDict context).jsonb = .ok restored) :
    Reached external run db (failures ++ [stage]) (position stage) restored := by
  obtain ⟨decoded, hdecoded, hresult⟩ := (bind_eq_ok _ _ _).mp hrestored
  cases hresult
  have hother (other : ProcessingStage) (hlt : position other < position stage) :
      other ∈ failures ++ [stage] ↔ other ∈ failures := by
    apply mem_append_ne
    rintro rfl
    omega
  constructor
  case submission => exact h.submission
  case sourceFormat => exact h.sourceFormat
  case source => exact h.source
  case contentHash => exact h.contentHash
  case text => exact h.text
  case cleanedText => exact h.cleanedText
  case rawExtraction =>
    intro hlt
    obtain ⟨raw, hraw, hseen⟩ := h.rawExtraction hlt
    refine ⟨raw, hraw, ?_⟩
    change context.rawExtraction.map ExtractionData.jsonb = _
    rw [hseen, Option.map_some, seenRaw, seenRaw, if_pos (readBack_append stage .aiExtraction hlt)]
    split_ifs
    · rw [ExtractionData.jsonb_jsonb]
    · rfl
  case extraction =>
    intro hlt
    obtain ⟨raw, extraction, hraw, hvalid, hseen⟩ := h.extraction hlt
    have hwell := wellFormed_modelValidate external.casefold _ _ hvalid
    have hsame : validatedRaw (failures ++ [stage]) raw = validatedRaw failures raw := by
      simp only [validatedRaw, hother .jsonValidation hlt]
    refine ⟨raw, extraction, hraw, hsame.symm ▸ hvalid, ?_⟩
    have hwell' : JDExtractionResponse.WellFormed external.casefold
        (seenExtraction external failures extraction) := by
      unfold seenExtraction
      split_ifs
      · exact JDExtractionResponse.wellFormed_reload external.casefold extraction hwell
      · exact hwell
    have hread := JDExtractionResponse.modelValidate_stored external.casefold _ hwell'
    have hdata : ((toDict context).jsonb).extraction = some
        ((seenExtraction external failures extraction).modelDump.jsonb) := by
      simp only [ContextData.jsonb, toDict, hseen, Option.map_some]
    rw [hdata, extractionFromDict, hread] at hdecoded
    cases hdecoded
    rw [reload_seenExtraction extraction hwell, seenExtraction,
      if_pos (readBack_append stage .jsonValidation hlt)]
  case skillMatches =>
    intro hlt
    obtain ⟨raw, extraction, hraw, hvalid, hseen⟩ := h.skillMatches hlt
    have hsame : validatedRaw (failures ++ [stage]) raw = validatedRaw failures raw := by
      simp only [validatedRaw, hother .jsonValidation (Nat.lt_trans (by decide) hlt)]
    have hsame' : normalizedExtraction external (failures ++ [stage]) extraction =
        normalizedExtraction external failures extraction := by
      simp only [normalizedExtraction, hother .skillNormalization hlt]
    refine ⟨raw, extraction, hraw, hsame.symm ▸ hvalid, ?_⟩
    change some (((context.skillMatches.getD []).map matchToDict).map matchFromDict) = _
    rw [hsame', hseen, Option.getD_some, List.map_map]
    change some (List.map storedMatch _) = _
    rw [seenMatches, seenMatches, if_pos (readBack_append stage .skillNormalization hlt)]
    split_ifs
    · rw [List.map_map]
      rfl
    · rfl
  case jdId => exact h.jdId

theorem shouldSkipStage_iff (point stage : ProcessingStage) (hpoint : point ∈ pipelineStages)
    (hstage : stage ∈ pipelineStages) :
    shouldSkipStage (some point) stage = true ↔ position stage < position point := by
  have hall : ∀ point ∈ pipelineStages, ∀ stage ∈ pipelineStages,
      (shouldSkipStage (some point) stage = true ↔ position stage < position point) := by decide
  exact hall point hpoint stage hstage

-- Where an attempt starts: from nothing, or at the stage that failed last.
def resumePosition : ℕ := (resumePoint.map position).getD 0

theorem skip_iff (hpoint : ∀ point ∈ resumePoint, point ∈ pipelineStages) (stage : ProcessingStage)
    (hstage : stage ∈ pipelineStages) :
    shouldSkipStage resumePoint stage = true ↔ position stage < resumePosition resumePoint := by
  cases resumePoint with
  | none => simp [shouldSkipStage, resumePosition]
  | some point => exact shouldSkipStage_iff point stage (hpoint point rfl) hstage

def OutcomeReached (external : ExternalStages) (run : JDSubmission) (db : JdDatabase)
    (failures : List ProcessingStage) (start : ℕ) : RunOutcome → Prop
  | .stageFailed stage state true =>
    stage ∈ pipelineStages ∧ start ≤ position stage ∧
      Reached external run db failures (position stage) state.context ∧ state.db = db
  | .finished state =>
    ∃ before, Reached external run db failures 6 before.context ∧ before.db = db ∧
      perform [hashText external, persist] before = (state, none)
  | _ => True

theorem reached_failed (state state' : PipelineState)
    (h : Reached external run db failures (position stage) state.context) (hdb : state.db = db)
    (hfailed : runStage fault (stageSteps external run state.context stage) state =
      .failed state' true) :
    Reached external run db failures (position stage) state'.context ∧ state'.db = db := by
  have hrawText : state.context.rawText = run.rawText := congrArg JDSubmission.rawText h.submission
  obtain ⟨n, rfl⟩ := runStage_failed fault _ state state' hfailed
  apply perform_preserves (fun s => Reached external run db failures (position stage) s.context ∧
    s.db = db)
  · rintro step hstep s s' ⟨hreached, hsdb⟩ hok
    have hmem := List.mem_of_mem_take hstep
    obtain ⟨hnext, hnextDb⟩ :=
      reached_early stage state.context hrawText step hmem s s' hreached hok
    exact ⟨hnext, hnextDb.trans hsdb⟩
  · exact ⟨h, hdb⟩

theorem runStages_reached (fault : Option (ProcessingStage × StageFault))
    (resumePoint : Option ProcessingStage)
    (hpoint : ∀ point ∈ resumePoint, point ∈ pipelineStages)
    (hlast : ∀ f ∈ failures, position f ≤ resumePosition resumePoint)
    (hsixth : resumePosition resumePoint ≤ 6) (stages : List ProcessingStage) (done : ℕ)
    (hstages : stages = pipelineStages.drop done) (hdone : done ≤ 6) (state : PipelineState)
    (h : Reached external run db failures (max done (resumePosition resumePoint)) state.context)
    (hdb : state.db = db) :
    OutcomeReached external run db failures (resumePosition resumePoint)
      (runStages external run fault resumePoint stages state) := by
  induction stages generalizing done state with
  | nil =>
    have hlength := congrArg List.length hstages
    simp [pipelineStages] at hlength
    omega
  | cons stage rest ih =>
    have hget : pipelineStages[done]? = some stage := by
      have hhead := congrArg List.head? hstages
      rw [List.head?_drop] at hhead
      exact hhead.symm
    have hmem : stage ∈ pipelineStages := List.mem_of_getElem? hget
    have hposition : position stage = done := by
      obtain ⟨hlt, heq⟩ := List.getElem?_eq_some_iff.mp hget
      exact heq ▸ List.Nodup.idxOf_getElem (by decide) done hlt
    have hrest : rest = pipelineStages.drop (done + 1) := by
      rw [← List.tail_drop, ← hstages, List.tail_cons]
    have hskip := skip_iff resumePoint hpoint stage hmem
    rw [runStages]
    by_cases hbefore : position stage < resumePosition resumePoint
    · rw [if_pos (hskip.mpr hbefore)]
      have hnext : done + 1 ≤ 6 := by omega
      apply ih (done + 1) hrest hnext _ _ ((afterStage_db stage state).trans hdb)
      apply Reached.afterStage
      exact h.mono (by omega)
    · rw [if_neg fun hskipped => hbefore (hskip.mp hskipped)]
      have hstart : Reached external run db failures (position stage) state.context :=
        h.mono (by omega)
      have hearlier : ∀ f ∈ failures, position f ≤ position stage := by
        intro f hf
        have hle := hlast f hf
        omega
      split
      · next state' recorded hfailed =>
          cases recorded with
          | false => trivial
          | true =>
            obtain ⟨hreached, hdb'⟩ := reached_failed stage _ state state' hstart hdb hfailed
            exact ⟨hmem, by omega, hreached, hdb'⟩
      · next state' hcompleted =>
          have hok := runStage_completed _ _ _ _ hcompleted
          by_cases hfinal : stage = .persistence
          · subst hfinal
            have hnil : rest = [] := by
              rw [hrest, ← hposition]
              rfl
            subst hnil
            have hstays : afterStage .persistence state' = state' := if_neg (by simp)
            simp only [raisesDuplicate, reduceCtorEq, false_and, decide_false,
              Bool.false_eq_true, if_false, runStages, hstays]
            exact ⟨state, hstart, hdb, hok⟩
          · split_ifs with hdup
            · trivial
            · have hdup' : raisesDuplicate stage state' = false := by simpa using hdup
              obtain ⟨hreached, hdb'⟩ := reached_stage stage hfinal hmem hearlier state state'
                hstart hdb hok hdup'
              have hnext : done + 1 ≤ 6 := by
                by_contra hlarge
                have hsix : position stage = 6 := by omega
                exact hfinal (position_inj .persistence (by decide) stage hsix)
              apply ih (done + 1) hrest hnext _ _ ((afterStage_db stage state').trans hdb')
              apply Reached.afterStage
              exact hreached.mono (by omega)

end Checkpoints

section Attempts

variable (external : ExternalStages) (run : JDSubmission) (db : JdDatabase)

-- An attempt whose stage function fails, so that its checkpoint is stored and the
-- task is retried. What it fails at is not restricted.
def FailedAttempt (checkpoint : Option Checkpoint)
    (fault : Option (ProcessingStage × StageFault)) (next : Option Checkpoint) : Prop :=
  ∃ stage state, runAttempt external run db fault checkpoint = .stageFailed stage state true ∧
    next = some (storedCheckpoint stage state)

def failedStages (path : List (Option (ProcessingStage × StageFault) × Option Checkpoint)) :
    List ProcessingStage :=
  path.filterMap fun entry => entry.2.map Checkpoint.failedAtStage

-- The checkpoint that the failures so far have left.
def Resumable (failures : List ProcessingStage) : Option Checkpoint → Prop
  | none => failures = []
  | some checkpoint => checkpoint.failedAtStage ∈ pipelineStages ∧
      (∀ f ∈ failures, position f ≤ position checkpoint.failedAtStage) ∧
      ∀ context, fromDict external.casefold checkpoint.contextData = .ok context →
        Reached external run db failures (position checkpoint.failedAtStage) context

variable {external run db}

theorem position_le_six (stage : ProcessingStage) (h : stage ∈ pipelineStages) :
    position stage ≤ 6 := by
  have hall : ∀ stage ∈ pipelineStages, position stage ≤ 6 := by decide
  exact hall stage h

theorem attempt_reached (failures : List ProcessingStage) (checkpoint : Option Checkpoint)
    (h : Resumable external run db failures checkpoint)
    (fault : Option (ProcessingStage × StageFault)) :
    OutcomeReached external run db failures
      (resumePosition (checkpoint.map Checkpoint.failedAtStage))
      (runAttempt external run db fault checkpoint) := by
  let resumePoint := checkpoint.map Checkpoint.failedAtStage
  have hstart : ∀ context, startContext external run checkpoint = .ok context →
      (∀ point ∈ resumePoint, point ∈ pipelineStages) ∧
      (∀ f ∈ failures, position f ≤ resumePosition resumePoint) ∧
      resumePosition resumePoint ≤ 6 ∧
      Reached external run db failures (resumePosition resumePoint) context := by
    intro context hcontext
    cases checkpoint with
    | none =>
      obtain rfl : failures = [] := h
      cases hcontext
      exact ⟨by simp [resumePoint], by simp, by decide, reached_initial external run db⟩
    | some checkpoint =>
      obtain ⟨hmem, hlast, hreached⟩ := h
      exact ⟨by simpa [resumePoint] using hmem, hlast, position_le_six _ hmem, hreached context hcontext⟩
  rw [runAttempt]
  cases hcontext : startContext external run checkpoint with
  | error message => trivial
  | ok context =>
    obtain ⟨hpoint, hlast, hsix, hreached⟩ := hstart context hcontext
    have houtcome := runStages_reached fault resumePoint hpoint hlast hsix pipelineStages 0 rfl
      (by decide) ⟨context, db⟩ (by simpa using hreached) rfl
    dsimp only
    split
    · next state hfinished =>
        rw [hfinished] at houtcome
        split_ifs
        · trivial
        · exact houtcome
    · exact houtcome

theorem resumable_failed (failures : List ProcessingStage) (checkpoint next : Option Checkpoint)
    (fault : Option (ProcessingStage × StageFault))
    (h : Resumable external run db failures checkpoint)
    (hstep : FailedAttempt external run db checkpoint fault next) :
    ∃ stage, next.map Checkpoint.failedAtStage = some stage ∧
      Resumable external run db (failures ++ [stage]) next := by
  obtain ⟨stage, state, hfailed, rfl⟩ := hstep
  have houtcome := attempt_reached failures checkpoint h fault
  rw [hfailed] at houtcome
  obtain ⟨hmem, hstart, hreached, -⟩ := houtcome
  have hlast : ∀ f ∈ failures, position f ≤ position stage := by
    intro f hf
    cases checkpoint with
    | none =>
      obtain rfl : failures = [] := h
      simp at hf
    | some checkpoint => exact Nat.le_trans (h.2.1 f hf) hstart
  refine ⟨stage, rfl, hmem, ?_, ?_⟩
  · intro f hf
    rcases List.mem_append.mp hf with hf | hf
    · exact hlast f hf
    · exact (List.mem_singleton.mp hf) ▸ Nat.le_refl _
  · intro context hcontext
    exact reached_checkpoint stage state.context context hreached hcontext

theorem resumable_path (path : List (Option (ProcessingStage × StageFault) × Option Checkpoint))
    (checkpoint : Option Checkpoint) (failures : List ProcessingStage)
    (hpath : Path (FailedAttempt external run db) checkpoint path)
    (h : Resumable external run db failures checkpoint) :
    Resumable external run db (failures ++ failedStages path) (final checkpoint path) := by
  induction path generalizing checkpoint failures with
  | nil =>
    rw [failedStages, List.filterMap_nil, List.append_nil]
    exact h
  | cons entry rest ih =>
    rcases entry with ⟨fault, next⟩
    obtain ⟨stage, hstage, hnext⟩ := resumable_failed failures checkpoint next fault h hpath.1
    have hrest := ih next (failures ++ [stage]) hpath.2 hnext
    have hfailed : failedStages ((fault, next) :: rest) = stage :: failedStages rest := by
      simp [failedStages, hstage]
    rw [hfailed, List.append_cons]
    exact hrest

end Attempts

section Persisted

variable (external : ExternalStages) (run : JDSubmission)

def requestOf (source : String) (extraction : JDExtractionResponse)
    (skillMatches : List SkillMatchResult) : PersistRequest :=
  persistRequest run source (external.generateHash source) (resolveSourceFormat run.filePath)
    extraction skillMatches

variable {external run} {db : JdDatabase} {failures : List ProcessingStage}

theorem hashText_ok (state : PipelineState) (source : String)
    (htext : state.context.text = some source) : ∃ mid, hashText external state = .ok mid := by
  unfold hashText
  split_ifs
  · rw [htext]
    exact ⟨_, rfl⟩
  · exact ⟨_, rfl⟩

-- What reaches `persist_processed_jd` after the failures.
theorem request_reached (state : PipelineState)
    (h : Reached external run db failures 6 state.context) (hdb : state.db = db) :
    ∃ source raw extraction mid, sourceText external run = some source ∧
      llmOutput external run db = some raw ∧
      modelValidate external.casefold (validatedRaw failures raw) = .ok extraction ∧
      hashText external state = .ok mid ∧ mid.db = db ∧ mid.context.jdId = none ∧
      contextRequest mid.context = some (requestOf external run source
        (seenExtraction external failures extraction)
        (seenMatches failures (matchesOf external
          (normalizedExtraction external failures extraction)))) := by
  obtain ⟨source, hsource, htext, -⟩ := h.text (by decide)
  obtain ⟨mid, hmid⟩ := @hashText_ok external state source htext
  obtain ⟨hreached, hmidDb, hmidText, hhash⟩ := h.hashText hmid
  obtain ⟨raw, extraction, hraw, hvalid, hseen⟩ := hreached.extraction (by decide)
  obtain ⟨raw', extraction', hraw', hvalid', hmatches⟩ := hreached.skillMatches (by decide)
  cases hraw.symm.trans hraw'
  obtain rfl := Except.ok.inj (hvalid.symm.trans hvalid')
  rw [hsource, Option.map_some] at hhash
  refine ⟨source, raw, extraction, mid, hsource, hraw, hvalid, hmid, hmidDb.trans hdb,
    hreached.jdId, ?_⟩
  rw [contextRequest, hmidText.trans htext, hhash, hreached.sourceFormat, hseen, hmatches,
    hreached.submission]
  rfl

theorem readBack_nil (stage : ProcessingStage) : ¬ReadBack [] stage := by
  rintro ⟨f, hf, -⟩
  simp at hf

theorem textExtraction_progress (state : PipelineState) (source : String)
    (hsource : sourceText external run = some source)
    (hfresh : run.rawText = none → lookupDuplicate db run (external.generateHash source) = none)
    (h : Reached external run db failures 0 state.context) (hdb : state.db = db) :
    ∃ state', perform (stageSteps external run state.context .textExtraction) state =
      (state', none) ∧ raisesDuplicate .textExtraction state' = false := by
  have hrawText : state.context.rawText = run.rawText := congrArg JDSubmission.rawText h.submission
  rw [stageSteps, hrawText]
  cases hgiven : run.rawText with
  | some given =>
    let next : PipelineState :=
      { state with context := { state.context with text := state.context.rawText } }
    refine ⟨next, (perform_one _ _ _).mpr rfl, ?_⟩
    simp [raisesDuplicate, next, hrawText, hgiven]
  | none =>
    obtain ⟨path, hpath⟩ : ∃ path, run.filePath = some path := by
      rw [sourceText, hgiven] at hsource
      obtain ⟨path, hpath, -⟩ := Option.map_eq_some_iff.mp hsource
      exact ⟨path, hpath⟩
    have hcontextPath : state.context.filePath = some path :=
      (congrArg JDSubmission.filePath h.submission).trans hpath
    obtain ⟨first, hfirst⟩ : ∃ first, runTextExtraction external state = .ok first := by
      unfold runTextExtraction
      rw [hcontextPath, h.sourceFormat]
      exact ⟨_, rfl⟩
    obtain ⟨hreached, hdb₁, found, htext, hfound⟩ := h.runTextExtraction hgiven hfirst
    obtain ⟨second, hsecond⟩ := hashText_ok first found htext
    obtain ⟨hreached, hdb₂, -, hhash⟩ := hreached.hashText hsecond
    rw [hsource, Option.map_some] at hhash
    have hdb' : second.db = db := (hdb₂.trans hdb₁).trans hdb
    let third : PipelineState :=
      { second with context := { second.context with isDuplicate := false } }
    have hthird : checkDuplicate run second = .ok third := by
      unfold checkDuplicate
      rw [hhash]
      dsimp only
      rw [hdb', hfresh hgiven]
      rfl
    refine ⟨third, ?_, by simp [raisesDuplicate, third]⟩
    simp only [Option.isSome_none, Bool.false_eq_true, if_false]
    exact (perform_cons _ _ _ _).mpr ⟨first, hfirst, (perform_cons _ _ _ _).mpr
      ⟨second, hsecond, (perform_one _ _ _).mpr hthird⟩⟩

theorem reached_advance (stage : ProcessingStage) (rest : List ProcessingStage)
    (hpersist : stage ≠ .persistence) (hstage : stage ∈ pipelineStages) (state : PipelineState)
    (source : String) (raw : ExtractionData) (extraction : JDExtractionResponse)
    (hsource : sourceText external run = some source)
    (hfresh : run.rawText = none → lookupDuplicate db run (external.generateHash source) = none)
    (hraw : llmOutput external run db = some raw)
    (hvalid : modelValidate external.casefold raw = .ok extraction)
    (h : Reached external run db [] (position stage) state.context) (hdb : state.db = db) :
    ∃ next, Reached external run db [] (position stage + 1) next.context ∧ next.db = db ∧
      runStages external run none none (stage :: rest) state =
        runStages external run none none rest next := by
  have hprogress : ∃ state', perform (stageSteps external run state.context stage) state =
      (state', none) ∧ raisesDuplicate stage state' = false := by
    have hseenRaw (raw : ExtractionData) : seenRaw [] raw = raw := if_neg (readBack_nil _)
    have hseen (extraction : JDExtractionResponse) : seenExtraction external [] extraction =
        extraction := if_neg (readBack_nil _)
    -- a stage of one step, other than the one that may find a duplicate
    have hone (step : StageStep) (hother : stage ≠ .textExtraction)
        (hstep : ∃ state', step state = .ok state') :
        ∃ state', perform [step] state = (state', none) ∧ raisesDuplicate stage state' = false := by
      obtain ⟨state', hstep⟩ := hstep
      exact ⟨state', (perform_one _ _ _).mpr hstep, by simp [raisesDuplicate, hother]⟩
    cases stage with
    | textExtraction => exact textExtraction_progress state source hsource hfresh h hdb
    | textCleaning =>
      obtain ⟨found, -, htext, -⟩ := h.text (by decide)
      apply hone _ (by simp)
      unfold runTextCleaning
      rw [htext]
      exact ⟨_, rfl⟩
    | aiExtraction =>
      obtain ⟨found, -, hcleaned⟩ := h.cleanedText (by decide)
      have htemplate : state.context.promptTemplateId = run.promptTemplateId :=
        congrArg JDSubmission.promptTemplateId h.submission
      obtain ⟨prompt, hprompt⟩ :
          ∃ prompt, db.promptTemplates.find? run.promptTemplateId = some prompt := by
        simp only [llmOutput, Option.bind_eq_bind, Option.bind_eq_some_iff] at hraw
        obtain ⟨-, -, prompt, hprompt, -⟩ := hraw
        exact ⟨prompt, hprompt⟩
      apply hone _ (by simp)
      unfold runAiExtraction
      rw [hdb, htemplate, hprompt, hcleaned]
      exact ⟨_, rfl⟩
    | jsonValidation =>
      obtain ⟨found, hfound, hcontext⟩ := h.rawExtraction (by decide)
      cases hraw.symm.trans hfound
      apply hone _ (by simp)
      unfold runJsonValidation
      rw [hcontext, hseenRaw]
      dsimp only
      rw [hvalid]
      exact ⟨_, rfl⟩
    | skillNormalization =>
      obtain ⟨found, validated, -, -, hcontext⟩ := h.extraction (by decide)
      apply hone _ (by simp)
      unfold runSkillNormalization
      rw [hcontext, hseen]
      exact ⟨_, rfl⟩
    | embeddingGeneration => exact ⟨state, rfl, by simp [raisesDuplicate]⟩
    | persistence => exact absurd rfl hpersist
    | _ => exact absurd hstage (by decide)
  obtain ⟨state', hok, hdup⟩ := hprogress
  obtain ⟨hreached, hdb'⟩ := reached_stage stage hpersist hstage (by simp) state state' h hdb hok
    hdup
  refine ⟨afterStage stage state', hreached.afterStage stage,
    (afterStage_db stage state').trans hdb', ?_⟩
  have hrun : runStage (faultAt none stage) (stageSteps external run state.context stage) state =
      .completed state' := by
    simp only [faultAt, Option.bind_none, runStage, hok]
  rw [runStages, shouldSkipStage, Option.any_none, if_neg (by simp), hrun]
  simp only [hdup, Bool.false_eq_true, if_false]

theorem uninterrupted_run (source : String) (raw : ExtractionData)
    (extraction : JDExtractionResponse) (hsource : sourceText external run = some source)
    (hfresh : run.rawText = none → lookupDuplicate db run (external.generateHash source) = none)
    (hraw : llmOutput external run db = some raw)
    (hvalid : modelValidate external.casefold raw = .ok extraction)
    (result : JdDatabase × Uuid)
    (hpersist : JDService.persistProcessedJd db (requestOf external run source extraction
      (matchesOf external extraction)) = .ok result) :
    ∃ state, runAttempt external run db none none = .finished state ∧ state.db = result.1 ∧
      state.context.jdId = some result.2 := by
  have hadvance := fun stage rest hpersist hstage state h hdb =>
    reached_advance stage rest hpersist hstage state source raw extraction hsource hfresh hraw
      hvalid h hdb
  obtain ⟨s₁, h₁, hdb₁, hrun₁⟩ := hadvance .textExtraction _ (by decide) (by decide)
    ⟨initialContext run, db⟩ (reached_initial external run db) rfl
  obtain ⟨s₂, h₂, hdb₂, hrun₂⟩ := hadvance .textCleaning _ (by decide) (by decide) s₁ h₁ hdb₁
  obtain ⟨s₃, h₃, hdb₃, hrun₃⟩ := hadvance .aiExtraction _ (by decide) (by decide) s₂ h₂ hdb₂
  obtain ⟨s₄, h₄, hdb₄, hrun₄⟩ := hadvance .jsonValidation _ (by decide) (by decide) s₃ h₃ hdb₃
  obtain ⟨s₅, h₅, hdb₅, hrun₅⟩ := hadvance .skillNormalization _ (by decide) (by decide) s₄ h₄ hdb₄
  obtain ⟨s₆, h₆, hdb₆, hrun₆⟩ := hadvance .embeddingGeneration [.persistence] (by decide)
    (by decide) s₅ h₅ hdb₅
  obtain ⟨found, raw', extraction', mid, hfound, hraw', hvalid', hmid, hmidDb, -, hrequest⟩ :=
    request_reached s₆ h₆ hdb₆
  cases hsource.symm.trans hfound
  cases hraw.symm.trans hraw'
  have hsame : validatedRaw [] raw = raw := if_neg (by simp)
  obtain rfl := Except.ok.inj (hvalid.symm.trans (hsame ▸ hvalid'))
  have hseen : seenExtraction external [] extraction = extraction := if_neg (readBack_nil _)
  have hnormalized : normalizedExtraction external [] extraction = extraction := if_neg (by simp)
  have hmatches (skillMatches : List SkillMatchResult) :
      seenMatches [] skillMatches = skillMatches := if_neg (readBack_nil _)
  rw [hseen, hnormalized, hmatches] at hrequest
  let done : PipelineState := ⟨{ mid.context with jdId := some result.2 }, result.1⟩
  have hpersisted : persist mid = .ok done := by
    unfold persist
    rw [hrequest, hmidDb]
    dsimp only
    rw [hpersist]
  have hlast : runStages external run none none [.persistence] s₆ = .finished done := by
    have hok : perform [hashText external, persist] s₆ = (done, none) :=
      (perform_cons _ _ _ _).mpr ⟨mid, hmid, (perform_one _ _ _).mpr hpersisted⟩
    have hrun : runStage (faultAt none .persistence)
        (stageSteps external run s₆.context .persistence) s₆ = .completed done := by
      simp only [faultAt, Option.bind_none, runStage, stageSteps, hok]
    have hstays : afterStage .persistence done = done := if_neg (by simp)
    rw [runStages, shouldSkipStage, Option.any_none, if_neg (by simp), hrun]
    simp only [raisesDuplicate, reduceCtorEq, false_and, decide_false, Bool.false_eq_true,
      if_false, runStages, hstays]
  refine ⟨done, ?_, rfl, rfl⟩
  have hall : runStages external run none none pipelineStages ⟨initialContext run, db⟩ =
      .finished done := by
    rw [pipelineStages, hrun₁, hrun₂, hrun₃, hrun₄, hrun₅, hrun₆, hlast]
  rw [runAttempt]
  simp only [startContext, Option.map_none, hall]
  exact if_neg (by simp [done])

end Persisted

section Comparison

open JDService

theorem deactivateExisting_store (db : JdDatabase) (request : PersistRequest) :
    (deactivateExisting db request).toSkillStore = db.toSkillStore := by
  unfold deactivateExisting
  split <;> rfl

theorem jobDescriptionTable_ext (t t' : JobDescriptionTable) (h : t.versions = t'.versions) :
    t = t' := by
  cases t
  cases t'
  subst h
  rfl

theorem persistRow_eq (request : PersistRequest) (columns : RequiredColumns)
    (extraction : JDExtractionResponse) (skillMatches : List SkillMatchResult) (id : Uuid) :
    persistRow request columns id = persistRow { request with
        extraction := extraction
        skillMatches := skillMatches } columns id ↔
      request.extraction = extraction ∧
        verification request.skillMatches = verification skillMatches := by
  constructor
  · intro h
    exact ⟨congrArg JobDescription.extractedJson h, congrArg JobDescription.isVerified h⟩
  · rintro ⟨hextraction, hverification⟩
    unfold persistRow
    rw [← hextraction, hverification]

-- Two requests that differ in the extraction and the matches only: both are accepted or
-- neither is, and the tables tell them apart by these alone.
theorem persistProcessedJd_differ (db db₁ : JdDatabase) (request : PersistRequest) (id : Uuid)
    (extraction : JDExtractionResponse) (skillMatches : List SkillMatchResult)
    (h : persistProcessedJd db request = .ok (db₁, id)) :
    ∃ db₂, persistProcessedJd db { request with
        extraction := extraction
        skillMatches := skillMatches } = .ok (db₂, id) ∧
      (db₁ = db₂ ↔ request.extraction = extraction ∧
        verification request.skillMatches = verification skillMatches ∧
        persistSkills db.toSkillStore id request.skillMatches =
          persistSkills db.toSkillStore id skillMatches) := by
  obtain ⟨checked, hchecks, hwrites⟩ := (bind_eq_ok _ _ _).mp h
  simp only [persistWrites, bind_eq_ok] at hwrites
  obtain ⟨columns, hcolumns, created, hcreate, hresult⟩ := hwrites
  obtain ⟨table, hinsert, hcreated⟩ := JDRepository.createJobDescription_eq_ok _ _ _ _ hcreate
  obtain ⟨hunique, hversions, hid⟩ := JobDescriptionTable.insert_eq_ok _ _ _ _ hinsert
  obtain ⟨hdb₁, rfl⟩ := Prod.mk.inj (Except.ok.inj hresult)
  let other : PersistRequest :=
    { request with extraction := extraction, skillMatches := skillMatches }
  let base := deactivateExisting db request
  obtain ⟨table', hinsert'⟩ := JobDescriptionTable.insert_of_unique base.jobDescriptions
    (persistRow other columns) (fun _ => rfl) hunique
  obtain ⟨-, hversions', -⟩ := JobDescriptionTable.insert_eq_ok _ _ _ _ hinsert'
  rw [← hid] at hinsert'
  let db₂ := withSkills { base with jobDescriptions := table' } created.2 skillMatches
  have hok : persistProcessedJd db other = .ok (db₂, created.2) := by
    apply (bind_eq_ok _ _ _).mpr ⟨checked, hchecks, ?_⟩
    simp only [persistWrites, bind_eq_ok]
    exact ⟨columns, hcolumns, _, JDRepository.createJobDescription_of_insert base _ _ _ _ hinsert',
      rfl⟩
  refine ⟨db₂, hok, ?_⟩
  have hstore := deactivateExisting_store db request
  rw [← hdb₁, hcreated]
  constructor
  · intro heq
    have htables : table.versions.rows = table'.versions.rows :=
      congrArg (fun d : JdDatabase => d.jobDescriptions.versions.rows) heq
    have hstores := congrArg JdDatabase.toSkillStore heq
    have hrows := congrArg Table.rows hversions
    have hrows' := congrArg Table.rows hversions'
    have happended := hrows.symm.trans (htables.trans hrows')
    have hrow := List.singleton_inj.mp (List.append_cancel_left happended)
    obtain ⟨hextraction, hverification⟩ :=
      (persistRow_eq request columns extraction skillMatches _).mp hrow
    refine ⟨hextraction, hverification, ?_⟩
    rw [← hstore]
    exact hstores
  · rintro ⟨hextraction, hverification, hskills⟩
    have hrow : persistRow other columns = persistRow request columns := by
      funext id
      exact ((persistRow_eq request columns extraction skillMatches id).mpr
        ⟨hextraction, hverification⟩).symm
    have htable : table = table' := by
      apply jobDescriptionTable_ext
      rw [hversions, hversions']
      simp only [hrow]
      rfl
    rw [← hstore] at hskills
    rw [htable]
    simp only [withSkills, db₂, base]
    rw [hskills]

variable (external : ExternalStages) (db : JdDatabase)

-- When a run that failed at these stages persists what a run without them does: the
-- order of the LLM's aliases does not matter if the validation read it back, no skill
-- is another's alias if a validated extraction was read back, and nothing that the
-- skill tables take from the matches is missing if they were.
def KeepsMeaning (raw : ExtractionData) (extraction : JDExtractionResponse)
    (failures : List ProcessingStage) : Prop :=
  (.jsonValidation ∈ failures →
    (modelValidate external.casefold raw.jsonb).map jsonb = .ok extraction.jsonb) ∧
  (ReadBack failures .jsonValidation → extraction.NoSkillIsAlias external.casefold) ∧
  (ReadBack failures .skillNormalization →
    SurviveStorage db.toSkillStore (matchesOf external extraction))

variable {external db} {failures : List ProcessingStage}

theorem noSkillIsAlias_jsonb (extraction : JDExtractionResponse) :
    extraction.jsonb.NoSkillIsAlias external.casefold ↔
      extraction.NoSkillIsAlias external.casefold := by
  unfold JDExtractionResponse.NoSkillIsAlias
  simp only [JDExtractionResponse.isAlias_jsonb]
  rfl

theorem seenExtraction_eq_iff (extraction given : JDExtractionResponse)
    (hwell : JDExtractionResponse.WellFormed external.casefold given)
    (hnames : given.allSkillNames = extraction.allSkillNames) :
    (seenExtraction external failures given).jsonb = extraction.jsonb ↔
      given.jsonb = extraction.jsonb ∧
        (ReadBack failures .jsonValidation → extraction.NoSkillIsAlias external.casefold) := by
  unfold seenExtraction
  split_ifs with hread
  · rw [JDExtractionResponse.jsonb_reload]
    constructor
    · intro heq
      have hkept : (given.reload external.casefold).allSkillNames = given.allSkillNames := by
        rw [heq, hnames]
        rfl
      have hnone := JDExtractionResponse.noSkillIsAlias_of_reload external.casefold given hkept
      have hsame := (reload_of_noSkillIsAlias external.casefold given hwell hnone).symm.trans heq
      refine ⟨hsame, fun _ => ?_⟩
      rw [← noSkillIsAlias_jsonb, ← hsame, noSkillIsAlias_jsonb]
      exact hnone
    · rintro ⟨hsame, hnone⟩
      have hgiven : given.NoSkillIsAlias external.casefold := by
        rw [← noSkillIsAlias_jsonb, hsame, noSkillIsAlias_jsonb]
        exact hnone hread
      rw [reload_of_noSkillIsAlias external.casefold given hwell hgiven, hsame]
  · simp [hread]

theorem matchesOf_jsonb (extraction : JDExtractionResponse)
    (hwell : JDExtractionResponse.WellFormed external.casefold extraction) :
    matchesOf external extraction.jsonb = matchesOf external extraction := by
  obtain ⟨hrequired, hpreferred⟩ :=
    JDExtractionResponse.skillSpecs_jsonb external.casefold extraction hwell
  rw [matchesOf, matchesOf, hrequired, hpreferred]

theorem matchesOf_normalizedExtraction (extraction given : JDExtractionResponse)
    (hwell : JDExtractionResponse.WellFormed external.casefold extraction)
    (hgiven : JDExtractionResponse.WellFormed external.casefold given)
    (hsame : given.jsonb = extraction.jsonb)
    (hnone : .skillNormalization ∈ failures → extraction.NoSkillIsAlias external.casefold) :
    matchesOf external (normalizedExtraction external failures given) =
      matchesOf external extraction := by
  have hmatches : matchesOf external given = matchesOf external extraction := by
    rw [← matchesOf_jsonb given hgiven, hsame, matchesOf_jsonb extraction hwell]
  unfold normalizedExtraction
  split_ifs with hfailed
  · have hapart : given.NoSkillIsAlias external.casefold := by
      rw [← noSkillIsAlias_jsonb, hsame, noSkillIsAlias_jsonb]
      exact hnone hfailed
    rw [reload_of_noSkillIsAlias external.casefold given hgiven hapart,
      matchesOf_jsonb given hgiven, hmatches]
  · exact hmatches

theorem verification_seenMatches (skillMatches : List SkillMatchResult) :
    verification (seenMatches failures skillMatches) = verification skillMatches := by
  unfold seenMatches
  split_ifs
  · rw [verification, verification, List.all_map]
    rfl
  · rfl

theorem persistSkills_seenMatches (extraction : JDExtractionResponse) (id : Uuid) :
    persistSkills db.toSkillStore id (seenMatches failures (matchesOf external extraction)) =
        persistSkills db.toSkillStore id (matchesOf external extraction) ↔
      (ReadBack failures .skillNormalization →
        SurviveStorage db.toSkillStore (matchesOf external extraction)) := by
  unfold seenMatches
  split_ifs with hread
  · rw [persistSkills_storedMatch id db.toSkillStore (matchesOf external extraction)
      (fun rawText => (external.catalog rawText).normalizedText)
      (SkillNormalizationService.normalizeSkills_text external.catalog _ _)]
    simp [hread]
  · simp [hread]

theorem keepsMeaning_iff (raw : ExtractionData) (extraction given : JDExtractionResponse)
    (id : Uuid)
    (hvalid : modelValidate external.casefold raw = .ok extraction)
    (hgiven : modelValidate external.casefold (validatedRaw failures raw) = .ok given) :
    ((seenExtraction external failures given).jsonb = extraction.jsonb ∧
      verification (seenMatches failures
          (matchesOf external (normalizedExtraction external failures given))) =
        verification (matchesOf external extraction) ∧
      persistSkills db.toSkillStore id (seenMatches failures
          (matchesOf external (normalizedExtraction external failures given))) =
        persistSkills db.toSkillStore id (matchesOf external extraction)) ↔
      KeepsMeaning external db raw extraction failures := by
  have hwell := wellFormed_modelValidate external.casefold _ _ hvalid
  have hwell' := wellFormed_modelValidate external.casefold _ _ hgiven
  have horder : (.jsonValidation ∈ failures → (modelValidate external.casefold raw.jsonb).map
        jsonb = .ok extraction.jsonb) ↔ given.jsonb = extraction.jsonb := by
    by_cases hfailed : .jsonValidation ∈ failures
    · rw [validatedRaw, if_pos hfailed] at hgiven
      rw [hgiven]
      simp [hfailed, Except.map]
    · rw [validatedRaw, if_neg hfailed, hvalid] at hgiven
      cases hgiven
      simp [hfailed]
  have hnames : given.allSkillNames = extraction.allSkillNames := by
    by_cases hfailed : .jsonValidation ∈ failures
    · rw [validatedRaw, if_pos hfailed] at hgiven
      exact JDExtractionResponse.allSkillNames_modelValidate_jsonb external.casefold raw _ _ hvalid
        hgiven
    · rw [validatedRaw, if_neg hfailed, hvalid] at hgiven
      exact congrArg _ (Except.ok.inj hgiven).symm
  have hearlier (hfailed : .skillNormalization ∈ failures) : ReadBack failures .jsonValidation :=
    ⟨.skillNormalization, hfailed, by decide⟩
  rw [seenExtraction_eq_iff extraction given hwell' hnames, KeepsMeaning, horder, and_assoc]
  apply and_congr_right
  intro hsame
  apply and_congr_right
  intro hnone
  rw [matchesOf_normalizedExtraction extraction given hwell hwell' hsame
    fun hfailed => hnone (hearlier hfailed), verification_seenMatches,
    and_iff_right rfl, persistSkills_seenMatches]

end Comparison

section Resumed

variable {external : ExternalStages} {run : JDSubmission} {db : JdDatabase}

theorem finished_jdId (fault : Option (ProcessingStage × StageFault))
    (checkpoint : Option Checkpoint) (state : PipelineState)
    (h : runAttempt external run db fault checkpoint = .finished state) :
    ¬(state.context.jdId = none ∧ state.context.duplicateJdInfo.isSome = true) := by
  unfold runAttempt at h
  split at h
  · simp at h
  · split at h
    · split_ifs at h with hduplicate
      obtain rfl := RunOutcome.finished.inj h
      exact hduplicate
    · next hother => exact absurd h (hother state)

theorem persist_created (state done : PipelineState) (request : PersistRequest)
    (hrequest : contextRequest state.context = some request) (hjdId : state.context.jdId = none)
    (h : persist state = .ok done)
    (hdone : ¬(done.context.jdId = none ∧ done.context.duplicateJdInfo.isSome = true)) :
    ∃ id, JDService.persistProcessedJd state.db request = .ok (done.db, id) ∧
      done.context.jdId = some id := by
  unfold persist at h
  rw [hrequest] at h
  dsimp only at h
  split at h
  · next created id hcreated =>
      cases h
      exact ⟨id, hcreated, rfl⟩
  · cases h
    exact absurd ⟨hjdId, rfl⟩ hdone
  · simp at h

-- A run that succeeds after failures persists what a run without failures does
-- exactly when nothing that its checkpoints forget or change is needed.
theorem resume_transparent_iff (external : ExternalStages) (run : JDSubmission) (db : JdDatabase)
    (path : List (Option (ProcessingStage × StageFault) × Option Checkpoint))
    (hpath : Path (FailedAttempt external run db) none path) (state : PipelineState)
    (hrun : runAttempt external run db none (final none path) = .finished state) :
    ∃ raw extraction uninterrupted, llmOutput external run db = some raw ∧
      modelValidate external.casefold raw = .ok extraction ∧
      runAttempt external run db none none = .finished uninterrupted ∧
      uninterrupted.context.jdId = state.context.jdId ∧
      (state.db = uninterrupted.db ↔
        KeepsMeaning external db raw extraction (failedStages path)) := by
  have hresumable := resumable_path path none [] hpath rfl
  rw [List.nil_append] at hresumable
  have houtcome := attempt_reached _ _ hresumable none
  rw [hrun] at houtcome
  obtain ⟨before, hreached, hdb, hperform⟩ := houtcome
  obtain ⟨source, raw, given, mid, hsource, hraw, hgiven, hmid, hmidDb, hmidJd, hrequest⟩ :=
    request_reached before hreached hdb
  obtain ⟨found, hfound, hpersist⟩ := (perform_cons _ _ _ _).mp hperform
  obtain rfl := Except.ok.inj (hmid.symm.trans hfound)
  obtain ⟨id, hcreated, hid⟩ := persist_created mid state _ hrequest hmidJd
    ((perform_one _ _ _).mp hpersist) (finished_jdId none _ state hrun)
  rw [hmidDb] at hcreated
  -- the LLM's output is valid in any key order
  obtain ⟨extraction, hvalid⟩ : ∃ extraction,
      modelValidate external.casefold raw = .ok extraction := by
    unfold validatedRaw at hgiven
    split_ifs at hgiven
    · exact (JDExtractionResponse.exists_modelValidate_jsonb external.casefold raw).mp
        ⟨given, hgiven⟩
    · exact ⟨given, hgiven⟩
  obtain ⟨db₂, hok, hiff⟩ := persistProcessedJd_differ db state.db _ id extraction.jsonb
    (matchesOf external extraction) hcreated
  obtain ⟨source', hsource', -, hfresh⟩ := hreached.text (by decide)
  cases hsource.symm.trans hsource'
  obtain ⟨uninterrupted, huninterrupted, hudb, huid⟩ :=
    uninterrupted_run source raw extraction hsource hfresh hraw hvalid (db₂, id) hok
  refine ⟨raw, extraction, uninterrupted, hraw, hvalid, huninterrupted, huid.trans hid.symm, ?_⟩
  rw [hudb, hiff]
  exact keepsMeaning_iff raw extraction given id hvalid hgiven

end Resumed

section Example

def pythonStages : ExternalStages where
  casefold := id
  extractText := fun _ _ => ""
  normalize := id
  extractRaw := fun _ _ => { JDExtractionResponse.empty.modelDump with
    requiredSkills := .lists ⟨["python"], []⟩ }
  catalog := fun name => ⟨some 0, .exact, some 1, name⟩
  generateHash := id

def engineer : JDSubmission where
  taskId := "task"
  title := some "Engineer"
  jurisdiction := some "IN"
  minExperienceYears := some 1
  maxExperienceYears := some 5
  noticePeriod := some 30
  educationCriteria := some ⟨none, none⟩
  createdBy := "hr"
  filePath := none
  originalFilename := none
  rawText := some "python engineer"
  promptTemplateId := 0
  existingJdId := none
  versionNumber := 1
  parentJdId := none
  lineageRootId := none

def nextCheckpoint (checkpoint : Option Checkpoint)
    (fault : Option (ProcessingStage × StageFault)) : Option (Option Checkpoint) :=
  match runAttempt pythonStages engineer emptyDb fault checkpoint with
  | .stageFailed stage state true => some (some (storedCheckpoint stage state))
  | _ => none

def failedAt :
    List (Option (ProcessingStage × StageFault) × Option Checkpoint) :=
  execute nextCheckpoint none [some (stage, .function 0)]

theorem failedAt_path :
    Path (FailedAttempt pythonStages engineer emptyDb) none (failedAt stage) := by
  apply execute_path
  intro checkpoint fault next h
  unfold nextCheckpoint at h
  split at h
  · next failed state hfailed => exact ⟨failed, state, hfailed, (Option.some.inj h).symm⟩
  · simp at h

def importances : RunOutcome → Option (List (Option JDSkillImportance))
  | .finished state => some (state.db.jdSkills.rows.map (·.importance))
  | _ => none

theorem finished_of_importances (outcome : RunOutcome) (found : List (Option JDSkillImportance))
    (h : importances outcome = some found) :
    ∃ state, outcome = .finished state ∧ state.db.jdSkills.rows.map (·.importance) = found := by
  cases outcome with
  | finished state => exact ⟨state, rfl, Option.some.inj h⟩
  | _ => simp [importances] at h

set_option maxRecDepth 4000 in
theorem resume_transparent_cleaning : ∃ state uninterrupted,
    runAttempt pythonStages engineer emptyDb none
        (final none (failedAt .textCleaning)) = .finished state ∧
      runAttempt pythonStages engineer emptyDb none none = .finished uninterrupted ∧
      state.db = uninterrupted.db := by
  obtain ⟨state, hrun, -⟩ := finished_of_importances (runAttempt pythonStages engineer
    emptyDb none (final none (failedAt .textCleaning))) [some .core] (by decide)
  obtain ⟨raw, extraction, uninterrupted, -, -, huninterrupted, -, hiff⟩ :=
    resume_transparent_iff pythonStages engineer emptyDb (failedAt .textCleaning)
      (failedAt_path .textCleaning) state hrun
  have hstages : failedStages (failedAt .textCleaning) = [.textCleaning] := by decide
  refine ⟨state, uninterrupted, hrun, huninterrupted, hiff.mpr ?_⟩
  rw [hstages]
  exact ⟨fun h => absurd h (by decide), fun h => absurd h (by decide),
    fun h => absurd h (by decide)⟩

set_option maxRecDepth 4000 in
-- One failure of the embedding, and the core skill has no importance any more.
theorem embedding_retry_loses_importance :
    ¬∀ (external : ExternalStages) (run : JDSubmission) (db : JdDatabase)
      (path : List (Option (ProcessingStage × StageFault) × Option Checkpoint))
      (state uninterrupted : PipelineState),
      Path (FailedAttempt external run db) none path →
        runAttempt external run db none (final none path) = .finished state →
        runAttempt external run db none none = .finished uninterrupted →
        state.db = uninterrupted.db := by
  intro h
  obtain ⟨state, hrun, hlost⟩ := finished_of_importances (runAttempt pythonStages engineer
    emptyDb none (final none (failedAt .embeddingGeneration))) [none] (by decide)
  obtain ⟨uninterrupted, huninterrupted, hkept⟩ := finished_of_importances (runAttempt pythonStages
    engineer emptyDb none none) [some .core] (by decide)
  have hsame := h pythonStages engineer emptyDb (failedAt .embeddingGeneration) state
    uninterrupted (failedAt_path .embeddingGeneration) hrun huninterrupted
  rw [hsame, hkept] at hlost
  exact absurd hlost (by decide)

end Example

end JDResume

end AiHiring
