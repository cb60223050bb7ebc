import AiHiring.Jd.Replay

namespace AiHiring

open JDProcessingPipeline StageExecutionService JDExtractionResponse
open ContextSerializer (fromDict extractionFromDict toDict)

namespace JDRetry

-- The keyword arguments of `process_jd_document`; the pipeline gets all but the last.
structure ProcessKwargs extends JDSubmission where
  oldFilePath : Option String := none

-- `old_file_path` is no key of what is dispatched.
def dispatchKwargs (casefold : String → String) (taskId : String) (checkpoint : Checkpoint) :
    Except RetryError ProcessKwargs :=
  (buildDispatchKwargs casefold taskId checkpoint).map fun submission =>
    { toJDSubmission := submission }

def isGiven (value : Option String) : Bool := value.any (· ≠ "")

def supersededFile (kwargs : ProcessKwargs) : Option String :=
  if kwargs.existingJdId.isSome ∧ isGiven kwargs.filePath ∧ isGiven kwargs.oldFilePath then
    kwargs.oldFilePath
  else none

-- What a run that succeeds leaves: the rows, the document of the task log, whose
-- embedding is queued, the summary, and the file it deletes.
structure Effects where
  db : JdDatabase
  jdId : Option Uuid
  summary : String
  deletedFile : Option String

def successSummary (kwargs : ProcessKwargs) (jdId : Option Uuid) : String :=
  let id := (jdId.map text).getD "None"
  if kwargs.existingJdId.isSome then s!"JD {id} reprocessed." else s!"JD {id} created."

-- One delivery of the message: the rows it finds, which others may have written since
-- the last one, what the services answer, and where it fails.
structure Delivery where
  external : ExternalStages
  db : JdDatabase
  attempt : RetryDriver.Attempt

section Task

variable (casefold : String → String) (kwargs : ProcessKwargs)

def Delivery.stages (d : Delivery) : ExternalStages := { d.external with casefold := casefold }

def deliver (w : RetryDriver.TaskRun) (d : Delivery) : RetryDriver.TaskRun :=
  RetryDriver.deliver (d.stages casefold) kwargs.toJDSubmission { w with db := d.db } d.attempt

def attempted (db : JdDatabase) (deliveries : List Delivery) : RetryDriver.TaskRun :=
  deliveries.foldl (deliver casefold kwargs) (RetryDriver.submitted db)

def effects (w : RetryDriver.TaskRun) (d : Delivery) : Option Effects :=
  if w.scheduled then
    match runAttempt (d.stages casefold) kwargs.toJDSubmission d.db d.attempt.fault
        w.checkpoint with
    | .finished state =>
      some ⟨state.db, state.context.jdId, successSummary kwargs state.context.jdId,
        supersededFile kwargs⟩
    | _ => none
  else none

-- The replay dispatches what was submitted, and does what the submission would have done.
def Reconstructs (checkpoint : Checkpoint) : Prop :=
  ∃ replayed, dispatchKwargs casefold kwargs.taskId checkpoint = .ok replayed ∧ replayed = kwargs ∧
    ∀ db deliveries last,
      effects casefold replayed (attempted casefold replayed db deliveries) last =
        effects casefold kwargs (attempted casefold kwargs db deliveries) last

end Task

section Kept

-- What every stage leaves alone, and what makes the context readable once it is stored.
structure Keeps (casefold : String → String) (run : JDSubmission)
    (context : JDProcessingContext) : Prop where
  submission : context.toJDSubmission = run
  wellFormed : ∀ extraction, context.extraction = some extraction → WellFormed casefold extraction

variable {casefold : String → String} {run : JDSubmission} {external : ExternalStages}
  {state state' : PipelineState}

theorem keeps_initialContext : Keeps casefold run (initialContext run) :=
  ⟨rfl, fun _ h => absurd h (by simp [initialContext])⟩

theorem Keeps.assign {context : JDProcessingContext} (h : Keeps casefold run state.context)
    (hassign : JDProcessingPipeline.assign state context = .ok state')
    (hsubmission : context.toJDSubmission = state.context.toJDSubmission)
    (hextraction : context.extraction = state.context.extraction) :
    Keeps casefold run state'.context := by
  cases hassign
  exact ⟨hsubmission.trans h.submission, fun extraction heq =>
    h.wellFormed extraction (hextraction ▸ heq)⟩

variable (external) in
theorem keeps_textExtraction (h : Keeps casefold run state.context) :
    (∀ s, runTextExtractionFromRawText state = .ok s → Keeps casefold run s.context) ∧
      (∀ s, runTextExtraction external state = .ok s → Keeps casefold run s.context) ∧
      (∀ s, hashText external state = .ok s → Keeps casefold run s.context) ∧
      ∀ s, checkDuplicate run state = .ok s → Keeps casefold run s.context := by
  refine ⟨fun s hs => h.assign hs rfl rfl, fun s hs => ?_, fun s hs => ?_, fun s hs => ?_⟩
  · unfold runTextExtraction at hs
    split at hs
    · exact h.assign hs rfl rfl
    · simp at hs
  · unfold hashText at hs
    split_ifs at hs
    · split at hs
      · exact h.assign hs rfl rfl
      · simp at hs
    · exact Except.ok.inj hs ▸ h
  · unfold checkDuplicate at hs
    split at hs
    · simp at hs
    · split at hs
      · exact h.assign hs rfl rfl
      · exact h.assign hs rfl rfl

theorem keeps_runJsonValidation (hcasefold : external.casefold = casefold)
    (h : Keeps casefold run state.context) (hok : runJsonValidation external state = .ok state') :
    Keeps casefold run state'.context := by
  unfold runJsonValidation at hok
  split at hok
  · simp at hok
  · next raw hraw =>
      split at hok
      · simp at hok
      · next extraction hvalid =>
          cases hok
          refine ⟨h.submission, fun found hfound => ?_⟩
          cases hfound
          rw [hcasefold] at hvalid
          exact wellFormed_modelValidate casefold raw extraction hvalid

theorem keeps_persist (h : Keeps casefold run state.context)
    (hok : persist state = .ok state') : Keeps casefold run state'.context := by
  unfold persist at hok
  split at hok
  · simp at hok
  · split at hok
    · cases hok
      exact ⟨h.submission, h.wellFormed⟩
    · exact h.assign hok rfl rfl
    · simp at hok

theorem keeps_step (hcasefold : external.casefold = casefold) (context : JDProcessingContext)
    (stage : ProcessingStage) (step : StageStep)
    (hmem : step ∈ stageSteps external run context stage) (s s' : PipelineState)
    (h : Keeps casefold run s.context) (hok : step s = .ok s') :
    Keeps casefold run s'.context := by
  obtain ⟨hrawText, hextract, hhash, hduplicate⟩ :=
    keeps_textExtraction external h
  cases stage with
  | textExtraction =>
    rw [stageSteps] at hmem
    split_ifs at hmem
    · obtain rfl := List.mem_singleton.mp hmem
      exact hrawText s' hok
    · simp only [List.mem_cons, List.not_mem_nil, or_false] at hmem
      rcases hmem with rfl | rfl | rfl
      · exact hextract s' hok
      · exact hhash s' hok
      · exact hduplicate s' hok
  | textCleaning =>
    obtain rfl := List.mem_singleton.mp hmem
    unfold runTextCleaning at hok
    split at hok
    · exact h.assign hok rfl rfl
    · simp at hok
  | aiExtraction =>
    obtain rfl := List.mem_singleton.mp hmem
    unfold runAiExtraction at hok
    split at hok
    · simp at hok
    · split at hok
      · exact h.assign hok rfl rfl
      · simp at hok
  | jsonValidation =>
    obtain rfl := List.mem_singleton.mp hmem
    exact keeps_runJsonValidation hcasefold h hok
  | skillNormalization =>
    obtain rfl := List.mem_singleton.mp hmem
    unfold runSkillNormalization at hok
    split at hok
    · simp at hok
    · exact h.assign hok rfl rfl
  | embeddingGeneration =>
    obtain rfl := List.mem_singleton.mp hmem
    exact Except.ok.inj hok ▸ h
  | persistence =>
    simp only [stageSteps, List.mem_cons, List.not_mem_nil, or_false] at hmem
    rcases hmem with rfl | rfl
    · exact hhash s' hok
    · exact keeps_persist h hok
  | _ => simp [stageSteps] at hmem

theorem keeps_perform (hcasefold : external.casefold = casefold) (context : JDProcessingContext)
    (stage : ProcessingStage) (steps : List StageStep)
    (hsteps : ∀ step ∈ steps, step ∈ stageSteps external run context stage)
    (h : Keeps casefold run state.context) :
    Keeps casefold run (perform steps state).1.context :=
  JDResume.perform_preserves (fun s => Keeps casefold run s.context) steps
    (fun step hstep s s' hs hok =>
      keeps_step hcasefold context stage step (hsteps step hstep) s s' hs hok) state h

def StageOutcome.Keeps (casefold : String → String) (run : JDSubmission) : StageOutcome → Prop
  | .completed state => JDRetry.Keeps casefold run state.context
  | .failed state _ => JDRetry.Keeps casefold run state.context

theorem keeps_runStage (hcasefold : external.casefold = casefold) (fault : Option StageFault)
    (stage : ProcessingStage) (h : Keeps casefold run state.context) :
    StageOutcome.Keeps casefold run
      (runStage fault (stageSteps external run state.context stage) state) := by
  have hall := keeps_perform hcasefold state.context stage _ (fun _ hstep => hstep) h
  unfold runStage
  split
  · exact h
  · next assignments =>
      refine keeps_perform hcasefold state.context stage _ (fun step hstep => ?_) h
      exact List.dropLast_subset _ (List.mem_of_mem_take hstep)
  · split
    · next hperform => rw [hperform] at hall; exact hall
    · next hperform => rw [hperform] at hall; exact hall
  · split
    · next hperform => rw [hperform] at hall; exact hall
    · next hperform => rw [hperform] at hall; exact hall

theorem keeps_afterStage (stage : ProcessingStage) (h : Keeps casefold run state.context) :
    Keeps casefold run (afterStage stage state).context := by
  unfold afterStage
  split_ifs
  · exact ⟨h.submission, h.wellFormed⟩
  · exact h

theorem keeps_runStages (hcasefold : external.casefold = casefold)
    (fault : Option (ProcessingStage × StageFault)) (resumePoint : Option ProcessingStage)
    (stages : List ProcessingStage) (h : Keeps casefold run state.context)
    (stage : ProcessingStage) (failed : PipelineState) (recorded : Bool)
    (hfailed : runStages external run fault resumePoint stages state =
      .stageFailed stage failed recorded) : Keeps casefold run failed.context := by
  induction stages generalizing state with
  | nil => simp [runStages] at hfailed
  | cons first rest ih =>
    have hfirst := keeps_runStage hcasefold (faultAt fault first) first h
    rw [runStages] at hfailed
    split_ifs at hfailed with hskip
    · exact ih (keeps_afterStage first h) hfailed
    · split at hfailed
      · next state' recorded' houtcome =>
          obtain ⟨-, rfl, -⟩ := RunOutcome.stageFailed.inj hfailed
          rw [houtcome] at hfirst
          exact hfirst
      · next state' houtcome =>
          rw [houtcome] at hfirst
          split_ifs at hfailed
          exact ih (keeps_afterStage first hfirst) hfailed

-- A checkpoint that can be read back, with the submission in it.
def Restores (casefold : String → String) (run : JDSubmission) (checkpoint : Checkpoint) : Prop :=
  ∃ context, fromDict casefold checkpoint.contextData = .ok context ∧ Keeps casefold run context

theorem fromDict_of_extraction (casefold : String → String) (data : ContextData)
    (extraction : Option JDExtractionResponse)
    (h : extractionFromDict casefold data.extraction = .ok extraction) :
    ∃ context, fromDict casefold data = .ok context ∧
      context.toJDSubmission = data.toJDSubmission ∧ context.extraction = extraction := by
  rw [fromDict, h]
  exact ⟨_, rfl, rfl, rfl⟩

theorem restores_stored (stage : ProcessingStage) (h : Keeps casefold run state.context) :
    Restores casefold run (storedCheckpoint stage state) := by
  cases hextraction : state.context.extraction with
  | none =>
    obtain ⟨context, hread, hsubmission, hnone⟩ := fromDict_of_extraction casefold
      (storedCheckpoint stage state).contextData none (by
        simp [storedCheckpoint, ContextData.jsonb, toDict, hextraction, extractionFromDict])
    refine ⟨context, hread, hsubmission.trans h.submission, fun found hfound => ?_⟩
    exact absurd (hnone.symm.trans hfound) (by simp)
  | some extraction =>
    have hwell := h.wellFormed extraction hextraction
    obtain ⟨context, hread, hsubmission, hreload⟩ := fromDict_of_extraction casefold
      (storedCheckpoint stage state).contextData
      (some (extraction.reload casefold)) (by
        simp [storedCheckpoint, ContextData.jsonb, toDict, hextraction,
          extractionFromDict, modelValidate_stored casefold extraction hwell,
          Except.map])
    refine ⟨context, hread, hsubmission.trans h.submission, fun found hfound => ?_⟩
    cases hreload.symm.trans hfound
    exact wellFormed_reload casefold extraction hwell

theorem keeps_startContext (checkpoint : Option Checkpoint)
    (hcasefold : external.casefold = casefold)
    (h : ∀ stored, checkpoint = some stored → Restores casefold run stored)
    (context : JDProcessingContext) (hstart : startContext external run checkpoint = .ok context) :
    Keeps casefold run context := by
  cases checkpoint with
  | none => exact Except.ok.inj hstart ▸ keeps_initialContext
  | some stored =>
    obtain ⟨restored, hread, hkeeps⟩ := h stored rfl
    rw [startContext, hcasefold, hread] at hstart
    exact Except.ok.inj hstart ▸ hkeeps

theorem keeps_runAttempt (hcasefold : external.casefold = casefold) (db : JdDatabase)
    (fault : Option (ProcessingStage × StageFault)) (checkpoint : Option Checkpoint)
    (h : ∀ stored, checkpoint = some stored → Restores casefold run stored)
    (stage : ProcessingStage) (failed : PipelineState) (recorded : Bool)
    (hfailed : runAttempt external run db fault checkpoint = .stageFailed stage failed recorded) :
    Keeps casefold run failed.context := by
  rw [runAttempt] at hfailed
  cases hstart : startContext external run checkpoint with
  | error message =>
    rw [hstart] at hfailed
    simp at hfailed
  | ok context =>
    rw [hstart] at hfailed
    have hkeeps : Keeps casefold run context :=
      keeps_startContext checkpoint hcasefold h context hstart
    dsimp only at hfailed
    split at hfailed
    · split_ifs at hfailed
    · have hstate : Keeps casefold run (⟨context, db⟩ : PipelineState).context := hkeeps
      exact keeps_runStages hcasefold fault _ pipelineStages hstate stage failed recorded hfailed

end Kept

section Attempts

variable {casefold : String → String} {kwargs : ProcessKwargs}

theorem handleFailure_checkpoint {w w' : RetryDriver.TaskRun} {stage : ProcessingStage}
    {a : RetryDriver.Attempt} {retried : Bool}
    (h : RetryDriver.handleFailure w stage a = (w', retried)) :
    w'.checkpoint = w.checkpoint := by
  obtain rfl : (RetryDriver.handleFailure w stage a).1 = w' := congrArg Prod.fst h
  unfold RetryDriver.handleFailure
  dsimp only
  split_ifs <;> rfl

theorem deliver_restores (w : RetryDriver.TaskRun) (d : Delivery)
    (h : ∀ stored, w.checkpoint = some stored → Restores casefold kwargs.toJDSubmission stored)
    (stored : Checkpoint) (hstored : (deliver casefold kwargs w d).checkpoint = some stored) :
    Restores casefold kwargs.toJDSubmission stored := by
  rw [deliver, RetryDriver.deliver] at hstored
  split_ifs at hstored with hscheduled
  · rw [RetryDriver.processJdDocument] at hstored
    dsimp only at hstored
    split at hstored
    · simp at hstored
    · exact h stored hstored
    · exact h stored hstored
    · next stage state recorded hfailed =>
        have hkeeps : Keeps casefold kwargs.toJDSubmission state.context :=
          keeps_runAttempt rfl d.db d.attempt.fault w.checkpoint h stage state recorded hfailed
        have hafter : RetryDriver.afterFailure w.checkpoint stage state recorded = some stored := by
          split at hstored
          · next w' hdriver => exact (handleFailure_checkpoint hdriver).symm.trans hstored
          · next w' hdriver => exact (handleFailure_checkpoint hdriver).symm.trans hstored
        cases recorded with
        | false => exact h stored hafter
        | true => exact Option.some.inj hafter ▸ restores_stored stage hkeeps
  · exact h stored hstored

theorem attempted_restores (db : JdDatabase) (deliveries : List Delivery) (stored : Checkpoint)
    (hstored : (attempted casefold kwargs db deliveries).checkpoint = some stored) :
    Restores casefold kwargs.toJDSubmission stored := by
  induction deliveries using List.reverseRecOn generalizing stored with
  | nil => simp [attempted, RetryDriver.submitted] at hstored
  | append_singleton deliveries d ih =>
    rw [attempted, List.foldl_append, List.foldl_cons, List.foldl_nil] at hstored
    exact deliver_restores _ d ih stored hstored

theorem dispatchKwargs_restores (checkpoint : Checkpoint)
    (h : Restores casefold kwargs.toJDSubmission checkpoint) :
    dispatchKwargs casefold kwargs.taskId checkpoint = .ok { kwargs with oldFilePath := none } := by
  obtain ⟨context, hread, hkeeps⟩ := h
  rw [dispatchKwargs, buildDispatchKwargs, hread]
  dsimp only
  rw [hkeeps.submission]
  rfl

theorem effects_replayed (w : RetryDriver.TaskRun) (d : Delivery) :
    effects casefold { kwargs with oldFilePath := none } w d =
      (effects casefold kwargs w d).map fun e => { e with deletedFile := none } := by
  have hnone : supersededFile { kwargs with oldFilePath := none } = none := by
    simp [supersededFile, isGiven]
  unfold effects
  dsimp only
  split_ifs
  · split
    · rw [hnone]
      rfl
    · rfl
  · rfl

theorem reconstructs_iff (checkpoint : Checkpoint)
    (h : Restores casefold kwargs.toJDSubmission checkpoint) :
    Reconstructs casefold kwargs checkpoint ↔ kwargs.oldFilePath = none := by
  have hdispatch := dispatchKwargs_restores checkpoint h
  constructor
  · rintro ⟨replayed, hreplayed, rfl, -⟩
    rw [hdispatch] at hreplayed
    exact (congrArg ProcessKwargs.oldFilePath (Except.ok.inj hreplayed)).symm
  · intro hnone
    have hsame : { kwargs with oldFilePath := none } = kwargs := by rw [← hnone]
    exact ⟨kwargs, hsame ▸ hdispatch, rfl, fun _ _ _ => rfl⟩

end Attempts

-- Wherever the attempts of a task failed, and whether it is dead-lettered yet or not, what
-- they stored makes a replay of the submission without its old file: that is the original
-- one, and does the same, exactly when there was no old file.
theorem replay_reconstructs (casefold : String → String) (kwargs : ProcessKwargs)
    (db : JdDatabase) (deliveries : List Delivery) (checkpoint : Checkpoint)
    (hstored : (attempted casefold kwargs db deliveries).checkpoint = some checkpoint) :
    (Reconstructs casefold kwargs checkpoint ↔ kwargs.oldFilePath = none) ∧
      dispatchKwargs casefold kwargs.taskId checkpoint = .ok { kwargs with oldFilePath := none } ∧
      ∀ w d, effects casefold { kwargs with oldFilePath := none } w d =
        (effects casefold kwargs w d).map fun e => { e with deletedFile := none } := by
  have hrestores := attempted_restores db deliveries checkpoint hstored
  exact ⟨reconstructs_iff checkpoint hrestores, dispatchKwargs_restores checkpoint hrestores,
    effects_replayed⟩

section Example

open JDResume (pythonStages engineer)

open JdLineage (emptyDb)

def submittedText : ProcessKwargs := { toJDSubmission := engineer }

def served (db : JdDatabase) : Delivery := ⟨pythonStages, db, RetryDriver.getsThrough⟩

def refused (db : JdDatabase) : Delivery :=
  ⟨pythonStages, db, ⟨some (.aiExtraction, .function 0), .permanent, "refused"⟩⟩

def firstVersion : JdDatabase :=
  ((effects id submittedText (RetryDriver.submitted emptyDb) (served emptyDb)).map
    Effects.db).getD emptyDb

def secondUpload : ProcessKwargs where
  toJDSubmission := { engineer with
    rawText := none
    filePath := some "jds/second.pdf"
    existingJdId := some 0
    versionNumber := 2
    parentJdId := some 0
    lineageRootId := some 0 }
  oldFilePath := some "jds/first.pdf"

set_option maxRecDepth 4000 in
theorem replay_reconstructs_text : ∃ checkpoint,
    (attempted id submittedText emptyDb [refused emptyDb]).checkpoint = some checkpoint ∧
      Reconstructs id submittedText checkpoint := by
  obtain ⟨checkpoint, hstored⟩ : ∃ checkpoint,
      (attempted id submittedText emptyDb [refused emptyDb]).checkpoint = some checkpoint :=
    Option.isSome_iff_exists.mp (by decide)
  exact ⟨checkpoint, hstored,
    (replay_reconstructs id submittedText emptyDb _ checkpoint hstored).1.mpr rfl⟩

set_option maxRecDepth 4000 in
-- The extraction of a second document is refused for good; its replay succeeds, as the
-- original would have, and leaves the first document where it is.
theorem first_document_stays :
    (attempted id secondUpload firstVersion [refused firstVersion]).deadLetterQueue.length = 1 ∧
      ∃ checkpoint replayed,
        (attempted id secondUpload firstVersion [refused firstVersion]).checkpoint =
            some checkpoint ∧
          ¬Reconstructs id secondUpload checkpoint ∧
          dispatchKwargs id secondUpload.taskId checkpoint = .ok replayed ∧
          (effects id secondUpload (RetryDriver.submitted firstVersion) (served firstVersion)).map
            Effects.deletedFile = some (some "jds/first.pdf") ∧
          (effects id replayed (RetryDriver.submitted firstVersion) (served firstVersion)).map
            Effects.deletedFile = some none := by
  obtain ⟨checkpoint, hstored⟩ : ∃ checkpoint,
      (attempted id secondUpload firstVersion [refused firstVersion]).checkpoint =
        some checkpoint :=
    Option.isSome_iff_exists.mp (by decide)
  have hrestores := attempted_restores firstVersion _ checkpoint hstored
  refine ⟨by decide, checkpoint, _, hstored, ?_, dispatchKwargs_restores checkpoint hrestores,
    by decide, by decide⟩
  rw [reconstructs_iff checkpoint hrestores]
  exact Option.some_ne_none _

end Example

end JDRetry

end AiHiring
