import AiHiring.Jd.Context
import AiHiring.Jd.Service
import AiHiring.Skills.Normalization

namespace AiHiring

inductive ProcessingStage where
  | validation
  | storage
  | textExtraction
  | textCleaning
  | piiDetection
  | piiRedaction
  | aiExtraction
  | jsonValidation
  | skillNormalization
  | embeddingGeneration
  | persistence
  deriving DecidableEq, Repr

def stageOrder : List ProcessingStage :=
  [.validation, .storage, .textExtraction, .textCleaning, .piiDetection, .piiRedaction,
    .aiExtraction, .jsonValidation, .skillNormalization, .embeddingGeneration, .persistence]

structure Checkpoint where
  failedAtStage : ProcessingStage
  contextData : ContextData

-- What the stages get from outside: each call gives the same result every time.
structure ExternalStages where
  casefold : String → String
  extractText : String → JDSourceFormat → String
  normalize : String → String
  extractRaw : String → PromptTemplate → ExtractionData
  catalog : String → CatalogMatch
  generateHash : String → String

inductive StageError where
  | value (message : String)
  | type (message : String)
  | jd (error : JdError)
  deriving DecidableEq, Repr

structure PipelineState where
  context : JDProcessingContext
  db : JdDatabase

-- Where one run of a stage fails: in the commit of `start_stage`, in the stage
-- function before its next assignment, or in the commit of `complete_stage`.
inductive StageFault where
  | start
  | function (assignments : ℕ)
  | complete
  deriving DecidableEq, Repr

inductive StageOutcome where
  | completed (state : PipelineState)
  | failed (state : PipelineState) (recorded : Bool)

inductive RunOutcome where
  | finished (state : PipelineState)
  | stageFailed (stage : ProcessingStage) (state : PipelineState) (recorded : Bool)
  | duplicate (state : PipelineState)
  | raised (message : String)

abbrev StageStep := PipelineState → Except StageError PipelineState

namespace StageExecutionService

-- The assignments of a stage function in turn; an error keeps what was assigned before it.
def perform : List StageStep → PipelineState → PipelineState × Option StageError
  | [], state => (state, none)
  | step :: rest, state =>
    match step state with
    | .ok state' => perform rest state'
    | .error e => (state, some e)

-- The last assignment ends the function: one that raises has not made it.
def runStage (fault : Option StageFault) (steps : List StageStep) (state : PipelineState) :
    StageOutcome :=
  match fault with
  | some .start => .failed state false
  | some (.function assignments) =>
    .failed (perform (steps.dropLast.take assignments) state).1 true
  | some .complete =>
    match perform steps state with
    | (state', none) => .failed state' false
    | (state', some _) => .failed state' true
  | none =>
    match perform steps state with
    | (state', none) => .completed state'
    | (state', some _) => .failed state' true

end StageExecutionService

namespace JDProcessingPipeline

open StageExecutionService

def stageOrderIndex (stage : ProcessingStage) : ℕ := stageOrder.idxOf stage

def shouldSkipStage (resumePoint : Option ProcessingStage) (stage : ProcessingStage) : Bool :=
  resumePoint.any fun point => stageOrderIndex stage < stageOrderIndex point

def fileExtension (filePath : String) : String :=
  String.ofList ((filePath.toList.reverse.takeWhile (· ≠ '.')).reverse.map Char.toLower)

def resolveSourceFormat (filePath : Option String) : JDSourceFormat :=
  match filePath with
  | none => .text
  | some path => if path = "" then .text else if fileExtension path = "pdf" then .pdf else .docx

section Stages

variable (external : ExternalStages)

def assign (state : PipelineState) (context : JDProcessingContext) : Except StageError PipelineState :=
  .ok { state with context := context }

def runTextExtractionFromRawText (state : PipelineState) : Except StageError PipelineState :=
  assign state { state.context with text := state.context.rawText }

def runTextExtraction (state : PipelineState) : Except StageError PipelineState :=
  match state.context.filePath, state.context.sourceFormat with
  | some path, some format =>
    assign state { state.context with text := some (external.extractText path format) }
  | _, _ => .error (.type "expected str, got NoneType")

def hashText (state : PipelineState) : Except StageError PipelineState :=
  if state.context.contentHash = none then
    match state.context.text with
    | some text =>
      assign state { state.context with contentHash := some (external.generateHash text) }
    | none => .error (.type "expected str, got NoneType")
  else
    .ok state

-- `run` passes its own arguments, not those of the context.
def lookupDuplicate (db : JdDatabase) (run : JDSubmission) (contentHash : String) :
    Option JobDescription :=
  if run.existingJdId.isSome then
    JDRepository.getDuplicateExcludingLineage db contentHash run.lineageRootId
  else
    JDRepository.getByContentHash db contentHash

def duplicateInfo (jd : JobDescription) : DuplicateJDInfo := ⟨jd.id, jd.title, jd.versionNumber⟩

def checkDuplicate (run : JDSubmission) (state : PipelineState) :
    Except StageError PipelineState :=
  match state.context.contentHash with
  | none => .error (.type "expected str, got NoneType")
  | some contentHash =>
    match lookupDuplicate state.db run contentHash with
    | none => assign state { state.context with isDuplicate := false }
    | some duplicate =>
      assign state { state.context with
        isDuplicate := true
        duplicateJdInfo := some (duplicateInfo duplicate) }

def runTextCleaning (state : PipelineState) : Except StageError PipelineState :=
  match state.context.text with
  | some text => assign state { state.context with cleanedText := some (external.normalize text) }
  | none => .error (.type "expected str, got NoneType")

def runAiExtraction (state : PipelineState) : Except StageError PipelineState :=
  match state.db.promptTemplates.find? state.context.promptTemplateId with
  | none => .error (.value
      s!"Prompt template '{text state.context.promptTemplateId}' no longer exists.")
  | some prompt =>
    match state.context.cleanedText with
    | some cleanedText =>
      assign state { state.context with
        rawExtraction := some (external.extractRaw cleanedText prompt) }
    | none => .error (.type "expected str, got NoneType")

def runJsonValidation (state : PipelineState) : Except StageError PipelineState :=
  match state.context.rawExtraction with
  | none => .error (.value "Input should be a valid dictionary")
  | some raw =>
    match JDExtractionResponse.modelValidate external.casefold raw with
    | .error message => .error (.value message)
    | .ok extraction => assign state { state.context with extraction := some extraction }

def runSkillNormalization (state : PipelineState) : Except StageError PipelineState :=
  match state.context.extraction with
  | none => .error (.type "'NoneType' object has no attribute 'required_skill_specs'")
  | some extraction =>
    assign state { state.context with
      skillMatches := some (SkillNormalizationService.normalizeSkills external.catalog
        extraction.requiredSkillSpecs extraction.preferredSkillSpecs) }

-- What it assigns goes to the embeddings alone.
def runEmbeddingGeneration (state : PipelineState) : Except StageError PipelineState := .ok state

-- The JSON columns of the row are JSONB.
def persistRequest (run : JDSubmission) (text contentHash : String)
    (sourceFormat : JDSourceFormat) (extraction : JDExtractionResponse)
    (skillMatches : List SkillMatchResult) : PersistRequest where
  title := run.title
  rawText := text
  jurisdiction := run.jurisdiction
  minExperienceYears := run.minExperienceYears
  maxExperienceYears := run.maxExperienceYears
  noticePeriod := run.noticePeriod
  educationCriteria := run.educationCriteria
  sourceFormat := sourceFormat
  filePath := run.filePath
  originalFilename := run.originalFilename
  createdBy := run.createdBy
  contentHash := contentHash
  promptTemplateId := run.promptTemplateId
  extraction := extraction.jsonb
  skillMatches := skillMatches
  existingJdId := run.existingJdId
  versionNumber := run.versionNumber
  parentJdId := run.parentJdId
  lineageRootId := run.lineageRootId

def contextRequest (context : JDProcessingContext) : Option PersistRequest := do
  let text ← context.text
  let contentHash ← context.contentHash
  let sourceFormat ← context.sourceFormat
  let extraction ← context.extraction
  let skillMatches ← context.skillMatches
  return persistRequest context.toJDSubmission text contentHash sourceFormat extraction skillMatches

-- A duplicate that `persist_processed_jd` finds is not an error of the stage.
def persist (state : PipelineState) : Except StageError PipelineState :=
  match contextRequest state.context with
  | none => .error (.type "expected a value, got NoneType")
  | some request =>
    match JDService.persistProcessedJd state.db request with
    | .ok (db, jdId) => .ok ⟨{ state.context with jdId := some jdId }, db⟩
    | .error (.duplicate id title versionNumber) =>
      assign state { state.context with
        duplicateJdInfo := some ⟨id, title, versionNumber⟩ }
    | .error e => .error (.jd e)

-- The assignments of each stage function.
def stageSteps (run : JDSubmission) (context : JDProcessingContext) :
    ProcessingStage → List StageStep
  | .textExtraction =>
    if context.rawText.isSome then
      [runTextExtractionFromRawText]
    else
      [runTextExtraction external, hashText external, checkDuplicate run]
  | .textCleaning => [runTextCleaning external]
  | .aiExtraction => [runAiExtraction external]
  | .jsonValidation => [runJsonValidation external]
  | .skillNormalization => [runSkillNormalization external]
  | .embeddingGeneration => [runEmbeddingGeneration]
  | .persistence => [hashText external, persist]
  | _ => []

end Stages

def pipelineStages : List ProcessingStage :=
  [.textExtraction, .textCleaning, .aiExtraction, .jsonValidation, .skillNormalization,
    .embeddingGeneration, .persistence]

def faultAt (fault : Option (ProcessingStage × StageFault)) (stage : ProcessingStage) :
    Option StageFault :=
  fault.bind fun entry => if entry.1 = stage then some entry.2 else none

-- The raw-text branch sets the text again, whether its first stage ran or not.
def afterStage (stage : ProcessingStage) (state : PipelineState) : PipelineState :=
  if stage = .textExtraction ∧ state.context.rawText.isSome then
    { state with context := { state.context with text := state.context.rawText } }
  else
    state

def raisesDuplicate (stage : ProcessingStage) (state : PipelineState) : Bool :=
  stage = .textExtraction ∧ state.context.rawText = none ∧ state.context.isDuplicate

section Run

variable (external : ExternalStages) (run : JDSubmission)

def runStages (fault : Option (ProcessingStage × StageFault))
    (resumePoint : Option ProcessingStage) : List ProcessingStage → PipelineState → RunOutcome
  | [], state => .finished state
  | stage :: rest, state =>
    if shouldSkipStage resumePoint stage then
      runStages fault resumePoint rest (afterStage stage state)
    else
      match runStage (faultAt fault stage) (stageSteps external run state.context stage)
          state with
      | .failed state' recorded => .stageFailed stage state' recorded
      | .completed state' =>
        if raisesDuplicate stage state' then
          .duplicate state'
        else
          runStages fault resumePoint rest (afterStage stage state')

def initialContext : JDProcessingContext :=
  { toJDSubmission := run, sourceFormat := some (resolveSourceFormat run.filePath) }

def startContext : Option Checkpoint → Except String JDProcessingContext
  | none => .ok (initialContext run)
  | some checkpoint => ContextSerializer.fromDict external.casefold checkpoint.contextData

def runAttempt (db : JdDatabase) (fault : Option (ProcessingStage × StageFault))
    (checkpoint : Option Checkpoint) : RunOutcome :=
  match startContext external run checkpoint with
  | .error message => .raised message
  | .ok context =>
    match runStages external run fault (checkpoint.map Checkpoint.failedAtStage)
        pipelineStages ⟨context, db⟩ with
    | .finished state =>
      if state.context.jdId = none ∧ state.context.duplicateJdInfo.isSome then
        .duplicate state
      else
        .finished state
    | outcome => outcome

-- What a failing stage leaves for the next attempt, once `to_dict` is stored.
def storedCheckpoint (stage : ProcessingStage) (state : PipelineState) : Checkpoint :=
  ⟨stage, (ContextSerializer.toDict state.context).jsonb⟩

end Run

end JDProcessingPipeline

inductive FailureClassification where
  | transient
  | permanent
  | unknown
  deriving DecidableEq, Repr

namespace RetryDriver

-- `STAGE_POLICIES`, or the default policy.
def maxAttempts : ProcessingStage → ℕ
  | .aiExtraction => 5
  | _ => 3

-- The failure goes to the dead letter queue; any other one is retried.
def givesUp (stage : ProcessingStage) (classification : FailureClassification)
    (attemptNumber : ℕ) : Bool :=
  classification = .permanent ∨ maxAttempts stage ≤ attemptNumber

end RetryDriver

end AiHiring
