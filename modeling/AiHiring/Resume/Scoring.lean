import AiHiring.Library.Crew
import AiHiring.Resume.Intake

namespace AiHiring

open Library Transaction ResumeRepository

namespace ResumeService

def parserVersion : String := "gemini-resume-extraction-v1"

-- What `persist_processed_resume` leaves in the resumes row.
def updateParsedResult (db : ResumeDb) (resumeId : Uuid) : ResumeDb :=
  { db with
    resumes := db.resumes.modify (fun r => if r.id = resumeId then
        { r with parseStatus := .parsed, parserVersion := some parserVersion } else r)
      (fun r => by split_ifs <;> rfl) }

end ResumeService

def deterministicScoreTaskType : String := "DETERMINISTIC_SCORE"
def skillNormalizeTaskType : String := "SKILL_NORMALIZE"

def processingKey (resumeId : Uuid) : String :=
  s!"{resumeDocumentProcessingTaskType}:{text resumeId}"

def scoringKey (campaignCandidateId resumeId : Uuid) : String :=
  s!"{deterministicScoreTaskType}:{text campaignCandidateId}:{text resumeId}"

namespace ResumeTaskLogRepository

def createLog (db : ResumeDb) (taskId taskType : String) (idempotencyKey : Option String)
    (resumeId campaignCandidateId : Option Uuid) : ResumeDb :=
  { db with
    taskLogs := db.taskLogs.insert
      (newLog taskId taskType idempotencyKey resumeId campaignCandidateId) fun _ => rfl }

end ResumeTaskLogRepository

namespace TalentPoolService

-- The resume chosen for one candidate, with what the audit entry says of the choice.
structure Selection where
  (candidateId resumeId : Uuid)
  selectionMethod : String
  eligibleResumeCount : ℕ

structure AddRequest where
  campaignId : Uuid
  actorId : String
  actorRole : Option String

-- What `_is_eligible` asks of the resumes row; the embedding and the age of the
-- resume narrow the choice further.
def Eligible (db : ResumeDb) (s : Selection) : Prop :=
  ∃ resume, getById db s.resumeId = some resume ∧ resume.candidateId = s.candidateId ∧
    resume.parseStatus = .parsed

def link (request : AddRequest) (db : ResumeDb) (s : Selection) : ResumeDb :=
  let id := db.campaignCandidates.next
  { db with
    toDb :=
      let linked := { db.toDb with
        campaignCandidates := db.campaignCandidates.insert
          (CampaignCandidateService.newCandidate request.campaignId s.candidateId s.resumeId)
          fun _ => rfl }
      let linked := CampaignCandidateRepository.createStageHistory linked id .uploaded none none
        none .system none none
      AuditService.log linked (some request.actorId) request.actorRole .candidateAdded
        .campaignCandidate id (some request.campaignId)
        (some [("candidate_id", .str (text s.candidateId)), ("resume_id", .str (text s.resumeId)),
          ("pipeline_stage", .str PipelineStage.uploaded.value), ("source", .str "TALENT_POOL"),
          ("selection_method", .str s.selectionMethod),
          ("selected_resume_id", .str (text s.resumeId)),
          ("eligible_resume_count", .num s.eligibleResumeCount)]) }

-- The candidates that get in, one commit for all of them. The campaign row is
-- locked, so what was read of its candidates still holds.
structure Admits (db : ResumeDb) (request : AddRequest) (selections : List Selection) : Prop where
  active : ∃ campaign, CampaignRepository.getById db.toDb request.campaignId = some campaign ∧
    campaign.status = .active
  distinct : (selections.map (·.candidateId)).Nodup
  unlinked : ∀ s ∈ selections, CampaignCandidateRepository.getByCampaignAndCandidate db
    request.campaignId s.candidateId = none
  eligible : ∀ s ∈ selections, Eligible db s

def addCandidates (request : AddRequest) (db : ResumeDb) (selections : List Selection) :
    ResumeDb :=
  selections.foldl (link request) db

-- The campaign_candidates that `addCandidates` makes, each with its resume.
def added (db : ResumeDb) (selections : List Selection) : List (Uuid × Uuid) :=
  (List.range' db.campaignCandidates.next selections.length).zip (selections.map (·.resumeId))

def isOutdated (resume : ResumeRow) : Bool :=
  resume.parserVersion ≠ some ResumeService.parserVersion

end TalentPoolService

-- A bulk file on its way through `parse_bulk_upload_file`.
structure BulkFile extends BulkResume where
  campaignId : Uuid

-- What is under way, each by what it has still to do.
inductive Activity where
  -- upload_resume: the checks are done, the resume is to be stored, for the
  -- candidate of a matched file or for the form's
  | storing (request : IntakeRequest) (fileFormat : FileFormat) (matched : Option Uuid)
  | linkingUpload (request : IntakeRequest) (resume : ResumeRow)
  | queueing (request : IntakeRequest) (resume : ResumeRow)
  -- process_resume_document, sent to the broker
  | processing (resumeId : Uuid)
  -- the parse is committed; first the screening moves
  | moving (resumeId : Uuid)
  | screening (resumeId : Uuid) (rest : List Uuid)
  -- parse_bulk_upload_file, past the duplicate check
  | extracting (file : BulkFile)
  | parsing (file : BulkFile) (resume : ResumeRow)
  | linkingParsed (file : BulkFile) (resume : ResumeRow)
  | duplicate (file : BulkFile) (matched : ResumeRow)
  -- _enqueue_deterministic_scoring: before its list is read, with candidates
  -- left, and between the look-up of a key and the insert
  | parsed (resumeId : Uuid)
  | scoring (resumeId : Uuid) (rest : List Uuid)
  | creating (resumeId campaignCandidateId : Uuid) (rest : List Uuid)
  -- _queue_evaluation_tasks for each new link in turn
  | evaluating (rest : List (Uuid × Uuid))
  | reparsing (resumeId : Uuid) (rest : List (Uuid × Uuid))
  | done

-- What becomes of an activity: the database it commits, what it has left to
-- do, and the message it sends.
structure Advance where
  db : ResumeDb
  next : Activity
  sent : Option Activity

namespace Activity

open ResumeTaskLogRepository CampaignCandidateRepository

def goOn (db : ResumeDb) (next : Activity) : Advance := ⟨db, next, none⟩

def resolveCandidate (emailHash : String) : Option Uuid → ResumeM Uuid
  | some candidateId => pure candidateId
  | none => do
    let candidate ← CandidateService.getOrCreate emailHash
    pure candidate.id

-- `upload`, once the duplicate check has been made.
def storeResume (request : IntakeRequest) (fileFormat : FileFormat) (matched : Option Uuid) :
    ResumeM ResumeRow := do
  let objectPath ← ResumeM.ofExcept request.file.objectPath
  let candidateId ← resolveCandidate request.emailHash matched
  ResumeUploadService.createNextVersion candidateId objectPath fileFormat request.toUploadRequest

def checkUpload (request : IntakeRequest) : ResumeM Activity := do
  ResumeIntakeService.precheckCampaignEligibility request.campaignId
  ResumeIntakeService.checkNoExistingCampaignMembership request.campaignId request.emailHash
  let fileFormat ← ResumeM.ofExcept request.file.fileFormat
  match ← query (getByFileHashGlobal · request.file.fileHash) with
  | none => pure (storing request fileFormat none)
  | some matched =>
    match request.resolution with
    | none => raise (.duplicateFile matched.id)
    | some .uploadAnyway => pure (storing request fileFormat (some matched.candidateId))
    | some .useExisting => do
      -- flushed, and never committed
      let _ ← ResumeIntakeService.createCampaignCandidate request.campaignId
        matched.candidateId matched.id request.uploadedBy request.actorRole
      pure done

def linkUpload (request : IntakeRequest) (resume : ResumeRow) : ResumeM Activity := do
  let _ ← ResumeIntakeService.createCampaignCandidate request.campaignId resume.candidateId
    resume.id request.uploadedBy request.actorRole
  flush (ResumeIntakeService.logUploaded request resume)
  commitAs .link
  pure (queueing request resume)

-- A request that raises is over; what it has committed stays.
def ofRequest (db : ResumeDb) (p : ResumeM Activity) : Advance :=
  match (p.normal db).result with
  | .ok next => goOn ((p.normal db).committed db) next
  | .error _ => goOn ((p.normal db).committed db) done

-- A task that raises does not succeed.
def ofTask (db : ResumeDb) (p : ResumeM Activity) : Option Advance :=
  match (p.normal db).result with
  | .ok next => some (goOn ((p.normal db).committed db) next)
  | .error _ => none

-- The broker takes the message.
def queueUpload (db : ResumeDb) (request : IntakeRequest) (resume : ResumeRow) : Advance where
  db := ((ResumeIntakeService.queueProcessing { request with dispatch := none }
    resume).normal db).committed db
  next := done
  sent :=
    if (getByIdempotencyKey db (processingKey resume.id)).isNone then
      some (processing resume.id)
    else none

def linkParsed (file : BulkFile) (resume : ResumeRow) : ResumeM Activity := do
  let _ ← ResumeIntakeService.createCampaignCandidate file.campaignId resume.candidateId resume.id
    file.uploadedBy none
  commitAs .link
  pure (parsed resume.id)

def extract (file : BulkFile) : ResumeM Activity := do
  let resume ← createBulkResume file.toBulkResume
  pure (parsing file resume)

-- The duplicate branch: a link, and no task for it.
def linkDuplicate (file : BulkFile) (matched : ResumeRow) : ResumeM Activity := do
  match ← query (getByCampaignAndCandidate · file.campaignId matched.candidateId) with
  | some _ => pure done
  | none => do
    let _ ← ResumeIntakeService.createCampaignCandidate file.campaignId matched.candidateId
      matched.id file.uploadedBy none
    commitAs .link
    pure done

def moveToScreening (table : TransitionTable) (now : Instant) (db : ResumeDb)
    (campaignCandidateId : Uuid) : ResumeDb :=
  match CampaignCandidateRepository.getById db.toDb campaignCandidateId with
  | none => db
  | some cc =>
    match CampaignRepository.getById db.toDb cc.campaignId with
    | none => db
    | some campaign =>
      if campaign.status ∉ scoreableCampaignStatuses then db
      else { db with
        toDb := (StageTransitionService.transitionToScreening table db.toDb cc now).1 }

-- One commit further, under a fresh task id; `none` when there is nothing left
-- to do or the task would not succeed.
def advance (table : TransitionTable) (taskId : String) (now : Instant) (db : ResumeDb) :
    Activity → Option Advance
  | storing request fileFormat matched => some <| ofRequest db do
      let resume ← storeResume request fileFormat matched
      pure (linkingUpload request resume)
  | linkingUpload request resume => some (ofRequest db (linkUpload request resume))
  | queueing request resume => some (queueUpload db request resume)
  | processing resumeId =>
    match getById db resumeId with
    | none => none
    | some _ => some (goOn (ResumeService.updateParsedResult db resumeId) (moving resumeId))
  | moving resumeId =>
    some (goOn db (screening resumeId ((getByResumeId db resumeId).map (·.id))))
  | screening resumeId [] => some (goOn db (parsed resumeId))
  | screening resumeId (cc :: rest) =>
    some (goOn (moveToScreening table now db cc) (screening resumeId rest))
  | extracting file => ofTask db (extract file)
  | parsing file resume =>
    some (goOn (ResumeService.updateParsedResult db resume.id) (linkingParsed file resume))
  | linkingParsed file resume => ofTask db (linkParsed file resume)
  | duplicate file matched => ofTask db (linkDuplicate file matched)
  | parsed resumeId =>
    some (goOn db (scoring resumeId ((getByResumeId db resumeId).map (·.id))))
  | scoring _ [] => some (goOn db done)
  | scoring resumeId (cc :: rest) =>
    if (getByIdempotencyKey db (scoringKey cc resumeId)).isSome then
      some (goOn db (scoring resumeId rest))
    else some (goOn db (creating resumeId cc rest))
  | creating resumeId cc rest =>
    -- the unique index raises out of the whole function
    if (getByIdempotencyKey db (scoringKey cc resumeId)).isSome then some (goOn db done)
    else some (goOn (createLog db taskId deterministicScoreTaskType (some (scoringKey cc resumeId))
        (some resumeId) (some cc))
      (scoring resumeId rest))
  | evaluating [] => some (goOn db done)
  | evaluating ((cc, resumeId) :: rest) =>
    match getById db resumeId with
    | none => none
    | some resume =>
      if TalentPoolService.isOutdated resume then
        some (goOn (setTaskId resumeId taskId db) (reparsing resumeId rest))
      else some (goOn (createLog db taskId skillNormalizeTaskType none none (some cc))
        (evaluating rest))
  | reparsing resumeId rest =>
    if (getByIdempotencyKey db (processingKey resumeId)).isSome then
      some (goOn db (evaluating rest))
    else some
      { db := createLog db taskId resumeDocumentProcessingTaskType
          (some (processingKey resumeId)) (some resumeId) none
        next := evaluating rest
        sent := some (processing resumeId) }
  | done => none

end Activity

-- The committed database and what is under way on it.
structure ScoringWorld where
  db : ResumeDb
  activities : List Activity

inductive ScoringAction where
  | uploadResume (request : IntakeRequest)
  | parseBulkFile (file : BulkFile)
  | addCandidates (request : TalentPoolService.AddRequest)
      (selections : List TalentPoolService.Selection)
  | advance (index : ℕ) (taskId : String) (now : Instant)

namespace ScoringWorld

open Activity

def checkFile (db : ResumeDb) (file : BulkFile) : Activity :=
  match getByFileHashGlobal db file.fileHash with
  | none => extracting file
  | some matched => duplicate file matched

def Step (table : TransitionTable) (w : ScoringWorld) : ScoringAction → ScoringWorld → Prop
  | .uploadResume request, w' =>
    w' = ⟨(ofRequest w.db (checkUpload request)).db,
      w.activities ++ [(ofRequest w.db (checkUpload request)).next]⟩
  | .parseBulkFile file, w' => w' = ⟨w.db, w.activities ++ [checkFile w.db file]⟩
  | .addCandidates request selections, w' =>
    TalentPoolService.Admits w.db request selections ∧
      w' = ⟨TalentPoolService.addCandidates request w.db selections,
        w.activities ++ [evaluating (TalentPoolService.added w.db selections)]⟩
  | .advance index taskId now, w' =>
    ∃ a made, w.activities[index]? = some a ∧ a.advance table taskId now w.db = some made ∧
      w' = ⟨made.db, w.activities.set index made.next ++ made.sent.toList⟩

def Quiet (w : ScoringWorld) : Prop := ∀ a ∈ w.activities, a = .done

-- Every linked candidate whose resume is parsed has its scoring task.
def Scored (db : ResumeDb) : Prop :=
  ∀ cc ∈ db.campaignCandidates.rows, ∀ campaign,
    CampaignRepository.getById db.toDb cc.campaignId = some campaign → campaign.status = .active →
      ∀ resume, getById db cc.resumeId = some resume → resume.parseStatus = .parsed →
        ∃ log ∈ db.taskLogs.rows, log.taskType = deterministicScoreTaskType ∧
          log.campaignCandidateId = some cc.id ∧ log.resumeId = some cc.resumeId

end ScoringWorld

end AiHiring
