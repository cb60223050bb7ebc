import AiHiring.Jd.Model
import AiHiring.Library.Fallible
import AiHiring.Resume.Scoring

namespace AiHiring

open Library

inductive LocalUserRole where
  | hrAdmin
  | recruiter
  | hiringManager
  deriving DecidableEq, Repr

structure LocalUser where
  id : String
  role : LocalUserRole
  isActive : Bool

-- A row of hiring_campaigns with the columns that an edit reads or writes.
structure CampaignRow extends HiringCampaign where
  orgId : Option Uuid
  deadline : Option Instant
  promptTemplateId : Uuid
  aiEvaluatePromptId : Option Uuid
  (weightDeterministic weightSemantic weightAi semanticThreshold aiThreshold : ℚ)
  deterministicThreshold : ℚ

structure CampaignDb where
  campaigns : Table CampaignRow fun c => c.id
  campaignCandidates : Table CampaignCandidate CampaignCandidate.id
  taskLogs : CeleryTaskLogTable
  resumes : Table ResumeRow ResumeRow.id
  users : List LocalUser
  promptTemplates : Table PromptTemplate PromptTemplate.id
  -- MIN_LAYER_WEIGHT of the platform config, as written and as a number
  minLayerWeight : Option (String × ℚ)

structure CampaignException where
  message : String
  statusCode : ℕ

-- A task as the broker sees it: its name and the arguments it requires.
structure CeleryTask where
  name : String
  parameters : List String

def calculateDeterministicScoreTask : CeleryTask where
  name := "scoring.calculate_deterministic_score"
  parameters := ["campaign_candidate_id"]

def processResumeDocument : CeleryTask where
  name := "resume.process_document"
  parameters := ["resume_id", "prompt_template_id"]

structure Message where
  task : String
  kwargs : List (String × String)
  taskId : String
  deriving DecidableEq

-- Every argument is one of the task's, and none of the task's is missing.
def CeleryTask.binds (task : CeleryTask) (kwargs : List (String × String)) : Bool :=
  kwargs.all (fun kwarg => kwarg.1 ∈ task.parameters) ∧
    task.parameters.all fun parameter => parameter ∈ kwargs.map (·.1)

inductive UpdateError where
  | campaign (e : CampaignException)
  -- the arguments do not bind to the task
  | typeError (task : String)
  -- the database or the broker
  | failure

-- The calls that fail outside the code: the reads and writes before the messages,
-- a message that the broker refuses, what follows up to the commit, and what
-- follows the commit.
structure Faults where
  prepare : Bool
  refuses : Message → Bool
  (record respond : Bool)

def Faults.none : Faults where
  prepare := false
  refuses _ := false
  record := false
  respond := false

def applyAsync (faults : Faults) (task : CeleryTask) (kwargs : List (String × String))
    (taskId : String) : Sending Message UpdateError Unit :=
  if !task.binds kwargs then Sending.raise (.typeError task.name)
  else if faults.refuses ⟨task.name, kwargs, taskId⟩ then Sending.raise .failure
  else Sending.send ⟨task.name, kwargs, taskId⟩

-- CampaignRepository over these tables.
namespace CampaignDb

variable (db : CampaignDb) (campaignId : Uuid)

def ofCampaign (log : CeleryTaskLog) : Bool :=
  log.campaignCandidateId.any fun id =>
    (db.campaignCandidates.find? id).any fun cc => cc.campaignId = campaignId

def getPausedTasks : List CeleryTaskLog :=
  db.taskLogs.rows.filter fun log => log.status = .paused ∧ ofCampaign db campaignId log

def getPendingResumes : List ResumeRow :=
  db.resumes.rows.filter fun r => r.parseStatus = .pending ∧
    db.campaignCandidates.rows.any fun cc => cc.resumeId = r.id ∧ cc.campaignId = campaignId

-- UPDATE of the status of the logs that are selected.
def withStatus (selected : CeleryTaskLog → Bool) (status : TaskStatus) (log : CeleryTaskLog) :
    CeleryTaskLog :=
  if selected log then { log with status := status } else log

theorem withStatus_id (selected : CeleryTaskLog → Bool) (status : TaskStatus)
    (log : CeleryTaskLog) : (withStatus selected status log).id = log.id := by
  unfold withStatus
  split_ifs <;> rfl

def setStatus (selected : CeleryTaskLog → Bool) (status : TaskStatus) : CampaignDb :=
  { db with taskLogs := db.taskLogs.modify (withStatus selected status) (withStatus_id _ _) }

def isQueued (log : CeleryTaskLog) : Bool := log.status = .queued ∧ ofCampaign db campaignId log

def suspendQueuedTasks : CampaignDb := setStatus db (isQueued db campaignId) .paused

def getSelectedCount : ℕ :=
  db.campaignCandidates.rows.countP fun cc =>
    cc.campaignId = campaignId ∧ cc.pipelineStage = .selected

def getByName (lower : String → String) (orgId : Option Uuid) (name : String) :
    Option CampaignRow :=
  db.campaigns.rows.find? fun c => c.orgId = orgId ∧ lower c.name = lower name

def getUser (userId : String) : Option LocalUser := db.users.find? fun user => user.id = userId

end CampaignDb

end AiHiring
