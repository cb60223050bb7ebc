import AiHiring.Library.Cascade
import AiHiring.Pipeline.Model

namespace AiHiring.Deletion

open Library

-- The two shapes that `chk_email_notifications_recipient_shape` allows.
inductive EmailRecipient where
  | candidate (candidateId : Uuid)
  | externalInterviewer (interviewInterviewerId : Uuid)
  deriving DecidableEq, Repr

-- A row of any table that names a candidate, a resume or a campaign_candidate,
-- directly or through an interview round. A task log is found by its task_id.
inductive Row where
  | candidate (id : Uuid)
  | candidateConsent (id candidateId : Uuid)
  | resume (id candidateId : Uuid) (filePath : String) (versionNumber : ℕ)
  | resumeParseAttempt (id resumeId : Uuid)
  | resumeEmbedding (id resumeId candidateId : Uuid)
  | candidateSkill (id candidateId resumeId : Uuid)
  | campaignCandidate (id candidateId resumeId : Uuid)
  | campaignCandidateStageHistory (id campaignCandidateId : Uuid)
  | stageTransitionLog (id campaignCandidateId : Uuid)
  | campaignCandidateAIEvaluation (id campaignCandidateId : Uuid)
  | candidateCompositeScoreHistory (id campaignCandidateId : Uuid)
  | candidateNote (id campaignCandidateId : Uuid)
  | interviewSchedule (id campaignCandidateId : Uuid)
  | interviewInterviewer (id interviewId : Uuid)
  | interviewScheduleHistory (id interviewId : Uuid)
  | interviewFeedback (id interviewScheduleId interviewerId : Uuid)
  | emailNotification (id : Uuid) (recipient : EmailRecipient)
      (campaignCandidateId interviewScheduleId : Option Uuid)
  | celeryTaskLog (id : Uuid) (taskId : String) (resumeId campaignCandidateId : Option Uuid)
  | deadLetterQueue (id : Uuid) (originalTaskId : String)
      (resumeId campaignCandidateId : Option Uuid)
  deriving DecidableEq, Repr

inductive Key where
  | candidate (id : Uuid)
  | resume (id : Uuid)
  | campaignCandidate (id : Uuid)
  | interviewSchedule (id : Uuid)
  | interviewInterviewer (id : Uuid)
  | celeryTaskLog (taskId : String)
  deriving DecidableEq, Repr

def EmailRecipient.key : EmailRecipient → Key
  | candidate candidateId => .candidate candidateId
  | externalInterviewer interviewInterviewerId => .interviewInterviewer interviewInterviewerId

namespace Row

def key : Row → Option Key
  | candidate id => some (.candidate id)
  | resume id _ _ _ => some (.resume id)
  | campaignCandidate id _ _ => some (.campaignCandidate id)
  | interviewSchedule id _ => some (.interviewSchedule id)
  | interviewInterviewer id _ => some (.interviewInterviewer id)
  | celeryTaskLog _ taskId _ _ => some (.celeryTaskLog taskId)
  | _ => none

-- Every column that names another of these rows.
def names : Row → List Key
  | candidate _ => []
  | candidateConsent _ candidateId => [.candidate candidateId]
  | resume _ candidateId _ _ => [.candidate candidateId]
  | resumeParseAttempt _ resumeId => [.resume resumeId]
  | resumeEmbedding _ resumeId candidateId => [.resume resumeId, .candidate candidateId]
  | candidateSkill _ candidateId resumeId => [.candidate candidateId, .resume resumeId]
  | campaignCandidate _ candidateId resumeId => [.candidate candidateId, .resume resumeId]
  | campaignCandidateStageHistory _ campaignCandidateId => [.campaignCandidate campaignCandidateId]
  | stageTransitionLog _ campaignCandidateId => [.campaignCandidate campaignCandidateId]
  | campaignCandidateAIEvaluation _ campaignCandidateId => [.campaignCandidate campaignCandidateId]
  | candidateCompositeScoreHistory _ campaignCandidateId =>
    [.campaignCandidate campaignCandidateId]
  | candidateNote _ campaignCandidateId => [.campaignCandidate campaignCandidateId]
  | interviewSchedule _ campaignCandidateId => [.campaignCandidate campaignCandidateId]
  | interviewInterviewer _ interviewId => [.interviewSchedule interviewId]
  | interviewScheduleHistory _ interviewId => [.interviewSchedule interviewId]
  | interviewFeedback _ interviewScheduleId interviewerId =>
    [.interviewSchedule interviewScheduleId, .interviewInterviewer interviewerId]
  | emailNotification _ recipient campaignCandidateId interviewScheduleId =>
    recipient.key :: campaignCandidateId.toList.map .campaignCandidate ++
      interviewScheduleId.toList.map .interviewSchedule
  | celeryTaskLog _ _ resumeId campaignCandidateId =>
    resumeId.toList.map .resume ++ campaignCandidateId.toList.map .campaignCandidate
  | deadLetterQueue _ originalTaskId resumeId campaignCandidateId =>
    .celeryTaskLog originalTaskId :: resumeId.toList.map .resume ++
      campaignCandidateId.toList.map .campaignCandidate

-- All of them are foreign keys, but for those of `resume_embeddings`.
def foreignKeys : Row → List Key
  | resumeEmbedding _ _ _ => []
  | row => row.names

end Row

def schema : Schema Row Key := ⟨Row.key, Row.foreignKeys⟩

abbrev World := Store Row String

abbrev Statement := Library.Call Row String

-- What the services read of a resume version.
structure ResumeVersion where
  id : Uuid
  filePath : String
  versionNumber : ℕ
  deriving DecidableEq, Repr

variable (candidateId resumeId : Uuid) (fails : ℕ → Bool) (campaignCandidateId : Uuid)

namespace ResumeRepository

def getById (rows : List Row) (resumeId : Uuid) : Option ResumeVersion :=
  rows.findSome? fun
    | .resume id _ filePath versionNumber =>
      if id = resumeId then some ⟨id, filePath, versionNumber⟩ else none
    | _ => none

-- Most recent first.
def getAllVersionsByCandidate (rows : List Row) (candidateId : Uuid) : List ResumeVersion :=
  (rows.filterMap fun
    | .resume id owner filePath versionNumber =>
      if owner = candidateId then some ⟨id, filePath, versionNumber⟩ else none
    | _ => none).insertionSort fun a b => b.versionNumber ≤ a.versionNumber

@[simp] def delete (resumeId : Uuid) : Statement :=
  .delete fun | .resume id _ _ _ => id = resumeId | _ => false

@[simp] def deleteParseAttempts : Statement :=
  .delete fun | .resumeParseAttempt _ id => id = resumeId | _ => false

@[simp] def deleteEmbeddingsByCandidate : Statement :=
  .delete fun | .resumeEmbedding _ _ id => id = candidateId | _ => false

@[simp] def deleteCandidateSkillsByCandidate : Statement :=
  .delete fun | .candidateSkill _ id _ => id = candidateId | _ => false

@[simp] def deleteEmbeddingByResume : Statement :=
  .delete fun | .resumeEmbedding _ id _ => id = resumeId | _ => false

@[simp] def deleteCandidateSkillsByResume : Statement :=
  .delete fun | .candidateSkill _ _ id => id = resumeId | _ => false

end ResumeRepository

namespace CampaignCandidateRepository

def getByResumeId (rows : List Row) (resumeId : Uuid) : List Uuid :=
  rows.filterMap fun
    | .campaignCandidate id _ rid => if rid = resumeId then some id else none
    | _ => none

def getByCandidateId (rows : List Row) (candidateId : Uuid) : List Uuid :=
  rows.filterMap fun
    | .campaignCandidate id cid _ => if cid = candidateId then some id else none
    | _ => none

@[simp] def deleteStageHistory : Statement :=
  .delete fun | .campaignCandidateStageHistory _ id => id = campaignCandidateId | _ => false

@[simp] def deleteStageTransitionLog : Statement :=
  .delete fun | .stageTransitionLog _ id => id = campaignCandidateId | _ => false

-- The flush loads the AI evaluation and deletes it before its parent.
@[simp] def delete (campaignCandidateId : Uuid) : List Statement :=
  [.other,
    .delete fun | .campaignCandidateAIEvaluation _ id => id = campaignCandidateId | _ => false,
    .delete fun | .campaignCandidate id _ _ => id = campaignCandidateId | _ => false]

end CampaignCandidateRepository

namespace CandidateNoteRepository

@[simp] def deleteByCampaignCandidateId : Statement :=
  .delete fun | .candidateNote _ id => id = campaignCandidateId | _ => false

end CandidateNoteRepository

namespace CandidateCompositeScoreHistoryRepository

@[simp] def deleteByCampaignCandidateId : Statement :=
  .delete fun | .candidateCompositeScoreHistory _ id => id = campaignCandidateId | _ => false

end CandidateCompositeScoreHistoryRepository

namespace InterviewScheduleRepository

def interviewIds (rows : List Row) (campaignCandidateId : Uuid) : List Uuid :=
  rows.filterMap fun
    | .interviewSchedule id cc => if cc = campaignCandidateId then some id else none
    | _ => none

-- The rounds are read when the deletion starts: no statement before this one
-- takes a round of this campaign_candidate.
def deleteByCampaignCandidateId (rows : List Row) (campaignCandidateId : Uuid) : List Statement :=
  let interviewIds := interviewIds rows campaignCandidateId
  if interviewIds = [] then [.other]
  else
    [.other, .delete fun
        | .emailNotification _ _ _ interviewScheduleId =>
          interviewScheduleId.any (· ∈ interviewIds)
        | _ => false,
      .delete fun | .interviewFeedback _ interviewScheduleId _ => interviewScheduleId ∈ interviewIds
                  | _ => false,
      .delete fun | .interviewScheduleHistory _ interviewId => interviewId ∈ interviewIds
                  | _ => false,
      .delete fun | .interviewInterviewer _ interviewId => interviewId ∈ interviewIds
                  | _ => false,
      .delete fun | .interviewSchedule _ id => id = campaignCandidateId | _ => false]

end InterviewScheduleRepository

namespace EmailNotificationRepository

@[simp] def deleteByCandidate : Statement :=
  .delete fun | .emailNotification _ (.candidate id) _ _ => id = candidateId | _ => false

end EmailNotificationRepository

namespace DeadLetterQueueRepository

@[simp] def deleteByResumeId : Statement :=
  .delete fun | .deadLetterQueue _ _ id _ => id = some resumeId | _ => false

@[simp] def deleteByCampaignCandidateId : Statement :=
  .delete fun | .deadLetterQueue _ _ _ id => id = some campaignCandidateId | _ => false

end DeadLetterQueueRepository

namespace CeleryTaskLogRepository

@[simp] def deleteByResumeId : Statement :=
  .delete fun | .celeryTaskLog _ _ id _ => id = some resumeId | _ => false

@[simp] def deleteByCampaignCandidateId : Statement :=
  .delete fun | .celeryTaskLog _ _ _ id => id = some campaignCandidateId | _ => false

end CeleryTaskLogRepository

namespace ConsentRepository

@[simp] def deleteByCandidate : Statement :=
  .delete fun | .candidateConsent _ id => id = candidateId | _ => false

end ConsentRepository

namespace CandidateRepository

def getById (rows : List Row) (candidateId : Uuid) : Option Uuid :=
  rows.findSome? fun | .candidate id => if id = candidateId then some id else none | _ => none

@[simp] def delete (candidateId : Uuid) : Statement :=
  .delete fun | .candidate id => id = candidateId | _ => false

end CandidateRepository

inductive DeletionError where
  | notFound (message : String)
  | raised
  deriving DecidableEq, Repr

-- A method whose lookup succeeded: its calls, the last of them the commit.
def transaction (calls : List Statement) (fails : ℕ → Bool) (w : World) :
    Except DeletionError Unit × World :=
  match carryOut schema (calls ++ [.other]) fails w with
  | (true, w') => (.ok (), w')
  | (false, w') => (.error .raised, w')

namespace ResumeCleanupService

def clearCampaignCandidate : List Statement :=
  [CampaignCandidateRepository.deleteStageHistory campaignCandidateId,
    DeadLetterQueueRepository.deleteByCampaignCandidateId campaignCandidateId,
    CeleryTaskLogRepository.deleteByCampaignCandidateId campaignCandidateId] ++
    CampaignCandidateRepository.delete campaignCandidateId

def clearResume (resume : ResumeVersion) : List Statement :=
  [ResumeRepository.deleteParseAttempts resume.id,
    ResumeRepository.deleteEmbeddingByResume resume.id,
    ResumeRepository.deleteCandidateSkillsByResume resume.id,
    DeadLetterQueueRepository.deleteByResumeId resume.id,
    CeleryTaskLogRepository.deleteByResumeId resume.id,
    .remove resume.filePath,
    ResumeRepository.delete resume.id]

-- The campaign_candidates are read first, the audit entry is written last.
def calls (rows : List Row) (resume : ResumeVersion) : List Statement :=
  .other :: (CampaignCandidateRepository.getByResumeId rows resume.id).flatMap
    clearCampaignCandidate ++ clearResume resume ++ [.other]

-- The first call reads the resume, before the transaction that is rolled back.
def deleteResume (w : World) :
    Except DeletionError Unit × World :=
  if fails 0 then (.error .raised, w)
  else
    match ResumeRepository.getById w.rows resumeId with
    | none => (.error (.notFound s!"Resume {resumeId} not found."), w)
    | some resume => transaction (calls w.rows resume) (fun n => fails (n + 1)) w

end ResumeCleanupService

namespace CandidateErasureService

def clearCampaignCandidate (rows : List Row) (campaignCandidateId : Uuid) : List Statement :=
  [CampaignCandidateRepository.deleteStageHistory campaignCandidateId,
    CampaignCandidateRepository.deleteStageTransitionLog campaignCandidateId,
    CandidateNoteRepository.deleteByCampaignCandidateId campaignCandidateId] ++
    InterviewScheduleRepository.deleteByCampaignCandidateId rows campaignCandidateId ++
    [CandidateCompositeScoreHistoryRepository.deleteByCampaignCandidateId campaignCandidateId,
      DeadLetterQueueRepository.deleteByCampaignCandidateId campaignCandidateId,
      CeleryTaskLogRepository.deleteByCampaignCandidateId campaignCandidateId] ++
    CampaignCandidateRepository.delete campaignCandidateId

def clearResume (resume : ResumeVersion) : List Statement :=
  [ResumeRepository.deleteParseAttempts resume.id,
    DeadLetterQueueRepository.deleteByResumeId resume.id,
    CeleryTaskLogRepository.deleteByResumeId resume.id,
    .remove resume.filePath,
    ResumeRepository.delete resume.id]

def calls (rows : List Row) (candidateId : Uuid) : List Statement :=
  [.other, .other,
    ResumeRepository.deleteEmbeddingsByCandidate candidateId,
    ResumeRepository.deleteCandidateSkillsByCandidate candidateId,
    EmailNotificationRepository.deleteByCandidate candidateId] ++
    (CampaignCandidateRepository.getByCandidateId rows candidateId).flatMap
      (clearCampaignCandidate rows) ++
    (ResumeRepository.getAllVersionsByCandidate rows candidateId).flatMap clearResume ++
    [ConsentRepository.deleteByCandidate candidateId, CandidateRepository.delete candidateId,
      .other]

def eraseCandidate (w : World) :
    Except DeletionError Unit × World :=
  if fails 0 then (.error .raised, w)
  else
    match CandidateRepository.getById w.rows candidateId with
    | none => (.error (.notFound s!"Candidate {candidateId} not found."), w)
    | some _ => transaction (calls w.rows candidateId) (fun n => fails (n + 1)) w

end CandidateErasureService

end AiHiring.Deletion
