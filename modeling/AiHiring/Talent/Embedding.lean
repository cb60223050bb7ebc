import AiHiring.Resume.Scoring

namespace AiHiring

open Library

-- A row of resume_embeddings; `V` is the type of the vectors.
structure ResumeEmbedding (V : Type) where
  (id resumeId candidateId : Uuid)
  embedding : V
  embeddingModelVersionId : Uuid
  inputTextHash : String
  (isAnonymized isTalentPoolEligible : Bool)

-- The tables that the embedding task, the erasure and the talent pool share.
-- `embeddingText` is the anonymised text made of a resume's parsed JSON, if there
-- is one and it passes its verification.
structure TalentDb (V : Type) where
  candidates : Table CandidateRow CandidateRow.id
  resumes : Table ResumeRow ResumeRow.id
  embeddings : Table (ResumeEmbedding V) ResumeEmbedding.id
  embeddingText : Uuid → Option String

-- What the task takes from elsewhere: the active model with its vectors, and MD5.
structure EmbeddingModel (V : Type) where
  versionId : Uuid
  generate : String → V
  md5 : String → String

structure NewEmbedding (V : Type) where
  (resumeId candidateId : Uuid)
  embedding : V
  inputTextHash : String
  isAnonymized : Bool

namespace TalentRepository

variable {V : Type} (db : TalentDb V)

def embeddingsOf (candidateId : Uuid) : List (ResumeEmbedding V) :=
  db.embeddings.rows.filter fun e => e.candidateId = candidateId

def getEmbedding (resumeId : Uuid) : Option (ResumeEmbedding V) :=
  db.embeddings.rows.find? fun e => e.resumeId = resumeId

-- Whether `get_embedding_by_hash` may return the row; it takes the first one it gets.
def hasHash (inputTextHash : String) (versionId : Uuid) (e : ResumeEmbedding V) : Bool :=
  e.inputTextHash = inputTextHash ∧ e.embeddingModelVersionId = versionId

def embedded (resumeId versionId : Uuid) : Bool :=
  db.embeddings.rows.any fun e => e.resumeId = resumeId ∧ e.embeddingModelVersionId = versionId

def newRow (fields : NewEmbedding V) (versionId id : Uuid) : ResumeEmbedding V where
  id := id
  resumeId := fields.resumeId
  candidateId := fields.candidateId
  embedding := fields.embedding
  embeddingModelVersionId := versionId
  inputTextHash := fields.inputTextHash
  isAnonymized := fields.isAnonymized
  isTalentPoolEligible := true

theorem newRow_id (fields : NewEmbedding V) (versionId id : Uuid) :
    (newRow fields versionId id).id = id := rfl

-- The unique index on (resume_id, embedding_model_version_id) keeps the row that
-- is there.
def createResumeEmbedding (fields : NewEmbedding V) (versionId : Uuid) : TalentDb V :=
  if embedded db fields.resumeId versionId then db
  else { db with
    embeddings := db.embeddings.insert (newRow fields versionId) (newRow_id fields versionId) }

def zeroed [Zero V] (ids : List Uuid) (e : ResumeEmbedding V) : ResumeEmbedding V :=
  if e.id ∈ ids then { e with embedding := 0, isTalentPoolEligible := false } else e

theorem zeroed_id [Zero V] (ids : List Uuid) (e : ResumeEmbedding V) :
    (zeroed ids e).id = e.id := by
  unfold zeroed
  split_ifs <;> rfl

-- The rows that an UPDATE has selected are given by their keys.
def zeroOutEmbeddings [Zero V] (ids : List Uuid) : TalentDb V :=
  { db with embeddings := db.embeddings.modify (zeroed ids) (zeroed_id ids) }

def withEligibility (ids : List Uuid) (eligible : Bool) (e : ResumeEmbedding V) :
    ResumeEmbedding V :=
  if e.id ∈ ids then { e with isTalentPoolEligible := eligible } else e

theorem withEligibility_id (ids : List Uuid) (eligible : Bool) (e : ResumeEmbedding V) :
    (withEligibility ids eligible e).id = e.id := by
  unfold withEligibility
  split_ifs <;> rfl

def setTalentPoolEligibility (ids : List Uuid) (eligible : Bool) : TalentDb V :=
  { db with
    embeddings := db.embeddings.modify (withEligibility ids eligible)
      (withEligibility_id ids eligible) }

def erasureRequested (candidateId : Uuid) (now : Instant) (c : CandidateRow) : CandidateRow :=
  if c.id = candidateId then { c with erasureRequestedAt := some now } else c

theorem erasureRequested_id (candidateId : Uuid) (now : Instant) (c : CandidateRow) :
    (erasureRequested candidateId now c).id = c.id := by
  unfold erasureRequested
  split_ifs <;> rfl

def updateErasureFields (candidateId : Uuid) (now : Instant) : TalentDb V :=
  { db with
    candidates := db.candidates.modify (erasureRequested candidateId now)
      (erasureRequested_id candidateId now) }

def parsed (resumeId : Uuid) (r : ResumeRow) : ResumeRow :=
  if r.id = resumeId then
    { r with parseStatus := .parsed, parserVersion := some ResumeService.parserVersion }
  else r

theorem parsed_id (resumeId : Uuid) (r : ResumeRow) : (parsed resumeId r).id = r.id := by
  unfold parsed
  split_ifs <;> rfl

end TalentRepository

-- The two fields that the eligibility asks of a candidate's latest campaign_candidate.
structure LatestCampaignCandidate where
  pipelineStage : PipelineStage
  isFraudFlagged : Bool

def computeShouldBeEligible (candidate : CandidateRow) (latest : Option LatestCampaignCandidate) :
    Bool :=
  if candidate.isPiiDeleted ∨ candidate.erasureRequestedAt ≠ none then false
  else !(latest.any fun cc => cc.pipelineStage = .fraudReview ∧ cc.isFraudFlagged)

namespace CandidateErasureService

open TalentRepository

variable {V : Type}

-- What `request_erasure` commits, with the embeddings that its UPDATE has found.
def requestErasure [Zero V] (db : TalentDb V) (candidateId : Uuid) (ids : List Uuid)
    (now : Instant) : TalentDb V :=
  zeroOutEmbeddings (updateErasureFields db candidateId now) ids

def eraseCandidate (db : TalentDb V) (candidateId : Uuid) : TalentDb V :=
  { db with
    candidates := db.candidates.delete fun c => c.id = candidateId
    resumes := db.resumes.delete fun r => r.candidateId = candidateId
    embeddings := db.embeddings.delete fun e => e.candidateId = candidateId }

end CandidateErasureService

structure UnprocessableError where
  detail : String

def noEligibleResume : UnprocessableError where
  detail := "Candidate has no eligible resume for campaign assignment - every resume version is " ++
    "either unparsed, not talent-pool eligible, or missing data required for scoring."

namespace TalentPool

open TalentRepository

variable {V : Type} (db : TalentDb V) (fresh : ResumeRow → Bool)

-- `ResumeSelectionService._is_eligible`; `fresh` is its rule about the age.
def isEligible (resume : ResumeRow) : Bool :=
  resume.parseStatus = .parsed ∧
    ((getEmbedding db resume.id).any fun e => e.isTalentPoolEligible) ∧ fresh resume

-- The versions that `select_resume_for_campaign` chooses from; it raises without any.
def eligibleResumes (candidateId : Uuid) : Except UnprocessableError (List ResumeRow) :=
  let eligible := db.resumes.rows.filter fun r => r.candidateId = candidateId ∧
    isEligible db fresh r
  if eligible = [] then .error noEligibleResume else .ok eligible

-- The join that both searches draw from. The filters of a search and the choice of
-- one version for each candidate narrow it down.
def searchable : List ResumeRow :=
  db.resumes.rows.filter fun r => r.parseStatus = .parsed ∧
    (db.embeddings.rows.any fun e => e.resumeId = r.id ∧ e.isTalentPoolEligible) ∧ fresh r

end TalentPool

-- What is under way: the embedding of a resume, the daily correction and a request
-- for erasure, each by what it has still to do.
inductive TalentActivity (V : Type) where
  -- the resume is read next
  | generating (resumeId : Uuid)
  -- the row of an equal text is looked for next
  | embedding (resume : ResumeRow) (inputText : String)
  | inserting (fields : NewEmbedding V)
  -- the candidate is read next, then its rows
  | validating (rest : List Uuid) (flushed : List (List Uuid × Bool))
  | correcting (candidateId : Uuid) (eligible : Bool) (rest : List Uuid)
      (flushed : List (List Uuid × Bool))
  -- the rows are zeroed next, then committed
  | requesting (candidateId : Uuid)
  | zeroing (candidateId : Uuid) (ids : List Uuid)
  | done

-- What a step finds that the tables do not say.
structure TalentChoice where
  matching : Option Uuid
  latest : Option LatestCampaignCandidate
  now : Instant

structure TalentWorld (V : Type) where
  db : TalentDb V
  crew : List (TalentActivity V)

inductive TalentAction where
  -- a parse is committed, with the text that its JSON gives
  | parsed (resumeId : Uuid) (text : Option String)
  | enqueueEmbedding (resumeId : Uuid)
  | validateEligibility
  | requestErasure (candidateId : Uuid)
  | eraseCandidate (candidateId : Uuid)
  | advance (index : ℕ) (choice : TalentChoice)
  -- a task or a request raises, or its worker dies, and is rolled back
  | abandon (index : ℕ)

namespace TalentActivity

open TalentRepository CandidateErasureService

variable {V : Type} [Zero V] (model : EmbeddingModel V)

-- The embeddings whose rows the open transaction has written.
def locks : TalentActivity V → List Uuid
  | validating _ flushed => flushed.flatMap (·.1)
  | correcting _ _ _ flushed => flushed.flatMap (·.1)
  | zeroing _ ids => ids
  | _ => []

def reuse (resume : ResumeRow) (inputText : String) (e : ResumeEmbedding V) : NewEmbedding V where
  resumeId := resume.id
  candidateId := resume.candidateId
  embedding := e.embedding
  inputTextHash := model.md5 inputText
  isAnonymized := e.isAnonymized

def fresh (resume : ResumeRow) (inputText : String) : NewEmbedding V where
  resumeId := resume.id
  candidateId := resume.candidateId
  embedding := model.generate inputText
  inputTextHash := model.md5 inputText
  isAnonymized := true

def applyFlushed (db : TalentDb V) (flushed : List (List Uuid × Bool)) : TalentDb V :=
  flushed.foldl (fun db f => setTalentPoolEligibility db f.1 f.2) db

-- One read, one flush or one commit further; `none` when the choice is not one the
-- tables allow, or when the rows are locked.
def advance (db : TalentDb V) (locked : List Uuid) (choice : TalentChoice) :
    TalentActivity V → Option (TalentDb V × TalentActivity V)
  | generating resumeId =>
    match db.resumes.find? resumeId with
    -- skipped
    | none => some (db, done)
    | some resume =>
      match db.embeddingText resumeId with
      | none => some (db, done)
      | some inputText => some (db, embedding resume inputText)
  | embedding resume inputText =>
    match choice.matching with
    | some id =>
      match db.embeddings.find? id with
      | none => none
      | some e =>
        if hasHash (model.md5 inputText) model.versionId e then
          some (db, inserting (reuse model resume inputText e))
        else none
    | none =>
      if db.embeddings.rows.any (hasHash (model.md5 inputText) model.versionId) then none
      else some (db, inserting (fresh model resume inputText))
  | inserting fields => some (createResumeEmbedding db fields model.versionId, done)
  | validating [] flushed => some (applyFlushed db flushed, done)
  | validating (candidateId :: rest) flushed =>
    match db.candidates.find? candidateId with
    | none => some (db, validating rest flushed)
    | some candidate =>
      some (db, correcting candidateId (computeShouldBeEligible candidate choice.latest) rest
        flushed)
  | correcting candidateId eligible rest flushed =>
    let rows := embeddingsOf db candidateId
    if rows.any fun e => e.isTalentPoolEligible ≠ eligible then
      let ids := rows.map (·.id)
      if ids.any fun id => id ∈ locked then none
      else some (db, validating rest (flushed ++ [(ids, eligible)]))
    else some (db, validating rest flushed)
  | requesting candidateId =>
    match db.candidates.find? candidateId with
    | none => some (db, done)
    | some _ =>
      let ids := (embeddingsOf db candidateId).map (·.id)
      if ids.any fun id => id ∈ locked then none else some (db, zeroing candidateId ids)
  | zeroing candidateId ids => some (requestErasure db candidateId ids choice.now, done)
  | done => some (db, done)

end TalentActivity

namespace TalentWorld

open TalentRepository CandidateErasureService

variable {V : Type} [Zero V] (model : EmbeddingModel V)

def lockedBut (w : TalentWorld V) (index : ℕ) : List Uuid :=
  (w.crew.eraseIdx index).flatMap (·.locks)

def next (w : TalentWorld V) : TalentAction → Option (TalentWorld V)
  | .parsed resumeId text =>
    some { w with db := { w.db with
      resumes := w.db.resumes.modify (parsed resumeId) (parsed_id resumeId)
      embeddingText := Function.update w.db.embeddingText resumeId text } }
  | .enqueueEmbedding resumeId => some { w with crew := w.crew ++ [.generating resumeId] }
  | .validateEligibility =>
    some { w with crew := w.crew ++
      [.validating (w.db.embeddings.rows.map (·.candidateId)).dedup []] }
  | .requestErasure candidateId => some { w with crew := w.crew ++ [.requesting candidateId] }
  | .eraseCandidate candidateId =>
    if (embeddingsOf w.db candidateId).any fun e => e.id ∈ w.crew.flatMap (·.locks) then none
    else some { w with db := eraseCandidate w.db candidateId }
  | .advance index choice =>
    match w.crew[index]? with
    | none => none
    | some a =>
      (a.advance model w.db (w.lockedBut index) choice).map fun made =>
        ⟨made.1, w.crew.set index made.2⟩
  | .abandon index => some { w with crew := w.crew.set index .done }

def Step (w : TalentWorld V) (action : TalentAction) (w' : TalentWorld V) : Prop :=
  w.next model action = some w'

end TalentWorld

end AiHiring
