import AiHiring.Library.Crew
import AiHiring.Library.Run
import AiHiring.Library.Text
import AiHiring.Pipeline.Model

namespace AiHiring

open Library

namespace CandidateIntake

-- The arguments of one `get_or_create`.
structure Request where
  (fullName email jurisdiction consentSource actorId : String)
  (actorRole phone : Option String)
  (orgId sourceCampaignId : Option Uuid)
  (ipAddress userAgent : Option String)

-- A row of candidates; the encrypted columns show what they decrypt to.
structure CandidateRow where
  id : Uuid
  orgId : Option Uuid
  (fullName email emailHash : String)
  (phone phoneHash : Option String)
  encryptionKeyId : Uuid
  jurisdiction : String
  sourceCampaignId : Option Uuid
  consentGiven : Bool
  consentTimestamp : Option Instant
  consentSource : Option String
  erasureRequestedAt : Option Instant
  isPiiDeleted : Bool

structure ConsentRow where
  (id candidateId : Uuid)
  consentGiven : Bool
  (consentVersion jurisdiction : String)
  consentTimestamp : Instant
  consentSource : String
  (ipAddress userAgent : Option String)

structure ConsentRecorded where
  actorId : String
  actorRole : Option String
  entityId : Uuid
  campaignId : Option Uuid
  jurisdiction : String
  ipAddress : Option String
  consentSource : String

-- The statement that a call sends next, with what its transaction has written.
inductive Phase where
  | selecting
  | encrypting
  | inserting (encryptionKeyId : Uuid)
  | rereading
  | refreshing (row : CandidateRow)
  | consenting (row : CandidateRow)
  | auditing (row : CandidateRow) (consent : ConsentRow)
  | committing (row : CandidateRow) (consent : ConsentRow) (entry : ConsentRecorded)
  | returned (row : CandidateRow)
  | raised

def Phase.held : Phase → Option CandidateRow
  | refreshing row | consenting row | auditing row _ | committing row _ _ => some row
  | selecting | encrypting | inserting _ | rereading | returned _ | raised => none

def Phase.live : Phase → Bool
  | returned _ | raised => false
  | _ => true

structure Call where
  request : Request
  phase : Phase

-- What the commit of one call made visible.
structure Creation where
  call : ℕ
  candidate : CandidateRow
  consent : ConsentRow
  entry : ConsentRecorded

structure World where
  earlierCandidates : List CandidateRow
  earlierConsents : List ConsentRow
  creations : List Creation
  calls : List Call
  nextId : Uuid

-- What the statements of a call read besides the candidates, and the clock.
structure Reading where
  encryptionKeyId : Uuid
  consentVersion : String
  now : Instant

inductive Event where
  | call (request : Request)
  -- the next statement of a call, or its commit, goes through
  | run (call : ℕ) (reading : Reading)
  -- the INSERT of the candidate violates another constraint
  | violate (call : ℕ)
  -- the next statement of a call, or its commit, raises
  | fail (call : ℕ)

namespace World

def candidates (w : World) : List CandidateRow :=
  w.earlierCandidates ++ w.creations.map Creation.candidate

def consents (w : World) : List ConsentRow :=
  w.earlierConsents ++ w.creations.map Creation.consent

def getByEmailHash (w : World) (emailHash : String) : Option CandidateRow :=
  w.candidates.find? fun row => row.emailHash = emailHash

def move (w : World) (i : ℕ) (call : Call) (phase : Phase) : World :=
  { w with calls := w.calls.set i { call with phase } }

end World

-- `_raise_if_erasure_blocked`
def answer (existing : CandidateRow) : Phase :=
  if existing.erasureRequestedAt.isSome || existing.isPiiDeleted then .raised
  else .returned existing

section Service

variable (md5 lower : String → String)

def normalized (value : String) : String := lower (strip value)

def generateHash (value : String) : String := md5 (normalized lower value)

def buildEncryptedCandidate (request : Request) (encryptionKeyId id : Uuid) : CandidateRow where
  id := id
  orgId := request.orgId
  fullName := request.fullName
  email := request.email
  emailHash := generateHash md5 lower request.email
  phone := request.phone.filter (· ≠ "")
  phoneHash := (request.phone.filter (· ≠ "")).map (generateHash md5 lower)
  encryptionKeyId := encryptionKeyId
  jurisdiction := request.jurisdiction
  sourceCampaignId := request.sourceCampaignId
  consentGiven := false
  consentTimestamp := none
  consentSource := none
  erasureRequestedAt := none
  isPiiDeleted := false

def recordConsent (request : Request) (row : CandidateRow) (reading : Reading) (id : Uuid) :
    ConsentRow where
  id := id
  candidateId := row.id
  consentGiven := true
  consentVersion := reading.consentVersion
  jurisdiction := request.jurisdiction
  consentTimestamp := reading.now
  consentSource := request.consentSource
  ipAddress := request.ipAddress
  userAgent := request.userAgent

def consentRecorded (request : Request) (row : CandidateRow) : ConsentRecorded where
  actorId := request.actorId
  actorRole := request.actorRole
  entityId := row.id
  campaignId := request.sourceCampaignId
  jurisdiction := request.jurisdiction
  ipAddress := request.ipAddress
  consentSource := request.consentSource

def consented (request : Request) (row : CandidateRow) (now : Instant) : CandidateRow :=
  { row with
    consentGiven := true
    consentTimestamp := some now
    consentSource := some request.consentSource }

def holds (emailHash : String) (call : Call) : Bool :=
  call.phase.held.any fun row => row.emailHash = emailHash

-- A statement reads what is committed when it is sent.
def runStatement (w : World) (i : ℕ) (call : Call) (reading : Reading) : Option World :=
  let emailHash := generateHash md5 lower call.request.email
  match call.phase with
  | .selecting =>
    match w.getByEmailHash emailHash with
    | some existing => some (w.move i call (answer existing))
    | none => some (w.move i call .encrypting)
  | .encrypting => some (w.move i call (.inserting reading.encryptionKeyId))
  | .inserting encryptionKeyId =>
    -- the INSERT waits for the end of a transaction that holds the same key
    if w.calls.any (holds emailHash) then none
    else if (w.getByEmailHash emailHash).isSome then some (w.move i call .rereading)
    else
      some ({ w with nextId := w.nextId + 1 }.move i call (.refreshing
        (buildEncryptedCandidate md5 lower call.request encryptionKeyId w.nextId)))
  | .rereading =>
    match w.getByEmailHash emailHash with
    | some existing => some (w.move i call (answer existing))
    -- `None` has no attribute erasure_requested_at
    | none => some (w.move i call .raised)
  | .refreshing row => some (w.move i call (.consenting row))
  | .consenting row =>
    some ({ w with nextId := w.nextId + 1 }.move i call
      (.auditing row (recordConsent call.request row reading w.nextId)))
  | .auditing row consent =>
    some (w.move i call (.committing row consent (consentRecorded call.request row)))
  | .committing row consent entry =>
    let creation : Creation := ⟨i, consented call.request row reading.now, consent, entry⟩
    some ({ w with creations := w.creations ++ [creation] }.move i call
      (.returned creation.candidate))
  | .returned _ | .raised => none

-- A call that raises rolls its transaction back.
def next? (w : World) : Event → Option World
  | .call request => some { w with calls := w.calls ++ [⟨request, .selecting⟩] }
  | .run i reading =>
    match w.calls[i]? with
    | some call => runStatement md5 lower w i call reading
    | none => none
  | .violate i =>
    match w.calls[i]? with
    | some call =>
      match call.phase with
      | .inserting _ => some (w.move i call .rereading)
      | _ => none
    | none => none
  | .fail i =>
    match w.calls[i]? with
    | some call => if call.phase.live then some (w.move i call .raised) else none
    | none => none

def Step (w : World) (event : Event) (w' : World) : Prop := next? md5 lower w event = some w'

end Service

end CandidateIntake

end AiHiring
