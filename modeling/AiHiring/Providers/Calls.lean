import AiHiring.Library.Crew
import AiHiring.Library.Run
import AiHiring.Pipeline.Model

namespace AiHiring

open Library

-- A row of ai_provider_config; the encrypted key shows by its last characters.
structure AIProviderConfig where
  id : Uuid
  (provider modelName apiKeyLast4 : String)
  (isActive isVerified : Bool)
  deriving DecidableEq

abbrev AIProviderConfigTable := Table AIProviderConfig AIProviderConfig.id

structure CreateAIProviderRequest where
  (provider modelName apiKeyLast4 : String)
  deriving DecidableEq

structure UpdateAIProviderRequest where
  modelName : String
  -- of the new key, if there is one
  apiKeyLast4 : Option String
  deriving DecidableEq

namespace AIProviders

-- What a statement of an open transaction has written.
inductive Write where
  | insert (request : CreateAIProviderRequest) (isActive : Bool)
  | update (id : Uuid) (request : UpdateAIProviderRequest)
  | setActive (id : Uuid) (isActive : Bool)
  | delete (id : Uuid)
  deriving DecidableEq

namespace Write

-- The row that stays locked up to the end of the transaction.
def locks : Write → Option Uuid
  | insert _ _ => none
  | update id _ => some id
  | setActive id _ => some id
  | delete id => some id

-- The write adds to `uq_ai_provider_config_single_active`.
def activates : Write → Bool
  | insert _ isActive => isActive
  | setActive _ isActive => isActive
  | update _ _ => false
  | delete _ => false

-- The write adds to `uq_ai_provider_config_provider`.
def registers : Write → Option String
  | insert request _ => some request.provider
  | _ => none

def newRow (request : CreateAIProviderRequest) (isActive : Bool) (id : Uuid) :
    AIProviderConfig where
  id := id
  provider := request.provider
  modelName := request.modelName
  apiKeyLast4 := request.apiKeyLast4
  isActive := isActive
  isVerified := true

theorem newRow_id (request : CreateAIProviderRequest) (isActive : Bool) (id : Uuid) :
    (newRow request isActive id).id = id := rfl

def updateRow (id : Uuid) (request : UpdateAIProviderRequest) (row : AIProviderConfig) :
    AIProviderConfig :=
  if row.id = id then
    { row with
      modelName := request.modelName
      apiKeyLast4 := request.apiKeyLast4.getD row.apiKeyLast4
      isVerified := true }
  else row

theorem updateRow_id (id : Uuid) (request : UpdateAIProviderRequest) (row : AIProviderConfig) :
    (updateRow id request row).id = row.id := by
  unfold updateRow
  split_ifs <;> rfl

def setActiveRow (id : Uuid) (isActive : Bool) (row : AIProviderConfig) : AIProviderConfig :=
  if row.id = id then { row with isActive := isActive } else row

theorem setActiveRow_id (id : Uuid) (isActive : Bool) (row : AIProviderConfig) :
    (setActiveRow id isActive row).id = row.id := by
  unfold setActiveRow
  split_ifs <;> rfl

-- The id of a new row is drawn as late as nobody can tell: at the commit.
def apply (rows : AIProviderConfigTable) : Write → AIProviderConfigTable
  | insert request isActive => rows.insert (newRow request isActive) (newRow_id request isActive)
  | update id request => rows.modify (updateRow id request) (updateRow_id id request)
  | setActive id isActive => rows.modify (setActiveRow id isActive) (setActiveRow_id id isActive)
  | delete id => rows.delete fun row => row.id = id

end Write

inductive Answer where
  | created
  | row (id : Uuid)
  | nothing
  deriving DecidableEq

-- Where a call stands, with what it has read so far.
inductive Point where
  | createStart (request : CreateAIProviderRequest)
  | createVerified (request : CreateAIProviderRequest)
  | createDecided (request : CreateAIProviderRequest) (makeActive : Bool)
  | updateStart (id : Uuid) (request : UpdateAIProviderRequest)
  | updateLoaded (id : Uuid) (request : UpdateAIProviderRequest)
  | activateStart (id : Uuid)
  | activateLoaded (id : Uuid)
  | activateCurrent (id : Uuid) (current : Option Uuid)
  | activateCleared (id : Uuid)
  | deleteStart (id : Uuid)
  | deleteLoaded (id : Uuid) (isActive : Bool)
  | deleteCounted (id : Uuid)
  -- all is written, and not committed
  | written (answer : Answer)
  -- all is committed, and the row not read again
  | committed (id : Uuid)
  | returned
  | raised (message : Option String)
  deriving DecidableEq

structure Call where
  point : Point
  writes : List Write
  deriving DecidableEq

-- The committed rows, and the calls with what they have written.
structure World where
  rows : AIProviderConfigTable
  calls : List Call

def World.empty : World where
  rows := Table.empty
  calls := []

def label : String → String
  | "GOOGLE" => "Google Gemini"
  | "ANTHROPIC" => "Anthropic Claude"
  | "OPENAI" => "OpenAI"
  | "GROQ" => "Groq"
  | provider => provider

def alreadyRegistered (provider : String) : String :=
  s!"{label provider} is already registered. Edit it instead."

def saveFailed : String := "Couldn't save the AI provider right now. Please try again."

def noLongerExists : String :=
  "This AI provider no longer exists. Refresh the page and try again."

section Statements

variable (w : World) (i : ℕ) (call : Call)

def moveTo (point : Point) (writes : List Write) : World :=
  { w with calls := w.calls.set i ⟨point, writes⟩ }

def raise (message : String) : World := moveTo w i (.raised (some message)) []

-- What the other open transactions have written.
def others : List Write := (w.calls.eraseIdx i).flatMap Call.writes

def isLocked (id : Uuid) : Bool := (others w i).any fun write => write.locks = some id

-- The committed rows whose entry in the unique indexes stands against the write.
def rivals (write : Write) : List AIProviderConfig :=
  w.rows.rows.filter fun row =>
    (write.activates ∧ row.isActive ∧ write.locks ≠ some row.id ∧
      .setActive row.id false ∉ call.writes) ∨ write.registers = some row.provider

-- The statement waits for another transaction: for a row that it writes, or for
-- an entry in a unique index that may still come or go.
def waits (write : Write) : Bool :=
  (write.locks.any fun id => isLocked w i id) ∨
    ((others w i).any fun other => (write.activates ∧ other.activates) ∨
      (write.registers ≠ none ∧ write.registers = other.registers)) ∨
    (rivals w call write).any fun row => isLocked w i row.id

-- The row of an UPDATE is gone, or a unique index refuses. A DELETE that meets
-- no row only warns.
def refused (write : Write) : Bool :=
  match write with
  | .delete _ => false
  | write => (write.locks.any fun id => w.rows.find? id = none) ∨ rivals w call write ≠ []

-- A statement that writes: it waits, or it raises, or it is done.
def submit (write : Write) (message : String) (point : Point) : Option World :=
  if waits w i call write then none
  else if refused w call write then some (raise w i message)
  else some (moveTo w i point (call.writes ++ [write]))

def getActive : Option AIProviderConfig := w.rows.rows.find? fun row => row.isActive

def advance : Option World :=
  match call.point with
  | .createStart request =>
    if w.rows.rows.any fun row => row.provider = request.provider then
      some (raise w i (alreadyRegistered request.provider))
    else some (moveTo w i (.createVerified request) [])
  | .createVerified request =>
    some (moveTo w i (.createDecided request (getActive w = none)) [])
  | .createDecided request makeActive =>
    submit w i call (.insert request makeActive) (alreadyRegistered request.provider)
      (.written .created)
  | .updateStart id request =>
    match w.rows.find? id with
    | none => some (raise w i noLongerExists)
    | some _ => some (moveTo w i (.updateLoaded id request) [])
  | .updateLoaded id request =>
    submit w i call (.update id request) saveFailed (.written (.row id))
  | .activateStart id =>
    match w.rows.find? id with
    | none => some (raise w i noLongerExists)
    | some row =>
      if row.isActive then some (moveTo w i .returned [])
      else if !row.isVerified then
        some (raise w i "Edit this provider and check it again before making it active.")
      else some (moveTo w i (.activateLoaded id) [])
  | .activateLoaded id =>
    some (moveTo w i (.activateCurrent id ((getActive w).map (·.id))) [])
  | .activateCurrent id current =>
    match current.filter (· ≠ id) with
    | some currentId =>
      submit w i call (.setActive currentId false) saveFailed (.activateCleared id)
    | none => submit w i call (.setActive id true) saveFailed (.written (.row id))
  | .activateCleared id =>
    submit w i call (.setActive id true) saveFailed (.written (.row id))
  | .deleteStart id =>
    match w.rows.find? id with
    | none => some (raise w i noLongerExists)
    | some row => some (moveTo w i (.deleteLoaded id row.isActive) [])
  | .deleteLoaded id isActive =>
    if w.rows.rows.length ≤ 1 then
      some (raise w i "At least one AI provider must remain, so the last one can't be deleted.")
    else if isActive then
      some (raise w i "This is the active provider. Set another provider as active first.")
    else some (moveTo w i (.deleteCounted id) [])
  | .deleteCounted id =>
    submit w i call (.delete id) saveFailed (.written .nothing)
  | .written answer =>
    let committed := { w with rows := call.writes.foldl Write.apply w.rows }
    match answer with
    | .created => some (moveTo committed i (.committed w.rows.next) [])
    | .row id => some (moveTo committed i (.committed id) [])
    | .nothing => some (moveTo committed i .returned [])
  | .committed id =>
    -- the commit has expired the row, so the response reads it again
    match w.rows.find? id with
    | none => some (moveTo w i (.raised none) [])
    | some _ => some (moveTo w i .returned [])
  | .returned => none
  | .raised _ => none

-- A call may raise wherever it stands: the check of the key, the database.
def fail : Option World :=
  match call.point with
  | .returned => none
  | .raised _ => none
  | _ => some (moveTo w i (.raised none) [])

end Statements

inductive Operation where
  | create (request : CreateAIProviderRequest)
  | update (id : Uuid) (request : UpdateAIProviderRequest)
  | activate (id : Uuid)
  | delete (id : Uuid)

def Operation.start : Operation → Point
  | create request => .createStart request
  | update id request => .updateStart id request
  | activate id => .activateStart id
  | delete id => .deleteStart id

inductive Event where
  | begin (operation : Operation)
  | advance (i : ℕ)
  | fail (i : ℕ)

def next (w : World) : Event → Option World
  | .begin operation => some { w with calls := w.calls ++ [⟨operation.start, []⟩] }
  | .advance i => w.calls[i]?.bind fun call => advance w i call
  | .fail i => w.calls[i]?.bind fun call => fail w i call

def Step (w : World) (event : Event) (t : World) : Prop := next w event = some t

end AIProviders

end AiHiring
