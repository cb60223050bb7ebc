import AiHiring.Library.Run
import Mathlib.Data.Int.Init

namespace AiHiring.EmbedJd

structure JDSkillRow where
  mandatory : Bool
  canonicalName : String

-- The row of jd_embeddings, for the one model that is active.
structure JDEmbedding (V H : Type) where
  embedding : V
  inputTextHash : H

def resolveSkillNames (rows : List JDSkillRow) : List String × List String :=
  ((rows.filter fun row => row.mandatory).map JDSkillRow.canonicalName,
    (rows.filter fun row => !row.mandatory).map JDSkillRow.canonicalName)

-- `text[:count]`, where a negative count leaves out as many at the end.
def sliceTo (text : String) (count : ℤ) : String :=
  String.ofList (text.toList.take
    (if 0 ≤ count then count.toNat else text.toList.length - count.natAbs))

def buildJdEmbeddingText (title : String) (rawText : Option String)
    (mandatorySkillNames preferredSkillNames : List String) (maxChars : ℤ) : String :=
  let requiredLine := "Required skills: " ++ ", ".intercalate mandatorySkillNames ++ "."
  let preferredLine := "Preferred skills: " ++ ", ".intercalate preferredSkillNames ++ "."
  let truncatedRawText := sliceTo (rawText.getD "") maxChars
  title ++ ".\n" ++ requiredLine ++ "\n" ++ preferredLine ++ "\n" ++ truncatedRawText

-- One job description, the configured length, the model and the hash.
structure Service (V H : Type) where
  title : String
  rawText : Option String
  maxChars : ℤ
  generateEmbedding : String → V
  generateHash : String → H

variable {V H : Type}

section Texts

variable (service : Service V H)

def Service.text (skills : List JDSkillRow) : String :=
  let names := resolveSkillNames skills
  buildJdEmbeddingText service.title service.rawText names.1 names.2 service.maxChars

def Service.embeddingOf (text : String) : JDEmbedding V H :=
  ⟨service.generateEmbedding text, service.generateHash text⟩

end Texts

-- How far a run of `generate_jd_embedding` has come.
inductive Stage (V H : Type) where
  | started
  -- there is no row to keep
  | admitted
  | read (text : String)
  -- `loaded` is the row of this job description, where the hash was found in it
  | resolved (text : String) (vector : V) (loaded : Option (JDEmbedding V H))
  -- `existing` is the row to overwrite, as the session has it
  | looked (text : String) (vector : V) (existing : Option (JDEmbedding V H))
  -- flushed, not committed
  | written (row : JDEmbedding V H)
  | finished

structure Run (V H : Type) where
  forceRegenerate : Bool
  stage : Stage V H

-- What is committed, the messages that curations still have to queue, those at the
-- broker, and the runs. `others` are the rows of other job descriptions.
structure World (V H : Type) where
  skills : List JDSkillRow
  row : Option (JDEmbedding V H)
  others : List (JDEmbedding V H)
  due : ℕ
  messages : List Bool
  runs : List (Run V H)
  changed : Bool

inductive Event where
  -- a curation commits the skills that it leaves
  | curate (skills : List JDSkillRow)
  | queue
  -- creation or a metadata update
  | create
  -- other job descriptions are embedded
  | embedOthers (texts : List String)
  | deliver (k : ℕ)
  -- `ownFirst` says which row the query for the hash returns first
  | advance (i : ℕ) (ownFirst : Bool)

def Stage.isWritten : Stage V H → Bool
  | written _ => true
  | _ => false

section Steps

variable [DecidableEq H] (service : Service V H) (w : World V H)

def moveTo (i : ℕ) (run : Run V H) (stage : Stage V H) : World V H :=
  { w with runs := w.runs.set i { run with stage := stage } }

def isLocked : Bool := w.runs.any fun run => run.stage.isWritten

-- Waits for a flushed row, and keeps a committed one.
def createJdEmbeddingIdempotent (i : ℕ) (run : Run V H) (text : String) (vector : V) :
    Option (World V H) :=
  if isLocked w then none
  else
    match w.row with
    | none => some (moveTo w i run (.written ⟨vector, service.generateHash text⟩))
    | some _ => some (moveTo w i run .finished)

-- The flush leaves out a hash equal to the one that was loaded; vectors have no
-- such comparison and are always written.
def overwrite (row existing : JDEmbedding V H) (text : String) (vector : V) : JDEmbedding V H :=
  { embedding := vector
    inputTextHash :=
      if existing.inputTextHash = service.generateHash text then row.inputTextHash
      else service.generateHash text }

def replaceJdEmbedding (i : ℕ) (run : Run V H) (text : String) (vector : V)
    (existing : JDEmbedding V H) : Option (World V H) :=
  if isLocked w then none
  else w.row.map fun row => moveTo w i run (.written (overwrite service row existing text vector))

def hasHash (text : String) (row : JDEmbedding V H) : Bool :=
  row.inputTextHash = service.generateHash text

-- The row of this job description that `get_embedding_by_content_hash` returns.
def loadOwn (text : String) (ownFirst : Bool) : Option (JDEmbedding V H) :=
  if ownFirst ∨ (w.others.find? (hasHash service text)).isNone
    then w.row.filter (hasHash service text)
    else none

def getEmbeddingByContentHash (text : String) (ownFirst : Bool) : Option (JDEmbedding V H) :=
  (loadOwn service w text ownFirst).orElse fun _ => w.others.find? (hasHash service text)

-- A run up to its next read, flush or commit.
def advance (i : ℕ) (run : Run V H) (ownFirst : Bool) : Option (World V H) :=
  match run.stage with
  | .started =>
    if run.forceRegenerate = false ∧ w.row.isSome then some (moveTo w i run .finished)
    else some (moveTo w i run .admitted)
  | .admitted => some (moveTo w i run (.read (service.text w.skills)))
  | .read text =>
    let found := getEmbeddingByContentHash service w text ownFirst
    let vector := (found.map JDEmbedding.embedding).getD (service.generateEmbedding text)
    some (moveTo w i run (.resolved text vector (loadOwn service w text ownFirst)))
  | .resolved text vector loaded =>
    if run.forceRegenerate then
      -- a row that the session has loaded is not read again
      some (moveTo w i run (.looked text vector (w.row.map fun row => loaded.getD row)))
    else createJdEmbeddingIdempotent service w i run text vector
  | .looked text vector none => createJdEmbeddingIdempotent service w i run text vector
  | .looked text vector (some existing) => replaceJdEmbedding service w i run text vector existing
  | .written row => some { moveTo w i run .finished with row := some row }
  | .finished => none

def next : Event → Option (World V H)
  | .curate skills => some { w with skills := skills, due := w.due + 1, changed := true }
  | .queue =>
    if w.due = 0 then none
    else some { w with due := w.due - 1, messages := w.messages ++ [true] }
  | .create => some { w with messages := w.messages ++ [false] }
  | .embedOthers texts => some { w with others := texts.map service.embeddingOf }
  | .deliver k =>
    w.messages[k]?.map fun force =>
      { w with
        messages := w.messages.eraseIdx k
        runs := w.runs ++ [⟨force, .started⟩] }
  | .advance i ownFirst =>
    w.runs[i]?.bind fun run => advance service w i run ownFirst

end Steps

def Step [DecidableEq H] (service : Service V H) (w : World V H) (event : Event)
    (t : World V H) : Prop := next service w event = some t

end AiHiring.EmbedJd
