import AiHiring.Library.Run

namespace AiHiring.CacheRuns

-- In microseconds of the server's clock.
def tombstoneTtl : ℕ := 30000000

def cacheKeyPrefix : String := "airs"

def lockKey (cacheKey : String) : String := cacheKeyPrefix ++ ":lock:" ++ cacheKey

def tombstoneKey (keyOrPrefix : String) : String := cacheKeyPrefix ++ ":tomb:" ++ keyOrPrefix

-- What `_invalidated_since` looks for: the prefixes of the key up to a colon, and the key.
def targets (key : String) : List String :=
  ((key.toList.zipIdx.filter fun entry => entry.1 = ':').map fun entry =>
    String.ofList (key.toList.take (entry.2 + 1))) ++ [key]

def startsWith (start text : String) : Bool := start.toList.isPrefixOf text.toList

structure Tombstone where
  (stamp expiresAt : ℕ)

-- How far a call of `get_or_set` has come. `readAt` counts the commits that the
-- loader has seen.
inductive ReaderStage where
  | started
  | missed
  -- another worker holds the lock
  | polling (left : ℕ)
  | admitted
  | timed (startedAt : ℕ)
  | loaded (startedAt readAt : ℕ)
  -- no tombstone stops the value
  | checked (readAt : ℕ)
  -- only the lock is left to release
  | settled
  | returned

structure Reader where
  useLock : Bool
  stage : ReaderStage

-- One page of a scan: whether it covers the slot of the key, which tombstones and
-- whether the lock are among its matches, and whether it is the last one.
structure Page where
  covers : Bool
  tombstones : List String
  (lock last : Bool)

-- How far a writer has come with its invalidation.
inductive WriterStage where
  | committed
  -- `covered` says whether the slot of the key is behind the cursor
  | scanning (covered : Bool)
  -- `found` says whether the key is among the keys of the page
  | paged (covered found : Bool) (page : Page)
  | deleted
  | timed (now : ℕ)
  | returned

-- `commit` is the number of the writer's own commit.
structure Writer where
  commit : ℕ
  byPrefix : Bool
  target : String
  stage : WriterStage

-- The commits so far, what Redis holds for the key (the value stands for the commits
-- that its loader has seen), and the calls. A lock holds the number of its reader.
structure World where
  (commits clock : ℕ)
  (cached lock : Option ℕ)
  tombstones : String → Option Tombstone
  readers : List Reader
  writers : List Writer

inductive Event where
  | read (useLock : Bool)
  | commit (byPrefix : Bool) (target : String)
  | tick (elapsed : ℕ)
  | expire
  | expireLock
  | advanceReader (i : ℕ)
  | advanceWriter (i : ℕ) (page : Page)

section Steps

variable (key : String) (w : World)

def Tombstone.isVisible (clock : ℕ) (tombstone : Tombstone) : Bool := clock ≤ tombstone.expiresAt

-- Redis keeps an expired tombstone from being read.
def invalidatedSince (startedAt : ℕ) : Bool :=
  (targets key).any fun target =>
    match w.tombstones target with
    | none => false
    | some tombstone => tombstone.isVisible w.clock && startedAt ≤ tombstone.stamp

variable (i : ℕ) (writer : Writer) (reader : Reader)

def moveReader (stage : ReaderStage) : World :=
  { w with readers := w.readers.set i { reader with stage := stage } }

def moveWriter (stage : WriterStage) : World :=
  { w with writers := w.writers.set i { writer with stage := stage } }

def settle : ReaderStage := if reader.useLock then .settled else .returned

def advanceReader : Option World :=
  match reader.stage with
  | .started =>
    if w.cached.isSome then some (moveReader w i reader .returned)
    else some (moveReader w i reader .missed)
  | .missed =>
    if !reader.useLock then some (moveReader w i reader .admitted)
    else if w.lock.isNone then some { moveReader w i reader .admitted with lock := some i }
    else some (moveReader w i reader (.polling 3))
  | .polling 0 => some (moveReader w i reader .returned)
  | .polling (left + 1) =>
    if w.cached.isSome then some (moveReader w i reader .returned)
    else some (moveReader w i reader (.polling left))
  | .admitted => some (moveReader w i reader (.timed w.clock))
  | .timed startedAt => some (moveReader w i reader (.loaded startedAt w.commits))
  | .loaded startedAt readAt =>
    if invalidatedSince key w startedAt then some (moveReader w i reader (settle reader))
    else some (moveReader w i reader (.checked readAt))
  | .checked readAt =>
    some { moveReader w i reader (settle reader) with cached := some readAt }
  | .settled =>
    some { moveReader w i reader .returned with
      lock := if w.lock = some i then none else w.lock }
  | .returned => none

-- A page holds keys that the pattern matches, and the cursor comes back to its
-- start only after the slot of every key.
def isPage (target : String) (covered : Bool) (page : Page) : Bool :=
  page.tombstones.all (fun other => startsWith target (tombstoneKey other)) &&
    (!page.lock || startsWith target (lockKey key)) &&
    (!page.last || covered || page.covers)

def nextPage (covered : Bool) (page : Page) : Option World :=
  if isPage key writer.target covered page then
    some (moveWriter w i writer
      (.paged (covered || page.covers) (page.covers && w.cached.isSome) page))
  else none

def setTombstone (target : String) (now : ℕ) : World :=
  { w with
    tombstones := fun other =>
      if other = target then some ⟨now, w.clock + tombstoneTtl⟩ else w.tombstones other }

def advanceWriter (page : Page) : Option World :=
  match writer.stage with
  | .committed =>
    if writer.byPrefix then nextPage key w i writer false page
    else some { moveWriter w i writer .deleted with cached := none }
  | .scanning covered => nextPage key w i writer covered page
  | .paged covered found page =>
    some { moveWriter w i writer (if page.last then .deleted else .scanning covered) with
      cached := if found then none else w.cached
      lock := if page.lock then none else w.lock
      tombstones := fun other => if other ∈ page.tombstones then none else w.tombstones other }
  | .deleted => some (moveWriter w i writer (.timed w.clock))
  | .timed now => some (setTombstone (moveWriter w i writer .returned) writer.target now)
  | .returned => none

-- The calls that invalidate the key: of the key, or of a prefix up to a colon.
def isInvalidation (byPrefix : Bool) (target : String) : Bool :=
  if byPrefix then startsWith target key && target.toList.getLast? = some ':'
  else target = key

def next : Event → Option World
  | .read useLock => some { w with readers := w.readers ++ [⟨useLock, .started⟩] }
  | .commit byPrefix target =>
    if isInvalidation key byPrefix target then
      some { w with
        commits := w.commits + 1
        writers := w.writers ++ [⟨w.commits + 1, byPrefix, target, .committed⟩] }
    else none
  | .tick elapsed => some { w with clock := w.clock + elapsed }
  | .expire => some { w with cached := none }
  | .expireLock => some { w with lock := none }
  | .advanceReader i => w.readers[i]?.bind fun reader => advanceReader key w i reader
  | .advanceWriter i page =>
    w.writers[i]?.bind fun writer => advanceWriter key w i writer page

end Steps

def Step (key : String) (w : World) (event : Event) (t : World) : Prop := next key w event = some t

end AiHiring.CacheRuns
