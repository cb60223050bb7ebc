import AiHiring.Bulk.Job
import AiHiring.Library.Run

namespace AiHiring

open Library

structure ZipEntry where
  filename : String
  isDir : Bool
  deriving DecidableEq, Repr

-- `campaign_{campaign_id}/bulk-zip/{job.id}/{uuid4()}_{basename}`
structure ObjectPath where
  (campaignId jobId key : Uuid)
  basename : String
  deriving DecidableEq, Repr

-- A row of bulk_upload_job_files with its object.
structure StagedFile where
  id : Uuid
  originalFilename : String
  storagePath : ObjectPath
  status : BulkUploadFileStatus
  taskId : Uuid
  deriving DecidableEq, Repr

structure ExtractionJob where
  (id campaignId : Uuid)
  consentConfirmed : Bool
  status : BulkUploadStatus
  errorSummary : Option String
  (totalFiles queuedCount : ℕ)
  deriving DecidableEq, Repr

-- What the task does next. `failing` is the `except` branch, which knows the job or not.
inductive CleanupPoint where
  | opening
  | loading
  | refusing (summary : String)
  | starting
  | reading
  | staging (entries : List String) (staged : List StagedFile)
  | creating (staged : List StagedFile)
  | totalling (staged : List StagedFile)
  | gating (staged : List StagedFile)
  | sending (staged : List StagedFile)
  | closing
  | failing (jobKnown : Bool) (error : String)
  | cleaning (paths : List ObjectPath) (error : String)
  | recording (error : String)
  | ended
  deriving DecidableEq, Repr

-- What is committed and stored, and where the task stands. `archive` is what the download
-- gives: the entries, or the message of the `BadZipFile`.
structure ExtractionRun where
  bulkUploadJobId : Uuid
  job : Option ExtractionJob
  archive : Except String (List ZipEntry)
  campaignStatus : Option CampaignStatus
  maxFilesPerZip : ℕ
  files : List StagedFile
  (resumePaths objects : List ObjectPath)
  sent : List Uuid
  nextUuid : Uuid
  uploadedPaths : List ObjectPath
  point : CleanupPoint

namespace ExtractionRun

def junkPathPrefixes : List String := ["__MACOSX/"]

def isPrefix (start text : String) : Bool := start.toList.isPrefixOf text.toList

-- `filename.rsplit("/", 1)[-1]`
def basename (filename : String) : String :=
  String.ofList (filename.toList.reverse.takeWhile (· ≠ '/')).reverse

def realEntries (entries : List ZipEntry) : List String :=
  ((entries.filter fun entry => !entry.isDir && !junkPathPrefixes.any
    fun start => isPrefix start entry.filename).map fun entry => basename entry.filename).filter
      fun name => name ≠ "" && !isPrefix "." name

def maxFilesMessage (fileCount maxFiles : ℕ) : String :=
  s!"ZIP archive contains {fileCount} files, exceeding the {maxFiles}-file limit per bulk upload."

def pausedReason : CampaignStatus → String
  | .paused => "Campaign was paused before file processing could begin."
  | _ => "Campaign closed during upload."

section Writes

variable (w : ExtractionRun)

-- An error summary of None leaves the column.
def updateStatus (status : BulkUploadStatus) (errorSummary : Option String) : ExtractionRun :=
  { w with job := w.job.map fun job =>
      { job with status := status, errorSummary := errorSummary.or job.errorSummary } }

def setTotals (staged : List StagedFile) : ExtractionRun :=
  let w := { w with job := w.job.map fun job => { job with totalFiles := staged.length } }
  if staged = [] then
    updateStatus w .failed (some "ZIP archive contained no valid files.")
  else
    let w := updateStatus w .processing none
    { w with job := w.job.map fun job =>
        { job with queuedCount := job.queuedCount + staged.length } }

def updateFile (fileId : Uuid) (status : BulkUploadFileStatus) : ExtractionRun :=
  { w with files := w.files.map fun file =>
      if file.id = fileId then { file with status := status } else file }

def cancelStaged (staged : List StagedFile) : ExtractionRun :=
  staged.foldl (fun w file => updateFile w file.id .cancelled) w

-- One upload: the object, its path and the row that is not committed yet.
def objectPath (name : String) : ObjectPath :=
  match w.job with
  | some job => ⟨job.campaignId, job.id, w.nextUuid, name⟩
  | none => ⟨0, 0, w.nextUuid, name⟩

def stagedFile (name : String) : StagedFile :=
  ⟨w.nextUuid + 2, name, objectPath w name, .queued, w.nextUuid + 1⟩

def uploadFile (name : String) : ExtractionRun :=
  { w with
    objects := w.objects ++ [objectPath w name]
    uploadedPaths := w.uploadedPaths ++ [objectPath w name]
    nextUuid := w.nextUuid + 3 }

def atPoint (point : CleanupPoint) : ExtractionRun := { w with point := point }

end Writes

-- The next step succeeds: one commit, one storage call or one message further.
def advance (w : ExtractionRun) : ExtractionRun :=
  match w.point with
  | .opening => w.atPoint .loading
  | .loading =>
    match w.job with
    | none =>
      w.atPoint (.failing false s!"bulk_upload_jobs row {text w.bulkUploadJobId} not found.")
    | some job =>
      if job.consentConfirmed then w.atPoint .starting
      else w.atPoint (.refusing "Bulk upload rejected — consent not confirmed.")
  | .refusing summary => (updateStatus w .failed (some summary)).atPoint .closing
  | .starting => (updateStatus w .extracting none).atPoint .reading
  | .reading =>
    match w.archive with
    | .error message => w.atPoint (.refusing s!"Corrupt ZIP archive: {message}")
    | .ok entries =>
      let names := realEntries entries
      if w.maxFilesPerZip < names.length then
        w.atPoint (.refusing (maxFilesMessage names.length w.maxFilesPerZip))
      else w.atPoint (.staging names [])
  | .staging (name :: rest) staged =>
    (uploadFile w name).atPoint (.staging rest (staged ++ [stagedFile w name]))
  | .staging [] [] => w.atPoint (.totalling [])
  | .staging [] staged => w.atPoint (.creating staged)
  | .creating staged => { w with files := w.files ++ staged, point := .totalling staged }
  | .totalling staged => (setTotals w staged).atPoint (.gating staged)
  | .gating staged =>
    match w.campaignStatus with
    | some .paused =>
      (updateStatus (cancelStaged w staged) .failed (some (pausedReason .paused))).atPoint .closing
    | some .closed =>
      (updateStatus (cancelStaged w staged) .failed (some (pausedReason .closed))).atPoint .closing
    | _ => w.atPoint (.sending staged)
  | .sending (file :: rest) =>
    { w with sent := w.sent ++ [file.taskId], point := .sending rest }
  | .sending [] => w.atPoint .closing
  | .closing => w.atPoint .ended
  | .failing jobKnown error =>
    if jobKnown then w.atPoint (.cleaning w.uploadedPaths error) else w.atPoint .ended
  | .cleaning (path :: rest) error =>
    { w with objects := w.objects.filter (· ≠ path), point := .cleaning rest error }
  | .cleaning [] error => w.atPoint (.recording error)
  | .recording error => (updateStatus w .failed (some error)).atPoint .ended
  | .ended => w

-- The next step raises. A delete that raises is logged and the clean-up goes on; what else
-- raises in the `except` branch ends the task.
def raises (error : String) (w : ExtractionRun) : ExtractionRun :=
  match w.point with
  | .opening | .failing _ _ | .recording _ | .ended => w.atPoint .ended
  | .loading => w.atPoint (.failing false error)
  | .cleaning (_ :: rest) first => w.atPoint (.cleaning rest first)
  | .cleaning [] first => w.atPoint (.recording first)
  | _ => w.atPoint (.failing true error)

-- Steps of the task, and what the parse tasks and a cancel do meanwhile.
inductive Event where
  | advance
  | raises (error : String)
  | fileMoves (fileId : Uuid) (status : BulkUploadFileStatus)
  | resumeCreated (file : StagedFile)

-- A cancelled file stays cancelled; a resume is made by a parse task that was sent.
def next? (w : ExtractionRun) : Event → Option ExtractionRun
  | .advance => some w.advance
  | .raises error => some (w.raises error)
  | .fileMoves fileId status =>
    if w.files.any fun file => file.id = fileId ∧ file.status = .cancelled then none
    else some (updateFile w fileId status)
  | .resumeCreated file =>
    if file ∈ w.files ∧ file.taskId ∈ w.sent then
      some { w with resumePaths := w.resumePaths ++ [file.storagePath] }
    else none

def Step (w : ExtractionRun) (event : Event) (w' : ExtractionRun) : Prop :=
  w.next? event = some w'

-- The task has been picked up.
structure Begun (w : ExtractionRun) : Prop where
  point : w.point = .opening
  files : w.files = []
  sent : w.sent = []
  uploadedPaths : w.uploadedPaths = []
  resumes : ∀ path ∈ w.resumePaths, path ∈ w.objects
  keys : ∀ path ∈ w.objects, path.key < w.nextUuid

def Wanted (status : BulkUploadFileStatus) : Prop :=
  status = .queued ∨ status = .running ∨ status = .processed

-- No file that is wanted is gone, no orphan is left, and a FAILED job has no parse task.
structure FilesKept (start w : ExtractionRun) : Prop where
  wanted : ∀ file ∈ w.files, Wanted file.status → file.storagePath ∈ w.objects
  resumes : ∀ path ∈ w.resumePaths, path ∈ w.objects
  noOrphan : ∀ path ∈ w.objects, path ∈ start.objects ∨ ∃ file ∈ w.files, file.storagePath = path
  unsent : ∀ job ∈ w.job, job.status = .failed → w.sent = []

def Rowed (w : ExtractionRun) (path : ObjectPath) : Prop :=
  ∃ file ∈ w.files, file.storagePath = path

-- The clean-up is not reached over rows that are committed, unless all are CANCELLED and
-- nothing was sent; and nothing raises in it while an object has no row.
def CleansOrphansOnly (w : ExtractionRun) : Event → ExtractionRun → Prop
  | .advance, _ => ∀ error, w.point = .failing true error →
      w.sent = [] ∧ ∀ file ∈ w.files, file.status = .cancelled
  | .raises _, _ =>
    (∀ jobKnown error, w.point = .failing jobKnown error → ∀ path ∈ w.uploadedPaths, w.Rowed path) ∧
    ∀ path rest error, w.point = .cleaning (path :: rest) error → w.Rowed path
  | _, _ => True

section Invariant

def Stored (w : ExtractionRun) : Prop := ∀ path ∈ w.uploadedPaths, path ∈ w.objects

def AllRowed (w : ExtractionRun) : Prop := ∀ path ∈ w.uploadedPaths, w.Rowed path

def Untouched (w : ExtractionRun) : Prop := w.files = [] ∧ w.sent = []

def FailedUnsent (w : ExtractionRun) : Prop := ∀ job ∈ w.job, job.status = .failed → w.sent = []

def AllCancelled (w : ExtractionRun) : Prop :=
  w.sent = [] ∧ ∀ file ∈ w.files, file.status = .cancelled

-- What holds at each point of a run that cleans orphans only.
def Phase (w : ExtractionRun) : CleanupPoint → Prop
  | .opening | .loading | .refusing _ | .starting | .reading =>
    w.Untouched ∧ w.uploadedPaths = []
  | .staging _ staged | .creating staged =>
    w.Untouched ∧ w.Stored ∧ w.uploadedPaths = staged.map StagedFile.storagePath
  | .totalling _ => w.Stored ∧ w.AllRowed ∧ w.sent = []
  | .gating staged =>
    w.Stored ∧ w.AllRowed ∧ w.sent = [] ∧ ∀ job ∈ w.job, job.status = .failed → staged = []
  | .sending staged =>
    w.Stored ∧ w.AllRowed ∧ ∀ job ∈ w.job, job.status = .failed → staged = [] ∧ w.sent = []
  | .closing => w.Stored ∧ w.AllRowed ∧ w.FailedUnsent
  | .failing jobKnown _ =>
    w.Stored ∧ (w.AllRowed ∨ w.Untouched) ∧ w.FailedUnsent ∧
      (jobKnown = false → w.uploadedPaths = [])
  | .cleaning paths _ =>
    w.AllCancelled ∧ paths ⊆ w.uploadedPaths ∧
      ∀ path ∈ w.uploadedPaths, path ∈ w.objects → path ∈ paths ∨ w.Rowed path
  | .recording _ => w.AllCancelled ∧ ∀ path ∈ w.uploadedPaths, path ∈ w.objects → w.Rowed path
  | .ended => w.FailedUnsent ∧ ∀ path ∈ w.uploadedPaths, path ∈ w.objects → w.Rowed path

structure Kept (start w : ExtractionRun) : Prop where
  old : ∀ path ∈ start.objects, path ∈ w.objects ∧ path.key < w.nextUuid
  fresh : ∀ path ∈ w.uploadedPaths, path ∉ start.objects
  origin : ∀ path ∈ w.objects, path ∈ start.objects ∨ path ∈ w.uploadedPaths
  stocked : ∀ file ∈ w.files, file.status ≠ .cancelled ∨ file.taskId ∈ w.sent →
    file.storagePath ∈ w.objects
  paths : ∀ file ∈ w.files, file.storagePath ∈ w.uploadedPaths
  resumes : ∀ path ∈ w.resumePaths, path ∈ start.objects ∨
    ∃ file ∈ w.files, file.storagePath = path ∧ file.taskId ∈ w.sent
  phase : w.Phase w.point

variable {start w w' : ExtractionRun}

theorem kept_begun (h : Begun start) : Kept start start := by
  constructor
  · exact fun path hpath => ⟨hpath, h.keys path hpath⟩
  · rw [h.uploadedPaths]
    exact fun path hpath => absurd hpath List.not_mem_nil
  · exact fun path hpath => .inl hpath
  · rw [h.files]
    exact fun file hfile => absurd hfile List.not_mem_nil
  · rw [h.files]
    exact fun file hfile => absurd hfile List.not_mem_nil
  · exact fun path hpath => .inl (h.resumes path hpath)
  · rw [h.point]
    exact ⟨⟨h.files, h.sent⟩, h.uploadedPaths⟩

variable {fileId : Uuid} {status : BulkUploadFileStatus}

theorem mem_updateFile {file : StagedFile} (h : file ∈ (updateFile w fileId status).files) :
    ∃ old ∈ w.files, old.storagePath = file.storagePath ∧ old.taskId = file.taskId ∧
      (old.id = fileId ∧ file.status = status ∨ old.id ≠ fileId ∧ file.status = old.status) := by
  obtain ⟨old, hold, rfl⟩ := List.mem_map.mp h
  refine ⟨old, hold, ?_⟩
  by_cases hid : old.id = fileId
  · simp [hid]
  · simp [hid]

theorem rowed_updateFile {path : ObjectPath}
    (h : w.Rowed path) : (updateFile w fileId status).Rowed path := by
  obtain ⟨file, hfile, rfl⟩ := h
  refine ⟨_, List.mem_map_of_mem hfile, ?_⟩
  split_ifs <;> rfl

theorem Kept.onward (h : Kept start w) (job : Option ExtractionJob) (point : CleanupPoint)
    (hphase : ({ w with job := job } : ExtractionRun).Phase point) :
    Kept start { w with job := job, point := point } :=
  ⟨h.old, h.fresh, h.origin, h.stocked, h.paths, h.resumes, hphase⟩

theorem Kept.atPoint (h : Kept start w) (point : CleanupPoint) (hphase : w.Phase point) :
    Kept start (w.atPoint point) :=
  h.onward w.job point hphase

theorem kept_uploadFile (h : Kept start w) (name : String) (rest : List String)
    (staged : List StagedFile) (hpoint : w.point = .staging (name :: rest) staged) :
    Kept start ((uploadFile w name).atPoint (.staging rest (staged ++ [stagedFile w name]))) := by
  have hphase := h.phase
  rw [hpoint] at hphase
  obtain ⟨huntouched, hstored, huploaded⟩ := hphase
  have hkey : (objectPath w name).key = w.nextUuid := by
    unfold objectPath
    split <;> rfl
  have hobjects : ∀ path ∈ w.objects, path ∈ w.objects ++ [objectPath w name] :=
    fun path hpath => List.mem_append_left _ hpath
  constructor
  · intro path hpath
    obtain ⟨hin, hlt⟩ := h.old path hpath
    exact ⟨hobjects path hin, Nat.lt_add_right 3 hlt⟩
  · intro path hpath hold
    rcases List.mem_append.mp hpath with hpath | hpath
    · exact h.fresh path hpath hold
    · -- the key of the new object has just been drawn
      rw [List.mem_singleton.mp hpath] at hold
      exact absurd hkey (Nat.ne_of_lt (h.old _ hold).2)
  · intro path hpath
    rcases List.mem_append.mp hpath with hpath | hpath
    · exact (h.origin path hpath).imp_right fun hin => List.mem_append_left _ hin
    · exact .inr (List.mem_append_right _ hpath)
  · exact fun file hfile hstatus => hobjects _ (h.stocked file hfile hstatus)
  · exact fun file hfile => List.mem_append_left _ (h.paths file hfile)
  · exact h.resumes
  · refine ⟨huntouched, ?_, ?_⟩
    · intro path hpath
      rcases List.mem_append.mp hpath with hpath | hpath
      · exact hobjects path (hstored path hpath)
      · exact List.mem_append_right _ hpath
    · show w.uploadedPaths ++ [objectPath w name] = _
      rw [huploaded, List.map_append]
      rfl

theorem kept_creating (h : Kept start w) (staged : List StagedFile)
    (hpoint : w.point = .creating staged) :
    Kept start { w with files := w.files ++ staged, point := .totalling staged } := by
  have hphase := h.phase
  rw [hpoint] at hphase
  obtain ⟨⟨hfiles, hsent⟩, hstored, huploaded⟩ := hphase
  have hpaths : ∀ file ∈ w.files ++ staged, file.storagePath ∈ w.uploadedPaths := by
    intro file hfile
    rw [hfiles, List.nil_append] at hfile
    rw [huploaded]
    exact List.mem_map_of_mem hfile
  refine ⟨h.old, h.fresh, h.origin, ?_, hpaths, ?_, hstored, ?_, hsent⟩
  · exact fun file hfile _ => hstored _ (hpaths file hfile)
  · intro path hpath
    refine (h.resumes path hpath).imp_right ?_
    rintro ⟨file, hfile, hrest⟩
    exact ⟨file, List.mem_append_left _ hfile, hrest⟩
  · intro path hpath
    rw [huploaded] at hpath
    obtain ⟨file, hfile, rfl⟩ := List.mem_map.mp hpath
    exact ⟨file, List.mem_append_right _ hfile, rfl⟩

theorem kept_cleaning (h : Kept start w) (path : ObjectPath) (rest : List ObjectPath)
    (error : String) (hpoint : w.point = .cleaning (path :: rest) error) :
    Kept start { w with
      objects := w.objects.filter (· ≠ path)
      point := .cleaning rest error } := by
  have hphase := h.phase
  rw [hpoint] at hphase
  obtain ⟨⟨hsent, hcancelled⟩, hsubset, hleft⟩ := hphase
  have hpath : path ∈ w.uploadedPaths := hsubset List.mem_cons_self
  have hkept : ∀ other ∈ w.objects, other ≠ path → other ∈ w.objects.filter (· ≠ path) :=
    fun other hother hne => List.mem_filter.mpr ⟨hother, decide_eq_true hne⟩
  constructor
  · intro old hold
    obtain ⟨hin, hlt⟩ := h.old old hold
    refine ⟨hkept old hin ?_, hlt⟩
    rintro rfl
    exact h.fresh _ hpath hold
  · exact h.fresh
  · exact fun other hother => h.origin other (List.mem_filter.mp hother).1
  · intro file hfile hstatus
    -- every row is CANCELLED and nothing was sent
    rcases hstatus with hstatus | hstatus
    · exact absurd (hcancelled file hfile) hstatus
    · have hin : file.taskId ∈ w.sent := hstatus
      rw [hsent] at hin
      simp at hin
  · exact h.paths
  · exact h.resumes
  · refine ⟨⟨hsent, hcancelled⟩, fun other hother => hsubset (List.mem_cons_of_mem _ hother), ?_⟩
    intro other hother hin
    obtain ⟨hobject, hne⟩ := List.mem_filter.mp hin
    rcases hleft other hother hobject with hrest | hrowed
    · rcases List.mem_cons.mp hrest with rfl | hrest
      · exact absurd rfl (of_decide_eq_true hne)
      · exact .inl hrest
    · exact .inr hrowed

theorem kept_sending (h : Kept start w) (file : StagedFile) (rest : List StagedFile)
    (hpoint : w.point = .sending (file :: rest)) :
    Kept start { w with sent := w.sent ++ [file.taskId], point := .sending rest } := by
  have hphase := h.phase
  rw [hpoint] at hphase
  obtain ⟨hstored, hrowed, hfailed⟩ := hphase
  refine ⟨h.old, h.fresh, h.origin, ?_, h.paths, ?_, hstored, hrowed, ?_⟩
  · exact fun other hother _ => hstored _ (h.paths other hother)
  · intro path hpath
    refine (h.resumes path hpath).imp_right ?_
    rintro ⟨other, hother, hsame, hsent⟩
    exact ⟨other, hother, hsame, List.mem_append_left _ hsent⟩
  · intro job hjob hstatus
    exact absurd (hfailed job hjob hstatus).1 (List.cons_ne_nil file rest)

theorem exists_updateFile (fileId : Uuid) (status : BulkUploadFileStatus) {file : StagedFile}
    (h : file ∈ w.files) : ∃ moved ∈ (updateFile w fileId status).files,
      moved.storagePath = file.storagePath ∧ moved.taskId = file.taskId := by
  refine ⟨_, List.mem_map_of_mem h, ?_⟩
  split_ifs
  · exact ⟨rfl, rfl⟩
  · exact ⟨rfl, rfl⟩

theorem phase_updateFile {point : CleanupPoint}
    (hmoves : ∀ file ∈ w.files, file.id = fileId → file.status = .cancelled → status = .cancelled)
    (h : w.Phase point) : (updateFile w fileId status).Phase point := by
  have hrowed : ∀ path, w.Rowed path → (updateFile w fileId status).Rowed path :=
    fun path hpath => rowed_updateFile hpath
  have hall (hall : w.AllRowed) : (updateFile w fileId status).AllRowed :=
    fun path hpath => hrowed path (hall path hpath)
  have huntouched (hnone : w.Untouched) : (updateFile w fileId status).Untouched := by
    refine ⟨?_, hnone.2⟩
    show w.files.map _ = []
    rw [hnone.1, List.map_nil]
  have hcancelled (hgone : w.AllCancelled) : (updateFile w fileId status).AllCancelled := by
    refine ⟨hgone.1, ?_⟩
    intro file hfile
    obtain ⟨old, hold, -, -, ⟨hid, hstatus⟩ | ⟨-, hstatus⟩⟩ := mem_updateFile hfile
    · rw [hstatus]
      exact hmoves old hold hid (hgone.2 old hold)
    · rw [hstatus]
      exact hgone.2 old hold
  cases point with
  | opening => exact ⟨huntouched h.1, h.2⟩
  | loading => exact ⟨huntouched h.1, h.2⟩
  | refusing summary => exact ⟨huntouched h.1, h.2⟩
  | starting => exact ⟨huntouched h.1, h.2⟩
  | reading => exact ⟨huntouched h.1, h.2⟩
  | staging entries staged => exact ⟨huntouched h.1, h.2⟩
  | creating staged => exact ⟨huntouched h.1, h.2⟩
  | totalling staged => exact ⟨h.1, hall h.2.1, h.2.2⟩
  | gating staged => exact ⟨h.1, hall h.2.1, h.2.2⟩
  | sending staged => exact ⟨h.1, hall h.2.1, h.2.2⟩
  | closing => exact ⟨h.1, hall h.2.1, h.2.2⟩
  | failing jobKnown error => exact ⟨h.1, h.2.1.imp hall huntouched, h.2.2⟩
  | cleaning paths error =>
    exact ⟨hcancelled h.1, h.2.1, fun path hpath hin => (h.2.2 path hpath hin).imp_right
      (hrowed path)⟩
  | recording error =>
    exact ⟨hcancelled h.1, fun path hpath hin => hrowed path (h.2 path hpath hin)⟩
  | ended => exact ⟨h.1, fun path hpath hin => hrowed path (h.2 path hpath hin)⟩

-- A row moves, but not away from CANCELLED.
theorem kept_updateFile (h : Kept start w) (fileId : Uuid) (status : BulkUploadFileStatus)
    (hmoves : ∀ file ∈ w.files, file.id = fileId → file.status = .cancelled →
      status = .cancelled) : Kept start (updateFile w fileId status) := by
  constructor
  · exact h.old
  · exact h.fresh
  · exact h.origin
  · intro file hfile hstatus
    obtain ⟨old, hold, hpath, htask, hcase⟩ := mem_updateFile hfile
    rw [← hpath]
    apply h.stocked old hold
    rcases hstatus with hstatus | hstatus
    · left
      rcases hcase with ⟨hid, hnew⟩ | ⟨-, hnew⟩
      · exact fun hgone => hstatus (hnew.trans (hmoves old hold hid hgone))
      · rwa [hnew] at hstatus
    · exact .inr (htask ▸ hstatus)
  · intro file hfile
    obtain ⟨old, hold, hpath, -⟩ := mem_updateFile hfile
    rw [← hpath]
    exact h.paths old hold
  · intro path hpath
    refine (h.resumes path hpath).imp_right ?_
    rintro ⟨file, hfile, rfl, hsent⟩
    obtain ⟨moved, hmoved, hsame, htask⟩ := exists_updateFile fileId status hfile
    exact ⟨moved, hmoved, hsame, htask ▸ hsent⟩
  · exact phase_updateFile hmoves h.phase

theorem kept_cancelStaged (staged : List StagedFile) (h : Kept start w) :
    Kept start (cancelStaged w staged) ∧ (cancelStaged w staged).point = w.point ∧
      (cancelStaged w staged).sent = w.sent := by
  induction staged generalizing w with
  | nil => exact ⟨h, rfl, rfl⟩
  | cons file rest ih => exact ih (kept_updateFile h file.id .cancelled fun _ _ _ _ => rfl)

theorem updateStatus_status {status : BulkUploadStatus} {errorSummary : Option String}
    {job : ExtractionJob} (h : job ∈ (updateStatus w status errorSummary).job) :
    job.status = status := by
  obtain ⟨old, -, rfl⟩ := Option.map_eq_some_iff.mp h
  rfl

theorem kept_totalling (h : Kept start w) (staged : List StagedFile)
    (hpoint : w.point = .totalling staged) :
    Kept start ((setTotals w staged).atPoint (.gating staged)) := by
  have hphase := h.phase
  rw [hpoint] at hphase
  obtain ⟨hstored, hrowed, hsent⟩ := hphase
  unfold setTotals
  by_cases hempty : staged = []
  · rw [if_pos hempty]
    exact h.onward _ _ ⟨hstored, hrowed, hsent, fun _ _ _ => hempty⟩
  · rw [if_neg hempty]
    refine h.onward _ _ ⟨hstored, hrowed, hsent, ?_⟩
    intro job hjob hfailed
    obtain ⟨old, hold, rfl⟩ := Option.map_eq_some_iff.mp hjob
    have hprocessing : old.status = .processing := updateStatus_status hold
    exact absurd (hprocessing.symm.trans hfailed) (by decide)

theorem kept_gating (h : Kept start w) (staged : List StagedFile)
    (hpoint : w.point = .gating staged) (reason : String) :
    Kept start ((updateStatus (cancelStaged w staged) .failed (some reason)).atPoint .closing) := by
  obtain ⟨hkept, hsame, hsent⟩ := kept_cancelStaged staged h
  have hphase := hkept.phase
  rw [hsame, hpoint] at hphase
  exact hkept.onward _ _ ⟨hphase.1, hphase.2.1, fun _ _ _ => hphase.2.2.1⟩

theorem Untouched.failedUnsent (h : w.Untouched) : w.FailedUnsent := fun _ _ _ => h.2

theorem allRowed_of_empty (h : w.uploadedPaths = []) : w.AllRowed := by
  intro path hpath
  rw [h] at hpath
  simp at hpath

theorem stored_of_empty (h : w.uploadedPaths = []) : w.Stored := by
  intro path hpath
  rw [h] at hpath
  simp at hpath

-- What the `except` branch finds before the rows are committed, and after.
theorem Kept.failing_untouched (h : Kept start w) (huntouched : w.Untouched) (hstored : w.Stored)
    (jobKnown : Bool) (error : String) (hunknown : jobKnown = false → w.uploadedPaths = []) :
    Kept start (w.atPoint (.failing jobKnown error)) :=
  h.atPoint _ ⟨hstored, .inr huntouched, huntouched.failedUnsent, hunknown⟩

theorem Kept.failing_rowed (h : Kept start w) (hstored : w.Stored) (hrowed : w.AllRowed)
    (hunsent : w.FailedUnsent) (error : String) : Kept start (w.atPoint (.failing true error)) :=
  h.atPoint _ ⟨hstored, .inl hrowed, hunsent, nofun⟩

theorem kept_advance (h : Kept start w) (hguard : w.CleansOrphansOnly .advance w') :
    Kept start w.advance := by
  have hphase := h.phase
  unfold advance
  cases hpoint : w.point with
  | opening =>
    rw [hpoint] at hphase
    exact h.atPoint .loading hphase
  | loading =>
    rw [hpoint] at hphase
    dsimp only
    split
    · exact h.failing_untouched hphase.1 (stored_of_empty hphase.2) false _ fun _ => hphase.2
    · split_ifs
      · exact h.atPoint _ hphase
      · exact h.atPoint _ hphase
  | refusing summary =>
    rw [hpoint] at hphase
    exact h.onward _ _ ⟨stored_of_empty hphase.2, allRowed_of_empty hphase.2,
      fun _ _ _ => hphase.1.2⟩
  | starting =>
    rw [hpoint] at hphase
    exact h.onward _ _ hphase
  | reading =>
    rw [hpoint] at hphase
    dsimp only
    split
    · exact h.atPoint _ hphase
    · split_ifs
      · exact h.atPoint _ hphase
      · exact h.atPoint _ ⟨hphase.1, stored_of_empty hphase.2, hphase.2⟩
  | staging entries staged =>
    cases entries with
    | cons name rest => exact kept_uploadFile h name rest staged hpoint
    | nil =>
      rw [hpoint] at hphase
      cases staged with
      | nil => exact h.atPoint _ ⟨hphase.2.1, allRowed_of_empty hphase.2.2, hphase.1.2⟩
      | cons file rest => exact h.atPoint _ hphase
  | creating staged => exact kept_creating h staged hpoint
  | totalling staged => exact kept_totalling h staged hpoint
  | gating staged =>
    rw [hpoint] at hphase
    dsimp only
    split
    · exact kept_gating h staged hpoint _
    · exact kept_gating h staged hpoint _
    · exact h.atPoint _ ⟨hphase.1, hphase.2.1, fun job hjob hfailed =>
        ⟨hphase.2.2.2 job hjob hfailed, hphase.2.2.1⟩⟩
  | sending staged =>
    cases staged with
    | cons file rest => exact kept_sending h file rest hpoint
    | nil =>
      rw [hpoint] at hphase
      exact h.atPoint _ ⟨hphase.1, hphase.2.1, fun job hjob hfailed =>
        (hphase.2.2 job hjob hfailed).2⟩
  | closing =>
    rw [hpoint] at hphase
    exact h.atPoint _ ⟨hphase.2.2, fun path hpath _ => hphase.2.1 path hpath⟩
  | failing jobKnown error =>
    rw [hpoint] at hphase
    obtain ⟨-, -, hfailed, hunknown⟩ := hphase
    cases jobKnown with
    | true =>
      -- the clean-up is reached with nothing to lose
      exact h.atPoint _ ⟨hguard error hpoint, List.Subset.refl _, fun path hpath _ =>
        .inl hpath⟩
    | false =>
      exact h.atPoint _ ⟨hfailed, fun path hpath _ =>
        allRowed_of_empty (hunknown rfl) path hpath⟩
  | cleaning paths error =>
    cases paths with
    | cons path rest => exact kept_cleaning h path rest error hpoint
    | nil =>
      rw [hpoint] at hphase
      refine h.atPoint _ ⟨hphase.1, fun path hpath hin => ?_⟩
      exact (hphase.2.2 path hpath hin).resolve_left List.not_mem_nil
  | recording error =>
    rw [hpoint] at hphase
    exact h.onward _ _ ⟨fun _ _ _ => hphase.1.1, hphase.2⟩
  | ended => exact h

theorem kept_raises (error : String) (h : Kept start w)
    (hguard : w.CleansOrphansOnly (.raises error) w') : Kept start (w.raises error) := by
  have hphase := h.phase
  unfold raises
  cases hpoint : w.point with
  | opening =>
    rw [hpoint] at hphase
    exact h.atPoint _ ⟨hphase.1.failedUnsent, fun path hpath _ =>
      allRowed_of_empty hphase.2 path hpath⟩
  | loading =>
    rw [hpoint] at hphase
    exact h.failing_untouched hphase.1 (stored_of_empty hphase.2) false error fun _ => hphase.2
  | refusing summary =>
    rw [hpoint] at hphase
    exact h.failing_untouched hphase.1 (stored_of_empty hphase.2) true error nofun
  | starting =>
    rw [hpoint] at hphase
    exact h.failing_untouched hphase.1 (stored_of_empty hphase.2) true error nofun
  | reading =>
    rw [hpoint] at hphase
    exact h.failing_untouched hphase.1 (stored_of_empty hphase.2) true error nofun
  | staging entries staged =>
    rw [hpoint] at hphase
    exact h.failing_untouched hphase.1 hphase.2.1 true error nofun
  | creating staged =>
    rw [hpoint] at hphase
    exact h.failing_untouched hphase.1 hphase.2.1 true error nofun
  | totalling staged =>
    rw [hpoint] at hphase
    exact h.failing_rowed hphase.1 hphase.2.1 (fun _ _ _ => hphase.2.2) error
  | gating staged =>
    rw [hpoint] at hphase
    exact h.failing_rowed hphase.1 hphase.2.1 (fun _ _ _ => hphase.2.2.1) error
  | sending staged =>
    rw [hpoint] at hphase
    exact h.failing_rowed hphase.1 hphase.2.1
      (fun job hjob hfailed => (hphase.2.2 job hjob hfailed).2) error
  | closing =>
    rw [hpoint] at hphase
    exact h.failing_rowed hphase.1 hphase.2.1 hphase.2.2 error
  | failing jobKnown first =>
    rw [hpoint] at hphase
    exact h.atPoint _ ⟨hphase.2.2.1, fun path hpath _ =>
      hguard.1 jobKnown first hpoint path hpath⟩
  | cleaning paths first =>
    rw [hpoint] at hphase
    obtain ⟨hcancelled, hsubset, hleft⟩ := hphase
    cases paths with
    | nil =>
      refine h.atPoint _ ⟨hcancelled, fun path hpath hin => ?_⟩
      exact (hleft path hpath hin).resolve_left List.not_mem_nil
    | cons path rest =>
      refine h.atPoint _ ⟨hcancelled, fun other hother =>
        hsubset (List.mem_cons_of_mem _ hother), fun other hother hin => ?_⟩
      rcases hleft other hother hin with hrest | hrowed
      · rcases List.mem_cons.mp hrest with rfl | hrest
        · exact .inr (hguard.2 _ rest first hpoint)
        · exact .inl hrest
      · exact .inr hrowed
  | recording first =>
    rw [hpoint] at hphase
    exact h.atPoint _ ⟨fun _ _ _ => hphase.1.1, hphase.2⟩
  | ended =>
    rw [hpoint] at hphase
    exact h.atPoint _ hphase

theorem kept_step {event : Event} (h : Kept start w) (hguard : w.CleansOrphansOnly event w')
    (hstep : w.Step event w') : Kept start w' := by
  cases event with
  | advance =>
    cases hstep
    exact kept_advance h hguard
  | raises error =>
    cases hstep
    exact kept_raises error h hguard
  | fileMoves fileId status =>
    unfold Step next? at hstep
    dsimp only at hstep
    split_ifs at hstep with hgone
    cases hstep
    refine kept_updateFile h fileId status ?_
    intro file hfile hid hcancelled
    exact absurd (List.any_eq_true.mpr ⟨file, hfile, decide_eq_true ⟨hid, hcancelled⟩⟩) hgone
  | resumeCreated file =>
    unfold Step next? at hstep
    dsimp only at hstep
    split_ifs at hstep with hsent
    cases hstep
    refine ⟨h.old, h.fresh, h.origin, h.stocked, h.paths, ?_, h.phase⟩
    intro path hpath
    rcases List.mem_append.mp hpath with hpath | hpath
    · exact h.resumes path hpath
    · exact .inr ⟨file, hsent.1, (List.mem_singleton.mp hpath).symm, hsent.2⟩

theorem Kept.filesKept (h : Kept start w) (hended : w.point = .ended) : FilesKept start w := by
  have hphase := h.phase
  rw [hended] at hphase
  constructor
  · intro file hfile hwanted
    apply h.stocked file hfile
    left
    intro hcancelled
    rw [hcancelled] at hwanted
    simp [Wanted] at hwanted
  · intro path hpath
    rcases h.resumes path hpath with hold | ⟨file, hfile, rfl, hsent⟩
    · exact (h.old path hold).1
    · exact h.stocked file hfile (.inr hsent)
  · intro path hpath
    exact (h.origin path hpath).imp_right fun hin => hphase.2 path hin hpath
  · exact hphase.1

end Invariant

theorem extraction_keeps_files (start : ExtractionRun) (hbegun : Begun start)
    (path : List (Event × ExtractionRun)) (hpath : Path Step start path)
    (hguard : EveryStep CleansOrphansOnly start path) :
    ∀ w ∈ visited start path, w.point = .ended → FilesKept start w := by
  intro w hw hended
  have hkept := hpath.guarded_invariant (kept_begun hbegun) hguard
    (fun _ _ _ hkept hclean hstep => kept_step hkept hclean hstep) w hw
  exact hkept.filesKept hended

def twoFiles : ExtractionRun where
  bulkUploadJobId := 1
  job := some ⟨1, 7, true, .pending, none, 0, 0⟩
  archive := .ok [⟨"a.pdf", false⟩, ⟨"b.pdf", false⟩]
  campaignStatus := some .active
  maxFilesPerZip := 50
  files := []
  resumePaths := []
  objects := []
  sent := []
  nextUuid := 10
  uploadedPaths := []
  point := .opening

theorem twoFiles_begun : Begun twoFiles :=
  ⟨rfl, rfl, rfl, rfl, nofun, nofun⟩

def run (events : List Event) : List (Event × ExtractionRun) :=
  execute next? twoFiles events

theorem run_path (events : List Event) : Path Step twoFiles (run events) :=
  execute_path next? (fun _ _ _ h => h) twoFiles events

def uploadRaises : List Event :=
  [.advance, .advance, .advance, .advance, .advance, .raises "storage", .advance, .advance,
    .advance, .advance]

theorem extraction_keeps_files_uploadRaises :
    FilesKept twoFiles (final twoFiles (run uploadRaises)) := by
  apply extraction_keeps_files twoFiles twoFiles_begun _ (run_path uploadRaises) ?_ _
    (final_mem_visited _ _) (by decide +kernel)
  refine ⟨nofun, nofun, nofun, nofun, nofun, ⟨nofun, nofun⟩, ?_, nofun, nofun, nofun, trivial⟩
  intro error _
  exact ⟨rfl, nofun⟩

def dispatchRaises : List Event :=
  [.advance, .advance, .advance, .advance, .advance, .advance, .advance, .advance, .advance,
    .advance, .advance, .raises "broker", .advance, .advance, .advance, .advance, .advance]

theorem dispatched_file_deleted : ¬∀ start, Begun start → ∀ path, Path Step start path →
      ∀ w ∈ visited start path, w.point = .ended → FilesKept start w := by
  intro hall
  have hkept := hall twoFiles twoFiles_begun (run dispatchRaises) (run_path dispatchRaises) _
    (final_mem_visited twoFiles (run dispatchRaises)) (by decide +kernel)
  have hgone : ∃ file ∈ (final twoFiles (run dispatchRaises)).files,
      file.status = .queued ∧ file.storagePath ∉ (final twoFiles (run dispatchRaises)).objects := by
    decide +kernel
  obtain ⟨file, hfile, hqueued, hmissing⟩ := hgone
  exact hmissing (hkept.wanted file hfile (.inl hqueued))

end ExtractionRun

end AiHiring
