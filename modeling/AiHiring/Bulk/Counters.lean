import AiHiring.Bulk.Job
import AiHiring.Library.Crew
import AiHiring.Library.Run

namespace AiHiring

open Library BulkUploadJobRepository BulkUploadJobFileRepository

namespace BulkUploadFileStatus

def Resolved (status : BulkUploadFileStatus) : Prop := status = .processed ∨ status = .failed

instance resolvedDecidable (status : BulkUploadFileStatus) : Decidable status.Resolved :=
  inferInstanceAs (Decidable (status = .processed ∨ status = .failed))

end BulkUploadFileStatus

def once (column : CountColumn) : CountColumn → ℤ := fun c => if c = column then 1 else 0

-- One of the three counters was moved by one, and no other.
def CountedOnce (entry : CountColumn → ℤ) : Prop :=
  entry = once .processed ∨ entry = once .failed ∨ entry = once .duplicate

structure Exact (db : BulkDb) : Prop where
  counted : ∀ file ∈ db.files.rows, file.status.Resolved → CountedOnce (db.ledger file.id)
  uncounted : ∀ file ∈ db.files.rows, ¬file.status.Resolved → db.ledger file.id = 0
  resolved : db.job.resolved = (db.files.rows.countP (·.status.Resolved) : ℤ)
  bounded : db.job.resolved ≤ db.job.totalFiles

-- The ledger is right for every file, and the counters are its column sums.
structure Balanced (db : BulkDb) : Prop where
  counted : ∀ file ∈ db.files.rows, file.status.Resolved → CountedOnce (db.ledger file.id)
  uncounted : ∀ file ∈ db.files.rows, ¬file.status.Resolved → db.ledger file.id = 0
  unknown : ∀ id, getById db id = none → db.ledger id = 0
  books : ∀ column, column ≠ .queued →
    db.job.count column = ((db.files.rows.map (·.id)).map fun id => db.ledger id column).sum

theorem CountedOnce.total {entry : CountColumn → ℤ} (h : CountedOnce entry) :
    entry .processed + entry .failed + entry .duplicate = 1 := by
  rcases h with rfl | rfl | rfl <;> rfl

variable {column : CountColumn}

theorem countedOnce_update (hcolumn : column ≠ .queued) :
    CountedOnce (Function.update (0 : CountColumn → ℤ) column (0 + 1)) := by
  have honce : Function.update (0 : CountColumn → ℤ) column (0 + 1) = once column := by
    funext c
    by_cases hc : c = column
    · subst hc
      simp [once]
    · simp [once, hc]
  rw [honce]
  cases column with
  | queued => exact absurd rfl hcolumn
  | processed => exact .inl rfl
  | failed => exact .inr (.inl rfl)
  | duplicate => exact .inr (.inr rfl)

theorem update_once (column : CountColumn) (n : ℤ) (hn : n = 0) :
    Function.update (once column) column n = 0 := by
  funext c
  by_cases hc : c = column
  · subst hc
    simpa using hn
  · simp [once, hc]

theorem CountedOnce.failed_eq {entry : CountColumn → ℤ} (h : CountedOnce entry)
    (hfailed : entry .failed = 1) : entry = once .failed := by
  rcases h with rfl | rfl | rfl
  · exact absurd hfailed (by decide)
  · rfl
  · exact absurd hfailed (by decide)

section Sums

variable {db : BulkDb}

theorem resolved_eq_sum (h : Balanced db) :
    db.job.resolved = (db.files.rows.map fun file => db.ledger file.id .processed +
      db.ledger file.id .failed + db.ledger file.id .duplicate).sum := by
  have hp := h.books .processed (by decide)
  have hf := h.books .failed (by decide)
  have hd := h.books .duplicate (by decide)
  rw [List.map_map] at hp hf hd
  rw [List.sum_map_add, List.sum_map_add]
  unfold BulkUploadJob.resolved
  exact congrArg₂ _ (congrArg₂ _ hp hf) hd

theorem Balanced.resolved (h : Balanced db) :
    db.job.resolved = (db.files.rows.countP (·.status.Resolved) : ℤ) := by
  rw [resolved_eq_sum h]
  have hrows : ∀ rows : List BulkUploadJobFile, (∀ file ∈ rows, file ∈ db.files.rows) →
      (rows.map fun file => db.ledger file.id .processed + db.ledger file.id .failed +
        db.ledger file.id .duplicate).sum = (rows.countP (·.status.Resolved) : ℤ) := by
    intro rows hsub
    induction rows with
    | nil => rfl
    | cons file rest ih =>
      have hfile := hsub file List.mem_cons_self
      have hrest := ih fun x hx => hsub x (List.mem_cons_of_mem _ hx)
      rw [List.map_cons, List.sum_cons, hrest]
      by_cases hresolved : file.status.Resolved
      · have hone := (h.counted file hfile hresolved).total
        rw [hone, List.countP_cons_of_pos (by simpa using hresolved)]
        push_cast
        omega
      · have hzero := h.uncounted file hfile hresolved
        rw [hzero, List.countP_cons_of_neg (by simpa using hresolved)]
        simp
  exact hrows db.files.rows fun file hfile => hfile

theorem Balanced.exact (h : Balanced db) (htotal : db.job.totalFiles = db.files.rows.length) :
    Exact db where
  counted := h.counted
  uncounted := h.uncounted
  resolved := h.resolved
  bounded := by
    rw [h.resolved, htotal]
    exact_mod_cast List.countP_le_length

end Sums

section Files

variable {db : BulkDb} {id : Uuid}

def Unresolved (db : BulkDb) (id : Uuid) : Prop :=
  ∃ file, getById db id = some file ∧ ¬file.status.Resolved

def Processed (db : BulkDb) (id : Uuid) : Prop :=
  ∃ file, getById db id = some file ∧ file.status = .processed

theorem Unresolved.not_processed (h : Unresolved db id) : ¬Processed db id := by
  obtain ⟨file, hfile, hunresolved⟩ := h
  rintro ⟨file', hfile', hprocessed⟩
  cases hfile.symm.trans hfile'
  exact hunresolved (.inl hprocessed)

theorem Unresolved.ledger (h : Unresolved db id) (hbalanced : Balanced db) : db.ledger id = 0 := by
  obtain ⟨file, hfile, hunresolved⟩ := h
  obtain ⟨hmem, rfl⟩ := (db.files.find?_eq_some _ _).mp hfile
  exact hbalanced.uncounted file hmem hunresolved

variable {selected : BulkUploadJobFile → Bool} {status : BulkUploadFileStatus}
  {taskId : Option String}

theorem getById_update : getById (update db selected status taskId) id =
      (getById db id).map (setValues selected status taskId) :=
  db.files.find?_modify _ (setValues_id selected status taskId) id

theorem getById_update_eq_none :
    getById (update db selected status taskId) id = none ↔ getById db id = none := by
  rw [getById_update, Option.map_eq_none_iff]

theorem update_ids :
    (update db selected status taskId).files.rows.map (·.id) = db.files.rows.map (·.id) := by
  change (db.files.rows.map _).map _ = _
  rw [List.map_map]
  exact List.map_congr_left fun file _ => setValues_id selected status taskId file

theorem mem_update {file : BulkUploadJobFile}
    (h : file ∈ (update db selected status taskId).files.rows) :
    ∃ old ∈ db.files.rows, old.id = file.id ∧
      (selected old = true ∧ file.status = status ∨ selected old = false ∧ file = old) := by
  obtain ⟨old, hold, rfl⟩ := List.mem_map.mp h
  refine ⟨old, hold, (setValues_id selected status taskId old).symm, ?_⟩
  cases hs : selected old with
  | true => exact .inl ⟨rfl, by rw [setValues, if_pos hs]⟩
  | false => exact .inr ⟨rfl, by simp [setValues, hs]⟩

theorem unresolved_update (h : Unresolved db id)
    (hstatus : ∀ file, getById db id = some file → selected file = true → ¬status.Resolved) :
    Unresolved (update db selected status taskId) id := by
  obtain ⟨file, hfile, hunresolved⟩ := h
  refine ⟨_, by rw [getById_update, hfile]; rfl, ?_⟩
  cases hs : selected file with
  | true => simpa [setValues, hs] using hstatus file hfile hs
  | false => simpa [setValues, hs] using hunresolved

theorem processed_update (h : Processed db id)
    (hnot : ∀ file, getById db id = some file → file.status = .processed → selected file = false) :
    Processed (update db selected status taskId) id := by
  obtain ⟨file, hfile, hprocessed⟩ := h
  refine ⟨_, by rw [getById_update, hfile]; rfl, ?_⟩
  simpa [setValues, hnot file hfile hprocessed] using hprocessed

theorem unresolved_files {db' : BulkDb} (hfiles : db'.files = db.files) :
    Unresolved db' id ↔ Unresolved db id := by
  unfold Unresolved getById
  rw [hfiles]

theorem processed_files {db' : BulkDb} (hfiles : db'.files = db.files) :
    Processed db' id ↔ Processed db id := by
  unfold Processed getById
  rw [hfiles]

theorem count_atomicIncrement (column c : CountColumn) (amount : ℤ) :
    (atomicIncrement db column amount).job.count c =
      db.job.count c + if c = column then amount else 0 := by
  cases column <;> cases c <;> simp [atomicIncrement, BulkUploadJob.count]

theorem balanced_job (h : Balanced db) {db' : BulkDb} (hfiles : db'.files = db.files)
    (hledger : db'.ledger = db.ledger)
    (hcount : ∀ column, column ≠ .queued → db'.job.count column = db.job.count column) :
    Balanced db' where
  counted := by
    rw [hfiles, hledger]
    exact h.counted
  uncounted := by
    rw [hfiles, hledger]
    exact h.uncounted
  unknown := by
    unfold getById
    rw [hfiles, hledger]
    exact h.unknown
  books := by
    intro column hcolumn
    rw [hcount column hcolumn, hfiles, hledger]
    exact h.books column hcolumn

-- Files that are not resolved stay so.
theorem balanced_update (h : Balanced db)
    (hold : ∀ file ∈ db.files.rows, selected file = true → ¬file.status.Resolved)
    (hnew : ¬status.Resolved) : Balanced (update db selected status taskId) where
  counted := by
    intro file hfile hresolved
    obtain ⟨old, hmem, hid, ⟨hs, hstatus⟩ | ⟨hs, rfl⟩⟩ := mem_update hfile
    · exact absurd (hstatus ▸ hresolved) hnew
    · exact h.counted file hmem hresolved
  uncounted := by
    intro file hfile hresolved
    obtain ⟨old, hmem, hid, ⟨hs, hstatus⟩ | ⟨hs, rfl⟩⟩ := mem_update hfile
    · rw [← hid]
      exact h.uncounted old hmem (hold old hmem hs)
    · exact h.uncounted file hmem hresolved
  unknown := by
    intro id hid
    exact h.unknown id (getById_update_eq_none.mp hid)
  books := by
    intro column hcolumn
    rw [update_ids]
    exact h.books column hcolumn

theorem balanced_enter (h : Balanced db) {amount : ℤ}
    (hcolumn : column ≠ .queued) (hid : id ∈ db.files.rows.map (·.id))
    (hselected : ∀ file ∈ db.files.rows, selected file = true ↔ file.id = id)
    (hcounted : status.Resolved →
      CountedOnce (Function.update (db.ledger id) column (db.ledger id column + amount)))
    (huncounted : ¬status.Resolved →
      Function.update (db.ledger id) column (db.ledger id column + amount) = 0) :
    Balanced (enter (update db selected status taskId) id column amount) := by
  have hrow (file : BulkUploadJobFile)
      (hfile : file ∈ (update db selected status taskId).files.rows) :
      file.id = id ∧ file.status = status ∨ file.id ≠ id ∧ file ∈ db.files.rows := by
    obtain ⟨old, hmem, hold, ⟨hs, hstatus⟩ | ⟨hs, rfl⟩⟩ := mem_update hfile
    · exact .inl ⟨hold ▸ (hselected old hmem).mp hs, hstatus⟩
    · refine .inr ⟨fun he => ?_, hmem⟩
      rw [(hselected file hmem).mpr he] at hs
      exact Bool.noConfusion hs
  constructor
  case counted =>
    intro file hfile hresolved
    change CountedOnce (Function.update db.ledger id _ file.id)
    obtain ⟨hkey, hstatus⟩ | ⟨hkey, hmem⟩ := hrow file hfile
    · rw [hkey, Function.update_self]
      exact hcounted (hstatus ▸ hresolved)
    · rw [Function.update_of_ne hkey]
      exact h.counted file hmem hresolved
  case uncounted =>
    intro file hfile hresolved
    change Function.update db.ledger id _ file.id = 0
    obtain ⟨hkey, hstatus⟩ | ⟨hkey, hmem⟩ := hrow file hfile
    · rw [hkey, Function.update_self]
      exact huncounted (hstatus ▸ hresolved)
    · rw [Function.update_of_ne hkey]
      exact h.uncounted file hmem hresolved
  case unknown =>
    intro k hk
    have hnone : getById db k = none := getById_update_eq_none.mp hk
    have hne : k ≠ id := by
      rintro rfl
      obtain ⟨file, hfile, hkey⟩ := List.mem_map.mp hid
      have hsome : getById db k = some file := (db.files.find?_eq_some _ _).mpr ⟨hfile, hkey⟩
      rw [hnone] at hsome
      simp at hsome
    change Function.update db.ledger id _ k = 0
    rw [Function.update_of_ne hne]
    exact h.unknown k hnone
  case books =>
    intro c hc
    have hrows : (enter (update db selected status taskId) id column
        amount).files.rows.map (·.id) = db.files.rows.map (·.id) :=
      update_ids
    have hcount : (enter (update db selected status taskId) id column amount).job.count c =
        db.job.count c + if c = column then amount else 0 := count_atomicIncrement column c amount
    rw [hrows, hcount, h.books c hc]
    change _ = ((db.files.rows.map (·.id)).map fun k => Function.update db.ledger id
      (Function.update (db.ledger id) column (db.ledger id column + amount)) k c).sum
    by_cases he : c = column
    · subst he
      have hentry : (fun k => Function.update db.ledger id
          (Function.update (db.ledger id) c (db.ledger id c + amount)) k c) =
          Function.update (fun k => db.ledger k c) id (db.ledger id c + amount) := by
        funext k
        by_cases hk : k = id
        · subst hk
          simp
        · simp [hk]
      rw [hentry, Table.sum_map_update _ db.files.nodup (fun k => db.ledger k c) hid amount,
        if_pos rfl]
    · have hentry : (fun k => Function.update db.ledger id
          (Function.update (db.ledger id) column (db.ledger id column + amount)) k c) =
          fun k => db.ledger k c := by
        funext k
        by_cases hk : k = id
        · subst hk
          simp [he]
        · simp [hk]
      rw [hentry, if_neg he, add_zero]

end Files

def ParsePoint.owns : ParsePoint → Bool
  | sent _ | claimed _ | working _ | handling _ _ _ | failing _ => true
  | _ => false

def ParsePoint.succeeded : ParsePoint → Bool
  | counted true | closing true _ | closed true | failingAgain => true
  | _ => false

namespace BulkActivity

-- The file whose outcome the activity has still to record.
def owner : BulkActivity → Option Uuid
  | parsing file _ point => if point.owns then some file else none
  | requeued file _ => some file
  | _ => none

-- The file that the activity has recorded as PROCESSED.
def succeeded : BulkActivity → Option Uuid
  | parsing file _ point => if point.succeeded then some file else none
  | _ => none

end BulkActivity

namespace ExtractionPoint

-- The files whose message has still to be sent.
def unsent : ExtractionPoint → List Uuid
  | totalling staged | gating staged | sending staged => staged.map (·.id)
  | _ => []

end ExtractionPoint

open BulkActivity

-- One activity at most is in charge of a file, and only while it is not resolved.
structure Kept (w : BulkWorld) : Prop where
  balanced : Balanced w.db
  sole : SoleOwner owner w.crew
  owned : ∀ a ∈ w.crew, ∀ file, a.owner = some file → Unresolved w.db file
  succeeded : ∀ a ∈ w.crew, ∀ file, a.succeeded = some file → Processed w.db file
  distinct : w.extraction.unsent.Nodup
  unsent : ∀ file ∈ w.extraction.unsent, Unresolved w.db file
  free : ∀ file ∈ w.extraction.unsent, ∀ a ∈ w.crew, a.owner ≠ some file

section Kept

variable {w : BulkWorld} {index : ℕ} {a : BulkActivity}

variable {a' : BulkActivity}

theorem Kept.move (h : Kept w) (hi : w.crew[index]? = some a) {db : BulkDb}
    (hbalanced : Balanced db)
    (hopen : ∀ file, Unresolved w.db file → a.owner ≠ some file → Unresolved db file)
    (hprocessed : ∀ file, Processed w.db file → Processed db file)
    (howner : ∀ file, a'.owner = some file →
      Unresolved db file ∧ (a.owner = some file ∨ ¬Unresolved w.db file))
    (hsucceeded : ∀ file, a'.succeeded = some file → a.succeeded = some file ∨ Processed db file) :
    Kept ⟨db, w.extraction, w.crew.set index a'⟩ where
  balanced := hbalanced
  sole := by
    apply h.sole.set hi
    intro file hfile
    refine (howner file hfile).2.imp_right fun hresolved x hx hxfile => ?_
    exact hresolved (h.owned x hx file hxfile)
  owned := by
    intro x hx file hfile
    obtain ⟨j, hj⟩ := List.mem_iff_getElem?.mp hx
    obtain ⟨hlt, -⟩ := List.getElem?_eq_some_iff.mp hi
    by_cases hij : index = j
    · subst hij
      rw [List.getElem?_set_self hlt] at hj
      cases hj
      exact (howner file hfile).1
    · rw [List.getElem?_set_ne hij] at hj
      apply hopen file (h.owned x (List.mem_of_getElem? hj) file hfile)
      intro ha
      exact hij (h.sole index j a x file hi hj ha hfile)
  succeeded := by
    intro x hx file hfile
    rcases mem_of_mem_set hx with rfl | hx
    · rcases hsucceeded file hfile with ha | hdone
      · exact hprocessed file (h.succeeded a (List.mem_of_getElem? hi) file ha)
      · exact hdone
    · exact hprocessed file (h.succeeded x hx file hfile)
  distinct := h.distinct
  unsent := by
    intro file hfile
    exact hopen file (h.unsent file hfile) (h.free file hfile a (List.mem_of_getElem? hi))
  free := by
    intro file hfile x hx
    rcases mem_of_mem_set hx with rfl | hx
    · intro howned
      rcases (howner file howned).2 with ha | hresolved
      · exact h.free file hfile a (List.mem_of_getElem? hi) ha
      · exact hresolved (h.unsent file hfile)
    · exact h.free file hfile x hx

theorem Kept.pass (h : Kept w) (hi : w.crew[index]? = some a) {db : BulkDb}
    (hfiles : db.files = w.db.files) (hledger : db.ledger = w.db.ledger)
    (hcount : ∀ column, column ≠ .queued → db.job.count column = w.db.job.count column)
    (howner : ∀ file, a'.owner = some file → a.owner = some file)
    (hsucceeded : ∀ file, a'.succeeded = some file → a.succeeded = some file) :
    Kept ⟨db, w.extraction, w.crew.set index a'⟩ := by
  apply h.move hi (balanced_job h.balanced hfiles hledger hcount)
  · exact fun file hunresolved _ => (unresolved_files hfiles).mpr hunresolved
  · exact fun file => (processed_files hfiles).mpr
  · intro file hfile
    have ha := howner file hfile
    have hunresolved := h.owned a (List.mem_of_getElem? hi) file ha
    exact ⟨(unresolved_files hfiles).mpr hunresolved, .inl ha⟩
  · exact fun file hfile => .inl (hsucceeded file hfile)

theorem Kept.hire (h : Kept w) (ha : ∀ file, a.owner = some file → Unresolved w.db file ∧
      file ∉ w.extraction.unsent ∧ ∀ x ∈ w.crew, x.owner ≠ some file)
    (hsucceeded : a.succeeded = none) :
    Kept { w with crew := w.crew ++ [a] } where
  balanced := h.balanced
  sole := h.sole.hire fun file hfile => (ha file hfile).2.2
  owned := by
    intro x hx file hfile
    rcases List.mem_append.mp hx with hx | hx
    · exact h.owned x hx file hfile
    · rw [List.mem_singleton.mp hx] at hfile
      exact (ha file hfile).1
  succeeded := by
    intro x hx file hfile
    rcases List.mem_append.mp hx with hx | hx
    · exact h.succeeded x hx file hfile
    · rw [List.mem_singleton.mp hx, hsucceeded] at hfile
      simp at hfile
  distinct := h.distinct
  unsent := h.unsent
  free := by
    intro file hfile x hx
    rcases List.mem_append.mp hx with hx | hx
    · exact h.free file hfile x hx
    · rw [List.mem_singleton.mp hx]
      exact fun howned => (ha file howned).2.1 hfile

theorem Kept.record (h : Kept w) (hi : w.crew[index]? = some a)
    {file : Uuid} {status : BulkUploadFileStatus}
    (howned : a.owner = some file) (hcolumn : column ≠ .queued) (hresolved : status.Resolved)
    (howner : a'.owner = none)
    (hsucceeded : ∀ k, a'.succeeded = some k → k = file ∧ status = .processed) :
    Kept ⟨enter (updateStatus w.db file status) file column 1, w.extraction,
      w.crew.set index a'⟩ := by
  have hunresolved := h.owned a (List.mem_of_getElem? hi) file howned
  obtain ⟨row, hrow, hstatus⟩ := id hunresolved
  obtain ⟨hmem, hid⟩ := (w.db.files.find?_eq_some _ _).mp hrow
  refine h.move hi ?_ ?_ ?_ ?_ ?_
  · apply balanced_enter h.balanced hcolumn (List.mem_map.mpr ⟨row, hmem, hid⟩)
    · intro other _
      exact decide_eq_true_iff
    · intro _
      rw [hunresolved.ledger h.balanced]
      exact countedOnce_update hcolumn
    · exact fun hnot => absurd hresolved hnot
  · intro k hk hne
    apply unresolved_update hk
    intro other hother hselected
    obtain ⟨-, hkey⟩ := (w.db.files.find?_eq_some _ _).mp hother
    have hfile : other.id = file := of_decide_eq_true hselected
    exact absurd (howned.trans (congrArg some (hfile.symm.trans hkey))) hne
  · intro k hk
    apply processed_update hk
    intro other hother hprocessed
    obtain ⟨-, hkey⟩ := (w.db.files.find?_eq_some _ _).mp hother
    have hne : other.id ≠ file := by
      intro he
      have hsame : k = file := hkey.symm.trans he
      exact hunresolved.not_processed (hsame ▸ hk)
    exact decide_eq_false hne
  · intro k hk
    rw [howner] at hk
    simp at hk
  · intro k hk
    obtain ⟨rfl, rfl⟩ := hsucceeded k hk
    have hset : setValues (fun other => other.id = k) .processed none row =
        { row with status := .processed } := by
      simp [setValues, hid]
    refine .inr ⟨{ row with status := .processed }, ?_, rfl⟩
    exact getById_update.trans (by rw [hrow, Option.map_some, hset])

end Kept

-- The failure branch records a file that is not recorded as PROCESSED, and a
-- replay takes back a failure that failed_count has counted.
def BulkActivity.CountsOnce (db : BulkDb) : BulkActivity → Prop
  | parsing file _ (.failing _) => ¬Processed db file
  | parsing file _ .failingAgain => ¬Processed db file
  | replaying file _ _ => ∀ row, getById db file = some row → row.status = .failed →
      db.ledger file .failed = 1
  | _ => True

section Advance

variable {w : BulkWorld} {index : ℕ} {file : Uuid} {taskId : String}

theorem kept_start {attempt : ℕ} (h : Kept w)
    (hi : w.crew[index]? = some (.parsing file taskId (.sent attempt))) :
    Kept ⟨(tryStartProcessing w.db file).1, w.extraction,
      w.crew.set index (.parsing file taskId (.claimed attempt))⟩ := by
  have hrunning : ¬BulkUploadFileStatus.running.Resolved := by decide
  have hfree (row : BulkUploadJobFile) (hselected : canStart file row = true) :
      ¬row.status.Resolved := by
    obtain ⟨-, hstatus⟩ := of_decide_eq_true hselected
    rintro (hresolved | hresolved) <;> rw [hresolved] at hstatus <;> simp at hstatus
  have hunresolved : Unresolved w.db file := h.owned _ (List.mem_of_getElem? hi) file rfl
  refine h.move hi ?_ ?_ ?_ ?_ ?_
  · exact balanced_update h.balanced (fun row _ => hfree row) hrunning
  · exact fun k hk _ => unresolved_update hk fun _ _ _ => hrunning
  · intro k hk
    apply processed_update hk
    intro row _ hprocessed
    by_contra hselected
    exact hfree row (by simpa using hselected) (.inl hprocessed)
  · rintro k ⟨⟩
    exact ⟨unresolved_update hunresolved fun _ _ _ => hrunning, .inl rfl⟩
  · exact fun k hk => absurd hk (by simp [succeeded, ParsePoint.succeeded])

theorem kept_cancel (h : Kept w) (hi : w.crew[index]? = some .cancelling) :
    Kept ⟨BulkUploadService.cancelJob w.db, w.extraction, w.crew.set index .done⟩ := by
  have hcancelled : ¬BulkUploadFileStatus.cancelled.Resolved := by decide
  have hbalanced : Balanced (cancelQueuedFiles w.db) := by
    apply balanced_update h.balanced _ hcancelled
    intro row _ hselected
    have hstatus : row.status = .queued := of_decide_eq_true hselected
    rw [hstatus]
    decide
  refine h.move hi (balanced_job hbalanced rfl rfl fun column _ => by cases column <;> rfl) ?_ ?_ ?_ ?_
  · exact fun k hk _ => unresolved_update hk fun _ _ _ => hcancelled
  · intro k hk
    apply processed_update hk
    intro row _ hprocessed
    simp [hprocessed]
  · exact fun k hk => absurd hk (by simp [owner])
  · exact fun k hk => absurd hk (by simp [succeeded])

theorem replayFailedFile_eq_some {db db' : BulkDb} {jobStatus : BulkUploadStatus}
    (h : BulkUploadService.replayFailedFile db file taskId jobStatus = some db') :
    (∃ row, getById db file = some row ∧ row.status = .failed) ∧
      ∃ status, db' = BulkUploadJobRepository.updateStatus
        (decrementFailedCount (requeueForReplay db file taskId).1 file) status ∧
        (jobStatus ≠ .processing → status = .processing) ∧
        (jobStatus = .processing → status = db.job.status) := by
  unfold BulkUploadService.replayFailedFile at h
  cases hany : db.files.rows.any (canRequeue file) with
  | false => simp [requeueForReplay, hany] at h
  | true =>
    obtain ⟨row, hmem, hrow⟩ := List.any_eq_true.mp hany
    obtain ⟨hid, hfailed⟩ := of_decide_eq_true hrow
    simp only [requeueForReplay, hany, Option.some.injEq] at h
    refine ⟨⟨row, (db.files.find?_eq_some _ _).mpr ⟨hmem, hid⟩, hfailed⟩, ?_⟩
    by_cases hjob : jobStatus = .processing
    · rw [if_neg (not_not.mpr hjob)] at h
      exact ⟨db.job.status, h.symm, fun hnot => absurd hjob hnot, fun _ => rfl⟩
    · rw [if_pos hjob] at h
      exact ⟨.processing, h.symm, fun _ => rfl, fun hp => absurd hp hjob⟩

theorem kept_replay {db' : BulkDb} {jobStatus : BulkUploadStatus} (h : Kept w)
    (hi : w.crew[index]? = some (.replaying file taskId jobStatus))
    (hdb : BulkUploadService.replayFailedFile w.db file taskId jobStatus = some db')
    (hguard : ∀ row, getById w.db file = some row → row.status = .failed →
      w.db.ledger file .failed = 1) :
    Kept ⟨db', w.extraction, w.crew.set index (.requeued file taskId)⟩ := by
  obtain ⟨⟨row, hrow, hfailed⟩, status, rfl, -⟩ := replayFailedFile_eq_some hdb
  obtain ⟨hmem, hid⟩ := (w.db.files.find?_eq_some _ _).mp hrow
  have hqueued : ¬BulkUploadFileStatus.queued.Resolved := by decide
  have hresolved : row.status.Resolved := .inr hfailed
  have hentry : w.db.ledger file = once .failed := by
    apply CountedOnce.failed_eq _ (hguard row hrow hfailed)
    rw [← hid]
    exact h.balanced.counted row hmem hresolved
  have hselected (other : BulkUploadJobFile) (hother : other ∈ w.db.files.rows) :
      canRequeue file other = true ↔ other.id = file := by
    constructor
    · exact fun hs => (of_decide_eq_true hs).1
    · intro hother'
      have hsame : other = row :=
        w.db.files.eq_of_key_eq hother hmem (hother'.trans hid.symm)
      rw [hsame]
      exact decide_eq_true ⟨hid, hfailed⟩
  have hbalanced : Balanced (decrementFailedCount (requeueForReplay w.db file taskId).1 file) := by
    apply balanced_enter h.balanced (by decide) (List.mem_map.mpr ⟨row, hmem, hid⟩) hselected
    · exact fun hresolved => absurd hresolved hqueued
    · intro _
      rw [hentry]
      exact update_once _ _ (by decide)
  refine h.move hi (balanced_job hbalanced rfl rfl fun column _ => by cases column <;> rfl) ?_ ?_ ?_ ?_
  · exact fun k hk _ => unresolved_update hk fun _ _ _ => hqueued
  · intro k hk
    apply processed_update hk
    intro other _ hprocessed
    simp [canRequeue, hprocessed]
  · rintro k ⟨⟩
    constructor
    · refine ⟨setValues (canRequeue file) .queued (some taskId) row, ?_, ?_⟩
      · exact getById_update.trans (by rw [hrow, Option.map_some])
      · simpa [setValues, (hselected row hmem).mpr hid] using hqueued
    · right
      rintro ⟨other, hother, hunresolved⟩
      cases hrow.symm.trans hother
      exact hunresolved hresolved
  · exact fun k hk => absurd hk (by simp [succeeded])

theorem kept_advance {a : BulkActivity} {outcome : FileOutcome} (h : Kept w)
    (hi : w.crew[index]? = some a) (hguard : a.CountsOnce w.db) :
    Kept ⟨(a.advance w.db outcome).1, w.extraction,
      w.crew.set index (a.advance w.db outcome).2⟩ := by
  -- a step that writes nothing about the files
  have hpass (a' : BulkActivity) (howner : ∀ k, a'.owner = some k → a.owner = some k)
      (hsucceeded : ∀ k, a'.succeeded = some k → a.succeeded = some k) :
      Kept ⟨w.db, w.extraction, w.crew.set index a'⟩ :=
    h.pass hi rfl rfl (fun _ _ => rfl) howner hsucceeded
  have hdone : Kept ⟨w.db, w.extraction, w.crew.set index .done⟩ :=
    hpass .done (fun k hk => by simp [owner] at hk) (fun k hk => by simp [succeeded] at hk)
  cases a with
  | done => exact hdone
  | cancelling => exact kept_cancel h hi
  | requeued file taskId =>
    exact hpass _ (fun k hk => hk) fun k hk => nomatch hk
  | checkingReplay file taskId jobStatus =>
    rw [advance]
    split_ifs
    · exact hpass _ (fun k hk => by simp [owner] at hk) fun k hk => by simp [succeeded] at hk
    · exact hdone
  | replaying file taskId jobStatus =>
    rw [advance]
    cases hdb : BulkUploadService.replayFailedFile w.db file taskId jobStatus with
    | none => exact hdone
    | some db' => exact kept_replay h hi hdb hguard
  | parsing file taskId point =>
    have hsame (point' : ParsePoint) (howns : point'.owns = true → point.owns = true)
        (hsucceeded : point'.succeeded = true → point.succeeded = true) :
        Kept ⟨w.db, w.extraction, w.crew.set index (.parsing file taskId point')⟩ := by
      apply hpass
      · intro k hk
        simp only [owner, Option.ite_none_right_eq_some] at hk ⊢
        exact ⟨howns hk.1, hk.2⟩
      · intro k hk
        simp only [succeeded, Option.ite_none_right_eq_some] at hk ⊢
        exact ⟨hsucceeded hk.1, hk.2⟩
    have hfailed : BulkUploadFileStatus.failed.Resolved := .inr rfl
    have hprocessed : BulkUploadFileStatus.processed.Resolved := .inl rfl
    cases point with
    | sent attempt =>
      rw [advance]
      cases hstart : tryStartProcessing w.db file with
      | mk db claimed =>
        cases claimed with
        | false => exact hdone
        | true =>
          have hkept := kept_start h hi
          rw [hstart] at hkept
          exact hkept
    | claimed attempt => exact hsame _ (fun _ => rfl) fun hs => hs
    | working attempt =>
      have hsucceeded (k : Uuid)
          (hk : (BulkActivity.parsing file taskId (.counted true)).succeeded = some k) :
          k = file ∧ BulkUploadFileStatus.processed = .processed :=
        ⟨(Option.some.inj hk).symm, rfl⟩
      cases outcome with
      | processed => exact h.record hi rfl (by decide) hprocessed rfl hsucceeded
      | duplicateFile => exact h.record hi rfl (by decide) hprocessed rfl hsucceeded
      | stageFails stage classification => exact hsame _ (fun _ => rfl) fun hs => hs
      | alreadyLinked => exact hsame _ (fun _ => rfl) fun hs => hs
    | handling attempt stage classification =>
      rw [advance]
      split_ifs
      · exact h.pass hi rfl rfl (fun _ _ => rfl) (fun k hk => hk) fun k hk => hk
      · exact hsame _ (fun _ => rfl) fun hs => hs
    | failing isDuplicate =>
      have hsucceeded (k : Uuid)
          (hk : (BulkActivity.parsing file taskId (.counted false)).succeeded = some k) :
          k = file ∧ BulkUploadFileStatus.failed = .processed := nomatch hk
      cases isDuplicate with
      | false => exact h.record hi rfl (by decide) hfailed rfl hsucceeded
      | true => exact h.record hi rfl (by decide) hfailed rfl hsucceeded
    | counted succeeded =>
      rw [advance]
      split
      · exact hsame _ (fun ho => nomatch ho) fun hs => by cases succeeded <;> trivial
      · exact hsame _ (fun ho => nomatch ho) fun hs => by cases succeeded <;> trivial
    | closing succeeded status =>
      refine h.pass hi ?_ ?_ ?_ ?_ ?_
      · rfl
      · rfl
      · intro column _
        cases column <;> rfl
      · exact fun k hk => nomatch hk
      · intro k hk
        cases succeeded with
        | false => exact nomatch hk
        | true => exact hk
    | closed succeeded => exact hdone
    | failingAgain =>
      -- excluded: its file is PROCESSED
      exact absurd (h.succeeded _ (List.mem_of_getElem? hi) file rfl) hguard

theorem kept_raises {a : BulkActivity} (h : Kept w) (hi : w.crew[index]? = some a) :
    Kept { w with crew := w.crew.set index a.raises } := by
  have howner (k : Uuid) (hk : a.raises.owner = some k) : a.owner = some k := by
    cases a with
    | parsing file taskId point =>
      cases point with
      | working attempt => exact hk
      | counted succeeded => cases succeeded <;> exact nomatch hk
      | closing succeeded status => cases succeeded <;> exact nomatch hk
      | closed succeeded => cases succeeded <;> exact nomatch hk
      | _ => exact nomatch hk
    | _ => exact nomatch hk
  have hsucceeded (k : Uuid) (hk : a.raises.succeeded = some k) : a.succeeded = some k := by
    cases a with
    | parsing file taskId point =>
      cases point with
      | counted succeeded =>
        cases succeeded with
        | false => exact nomatch hk
        | true => exact hk
      | closing succeeded status =>
        cases succeeded with
        | false => exact nomatch hk
        | true => exact hk
      | closed succeeded =>
        cases succeeded with
        | false => exact nomatch hk
        | true => exact hk
      | _ => exact nomatch hk
    | _ => exact nomatch hk
  exact h.pass hi rfl rfl (fun _ _ => rfl) howner hsucceeded

end Advance

section Extraction

variable {db : BulkDb} {entries : List String} {staged : List BulkUploadJobFile}

theorem rows_createMany :
    (createMany db entries).1.files.rows = db.files.rows ++ (createMany db entries).2 := by
  induction entries generalizing db with
  | nil => simp [createMany]
  | cons taskId rest ih =>
    rw [createMany, ih, Table.rows_insert]
    simp

theorem status_createMany : ∀ file ∈ (createMany db entries).2, file.status = .queued := by
  induction entries generalizing db with
  | nil => simp [createMany]
  | cons taskId rest ih =>
    intro file hfile
    rcases List.mem_cons.mp hfile with rfl | hfile
    · rfl
    · exact ih file hfile

theorem job_createMany :
    (createMany db entries).1.job = db.job ∧ (createMany db entries).1.ledger = db.ledger ∧
      (createMany db entries).1.campaignStatus = db.campaignStatus := by
  induction entries generalizing db with
  | nil => exact ⟨rfl, rfl, rfl⟩
  | cons taskId rest ih => exact ih

theorem getById_createMany (id : Uuid) (file : BulkUploadJobFile) :
    getById (createMany db entries).1 id = some file ↔
      getById db id = some file ∨ file ∈ (createMany db entries).2 ∧ file.id = id := by
  unfold getById
  rw [Table.find?_eq_some, Table.find?_eq_some, rows_createMany, List.mem_append, or_and_right]

theorem nodup_createMany (db : BulkDb) (entries : List String) :
    (db.files.rows.map (·.id) ++ (createMany db entries).2.map (·.id)).Nodup := by
  have hnodup := (createMany db entries).1.files.nodup
  rw [rows_createMany, List.map_append] at hnodup
  exact hnodup

theorem getById_createMany_new {file : BulkUploadJobFile}
    (hfile : file ∈ (createMany db entries).2) : getById db file.id = none := by
  rw [Option.eq_none_iff_forall_not_mem]
  intro old hold
  obtain ⟨hmem, hid⟩ := (db.files.find?_eq_some _ _).mp hold
  have hdisjoint := (List.nodup_append.mp (nodup_createMany db entries)).2.2
  exact hdisjoint _ (List.mem_map.mpr ⟨old, hmem, hid⟩) _ (List.mem_map.mpr ⟨file, hfile, rfl⟩) rfl

theorem balanced_createMany (h : Balanced db) : Balanced (createMany db entries).1 := by
  obtain ⟨hjob, hledger, -⟩ := @job_createMany db entries
  have hqueued : ¬BulkUploadFileStatus.queued.Resolved := by decide
  have hnew (file : BulkUploadJobFile) (hfile : file ∈ (createMany db entries).2) :
      db.ledger file.id = 0 := h.unknown file.id (getById_createMany_new hfile)
  constructor
  · intro file hfile hresolved
    rw [rows_createMany] at hfile
    rw [hledger]
    rcases List.mem_append.mp hfile with hfile | hfile
    · exact h.counted file hfile hresolved
    · exact absurd (status_createMany file hfile ▸ hresolved) hqueued
  · intro file hfile hresolved
    rw [rows_createMany] at hfile
    rw [hledger]
    rcases List.mem_append.mp hfile with hfile | hfile
    · exact h.uncounted file hfile hresolved
    · exact hnew file hfile
  · intro id hid
    rw [hledger]
    apply h.unknown id
    cases hold : getById db id with
    | none => rfl
    | some file =>
      rw [(getById_createMany id file).mpr (.inl hold)] at hid
      simp at hid
  · intro column hcolumn
    have hzero : (((createMany db entries).2.map (·.id)).map
        fun id => db.ledger id column).sum = 0 := by
      rw [List.map_map]
      apply List.sum_eq_zero
      intro n hn
      obtain ⟨file, hfile, rfl⟩ := List.mem_map.mp hn
      exact congrFun (hnew file hfile) column
    rw [hjob, hledger, h.books column hcolumn, rows_createMany, List.map_append, List.map_append,
      List.sum_append, hzero, add_zero]

-- Only the staged files are cancelled, all of them still open.
structure Cancels (db db' : BulkDb) : Prop where
  balanced : Balanced db → Balanced db'
  unresolved : ∀ id, Unresolved db id → Unresolved db' id
  processed : ∀ id, Processed db id → Processed db' id
  job : db'.job = db.job
  length : db'.files.rows.length = db.files.rows.length
  campaign : db'.campaignStatus = db.campaignStatus

theorem cancels_updateStatus {id : Uuid} (hopen : Unresolved db id) :
    Cancels db (BulkUploadJobFileRepository.updateStatus db id .cancelled) := by
  have hcancelled : ¬BulkUploadFileStatus.cancelled.Resolved := by decide
  obtain ⟨row, hrow, hunresolved⟩ := hopen
  obtain ⟨hmem, hid⟩ := (db.files.find?_eq_some _ _).mp hrow
  have hselected (file : BulkUploadJobFile) (hfile : file ∈ db.files.rows)
      (hs : decide (file.id = id) = true) : file = row :=
    db.files.eq_of_key_eq hfile hmem ((of_decide_eq_true hs).trans hid.symm)
  constructor
  · intro hbalanced
    apply balanced_update hbalanced _ hcancelled
    intro file hfile hs
    rw [hselected file hfile hs]
    exact hunresolved
  · exact fun k hk => unresolved_update hk fun _ _ _ => hcancelled
  · intro k hk
    apply processed_update hk
    intro file hfile hprocessed
    by_contra hs
    have hsame := hselected file ((db.files.find?_eq_some _ _).mp hfile).1 (by simpa using hs)
    exact hunresolved (.inl (hsame ▸ hprocessed))
  · rfl
  · exact List.length_map _
  · rfl

theorem cancels_cancelStaged (hopen : ∀ file ∈ staged, Unresolved db file.id) :
    Cancels db (ExtractionPoint.cancelStaged db staged) := by
  induction staged generalizing db with
  | nil => exact ⟨id, fun _ h => h, fun _ h => h, rfl, rfl, rfl⟩
  | cons file rest ih =>
    have hfirst := cancels_updateStatus (hopen file List.mem_cons_self)
    have hrest := ih fun other hother =>
      hfirst.unresolved _ (hopen other (List.mem_cons_of_mem _ hother))
    exact ⟨fun h => hrest.balanced (hfirst.balanced h),
      fun k hk => hrest.unresolved k (hfirst.unresolved k hk),
      fun k hk => hrest.processed k (hfirst.processed k hk),
      hrest.job.trans hfirst.job, hrest.length.trans hfirst.length,
      hrest.campaign.trans hfirst.campaign⟩

variable {w : BulkWorld}

theorem Kept.proceed (h : Kept w) {extraction : ExtractionPoint} (hbalanced : Balanced db)
    (hunresolved : ∀ k, Unresolved w.db k → Unresolved db k)
    (hprocessed : ∀ k, Processed w.db k → Processed db k)
    (hdistinct : extraction.unsent.Nodup)
    (hunsent : ∀ k ∈ extraction.unsent,
      k ∈ w.extraction.unsent ∨ Unresolved db k ∧ getById w.db k = none) :
    Kept ⟨db, extraction, w.crew⟩ where
  balanced := hbalanced
  sole := h.sole
  owned := fun a ha k hk => hunresolved k (h.owned a ha k hk)
  succeeded := fun a ha k hk => hprocessed k (h.succeeded a ha k hk)
  distinct := hdistinct
  unsent := by
    intro k hk
    rcases hunsent k hk with hold | hnew
    · exact hunresolved k (h.unsent k hold)
    · exact hnew.1
  free := by
    intro k hk a ha hak
    rcases hunsent k hk with hold | hnew
    · exact h.free k hold a ha hak
    · obtain ⟨file, hfile, -⟩ := h.owned a ha k hak
      rw [hnew.2] at hfile
      simp at hfile

theorem Kept.proceed_job (h : Kept w) {extraction : ExtractionPoint} (hfiles : db.files = w.db.files)
    (hledger : db.ledger = w.db.ledger)
    (hcount : ∀ column, column ≠ .queued → db.job.count column = w.db.job.count column)
    (hunsent : extraction.unsent.Sublist w.extraction.unsent) :
    Kept ⟨db, extraction, w.crew⟩ :=
  h.proceed (balanced_job h.balanced hfiles hledger hcount)
    (fun _ => (unresolved_files hfiles).mpr) (fun _ => (processed_files hfiles).mpr)
    (h.distinct.sublist hunsent) fun _ hk => .inl (hunsent.subset hk)

theorem kept_extract (h : Kept w) :
    Kept ⟨(w.extraction.advance w.db).1, (w.extraction.advance w.db).2.1,
      w.crew ++ (w.extraction.advance w.db).2.2.toList⟩ := by
  obtain ⟨db, extraction, crew⟩ := w
  have hpass (db' : BulkDb) (extraction' : ExtractionPoint) (hfiles : db'.files = db.files)
      (hledger : db'.ledger = db.ledger)
      (hcount : ∀ column, column ≠ .queued → db'.job.count column = db.job.count column)
      (hunsent : extraction'.unsent.Sublist extraction.unsent) :
      Kept ⟨db', extraction', crew ++ []⟩ := by
    rw [List.append_nil]
    exact h.proceed_job hfiles hledger hcount hunsent
  have hcount (status : BulkUploadStatus) (column : CountColumn) :
      (BulkUploadJobRepository.updateStatus db status).job.count column = db.job.count column := by
    cases column <;> rfl
  cases extraction with
  | sent entries => exact hpass _ _ rfl rfl (fun _ _ => rfl) List.Sublist.slnil
  | opened entries =>
    change Kept ⟨(ExtractionPoint.advance db (.opened entries)).1, _, _⟩
    rw [ExtractionPoint.advance]
    split_ifs
    · exact hpass _ _ rfl rfl (fun column _ => hcount _ column) List.Sublist.slnil
    · exact hpass _ _ rfl rfl (fun column _ => hcount _ column) List.Sublist.slnil
  | staging entries =>
    have hqueued : ¬BulkUploadFileStatus.queued.Resolved := by decide
    change Kept ⟨_, _, crew ++ []⟩
    rw [List.append_nil]
    refine h.proceed (balanced_createMany h.balanced) ?_ ?_ ?_ ?_
    · rintro k ⟨file, hfile, hunresolved⟩
      exact ⟨file, (getById_createMany k file).mpr (.inl hfile), hunresolved⟩
    · rintro k ⟨file, hfile, hprocessed⟩
      exact ⟨file, (getById_createMany k file).mpr (.inl hfile), hprocessed⟩
    · exact (List.nodup_append.mp (nodup_createMany _ _)).2.1
    · intro k hk
      obtain ⟨file, hfile, rfl⟩ := List.mem_map.mp hk
      refine .inr ⟨⟨file, (getById_createMany _ _).mpr (.inr ⟨hfile, rfl⟩), ?_⟩, ?_⟩
      · rw [status_createMany file hfile]
        exact hqueued
      · exact getById_createMany_new hfile
  | totalling staged =>
    cases staged with
    | nil =>
      refine hpass _ _ rfl rfl ?_ List.Sublist.slnil
      intro column _
      cases column <;> rfl
    | cons file rest =>
      refine hpass _ _ rfl rfl ?_ (List.Sublist.refl _)
      intro column hcolumn
      cases column with
      | queued => exact absurd rfl hcolumn
      | _ => rfl
  | gating staged =>
    change Kept ⟨(ExtractionPoint.advance db (.gating staged)).1, _, _⟩
    rw [ExtractionPoint.advance]
    split_ifs
    · have hcancels := cancels_cancelStaged fun file hfile =>
        h.unsent file.id (List.mem_map.mpr ⟨file, hfile, rfl⟩)
      change Kept ⟨_, _, crew ++ []⟩
      rw [List.append_nil]
      refine h.proceed ?_ hcancels.unresolved hcancels.processed List.nodup_nil ?_
      · refine balanced_job (hcancels.balanced h.balanced) ?_ ?_ ?_
        · rfl
        · rfl
        · intro column _
          cases column <;> rfl
      · exact fun k hk => absurd hk List.not_mem_nil
    · exact hpass _ _ rfl rfl (fun _ _ => rfl) (List.Sublist.refl _)
  | sending staged =>
    cases staged with
    | nil => exact hpass _ _ rfl rfl (fun _ _ => rfl) List.Sublist.slnil
    | cons file rest =>
      have hrest : Kept ⟨db, .sending rest, crew⟩ :=
        h.proceed_job rfl rfl (fun _ _ => rfl) (List.sublist_cons_self _ _)
      apply hrest.hire _ rfl
      rintro k ⟨⟩
      have hfile : file.id ∈ ExtractionPoint.unsent (.sending (file :: rest)) :=
        List.mem_cons_self
      exact ⟨h.unsent file.id hfile, (List.nodup_cons.mp h.distinct).1, h.free file.id hfile⟩
  | failing => exact hpass _ _ rfl rfl (fun column _ => hcount _ column) List.Sublist.slnil
  | done => exact hpass _ _ rfl rfl (fun _ _ => rfl) List.Sublist.slnil

end Extraction

namespace BulkWorld

def CountsOnce (w : BulkWorld) : BulkAction → BulkWorld → Prop
  | .advance index _, _ => ∀ a, w.crew[index]? = some a → a.CountsOnce w.db
  | _, _ => True

theorem step_cases {w w' : BulkWorld} {action : BulkAction} (hstep : w.Step action w') :
    (action = .extract ∧ w' = ⟨(w.extraction.advance w.db).1, (w.extraction.advance w.db).2.1,
        w.crew ++ (w.extraction.advance w.db).2.2.toList⟩) ∨
      (action = .extractionRaises ∧ w' = { w with extraction := w.extraction.raises }) ∨
      (action = .cancelJob ∧ w' = { w with crew := w.crew ++ [.cancelling] }) ∨
      (∃ file taskId, action = .replayFailedFile file taskId ∧
        w.db.job.status ∉ BulkUploadService.nonReplayableJobStatuses ∧
        w' = { w with crew := w.crew ++ [.checkingReplay file taskId w.db.job.status] }) ∨
      (∃ index outcome a, action = .advance index outcome ∧ w.crew[index]? = some a ∧
        w' = ⟨(a.advance w.db outcome).1, w.extraction,
          w.crew.set index (a.advance w.db outcome).2⟩) ∨
      ∃ index a, action = .raises index ∧ w.crew[index]? = some a ∧
        w' = { w with crew := w.crew.set index a.raises } := by
  unfold Step at hstep
  cases action with
  | extract => exact .inl ⟨rfl, (Option.some.inj hstep).symm⟩
  | extractionRaises => exact .inr (.inl ⟨rfl, (Option.some.inj hstep).symm⟩)
  | cancelJob =>
    rw [next] at hstep
    split_ifs at hstep
    exact .inr (.inr (.inl ⟨rfl, (Option.some.inj hstep).symm⟩))
  | replayFailedFile file newTaskId =>
    rw [next] at hstep
    split_ifs at hstep with hstatus
    exact .inr (.inr (.inr (.inl
      ⟨file, newTaskId, rfl, hstatus, (Option.some.inj hstep).symm⟩)))
  | advance index outcome =>
    rw [next] at hstep
    cases hi : w.crew[index]? with
    | none => simp [hi] at hstep
    | some a =>
      simp only [hi, Option.some.injEq] at hstep
      exact .inr (.inr (.inr (.inr (.inl
        ⟨index, outcome, a, rfl, hi, hstep.symm⟩))))
  | raises index =>
    rw [next] at hstep
    cases hi : w.crew[index]? with
    | none => simp [hi] at hstep
    | some a =>
      simp only [hi, Option.some.injEq] at hstep
      exact .inr (.inr (.inr (.inr (.inr ⟨index, a, rfl, hi, hstep.symm⟩))))

theorem kept_step {w w' : BulkWorld} {action : BulkAction} (h : Kept w)
    (hguard : w.CountsOnce action w') (hstep : w.Step action w') : Kept w' := by
  obtain ⟨rfl, rfl⟩ | ⟨rfl, rfl⟩ | ⟨rfl, rfl⟩ | ⟨file, taskId, rfl, -, rfl⟩ |
    ⟨index, outcome, a, rfl, hi, rfl⟩ | ⟨index, a, rfl, hi, rfl⟩ := step_cases hstep
  · exact kept_extract h
  · apply h.proceed_job rfl rfl (fun _ _ => rfl)
    cases w.extraction <;> exact List.nil_sublist _
  · exact h.hire (fun k hk => nomatch hk) rfl
  · exact h.hire (fun k hk => nomatch hk) rfl
  · exact kept_advance h hi (hguard a hi)
  · exact kept_raises h hi

end BulkWorld

section Totals

variable {db : BulkDb} {outcome : FileOutcome}

structure SameTotals (db db' : BulkDb) : Prop where
  total : db'.job.totalFiles = db.job.totalFiles
  length : db'.files.rows.length = db.files.rows.length
  campaign : db'.campaignStatus = db.campaignStatus

theorem sameTotals_update (selected : BulkUploadJobFile → Bool) (status : BulkUploadFileStatus)
    (taskId : Option String) : SameTotals db (update db selected status taskId) :=
  ⟨rfl, List.length_map _, rfl⟩

theorem sameTotals_enter {db' : BulkDb} (h : SameTotals db db') (file : Uuid)
    (column : CountColumn) (amount : ℤ) : SameTotals db (enter db' file column amount) := by
  refine ⟨?_, h.length, h.campaign⟩
  rw [← h.total]
  cases column <;> rfl

-- What a step of an activity writes.
inductive BulkActivity.Writes (db : BulkDb) : BulkActivity → BulkDb → Prop
  | nothing {a : BulkActivity} : Writes db a db
  | cancel : Writes db .cancelling (BulkUploadService.cancelJob db)
  | replay {file : Uuid} {taskId : String} {jobStatus : BulkUploadStatus} {db' : BulkDb}
      (h : BulkUploadService.replayFailedFile db file taskId jobStatus = some db') :
      Writes db (.replaying file taskId jobStatus) db'
  | start {a : BulkActivity} (file : Uuid) : Writes db a (tryStartProcessing db file).1
  | record {a : BulkActivity} (file : Uuid) {status : BulkUploadFileStatus} (column : CountColumn)
      (hresolved : status.Resolved) :
      Writes db a (enter (BulkUploadJobFileRepository.updateStatus db file status) file column 1)
  | deadLetter {a : BulkActivity} (deadLetters : List String) :
      Writes db a { db with deadLetters := deadLetters }
  | close {file : Uuid} {taskId : String} {succeeded : Bool} {status : BulkUploadStatus} :
      Writes db (.parsing file taskId (.closing succeeded status))
        (BulkUploadJobRepository.updateStatus db status)

theorem advance_writes (a : BulkActivity) : a.Writes db (a.advance db outcome).1 := by
  have hfailed : BulkUploadFileStatus.failed.Resolved := .inr rfl
  have hprocessed : BulkUploadFileStatus.processed.Resolved := .inl rfl
  cases a with
  | cancelling => exact .cancel
  | checkingReplay file taskId jobStatus =>
    rw [advance]
    split_ifs <;> exact .nothing
  | replaying file taskId jobStatus =>
    rw [advance]
    cases hdb : BulkUploadService.replayFailedFile db file taskId jobStatus with
    | none => exact .nothing
    | some db' => exact .replay hdb
  | parsing file taskId point =>
    cases point with
    | sent attempt =>
      rw [advance]
      cases hstart : tryStartProcessing db file with
      | mk db' claimed =>
        cases claimed with
        | false => exact .nothing
        | true =>
          obtain rfl := (Prod.mk.inj hstart).1
          exact .start file
    | working attempt =>
      cases outcome with
      | processed => exact .record file .processed hprocessed
      | duplicateFile => exact .record file .duplicate hprocessed
      | _ => exact .nothing
    | handling attempt stage classification =>
      rw [advance]
      split_ifs
      · exact .deadLetter _
      · exact .nothing
    | failing isDuplicate =>
      cases isDuplicate with
      | false => exact .record file .failed hfailed
      | true => exact .record file .duplicate hfailed
    | counted succeeded =>
      rw [advance]
      split <;> exact .nothing
    | closing succeeded status => exact .close
    | failingAgain => exact .record file .failed hfailed
    | _ => exact .nothing
  | _ => exact .nothing

theorem sameTotals_advance (a : BulkActivity) : SameTotals db (a.advance db outcome).1 := by
  have hwrites := @advance_writes db outcome a
  generalize (a.advance db outcome).1 = db' at *
  cases hwrites with
  | nothing => exact ⟨rfl, rfl, rfl⟩
  | cancel =>
    have hcancel : SameTotals db (cancelQueuedFiles db) := sameTotals_update _ _ _
    exact ⟨hcancel.total, hcancel.length, hcancel.campaign⟩
  | @replay file taskId _ _ hreplay =>
    obtain ⟨-, status, rfl, -⟩ := replayFailedFile_eq_some hreplay
    have hrequeue : SameTotals db (requeueForReplay db file taskId).1 := sameTotals_update _ _ _
    have hentered := sameTotals_enter hrequeue file .failed (-1)
    exact ⟨hentered.total, hentered.length, hentered.campaign⟩
  | start file => exact sameTotals_update _ _ _
  | record file column _ => exact sameTotals_enter (sameTotals_update _ _ _) file column 1
  | deadLetter => exact ⟨rfl, rfl, rfl⟩
  | close => exact ⟨rfl, rfl, rfl⟩

end Totals

namespace ExtractionPoint

-- The number of files is committed.
def Totalled : ExtractionPoint → Prop
  | gating _ | sending _ | failing | done => True
  | _ => False

end ExtractionPoint

namespace BulkWorld

structure Counting (w : BulkWorld) : Prop where
  kept : Kept w
  totalled : w.extraction.Totalled
  total : w.db.job.totalFiles = w.db.files.rows.length

theorem totals_extract {w : BulkWorld} (h : Counting w) :
    (w.extraction.advance w.db).2.1.Totalled ∧ SameTotals w.db (w.extraction.advance w.db).1 := by
  obtain ⟨db, extraction, crew⟩ := w
  cases extraction with
  | gating staged =>
    rw [ExtractionPoint.advance]
    split_ifs
    · have hcancels := cancels_cancelStaged fun file hfile =>
        h.kept.unsent file.id (List.mem_map.mpr ⟨file, hfile, rfl⟩)
      have htotal := congrArg BulkUploadJob.totalFiles hcancels.job
      exact ⟨trivial, htotal, hcancels.length, hcancels.campaign⟩
    · exact ⟨trivial, rfl, rfl, rfl⟩
  | sending staged => cases staged <;> exact ⟨trivial, rfl, rfl, rfl⟩
  | failing => exact ⟨trivial, rfl, rfl, rfl⟩
  | done => exact ⟨trivial, rfl, rfl, rfl⟩
  | _ => exact h.totalled.elim

theorem counting_step {w w' : BulkWorld} {action : BulkAction} (h : Counting w)
    (hguard : w.CountsOnce action w') (hstep : w.Step action w') : Counting w' := by
  have hkept := kept_step h.kept hguard hstep
  obtain ⟨rfl, rfl⟩ | ⟨rfl, rfl⟩ | ⟨rfl, rfl⟩ | ⟨file, taskId, rfl, -, rfl⟩ |
    ⟨index, outcome, a, rfl, hi, rfl⟩ | ⟨index, a, rfl, hi, rfl⟩ := step_cases hstep
  · obtain ⟨htotalled, htotal, hlength, -⟩ := totals_extract h
    refine ⟨hkept, htotalled, ?_⟩
    change (w.extraction.advance w.db).1.job.totalFiles =
      (w.extraction.advance w.db).1.files.rows.length
    rw [htotal, hlength, h.total]
  · refine ⟨hkept, ?_, h.total⟩
    have htotalled := h.totalled
    cases hextraction : w.extraction with
    | gating staged => exact trivial
    | sending staged => exact trivial
    | failing => exact trivial
    | done => exact trivial
    | _ =>
      rw [hextraction] at htotalled
      exact htotalled.elim
  · exact ⟨hkept, h.totalled, h.total⟩
  · exact ⟨hkept, h.totalled, h.total⟩
  · obtain ⟨htotal, hlength, -⟩ := @sameTotals_advance w.db outcome a
    refine ⟨hkept, h.totalled, ?_⟩
    change (a.advance w.db outcome).1.job.totalFiles = (a.advance w.db outcome).1.files.rows.length
    rw [htotal, hlength, h.total]
  · exact ⟨hkept, h.totalled, h.total⟩

theorem countsOnce_of_exact {w w' : BulkWorld} {action : BulkAction} (h : Counting w)
    (hstep : w.Step action w') (hexact : Exact w'.db) : w.CountsOnce action w' := by
  cases action with
  | advance index outcome =>
    intro a hi
    unfold Step at hstep
    rw [next] at hstep
    simp only [hi, Option.some.injEq] at hstep
    subst hstep
    have hmem := List.mem_of_getElem? hi
    cases a with
    | parsing file taskId point =>
      cases point with
      | failing isDuplicate => exact (h.kept.owned _ hmem file rfl).not_processed
      | failingAgain =>
        rintro ⟨row, hrow, hprocessed⟩
        obtain ⟨hrowmem, hid⟩ := (w.db.files.find?_eq_some _ _).mp hrow
        -- counted before, and once more now
        have hbefore := h.kept.balanced.counted row hrowmem (.inl hprocessed)
        have hafter := hexact.counted (setValues (fun other => other.id = file) .failed none
          row) (List.mem_map.mpr ⟨row, hrowmem, rfl⟩) (by
            simp [setValues, hid, BulkUploadFileStatus.Resolved])
        have hledger : (BulkActivity.advance w.db outcome
            (.parsing file taskId .failingAgain)).1.ledger file =
              Function.update (w.db.ledger file) .failed (w.db.ledger file .failed + 1) :=
          Function.update_self _ _ _
        rw [hid] at hbefore
        rw [setValues_id, hid, hledger] at hafter
        have hone := hbefore.total
        have htwo := hafter.total
        rw [Function.update_of_ne (by decide), Function.update_self,
          Function.update_of_ne (by decide)] at htwo
        omega
      | _ => exact trivial
    | replaying file taskId jobStatus =>
      intro row hrow hfailed
      obtain ⟨hrowmem, hid⟩ := (w.db.files.find?_eq_some _ _).mp hrow
      have hrequeue : canRequeue file row = true := decide_eq_true ⟨hid, hfailed⟩
      have hany : w.db.files.rows.any (canRequeue file) = true :=
        List.any_eq_true.mpr ⟨row, hrowmem, hrequeue⟩
      obtain ⟨db', hdb⟩ : ∃ db', BulkUploadService.replayFailedFile w.db file taskId
          jobStatus = some db' := by
        simp [BulkUploadService.replayFailedFile, requeueForReplay, hany]
      obtain ⟨-, status, hdb', -⟩ := replayFailedFile_eq_some hdb
      simp only [BulkActivity.advance, hdb] at hexact
      subst hdb'
      -- the file is open again, so its entry has to be empty
      have hentry := hexact.uncounted (setValues (canRequeue file) .queued (some taskId) row)
        (List.mem_map.mpr ⟨row, hrowmem, rfl⟩) (by
          simp [setValues, hrequeue, BulkUploadFileStatus.Resolved])
      rw [setValues_id, hid] at hentry
      have hzero := congrFun hentry .failed
      change Function.update w.db.ledger file _ file .failed = 0 at hzero
      simp [requeueForReplay, update] at hzero
      omega
    | _ => exact trivial
  | _ => exact trivial

theorem Extracted.counting {w : BulkWorld} (h : w.Extracted) : Counting w := by
  have hopen (file : BulkUploadJobFile) (hfile : file ∈ w.db.files.rows) :
      ¬file.status.Resolved := by
    rcases h.files file hfile with hstatus | hstatus <;> rw [hstatus] <;> decide
  refine ⟨⟨⟨?_, ?_, ?_, ?_⟩, ?_, ?_, ?_, ?_, ?_, ?_⟩, ?_, h.total⟩
  · exact fun file hfile hresolved => absurd hresolved (hopen file hfile)
  · exact fun file _ _ => h.ledger file.id
  · exact fun id _ => h.ledger id
  · intro column hcolumn
    rw [h.count column hcolumn, List.map_map]
    symm
    apply List.sum_eq_zero
    intro n hn
    obtain ⟨file, -, rfl⟩ := List.mem_map.mp hn
    exact congrFun (h.ledger file.id) column
  · rw [h.crew]
    exact soleOwner_nil
  · simp [h.crew]
  · simp [h.crew]
  · rw [h.extraction]
    exact w.db.files.nodup
  · rw [h.extraction]
    intro k hk
    obtain ⟨file, hfile, rfl⟩ := List.mem_map.mp hk
    exact ⟨file, (w.db.files.find?_eq_some _ _).mpr ⟨hfile, rfl⟩, hopen file hfile⟩
  · simp [h.crew]
  · rw [h.extraction]
    exact trivial

-- The counters are exact along a run exactly when no failure is recorded for a
-- file that is PROCESSED, and no failure taken back that was not counted as one.
theorem bulk_counters_exact {w : BulkWorld} {path : List (BulkAction × BulkWorld)}
    (hstart : w.Extracted) (hpath : Path Step w path) :
    (∀ t ∈ visited w path, Exact t.db) ↔ EveryStep CountsOnce w path :=
  hpath.visited_iff_everyStep_of hstart.counting (fun _ h => h.kept.balanced.exact h.total)
    (fun _ _ _ h hguard hstep => counting_step h hguard hstep)
    (fun _ _ _ h hstep hexact => countsOnce_of_exact h hstep hexact)

def oneFile : BulkWorld where
  db :=
    { job := ⟨.processing, true, 1, 1, 0, 0, 0⟩
      files := Table.empty.insert (stagedFile "first") (stagedFile_id "first")
      deadLetters := []
      campaignStatus := .active
      ledger := fun _ => 0 }
  extraction := .gating [⟨0, .queued, some "first"⟩]
  crew := []

theorem oneFile_extracted : oneFile.Extracted where
  extraction := rfl
  crew := rfl
  total := rfl
  files := by
    intro file hfile
    obtain rfl := List.mem_singleton.mp hfile
    exact .inl rfl
  count := by
    intro column hcolumn
    cases column with
    | queued => exact absurd rfl hcolumn
    | _ => rfl
  ledger := fun _ => rfl

def parses : List BulkAction :=
  [.extract, .extract, .advance 0 .processed, .advance 0 .processed, .advance 0 .processed]

theorem bulk_counters_exact_parsed :
    (∀ t ∈ visited oneFile (execute next oneFile parses), Exact t.db) ∧
      (final oneFile (execute next oneFile parses)).db.job.processedCount = 1 := by
  refine ⟨?_, rfl⟩
  apply (bulk_counters_exact oneFile_extracted (execute_path next (fun _ _ _ h => h) _ _)).mpr
  refine ⟨trivial, trivial, ?_, ?_, ?_, trivial⟩
  · rintro a ⟨⟩
    exact trivial
  · rintro a ⟨⟩
    exact trivial
  · rintro a ⟨⟩
    exact trivial

-- The board notification raises after the commit, and the file is counted again.
theorem bulk_counters_count_twice :
    ¬∀ (w : BulkWorld) (path : List (BulkAction × BulkWorld)), w.Extracted →
      Path Step w path → ∀ t ∈ visited w path, Exact t.db := by
  intro hall
  have hexact := hall oneFile (execute next oneFile (parses ++ [.raises 0, .advance 0 .processed]))
    oneFile_extracted (execute_path next (fun _ _ _ h => h) _ _) _ (final_mem_visited _ _)
  have hresolved := hexact.resolved
  exact absurd hresolved (by decide)

end BulkWorld

end AiHiring
