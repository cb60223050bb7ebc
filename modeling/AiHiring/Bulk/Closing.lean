import AiHiring.Bulk.Counters

namespace AiHiring

open Library BulkUploadJobRepository BulkUploadJobFileRepository BulkActivity

-- The status a resolved job has to be closed with.
def BulkUploadJob.finalStatus (job : BulkUploadJob) : BulkUploadStatus :=
  if job.failedCount = 0 then .completed
  else if job.failedCount > 0 ∧ job.processedCount + job.duplicateCount > 0 then .partialFailure
  else .failed

-- What the replay and the closing write rely on from what they have read.
def BulkActivity.InTime (db : BulkDb) : BulkActivity → Prop
  | parsing _ _ (.closing _ status) => db.job.status ≠ .cancelled ∧
      db.job.totalFiles ≤ db.job.resolved ∧ status = db.job.finalStatus
  | replaying file _ jobStatus => ∀ row, getById db file = some row → row.status = .failed →
      db.job.status ≠ .cancelled ∧ (jobStatus = .processing → db.job.status = .processing)
  | _ => True

def ExtractionPoint.InTime (db : BulkDb) : ExtractionPoint → Prop
  | opened _ | staging _ | totalling _ => db.job.status ≠ .cancelled
  | _ => True

namespace ExtractionPoint

-- The status and the files of the job before their number is committed.
def Waits : ExtractionPoint → BulkUploadStatus → List BulkUploadJobFile → Prop
  | sent entries, status, files => status = .pending ∧ files = [] ∧ entries ≠ []
  | opened entries, status, files => status = .pending ∧ files = [] ∧ entries ≠ []
  | staging entries, status, files => status = .extracting ∧ files = [] ∧ entries ≠ []
  | totalling staged, status, files => status = .extracting ∧ files = staged ∧ staged ≠ []
  | _, _, _ => False

def Through : ExtractionPoint → Prop
  | gating _ | sending _ | done => True
  | _ => False

theorem Waits.not_replayable {extraction : ExtractionPoint} {status : BulkUploadStatus}
    {files : List BulkUploadJobFile} (h : extraction.Waits status files) :
    status ∈ BulkUploadService.nonReplayableJobStatuses := by
  cases extraction with
  | sent entries => exact h.1 ▸ by decide
  | opened entries => exact h.1 ▸ by decide
  | staging entries => exact h.1 ▸ by decide
  | totalling staged => exact h.1 ▸ by decide
  | _ => exact h.elim

end ExtractionPoint

namespace BulkWorld

-- The extraction does not write over a cancelled job, nor do a replay and a
-- closing write on a stale read; and a step raises only where the parse task
-- records the failure of its file.
def InTime (w : BulkWorld) : BulkAction → BulkWorld → Prop
  | .extract, _ => w.extraction.InTime w.db
  | .extractionRaises, _ => False
  | .advance index _, _ => ∀ a, w.crew[index]? = some a → a.CountsOnce w.db ∧ a.InTime w.db
  | .raises index, _ => ∃ file taskId attempt,
      w.crew[index]? = some (.parsing file taskId (.working attempt))
  | _, _ => True

-- The upload has been accepted and its extraction task is queued.
structure Uploaded (w : BulkWorld) : Prop where
  extraction : ∃ entries, entries ≠ [] ∧ w.extraction = .sent entries
  crew : w.crew = []
  files : w.db.files.rows = []
  status : w.db.job.status = .pending
  consent : w.db.job.consentConfirmed = true
  campaign : w.db.campaignStatus = .active
  count : ∀ column, w.db.job.count column = 0
  ledger : ∀ file, w.db.ledger file = 0

-- CANCELLED from the commit of a cancel on, and no file starts to run after it.
def StaysCancelled (w : BulkWorld) (path : List (BulkAction × BulkWorld)) : Prop :=
  ∀ before index outcome t after, path = before ++ (.advance index outcome, t) :: after →
    (final w before).crew[index]? = some .cancelling →
      ∀ u ∈ visited t after, u.db.job.status = .cancelled ∧
        ∀ file ∈ u.db.files.rows, file.status = .running →
          ∃ old ∈ t.db.files.rows, old.id = file.id ∧ old.status = .running

-- Closed by its counters once nothing runs, unless it is cancelled.
def ClosedByCounts (w : BulkWorld) : Prop :=
  w.Quiet → w.db.job.status ≠ .cancelled → w.db.job.status = w.db.job.finalStatus

-- Holds from the start on, whatever the status of the job.
structure Sound (w : BulkWorld) : Prop where
  kept : Kept w
  campaign : w.db.campaignStatus = .active
  extraction : w.extraction ≠ .failing

theorem campaign_extract (db : BulkDb) (extraction : ExtractionPoint) :
    (extraction.advance db).1.campaignStatus = db.campaignStatus := by
  have hcancel (db : BulkDb) (staged : List BulkUploadJobFile) :
      (ExtractionPoint.cancelStaged db staged).campaignStatus = db.campaignStatus := by
    induction staged generalizing db with
    | nil => rfl
    | cons file rest ih => exact ih _
  cases extraction with
  | opened entries =>
    rw [ExtractionPoint.advance]
    split_ifs <;> rfl
  | staging entries => exact job_createMany.2.2
  | totalling staged => cases staged <;> rfl
  | gating staged =>
    rw [ExtractionPoint.advance]
    split_ifs
    · exact hcancel db staged
    · rfl
  | sending staged => cases staged <;> rfl
  | _ => rfl

theorem failing_extract (db : BulkDb) (extraction : ExtractionPoint) :
    (extraction.advance db).2.1 ≠ .failing := by
  cases extraction with
  | opened entries =>
    rw [ExtractionPoint.advance]
    split_ifs <;> simp
  | totalling staged => cases staged <;> simp [ExtractionPoint.advance]
  | gating staged =>
    rw [ExtractionPoint.advance]
    split_ifs <;> simp
  | sending staged => cases staged <;> simp [ExtractionPoint.advance]
  | _ => simp [ExtractionPoint.advance]

variable {action : BulkAction}

theorem InTime.countsOnce {w w' : BulkWorld} (h : w.InTime action w') :
    w.CountsOnce action w' := by
  cases action with
  | advance index outcome => exact fun a ha => (h a ha).1
  | _ => exact trivial

theorem sound_step {w w' : BulkWorld} (h : Sound w)
    (hguard : w.InTime action w') (hstep : w.Step action w') : Sound w' := by
  have hkept := kept_step h.kept hguard.countsOnce hstep
  obtain ⟨rfl, rfl⟩ | ⟨rfl, rfl⟩ | ⟨rfl, rfl⟩ | ⟨file, taskId, rfl, hstatus, rfl⟩ |
    ⟨index, outcome, a, rfl, hi, rfl⟩ | ⟨index, a, rfl, hi, rfl⟩ := step_cases hstep
  · exact ⟨hkept, (campaign_extract w.db w.extraction).trans h.campaign,
      failing_extract w.db w.extraction⟩
  · exact hguard.elim
  · exact ⟨hkept, h.campaign, h.extraction⟩
  · exact ⟨hkept, h.campaign, h.extraction⟩
  · exact ⟨hkept, (sameTotals_advance a).campaign.trans h.campaign, h.extraction⟩
  · exact ⟨hkept, h.campaign, h.extraction⟩

section Cancelled

variable {since db : BulkDb} {outcome : FileOutcome}

-- Cancelled, with no file left to start, and none running that did not run before.
structure CancelledSince (since db : BulkDb) : Prop where
  status : db.job.status = .cancelled
  unqueued : ∀ file ∈ db.files.rows, file.status ≠ .queued
  running : ∀ file ∈ db.files.rows, file.status = .running →
    ∃ old ∈ since.files.rows, old.id = file.id ∧ old.status = .running

theorem CancelledSince.update (h : CancelledSince since db)
    {selected : BulkUploadJobFile → Bool} {status : BulkUploadFileStatus} {taskId : Option String}
    (hqueued : status ≠ .queued)
    (hrunning : status = .running → ∀ file ∈ db.files.rows, selected file = true →
      file.status = .queued ∨ file.status = .running) :
    CancelledSince since (BulkUploadJobFileRepository.update db selected status taskId) where
  status := h.status
  unqueued := by
    intro file hfile
    obtain ⟨old, hold, -, ⟨-, hstatus⟩ | ⟨-, rfl⟩⟩ := mem_update hfile
    · rw [hstatus]
      exact hqueued
    · exact h.unqueued file hold
  running := by
    intro file hfile hstarted
    obtain ⟨old, hold, hid, ⟨hselected, hstatus⟩ | ⟨-, rfl⟩⟩ := mem_update hfile
    · -- only a file that runs already can be claimed
      rcases hrunning (hstatus.symm.trans hstarted) old hold hselected with hq | hr
      · exact absurd hq (h.unqueued old hold)
      · rw [← hid]
        exact h.running old hold hr
    · exact h.running file hold hstarted

theorem CancelledSince.job (h : CancelledSince since db) {db' : BulkDb}
    (hfiles : db'.files = db.files) (hstatus : db'.job.status = .cancelled) :
    CancelledSince since db' where
  status := hstatus
  unqueued := by
    rw [hfiles]
    exact h.unqueued
  running := by
    rw [hfiles]
    exact h.running

theorem CancelledSince.record (h : CancelledSince since db) (file : Uuid)
    {status : BulkUploadFileStatus} (column : CountColumn) (hqueued : status ≠ .queued)
    (hrunning : status ≠ .running) :
    CancelledSince since (enter (BulkUploadJobFileRepository.updateStatus db file status) file
      column 1) := by
  have hupdated : CancelledSince since (BulkUploadJobFileRepository.updateStatus db file status) :=
    h.update hqueued fun hr => absurd hr hrunning
  refine hupdated.job rfl ?_
  rw [← hupdated.status]
  cases column <;> rfl

theorem cancelledSince_advance {a : BulkActivity} (h : CancelledSince since db)
    (hguard : a.InTime db) : CancelledSince since (a.advance db outcome).1 := by
  have hwrites := @advance_writes db outcome a
  generalize (a.advance db outcome).1 = db' at *
  cases hwrites with
  | nothing => exact h
  | cancel =>
    have hcancel : CancelledSince since (cancelQueuedFiles db) :=
      h.update (by decide) fun hr => nomatch hr
    exact hcancel.job rfl rfl
  | replay hreplay =>
    -- a requeue would be on a job that is cancelled
    obtain ⟨⟨row, hrow, hfailed⟩, -⟩ := replayFailedFile_eq_some hreplay
    exact absurd h.status (hguard row hrow hfailed).1
  | start file =>
    apply h.update (by decide)
    exact fun _ row _ hselected => (of_decide_eq_true hselected).2
  | record file column hresolved =>
    refine h.record file column ?_ ?_ <;> rintro rfl <;> exact absurd hresolved (by decide)
  | deadLetter => exact h.job rfl h.status
  | close => exact absurd h.status hguard.1

theorem cancelledSince_extract {w : BulkWorld} (h : CancelledSince since w.db) (hsound : Sound w)
    (hguard : w.extraction.InTime w.db) :
    CancelledSince since (w.extraction.advance w.db).1 := by
  obtain ⟨db, extraction, crew⟩ := w
  cases extraction with
  | opened entries => exact absurd h.status hguard
  | staging entries => exact absurd h.status hguard
  | totalling staged => exact absurd h.status hguard
  | gating staged =>
    have hcampaign : db.campaignStatus = .active := hsound.campaign
    change CancelledSince since (ExtractionPoint.advance db (.gating staged)).1
    rw [ExtractionPoint.advance, hcampaign, if_neg (by decide)]
    exact h
  | sending staged => cases staged <;> exact h
  | failing => exact absurd rfl hsound.extraction
  | _ => exact h

theorem cancelledSince_step {w w' : BulkWorld}
    (h : CancelledSince since w.db) (hsound : Sound w) (hguard : w.InTime action w')
    (hstep : w.Step action w') : CancelledSince since w'.db := by
  obtain ⟨rfl, rfl⟩ | ⟨rfl, rfl⟩ | ⟨rfl, rfl⟩ | ⟨file, taskId, rfl, -, rfl⟩ |
    ⟨index, outcome, a, rfl, hi, rfl⟩ | ⟨index, a, rfl, hi, rfl⟩ := step_cases hstep
  · exact cancelledSince_extract h hsound hguard
  · exact hguard.elim
  · exact h
  · exact h
  · exact cancelledSince_advance h (hguard a hi).2
  · exact h

theorem cancelledSince_cancelJob : CancelledSince (BulkUploadService.cancelJob db)
    (BulkUploadService.cancelJob db) where
  status := rfl
  unqueued := by
    intro file hfile
    obtain ⟨old, -, -, ⟨-, hstatus⟩ | ⟨hselected, rfl⟩⟩ := mem_update hfile
    · rw [hstatus]
      decide
    · exact of_decide_eq_false hselected
  running := fun file hfile hrunning => ⟨file, hfile, rfl, hrunning⟩

theorem staysCancelled {w : BulkWorld} {path : List (BulkAction × BulkWorld)} (h : Sound w)
    (hpath : Path Step w path) (hguard : EveryStep InTime w path) : StaysCancelled w path := by
  intro before index outcome t after hsplit hcancel
  subst hsplit
  obtain ⟨hbefore, hstep, hafter⟩ := (path_append w before _).mp hpath
  obtain ⟨hguardBefore, hguardStep, hguardAfter⟩ := (everyStep_append w before _).mp hguard
  have hsound := hbefore.guarded_invariant h hguardBefore
    (fun _ _ _ hs hq hstep => sound_step hs hq hstep) _ (final_mem_visited w before)
  have ht : t.db = BulkUploadService.cancelJob (final w before).db := by
    unfold Step next at hstep
    simp only [hcancel, Option.some.injEq] at hstep
    rw [← hstep]
    rfl
  have hinv : ∀ u ∈ visited t after, Sound u ∧ CancelledSince t.db u.db := by
    refine hafter.guarded_invariant ⟨sound_step hsound hguardStep hstep, ?_⟩ hguardAfter ?_
    · rw [ht]
      exact cancelledSince_cancelJob
    · intro s _ u hs hq hstep
      exact ⟨sound_step hs.1 hq hstep, cancelledSince_step hs.2 hs.1 hq hstep⟩
  intro u hu
  exact ⟨(hinv u hu).2.status, (hinv u hu).2.running⟩

end Cancelled

section Open

variable {db : BulkDb} {outcome : FileOutcome}

theorem status_enter (file : Uuid) (column : CountColumn) (amount : ℤ) :
    (enter db file column amount).job.status = db.job.status := by
  cases column <;> rfl

theorem cancelled_advance {a : BulkActivity} (h : db.job.status = .cancelled)
    (hguard : a.InTime db) : (a.advance db outcome).1.job.status = .cancelled := by
  have hwrites := @advance_writes db outcome a
  generalize (a.advance db outcome).1 = db' at *
  cases hwrites with
  | cancel => rfl
  | replay hreplay =>
    obtain ⟨⟨row, hrow, hfailed⟩, -⟩ := replayFailedFile_eq_some hreplay
    exact absurd h (hguard row hrow hfailed).1
  | record file column _ => exact (status_enter file column 1).trans h
  | close => exact absurd h hguard.1
  | _ => exact h

theorem cancelled_extract {w : BulkWorld} (h : w.db.job.status = .cancelled) (hsound : Sound w)
    (hguard : w.extraction.InTime w.db) :
    (w.extraction.advance w.db).1.job.status = .cancelled := by
  obtain ⟨db, extraction, crew⟩ := w
  cases extraction with
  | opened entries => exact absurd h hguard
  | staging entries => exact absurd h hguard
  | totalling staged => exact absurd h hguard
  | gating staged =>
    have hcampaign : db.campaignStatus = .active := hsound.campaign
    change (ExtractionPoint.advance db (.gating staged)).1.job.status = _
    rw [ExtractionPoint.advance, hcampaign, if_neg (by decide)]
    exact h
  | sending staged => cases staged <;> exact h
  | failing => exact absurd rfl hsound.extraction
  | _ => exact h

-- The files wait for the extraction; nothing but a cancel can be under way.
structure Early (w : BulkWorld) (status : BulkUploadStatus) (files : List BulkUploadJobFile) :
    Prop where
  status : w.db.job.status = status
  rows : w.db.files.rows = files
  queued : ∀ file ∈ files, file.status = .queued
  consent : w.db.job.consentConfirmed = true
  crew : ∀ a ∈ w.crew, a = .cancelling ∨ a = .done

-- The activity has still to look at the counters.
def finalizing : BulkActivity → Prop
  | .parsing _ _ (.counted _) => True
  | .parsing _ _ (.closing _ _) => True
  | _ => False

def Settling (db : BulkDb) (crew : List BulkActivity) : Prop :=
  db.job.status = .processing ∧ (db.job.resolved < db.job.totalFiles ∨ ∃ a ∈ crew, finalizing a) ∨
    db.job.totalFiles ≤ db.job.resolved ∧ db.job.status = db.job.finalStatus

-- Every file that is not resolved is somebody's, and so is the closing of the job.
structure Attended (w : BulkWorld) : Prop where
  total : w.db.job.totalFiles = w.db.files.rows.length
  positive : 0 < w.db.files.rows.length
  live : ∀ file ∈ w.db.files.rows, file.status ≠ .cancelled
  attended : ∀ id, Unresolved w.db id → id ∈ w.extraction.unsent ∨ ∃ a ∈ w.crew, a.owner = some id
  settling : Settling w.db w.crew

def Proceeding (w : BulkWorld) : Prop :=
  (∃ status files, w.extraction.Waits status files ∧ Early w status files) ∨
    w.extraction.Through ∧ Attended w

theorem resolved_lt (h : Balanced db) (htotal : db.job.totalFiles = db.files.rows.length)
    {id : Uuid} (hopen : Unresolved db id) : db.job.resolved < db.job.totalFiles := by
  obtain ⟨file, hfile, hunresolved⟩ := hopen
  obtain ⟨hmem, -⟩ := (db.files.find?_eq_some _ _).mp hfile
  rw [h.resolved, htotal]
  have hle := List.countP_le_length (l := db.files.rows) (p := fun f => decide f.status.Resolved)
  have hne : db.files.rows.countP (fun f => decide f.status.Resolved) ≠ db.files.rows.length := by
    intro heq
    have hall := List.countP_eq_length.mp heq file hmem
    exact hunresolved (of_decide_eq_true hall)
  omega

theorem exists_unresolved (h : Balanced db) (htotal : db.job.totalFiles = db.files.rows.length)
    (hlt : db.job.resolved < db.job.totalFiles) : ∃ id, Unresolved db id := by
  by_contra hnone
  have hall : db.files.rows.countP (fun f => decide f.status.Resolved) =
      db.files.rows.length := by
    rw [List.countP_eq_length]
    intro file hfile
    by_contra hunresolved
    have hfound : getById db file.id = some file :=
      (db.files.find?_eq_some _ _).mpr ⟨hfile, rfl⟩
    exact hnone ⟨file.id, file, hfound, by simpa using hunresolved⟩
  rw [h.resolved, hall, htotal] at hlt
  omega

theorem unresolved_of_update {selected : BulkUploadJobFile → Bool}
    {status : BulkUploadFileStatus} {taskId : Option String} {id : Uuid}
    (h : Unresolved (update db selected status taskId) id) :
    ∃ old, getById db id = some old ∧
      (selected old = true ∧ ¬status.Resolved ∨ selected old = false ∧ ¬old.status.Resolved) := by
  obtain ⟨file, hfile, hunresolved⟩ := h
  rw [getById_update] at hfile
  obtain ⟨old, hold, rfl⟩ := Option.map_eq_some_iff.mp hfile
  refine ⟨old, hold, ?_⟩
  cases hs : selected old with
  | true => exact .inl ⟨rfl, by simpa [setValues, hs] using hunresolved⟩
  | false => exact .inr ⟨rfl, by simpa [setValues, hs] using hunresolved⟩

-- A job that is resolved is closed once nobody has to look at it any more.
theorem Attended.closed {w : BulkWorld} (h : Attended w) (hbalanced : Balanced w.db)
    (hquiet : w.Quiet) : w.db.job.status = w.db.job.finalStatus := by
  obtain ⟨hextraction, hcrew⟩ := hquiet
  have howner (a : BulkActivity) (ha : a ∈ w.crew) : a.owner = none := by
    cases a with
    | parsing file taskId point => exact absurd rfl ((hcrew _ ha file taskId).1 point)
    | requeued file taskId => exact absurd rfl (hcrew _ ha file taskId).2
    | _ => rfl
  rcases h.settling with ⟨-, hlt | ⟨a, ha, hfinalizing⟩⟩ | ⟨-, hfinal⟩
  · obtain ⟨id, hid⟩ := exists_unresolved hbalanced h.total hlt
    rcases h.attended id hid with hunsent | ⟨a, ha, hown⟩
    · rw [hextraction] at hunsent
      exact absurd hunsent List.not_mem_nil
    · rw [howner a ha] at hown
      simp at hown
  · cases a with
    | parsing file taskId point => exact absurd rfl ((hcrew _ ha file taskId).1 point)
    | _ => exact hfinalizing.elim
  · exact hfinal

section Advance

variable {w : BulkWorld} {index : ℕ} {a a' : BulkActivity} {file : Uuid} {taskId : String}

theorem Attended.move (h : Attended w) (hi : w.crew[index]? = some a)
    (htotals : SameTotals w.db db) (hlive : ∀ file ∈ db.files.rows, file.status ≠ .cancelled)
    (hopen : ∀ id, Unresolved db id → a'.owner = some id ∨ Unresolved w.db id ∧ a.owner ≠ some id)
    (hsettling : Settling db (w.crew.set index a')) :
    Attended ⟨db, w.extraction, w.crew.set index a'⟩ where
  total := by
    rw [htotals.total, htotals.length]
    exact h.total
  positive := by
    rw [htotals.length]
    exact h.positive
  live := hlive
  attended := by
    intro id hid
    rcases hopen id hid with howned | ⟨hold, hne⟩
    · exact .inr ⟨a', mem_set_self hi, howned⟩
    · rcases h.attended id hold with hunsent | howner
      · exact .inl hunsent
      · exact .inr (exists_mem_set hi howner fun ha => absurd ha hne)
  settling := hsettling

theorem Attended.pass (h : Attended w) (hi : w.crew[index]? = some a)
    (hfiles : db.files = w.db.files) (hjob : db.job = w.db.job)
    (hcampaign : db.campaignStatus = w.db.campaignStatus)
    (howner : ∀ id, a.owner = some id → a'.owner = some id)
    (hfinalizing : finalizing a → finalizing a' ∨
      ¬(w.db.job.status = .processing ∧ w.db.job.totalFiles ≤ w.db.job.resolved)) :
    Attended ⟨db, w.extraction, w.crew.set index a'⟩ := by
  apply h.move hi
  · exact ⟨by rw [hjob], by rw [hfiles], hcampaign⟩
  · rw [hfiles]
    exact h.live
  · intro id hid
    by_cases ha : a.owner = some id
    · exact .inl (howner id ha)
    · refine .inr ⟨?_, ha⟩
      unfold Unresolved getById at hid ⊢
      rwa [hfiles] at hid
  · unfold Settling
    rw [hjob]
    rcases h.settling with ⟨hprocessing, hlt | hsome⟩ | hfinal
    · exact .inl ⟨hprocessing, .inl hlt⟩
    · by_cases hlt : w.db.job.resolved < w.db.job.totalFiles
      · exact .inl ⟨hprocessing, .inl hlt⟩
      · refine .inl ⟨hprocessing, .inr (exists_mem_set hi hsome fun ha => ?_)⟩
        exact (hfinalizing ha).resolve_right fun hnot => hnot ⟨hprocessing, not_lt.mp hlt⟩
    · exact .inr hfinal

theorem Attended.hire (h : Attended w) (x : BulkActivity) :
    Attended { w with crew := w.crew ++ [x] } where
  total := h.total
  positive := h.positive
  live := h.live
  attended := by
    intro id hid
    rcases h.attended id hid with hunsent | ⟨a, ha, howned⟩
    · exact .inl hunsent
    · exact .inr ⟨a, List.mem_append_left _ ha, howned⟩
  settling := by
    rcases h.settling with ⟨hprocessing, hlt | ⟨a, ha, hfinalizing⟩⟩ | hfinal
    · exact .inl ⟨hprocessing, .inl hlt⟩
    · exact .inl ⟨hprocessing, .inr ⟨a, List.mem_append_left _ ha, hfinalizing⟩⟩
    · exact .inr hfinal

theorem Attended.record (h : Attended w) (hkept : Kept w) (hi : w.crew[index]? = some a)
    {status : BulkUploadFileStatus} (column : CountColumn) {succeeded : Bool}
    (howned : a.owner = some file) (hcancelled : status ≠ .cancelled)
    (hresolved : status.Resolved) :
    Attended ⟨enter (BulkUploadJobFileRepository.updateStatus w.db file status) file column 1,
      w.extraction, w.crew.set index (.parsing file taskId (.counted succeeded))⟩ := by
  have hunresolved := hkept.owned a (List.mem_of_getElem? hi) file howned
  have hlt := resolved_lt hkept.balanced h.total hunresolved
  apply h.move hi
  · exact sameTotals_enter (sameTotals_update _ _ _) file column 1
  · intro row hrow
    obtain ⟨old, hold, -, ⟨-, hstatus⟩ | ⟨-, rfl⟩⟩ := mem_update hrow
    · rw [hstatus]
      exact hcancelled
    · exact h.live row hold
  · intro id hid
    right
    obtain ⟨old, hold, ⟨-, hnot⟩ | ⟨hother, hopen⟩⟩ := unresolved_of_update hid
    · exact absurd hresolved hnot
    · obtain ⟨-, hkey⟩ := (w.db.files.find?_eq_some _ _).mp hold
      refine ⟨⟨old, hold, hopen⟩, fun ha => ?_⟩
      have hfile : id = file := Option.some.inj (ha.symm.trans howned)
      exact of_decide_eq_false hother (hkey.trans hfile)
  · left
    constructor
    · rw [status_enter]
      rcases h.settling with hprocessing | ⟨hle, -⟩
      · exact hprocessing.1
      · omega
    · exact .inr ⟨_, mem_set_self hi, trivial⟩

theorem Attended.start {attempt : ℕ} (h : Attended w) (hkept : Kept w)
    (hi : w.crew[index]? = some (.parsing file taskId (.sent attempt))) :
    (tryStartProcessing w.db file).2 = true ∧
      Attended ⟨(tryStartProcessing w.db file).1, w.extraction,
        w.crew.set index (.parsing file taskId (.claimed attempt))⟩ := by
  have hrunning : ¬BulkUploadFileStatus.running.Resolved := by decide
  have hunresolved : Unresolved w.db file := hkept.owned _ (List.mem_of_getElem? hi) file rfl
  constructor
  · -- an open file of a job that goes on is QUEUED or RUNNING
    obtain ⟨row, hrow, hopen⟩ := hunresolved
    obtain ⟨hmem, hid⟩ := (w.db.files.find?_eq_some _ _).mp hrow
    refine List.any_eq_true.mpr ⟨row, hmem, decide_eq_true ⟨hid, ?_⟩⟩
    cases hstatus : row.status with
    | queued => exact .inl rfl
    | running => exact .inr rfl
    | processed => exact absurd (.inl hstatus) hopen
    | failed => exact absurd (.inr hstatus) hopen
    | cancelled => exact absurd hstatus (h.live row hmem)
  · apply h.move hi (sameTotals_update _ _ _)
    · intro row hrow
      obtain ⟨old, hold, -, ⟨-, hstatus⟩ | ⟨-, rfl⟩⟩ := mem_update hrow
      · rw [hstatus]
        decide
      · exact h.live row hold
    · intro id hid
      by_cases hfile : file = id
      · exact .inl (congrArg some hfile)
      · right
        obtain ⟨old, hold, ⟨hselected, -⟩ | ⟨-, hopen⟩⟩ := unresolved_of_update hid
        · obtain ⟨-, hkey⟩ := (w.db.files.find?_eq_some _ _).mp hold
          exact absurd ((of_decide_eq_true hselected).1.symm.trans hkey) hfile
        · exact ⟨⟨old, hold, hopen⟩, fun ha => hfile (Option.some.inj ha)⟩
    · rcases h.settling with ⟨hprocessing, hlt | hsome⟩ | hfinal
      · exact .inl ⟨hprocessing, .inl hlt⟩
      · exact .inl ⟨hprocessing, .inr (exists_mem_set hi hsome fun ha => ha.elim)⟩
      · exact .inr hfinal

theorem Attended.replay {db' : BulkDb} {jobStatus : BulkUploadStatus} (h : Attended w)
    (hi : w.crew[index]? = some (.replaying file taskId jobStatus))
    (hdb : BulkUploadService.replayFailedFile w.db file taskId jobStatus = some db')
    (hintime : BulkActivity.InTime w.db (.replaying file taskId jobStatus))
    (hkept : Kept ⟨db', w.extraction, w.crew.set index (.requeued file taskId)⟩) :
    Attended ⟨db', w.extraction, w.crew.set index (.requeued file taskId)⟩ := by
  have htotals : SameTotals w.db db' := by
    have hadvance := @sameTotals_advance w.db .processed (.replaying file taskId jobStatus)
    simpa only [advance, hdb] using hadvance
  obtain ⟨⟨row, hrow, hfailed⟩, status, rfl, hreopened, hkeeps⟩ := replayFailedFile_eq_some hdb
  have hprocessing : status = .processing := by
    by_cases hread : jobStatus = .processing
    · rw [hkeeps hread]
      exact (hintime row hrow hfailed).2 hread
    · exact hreopened hread
  apply h.move hi htotals
  · intro other hother
    obtain ⟨old, hold, -, ⟨-, hstatus⟩ | ⟨-, rfl⟩⟩ := mem_update hother
    · rw [hstatus]
      decide
    · exact h.live other hold
  · intro id hid
    obtain ⟨old, hold, ⟨hselected, -⟩ | ⟨-, hopen⟩⟩ := unresolved_of_update hid
    · obtain ⟨-, hkey⟩ := (w.db.files.find?_eq_some _ _).mp hold
      exact .inl (congrArg some ((of_decide_eq_true hselected).1.symm.trans hkey))
    · exact .inr ⟨⟨old, hold, hopen⟩, fun ha => (Option.some_ne_none _ ha.symm).elim⟩
  · refine .inl ⟨hprocessing, .inl ?_⟩
    have hunresolved := hkept.owned _ (mem_set_self hi) file rfl
    exact resolved_lt hkept.balanced (by rw [htotals.total, htotals.length, h.total]) hunresolved

theorem Attended.advance {outcome : FileOutcome} (h : Attended w) (hkept : Kept w)
    (hi : w.crew[index]? = some a) (hguard : a.CountsOnce w.db ∧ a.InTime w.db)
    (hstatus : (a.advance w.db outcome).1.job.status ≠ .cancelled) :
    Attended ⟨(a.advance w.db outcome).1, w.extraction,
      w.crew.set index (a.advance w.db outcome).2⟩ := by
  have hafter : Kept ⟨(a.advance w.db outcome).1, w.extraction,
      w.crew.set index (a.advance w.db outcome).2⟩ := kept_advance hkept hi hguard.1
  have hpass (a' : BulkActivity) (howner : ∀ id, a.owner = some id → a'.owner = some id)
      (hfinalizing : ¬finalizing a) : Attended ⟨w.db, w.extraction, w.crew.set index a'⟩ :=
    h.pass hi rfl rfl rfl howner fun ha => absurd ha hfinalizing
  have hprocessed : BulkUploadFileStatus.processed.Resolved := .inl rfl
  have hfailed : BulkUploadFileStatus.failed.Resolved := .inr rfl
  cases a with
  | done => exact hpass _ (fun _ ha => ha) not_false
  | cancelling => exact absurd rfl hstatus
  | requeued file taskId => exact hpass _ (fun _ ha => ha) not_false
  | checkingReplay file taskId jobStatus =>
    rw [BulkActivity.advance]
    split_ifs
    · exact hpass _ (fun _ ha => (Option.some_ne_none _ ha.symm).elim) not_false
    · exact hpass _ (fun _ ha => (Option.some_ne_none _ ha.symm).elim) not_false
  | replaying file taskId jobStatus =>
    rw [BulkActivity.advance] at hafter ⊢
    cases hdb : BulkUploadService.replayFailedFile w.db file taskId jobStatus with
    | none => exact hpass _ (fun _ ha => (Option.some_ne_none _ ha.symm).elim) not_false
    | some db' =>
      rw [hdb] at hafter
      exact h.replay hi hdb hguard.2 hafter
  | parsing file taskId point =>
    cases point with
    | sent attempt =>
      obtain ⟨hclaimed, hstarted⟩ := h.start hkept hi
      rw [BulkActivity.advance]
      cases hstart : tryStartProcessing w.db file with
      | mk db' claimed =>
        rw [hstart] at hclaimed hstarted
        obtain rfl : claimed = true := hclaimed
        exact hstarted
    | claimed attempt => exact hpass _ (fun _ ha => ha) not_false
    | working attempt =>
      cases outcome with
      | processed => exact h.record hkept hi _ rfl (by decide) hprocessed
      | duplicateFile => exact h.record hkept hi _ rfl (by decide) hprocessed
      | stageFails stage classification => exact hpass _ (fun _ ha => ha) not_false
      | alreadyLinked => exact hpass _ (fun _ ha => ha) not_false
    | handling attempt stage classification =>
      rw [BulkActivity.advance]
      split_ifs
      · exact h.pass hi rfl rfl rfl (fun _ ha => ha) fun ha => ha.elim
      · exact hpass _ (fun _ ha => ha) not_false
    | failing isDuplicate =>
      cases isDuplicate with
      | false => exact h.record hkept hi _ rfl (by decide) hfailed
      | true => exact h.record hkept hi _ rfl (by decide) hfailed
    | counted succeeded =>
      rw [BulkActivity.advance]
      cases hdecided : maybeFinalizeJob w.db.job with
      | some status =>
        exact h.pass hi rfl rfl rfl (fun _ ha => (Option.some_ne_none _ ha.symm).elim) fun _ => .inl trivial
      | none =>
        refine h.pass hi rfl rfl rfl (fun _ ha => (Option.some_ne_none _ ha.symm).elim) fun _ => .inr ?_
        rintro ⟨hprocessing, hle⟩
        -- a resolved job that is PROCESSING is decided on
        unfold maybeFinalizeJob at hdecided
        rw [if_neg (not_not.mpr hprocessing)] at hdecided
        have hzero : w.db.job.totalFiles ≠ 0 := by
          have hpositive := h.positive
          rw [h.total]
          omega
        rw [if_neg hzero, if_neg (by omega)] at hdecided
        split_ifs at hdecided
    | closing succeeded status =>
      obtain ⟨-, hresolved, hfinal⟩ := hguard.2
      refine h.move hi ⟨rfl, rfl, rfl⟩ h.live ?_ (.inr ⟨hresolved, hfinal⟩)
      exact fun id hid => .inr ⟨hid, fun ha => (Option.some_ne_none _ ha.symm).elim⟩
    | closed succeeded => exact hpass _ (fun _ ha => (Option.some_ne_none _ ha.symm).elim) not_false
    | failingAgain =>
      exact absurd (hkept.succeeded _ (List.mem_of_getElem? hi) file rfl) hguard.1

theorem Attended.raises (h : Attended w) (hi : w.crew[index]? = some a)
    (hworking : ∃ file taskId attempt, a = .parsing file taskId (.working attempt)) :
    Attended { w with crew := w.crew.set index a.raises } := by
  obtain ⟨file, taskId, attempt, rfl⟩ := hworking
  exact h.pass hi rfl rfl rfl (fun _ ha => ha) fun ha => ha.elim

theorem Early.advance {outcome : FileOutcome} {status : BulkUploadStatus}
    {files : List BulkUploadJobFile} (h : Early w status files) (hi : w.crew[index]? = some a)
    (hstatus : (a.advance w.db outcome).1.job.status ≠ .cancelled) :
    Early ⟨(a.advance w.db outcome).1, w.extraction,
      w.crew.set index (a.advance w.db outcome).2⟩ status files := by
  rcases h.crew a (List.mem_of_getElem? hi) with rfl | rfl
  · exact absurd rfl hstatus
  · refine ⟨h.status, h.rows, h.queued, h.consent, ?_⟩
    intro x hx
    rcases mem_of_mem_set hx with rfl | hx
    · exact .inr rfl
    · exact h.crew x hx

theorem Early.hire {status : BulkUploadStatus} {files : List BulkUploadJobFile}
    (h : Early w status files) : Early { w with crew := w.crew ++ [.cancelling] } status files where
  status := h.status
  rows := h.rows
  queued := h.queued
  consent := h.consent
  crew := by
    intro x hx
    rcases List.mem_append.mp hx with hx | hx
    · exact h.crew x hx
    · exact .inl (List.mem_singleton.mp hx)

end Advance

theorem attended_totalling {w : BulkWorld} {staged : List BulkUploadJobFile}
    (h : Early w .extracting staged) (hkept : Kept w) (hextraction : w.extraction = .totalling staged)
    (hstaged : staged ≠ []) :
    Attended ⟨(w.extraction.advance w.db).1, (w.extraction.advance w.db).2.1,
      w.crew ++ (w.extraction.advance w.db).2.2.toList⟩ := by
  have hkept' := kept_extract hkept
  rw [hextraction] at hkept' ⊢
  cases staged with
  | nil => exact absurd rfl hstaged
  | cons first rest =>
    have hpositive : 0 < w.db.files.rows.length := by
      rw [h.rows]
      exact Nat.succ_pos _
    have hfirst : first ∈ w.db.files.rows := by
      rw [h.rows]
      exact List.mem_cons_self
    have htotal : ((first :: rest).length : ℤ) = w.db.files.rows.length := by rw [h.rows]
    have hqueued : ¬BulkUploadFileStatus.queued.Resolved := by decide
    refine ⟨htotal, hpositive, ?_, ?_, ?_⟩
    · intro file hfile
      change file ∈ w.db.files.rows at hfile
      rw [h.rows] at hfile
      rw [h.queued file hfile]
      decide
    · rintro id ⟨file, hfile, -⟩
      obtain ⟨hmem, hid⟩ := (w.db.files.find?_eq_some _ _).mp hfile
      rw [h.rows] at hmem
      exact .inl (List.mem_map.mpr ⟨file, hmem, hid⟩)
    · refine .inl ⟨rfl, .inl ?_⟩
      apply @resolved_lt _ hkept'.balanced htotal first.id
      refine ⟨first, (w.db.files.find?_eq_some _ _).mpr ⟨hfirst, rfl⟩, ?_⟩
      rw [h.queued first List.mem_cons_self]
      exact hqueued

theorem attended_send {w : BulkWorld} {file : BulkUploadJobFile} {rest : List BulkUploadJobFile}
    (h : Attended w) (hextraction : w.extraction = .sending (file :: rest)) (taskId : String) :
    Attended ⟨w.db, .sending rest, w.crew ++ [.parsing file.id taskId (.sent 1)]⟩ := by
  have hhired := h.hire (.parsing file.id taskId (.sent 1))
  refine ⟨h.total, h.positive, h.live, ?_, hhired.settling⟩
  intro id hid
  rcases hhired.attended id hid with hunsent | howner
  · rw [hextraction] at hunsent
    rcases List.mem_cons.mp hunsent with rfl | hunsent
    · exact .inr ⟨_, List.mem_append_right _ List.mem_cons_self, rfl⟩
    · exact .inl hunsent
  · exact .inr howner

theorem proceeding_extract {w : BulkWorld} (h : Proceeding w) (hsound : Sound w) :
    Proceeding ⟨(w.extraction.advance w.db).1, (w.extraction.advance w.db).2.1,
      w.crew ++ (w.extraction.advance w.db).2.2.toList⟩ := by
  obtain ⟨db, extraction, crew⟩ := w
  rcases h with ⟨status, files, hwaits, hearly⟩ | ⟨hthrough, hattended⟩
  · have hcrew : ∀ a ∈ crew ++ [], a = .cancelling ∨ a = .done := by
      rw [List.append_nil]
      exact hearly.crew
    have hconsent : db.job.consentConfirmed = true := hearly.consent
    cases extraction with
    | sent entries =>
      exact .inl ⟨status, files, hwaits, hearly.status, hearly.rows, hearly.queued, hconsent,
        hcrew⟩
    | opened entries =>
      obtain ⟨-, rfl, hentries⟩ := hwaits
      change Proceeding ⟨(ExtractionPoint.advance db (.opened entries)).1, _, _⟩
      rw [ExtractionPoint.advance, if_pos hconsent]
      exact .inl ⟨.extracting, [], ⟨rfl, rfl, hentries⟩, rfl, hearly.rows, hearly.queued,
        hconsent, hcrew⟩
    | staging entries =>
      obtain ⟨rfl, rfl, hentries⟩ := hwaits
      have hrows : (createMany db entries).1.files.rows = (createMany db entries).2 := by
        have hempty : db.files.rows = [] := hearly.rows
        rw [rows_createMany, hempty, List.nil_append]
      have hjob := (@job_createMany db entries).1
      refine .inl ⟨.extracting, (createMany db entries).2, ⟨rfl, rfl, ?_⟩, ?_, hrows,
        status_createMany, ?_, hcrew⟩
      · obtain ⟨first, rest, rfl⟩ := List.exists_cons_of_ne_nil hentries
        exact List.cons_ne_nil _ _
      · exact (congrArg BulkUploadJob.status hjob).trans hearly.status
      · exact (congrArg BulkUploadJob.consentConfirmed hjob).trans hconsent
    | totalling staged =>
      obtain ⟨rfl, rfl, hstaged⟩ := hwaits
      refine .inr ⟨?_, attended_totalling hearly hsound.kept rfl hstaged⟩
      obtain ⟨first, rest, rfl⟩ := List.exists_cons_of_ne_nil hstaged
      exact trivial
    | _ => exact hwaits.elim
  · have hgoes (extraction' : ExtractionPoint) (hthrough : extraction'.Through)
        (hunsent : extraction'.unsent = extraction.unsent) :
        Proceeding ⟨db, extraction', crew ++ []⟩ := by
      rw [List.append_nil]
      refine .inr ⟨hthrough, hattended.total, hattended.positive, hattended.live, ?_,
        hattended.settling⟩
      intro id hid
      have hold := hattended.attended id hid
      change id ∈ extraction'.unsent ∨ _
      rw [hunsent]
      exact hold
    cases extraction with
    | gating staged =>
      have hcampaign : db.campaignStatus = .active := hsound.campaign
      change Proceeding ⟨(ExtractionPoint.advance db (.gating staged)).1, _, _⟩
      rw [ExtractionPoint.advance, hcampaign, if_neg (by decide)]
      exact hgoes (.sending staged) trivial rfl
    | sending staged =>
      cases staged with
      | nil => exact hgoes .done trivial rfl
      | cons file rest => exact .inr ⟨trivial, attended_send hattended rfl _⟩
    | done => exact hgoes .done trivial rfl
    | _ => exact hthrough.elim

theorem proceeding_step {w w' : BulkWorld} (h : Proceeding w)
    (hsound : Sound w) (hguard : w.InTime action w') (hstep : w.Step action w')
    (hstatus : w'.db.job.status ≠ .cancelled) : Proceeding w' := by
  obtain ⟨rfl, rfl⟩ | ⟨rfl, rfl⟩ | ⟨rfl, rfl⟩ | ⟨file, taskId, rfl, hreplayable, rfl⟩ |
    ⟨index, outcome, a, rfl, hi, rfl⟩ | ⟨index, a, rfl, hi, rfl⟩ := step_cases hstep
  · exact proceeding_extract h hsound
  · exact hguard.elim
  · rcases h with ⟨status, files, hwaits, hearly⟩ | ⟨hthrough, hattended⟩
    · exact .inl ⟨status, files, hwaits, hearly.hire⟩
    · exact .inr ⟨hthrough, hattended.hire _⟩
  · rcases h with ⟨status, files, hwaits, hearly⟩ | ⟨hthrough, hattended⟩
    · -- no file can be replayed before the job is processed
      rw [hearly.status] at hreplayable
      exact absurd hwaits.not_replayable hreplayable
    · exact .inr ⟨hthrough, hattended.hire _⟩
  · rcases h with ⟨status, files, hwaits, hearly⟩ | ⟨hthrough, hattended⟩
    · exact .inl ⟨status, files, hwaits, hearly.advance hi hstatus⟩
    · exact .inr ⟨hthrough, hattended.advance hsound.kept hi (hguard a hi) hstatus⟩
  · obtain ⟨file, taskId, attempt, hworking⟩ := hguard
    cases hi.symm.trans hworking
    rcases h with ⟨status, files, hwaits, hearly⟩ | ⟨hthrough, hattended⟩
    · rcases hearly.crew _ (List.mem_of_getElem? hi) with ha | ha <;> exact nomatch ha
    · exact .inr ⟨hthrough, hattended.raises hi ⟨file, taskId, attempt, rfl⟩⟩

theorem open_before {w w' : BulkWorld} (hsound : Sound w)
    (hguard : w.InTime action w') (hstep : w.Step action w')
    (hstatus : w'.db.job.status ≠ .cancelled) : w.db.job.status ≠ .cancelled := by
  intro hcancelled
  apply hstatus
  obtain ⟨rfl, rfl⟩ | ⟨rfl, rfl⟩ | ⟨rfl, rfl⟩ | ⟨file, taskId, rfl, -, rfl⟩ |
    ⟨index, outcome, a, rfl, hi, rfl⟩ | ⟨index, a, rfl, hi, rfl⟩ := step_cases hstep
  · exact cancelled_extract hcancelled hsound hguard
  · exact hguard.elim
  · exact hcancelled
  · exact hcancelled
  · exact cancelled_advance hcancelled (hguard a hi).2
  · exact hcancelled

theorem Uploaded.sound {w : BulkWorld} (h : w.Uploaded) : Sound w := by
  obtain ⟨entries, -, hextraction⟩ := h.extraction
  refine ⟨⟨⟨?_, ?_, ?_, ?_⟩, ?_, ?_, ?_, ?_, ?_, ?_⟩, h.campaign, ?_⟩
  · simp [h.files]
  · simp [h.files]
  · exact fun id _ => h.ledger id
  · intro column _
    rw [h.count column, h.files]
    rfl
  · rw [h.crew]
    exact soleOwner_nil
  · simp [h.crew]
  · simp [h.crew]
  · simp [hextraction, ExtractionPoint.unsent]
  · simp [hextraction, ExtractionPoint.unsent]
  · simp [hextraction, ExtractionPoint.unsent]
  · simp [hextraction]

theorem Uploaded.proceeding {w : BulkWorld} (h : w.Uploaded) : Proceeding w := by
  obtain ⟨entries, hentries, hextraction⟩ := h.extraction
  refine .inl ⟨.pending, [], ?_, h.status, h.files, by simp, h.consent, by simp [h.crew]⟩
  rw [hextraction]
  exact ⟨rfl, rfl, hentries⟩

-- A cancelled job stays so, and any other one is closed by its counters.
theorem bulk_job_closed {w : BulkWorld} {path : List (BulkAction × BulkWorld)}
    (hstart : w.Uploaded) (hpath : Path Step w path) (hguard : EveryStep InTime w path) :
    StaysCancelled w path ∧ ∀ t ∈ visited w path, t.ClosedByCounts := by
  refine ⟨staysCancelled hstart.sound hpath hguard, ?_⟩
  have hinv : ∀ t ∈ visited w path, Sound t ∧ (t.db.job.status ≠ .cancelled → Proceeding t) := by
    refine hpath.guarded_invariant ⟨hstart.sound, fun _ => hstart.proceeding⟩ hguard ?_
    intro s action t hs hq hstep
    refine ⟨sound_step hs.1 hq hstep, fun hstatus => ?_⟩
    exact proceeding_step (hs.2 (open_before hs.1 hq hstep hstatus)) hs.1 hq hstep hstatus
  intro t ht hquiet hstatus
  obtain ⟨hsound, hproceeding⟩ := hinv t ht
  rcases hproceeding hstatus with ⟨status, files, hwaits, -⟩ | ⟨-, hattended⟩
  · rw [hquiet.1] at hwaits
    exact hwaits.elim
  · exact hattended.closed hsound.kept.balanced hquiet

def oneEntry : BulkWorld where
  db :=
    { job := ⟨.pending, true, 0, 0, 0, 0, 0⟩
      files := Table.empty
      deadLetters := []
      campaignStatus := .active
      ledger := fun _ => 0 }
  extraction := .sent ["first"]
  crew := []

theorem oneEntry_uploaded : oneEntry.Uploaded where
  extraction := ⟨["first"], by decide, rfl⟩
  crew := rfl
  files := rfl
  status := rfl
  consent := rfl
  campaign := rfl
  count := by
    intro column
    cases column <;> rfl
  ledger := fun _ => rfl

def completes : List BulkAction :=
  [.extract, .extract, .extract, .extract, .extract, .extract, .extract, .advance 0 .processed,
    .advance 0 .processed, .advance 0 .processed, .advance 0 .processed, .advance 0 .processed,
    .advance 0 .processed]

theorem bulk_job_closed_completed : (StaysCancelled oneEntry (execute next oneEntry completes) ∧
        ∀ t ∈ visited oneEntry (execute next oneEntry completes), t.ClosedByCounts) ∧
      (final oneEntry (execute next oneEntry completes)).db.job.status = .completed := by
  refine ⟨bulk_job_closed oneEntry_uploaded (execute_path next (fun _ _ _ h => h) _ _) ?_, rfl⟩
  have hopen (status : BulkUploadStatus) (h : status ≠ .cancelled) : status ≠ .cancelled := h
  refine ⟨trivial, hopen .pending (by decide), hopen .extracting (by decide),
    hopen .extracting (by decide), trivial, trivial, trivial, ?_, ?_, ?_, ?_, ?_, ?_, trivial⟩
  · rintro a ⟨⟩
    exact ⟨trivial, trivial⟩
  · rintro a ⟨⟩
    exact ⟨trivial, trivial⟩
  · rintro a ⟨⟩
    exact ⟨trivial, trivial⟩
  · rintro a ⟨⟩
    exact ⟨trivial, trivial⟩
  · rintro a ⟨⟩
    exact ⟨trivial, hopen .processing (by decide), by decide, rfl⟩
  · rintro a ⟨⟩
    exact ⟨trivial, trivial⟩

def cancelsEarly : List BulkAction :=
  [.extract, .cancelJob, .advance 0 .processed, .extract]

theorem extraction_overwrites_cancelled :
    ¬∀ (w : BulkWorld) (path : List (BulkAction × BulkWorld)), w.Uploaded → Path Step w path →
      (∀ entry ∈ path, entry.1 ≠ .extractionRaises ∧ ∀ index, entry.1 ≠ .raises index) →
        StaysCancelled w path ∧ ∀ t ∈ visited w path, t.ClosedByCounts := by
  intro hall
  have hpath : Path Step oneEntry (execute next oneEntry cancelsEarly) :=
    execute_path next (fun _ _ _ h => h) _ _
  have hfaultless : ∀ entry ∈ execute next oneEntry cancelsEarly,
      entry.1 ≠ .extractionRaises ∧ ∀ index, entry.1 ≠ .raises index := by
    intro entry hentry
    have haction : entry.1 ∈ cancelsEarly := List.mem_map_of_mem (f := Prod.fst) hentry
    constructor
    · intro he
      rw [he] at haction
      exact absurd haction (by decide)
    · intro index he
      rw [he] at haction
      simp [cancelsEarly] at haction
  obtain ⟨hstays, -⟩ := hall oneEntry _ oneEntry_uploaded hpath hfaultless
  have hstatus := hstays ((execute next oneEntry cancelsEarly).take 2) 0 .processed _
    ((execute next oneEntry cancelsEarly).drop 3) rfl rfl _ (final_mem_visited _ _)
  exact absurd hstatus.1 (by decide)

end Open

end BulkWorld

end AiHiring
