import AiHiring.Cache.CacheRuns
import AiHiring.Library.Crew

namespace AiHiring.CacheRuns

open Library

-- The key holds nothing that a `DEL` or a scan of this writer should have removed.
def WriterStage.cleared : WriterStage → Bool
  | committed => false
  | scanning covered => covered
  | paged covered found _ => covered && !found
  | deleted => true
  | timed _ => true
  | returned => true

def ReaderStage.startedAt : ReaderStage → Option ℕ
  | timed startedAt => some startedAt
  | loaded startedAt _ => some startedAt
  | _ => none

section Properties

variable (key : String) (w t : World)

-- What is cached was loaded after the commit of every writer that has returned.
def NoStaleValue : Prop :=
  ∀ writer ∈ w.writers, writer.stage = .returned → ∀ readAt, w.cached = some readAt →
    writer.commit ≤ readAt

structure Initial : Prop where
  readers : w.readers = []
  writers : w.writers = []

-- A reader passes its check only where no writer whose commit its loader has not
-- seen has removed the key and not yet left its tombstone.
def ChecksInOrder (reader : Reader) : Prop :=
  ∀ startedAt readAt, reader.stage = .loaded startedAt readAt →
    invalidatedSince key w startedAt = false →
      ∀ writer ∈ w.writers, writer.stage.cleared = true → writer.stage ≠ .returned →
        writer.commit ≤ readAt

-- A writer removes the key only where no reader that has passed its check holds a
-- value from before the commit.
def ClearsInOrder (i : ℕ) : Prop :=
  ∀ writer writer', w.writers[i]? = some writer → t.writers[i]? = some writer' →
    writer.stage.cleared = false → writer'.stage.cleared = true →
      ∀ reader ∈ w.readers, ∀ readAt, reader.stage = .checked readAt → writer.commit ≤ readAt

-- A tombstone that stops an outdated value neither expires, nor is deleted by a
-- scan, nor gets an earlier stamp before that value is checked.
def KeepsTombstones : Prop :=
  ∀ reader ∈ w.readers, ∀ startedAt readAt, reader.stage = .loaded startedAt readAt →
    (∃ writer ∈ w.writers, writer.stage = .returned ∧ readAt < writer.commit) →
      invalidatedSince key w startedAt = true → invalidatedSince key t startedAt = true

def InOrder : World → Event → World → Prop
  | w, .advanceReader i, _ => ∀ reader, w.readers[i]? = some reader → ChecksInOrder key w reader
  | w, .advanceWriter i _, t => ClearsInOrder w t i ∧ KeepsTombstones key w t
  | w, .tick _, t => KeepsTombstones key w t
  | _, _, _ => True

structure Inv : Prop where
  commits : ∀ writer ∈ w.writers, writer.commit ≤ w.commits
  targets : ∀ writer ∈ w.writers, writer.target ∈ targets key
  -- the last page of a scan leaves no slot behind
  pages : ∀ writer ∈ w.writers, ∀ covered found page, writer.stage = .paged covered found page →
    page.last = true → covered = true
  started : ∀ reader ∈ w.readers, ∀ startedAt, reader.stage.startedAt = some startedAt →
    startedAt ≤ w.clock
  ordered : ∀ reader ∈ w.readers, ∀ startedAt readAt, reader.stage = .loaded startedAt readAt →
    ∀ writer ∈ w.writers, ∀ now, writer.stage = .timed now → readAt < writer.commit →
      startedAt ≤ now
  stopped : ∀ reader ∈ w.readers, ∀ startedAt readAt, reader.stage = .loaded startedAt readAt →
    ∀ writer ∈ w.writers, writer.stage = .returned → readAt < writer.commit →
      invalidatedSince key w startedAt = true
  checked : ∀ reader ∈ w.readers, ∀ readAt, reader.stage = .checked readAt →
    ∀ writer ∈ w.writers, writer.stage.cleared = true → writer.commit ≤ readAt
  cached : ∀ readAt, w.cached = some readAt →
    ∀ writer ∈ w.writers, writer.stage.cleared = true → writer.commit ≤ readAt

end Properties

variable {key : String} {w t : World} {i : ℕ}

theorem Inv.noStaleValue (hi : Inv key w) : NoStaleValue w := by
  intro writer hwriter hreturned readAt hcached
  exact hi.cached readAt hcached writer hwriter (by rw [hreturned]; rfl)

theorem Initial.inv (h : Initial w) : Inv key w := by
  constructor <;> simp [h.readers, h.writers]

variable {target : String} {writer : Writer}

theorem target_mem_targets {byPrefix : Bool}
    (h : isInvalidation key byPrefix target = true) : target ∈ targets key := by
  unfold isInvalidation at h
  unfold targets
  rw [List.mem_append]
  cases byPrefix with
  | false => exact .inr (List.mem_singleton.mpr (by simpa using h))
  | true =>
    simp only [if_true, Bool.and_eq_true, decide_eq_true_eq] at h
    obtain ⟨hstarts, hcolon⟩ := h
    obtain ⟨rest, hrest⟩ := List.isPrefixOf_iff_prefix.mp hstarts
    obtain ⟨start, hstart⟩ := List.getLast?_eq_some_iff.mp hcolon
    have hkey : key.toList[start.length]? = some ':' := by
      rw [← hrest, hstart, List.append_assoc]
      simp
    have hlength : start.length + 1 = target.toList.length := by simp [hstart]
    have htake : key.toList.take (start.length + 1) = target.toList := by
      rw [← hrest, hlength, List.take_left']
      rfl
    refine .inl (List.mem_map.mpr ⟨(':', start.length), ?_, ?_⟩)
    · rw [List.mem_filter]
      exact ⟨List.mem_zipIdx_iff_getElem?.mpr hkey, by simp⟩
    · rw [htake, String.ofList_toList]

theorem inv_cached (hi : Inv key w) (cached : Option ℕ) (hcached : ∀ readAt, cached = some readAt →
      ∀ writer ∈ w.writers, writer.stage.cleared = true → writer.commit ≤ readAt) :
    Inv key { w with cached := cached } :=
  { hi with cached := hcached }

theorem inv_lock (hi : Inv key w) (lock : Option ℕ) : Inv key { w with lock := lock } :=
  { hi with }

theorem inv_tombstones (hi : Inv key w) {tombstones : String → Option Tombstone} {clock : ℕ}
    (hclock : w.clock ≤ clock)
    (hkeeps : KeepsTombstones key w { w with tombstones := tombstones, clock := clock }) :
    Inv key { w with tombstones := tombstones, clock := clock } := by
  refine { hi with started := ?_, stopped := ?_ }
  · intro reader hreader startedAt hstarted
    exact Nat.le_trans (hi.started reader hreader startedAt hstarted) hclock
  · intro reader hreader startedAt readAt hloaded writer hwriter hreturned hlt
    exact hkeeps reader hreader startedAt readAt hloaded ⟨writer, hwriter, hreturned, hlt⟩
      (hi.stopped reader hreader startedAt readAt hloaded writer hwriter hreturned hlt)

theorem inv_moveReader (hi : Inv key w) {reader : Reader} {stage : ReaderStage}
    (hstarted : ∀ startedAt, stage.startedAt = some startedAt → startedAt ≤ w.clock)
    (hloaded : ∀ startedAt readAt, stage = .loaded startedAt readAt →
      ∀ writer ∈ w.writers, writer.commit ≤ readAt)
    (hchecked : ∀ readAt, stage = .checked readAt →
      ∀ writer ∈ w.writers, writer.stage.cleared = true → writer.commit ≤ readAt) :
    Inv key (moveReader w i reader stage) := by
  refine { hi with started := ?_, ordered := ?_, stopped := ?_, checked := ?_ }
  · exact forall_mem_set hi.started hstarted
  · refine forall_mem_set hi.ordered fun startedAt readAt h writer hwriter now htimed hlt => ?_
    have hle := hloaded startedAt readAt h writer hwriter
    omega
  · refine forall_mem_set hi.stopped fun startedAt readAt h writer hwriter hreturned hlt => ?_
    have hle := hloaded startedAt readAt h writer hwriter
    omega
  · exact forall_mem_set hi.checked hchecked

theorem inv_moveWriter (hi : Inv key w) {stage : WriterStage} (hmem : writer ∈ w.writers)
    (hpages : ∀ covered found page, stage = .paged covered found page → page.last = true →
      covered = true)
    (htimed : ∀ now, stage = .timed now → now = w.clock)
    (hreturned : stage = .returned → ∀ reader ∈ w.readers, ∀ startedAt readAt,
      reader.stage = .loaded startedAt readAt → readAt < writer.commit →
        invalidatedSince key w startedAt = true)
    (hchecked : stage.cleared = true → ∀ reader ∈ w.readers, ∀ readAt,
      reader.stage = .checked readAt → writer.commit ≤ readAt)
    (hcached : stage.cleared = true → ∀ readAt, w.cached = some readAt → writer.commit ≤ readAt) :
    Inv key (moveWriter w i writer stage) := by
  refine { hi with
    commits := ?_, targets := ?_, pages := ?_, ordered := ?_, stopped := ?_, checked := ?_
    cached := ?_ }
  · exact forall_mem_set hi.commits (hi.commits writer hmem)
  · exact forall_mem_set hi.targets (hi.targets writer hmem)
  · exact forall_mem_set hi.pages hpages
  · intro reader hreader startedAt readAt hloaded
    refine forall_mem_set (hi.ordered reader hreader startedAt readAt hloaded) fun now h hlt => ?_
    rw [htimed now h]
    exact hi.started reader hreader startedAt (by rw [hloaded]; rfl)
  · intro reader hreader startedAt readAt hloaded
    refine forall_mem_set (hi.stopped reader hreader startedAt readAt hloaded) fun h hlt => ?_
    exact hreturned h reader hreader startedAt readAt hloaded hlt
  · intro reader hreader readAt h
    refine forall_mem_set (hi.checked reader hreader readAt h) fun hcleared => ?_
    exact hchecked hcleared reader hreader readAt h
  · intro readAt h
    exact forall_mem_set (hi.cached readAt h) fun hcleared => hcached hcleared readAt h

theorem settle_ne (reader : Reader) :
    (settle reader).startedAt = none ∧ ∀ readAt, settle reader ≠ .checked readAt := by
  unfold settle
  split <;> simp [ReaderStage.startedAt]

theorem advanceReader_inv (hi : Inv key w) {reader : Reader} (hreader : w.readers[i]? = some reader)
    (horder : ChecksInOrder key w reader) (h : advanceReader key w i reader = some t) :
    Inv key t := by
  have hmem := List.mem_of_getElem? hreader
  obtain ⟨useLock, stage⟩ := reader
  -- a stage that holds no value
  have hidle (stage' : ReaderStage) (hstarted : stage'.startedAt = none)
      (hchecked : ∀ readAt, stage' ≠ .checked readAt) :
      Inv key (moveReader w i ⟨useLock, stage⟩ stage') := by
    refine inv_moveReader hi ?_ ?_ ?_
    · intro startedAt hsome
      rw [hstarted] at hsome
      simp at hsome
    · intro startedAt readAt hloaded
      rw [hloaded] at hstarted
      simp [ReaderStage.startedAt] at hstarted
    · exact fun readAt h => absurd h (hchecked readAt)
  obtain ⟨hsettleStarted, hsettleChecked⟩ := settle_ne ⟨useLock, stage⟩
  cases stage with
  | started =>
    simp only [advanceReader] at h
    split at h
    · cases h
      exact hidle .returned rfl (by simp)
    · cases h
      exact hidle .missed rfl (by simp)
  | missed =>
    simp only [advanceReader] at h
    split at h
    · cases h
      exact hidle .admitted rfl (by simp)
    · split at h
      · cases h
        exact inv_lock (hidle .admitted rfl (by simp)) _
      · cases h
        exact hidle (.polling 3) rfl (by simp)
  | polling left =>
    cases left with
    | zero =>
      cases h
      exact hidle .returned rfl (by simp)
    | succ left =>
      simp only [advanceReader] at h
      split at h
      · cases h
        exact hidle .returned rfl (by simp)
      · cases h
        exact hidle (.polling left) rfl (by simp)
  | admitted =>
    cases h
    refine inv_moveReader hi ?_ (by simp) (by simp)
    intro startedAt hstarted
    cases hstarted
    exact Nat.le_refl _
  | timed startedAt =>
    cases h
    refine inv_moveReader hi ?_ ?_ (by simp)
    · intro other hstarted
      exact hi.started _ hmem other hstarted
    · intro other readAt hloaded writer hwriter
      obtain ⟨-, rfl⟩ := ReaderStage.loaded.inj hloaded
      exact hi.commits writer hwriter
  | loaded startedAt readAt =>
    simp only [advanceReader] at h
    split at h
    · cases h
      exact hidle _ hsettleStarted hsettleChecked
    · rename_i hvisible
      cases h
      refine inv_moveReader hi (by simp [ReaderStage.startedAt]) (by simp) ?_
      intro other hchecked writer hwriter hcleared
      obtain rfl := ReaderStage.checked.inj hchecked
      have hopen : invalidatedSince key w startedAt = false := by simpa using hvisible
      by_cases hreturned : writer.stage = .returned
      · -- its tombstone would have stopped the value
        by_contra hlt
        have hstopped := hi.stopped _ hmem startedAt readAt rfl writer hwriter hreturned (by omega)
        rw [hopen] at hstopped
        simp at hstopped
      · exact horder startedAt readAt rfl hopen writer hwriter hcleared hreturned
  | checked readAt =>
    cases h
    refine inv_cached (hidle _ hsettleStarted hsettleChecked) _ ?_
    intro other hcached writer hwriter hcleared
    cases hcached
    exact hi.checked _ hmem readAt rfl writer hwriter hcleared
  | settled =>
    cases h
    exact inv_lock (hidle .returned rfl (by simp)) _
  | returned => simp [advanceReader] at h

theorem checked_of_clears (stage : WriterStage) (hi : Inv key w)
    (hwriter : w.writers[i]? = some writer)
    (hmoved : t.writers = (moveWriter w i writer stage).writers) (horder : ClearsInOrder w t i)
    (hcleared : stage.cleared = true) :
    ∀ reader ∈ w.readers, ∀ readAt, reader.stage = .checked readAt → writer.commit ≤ readAt := by
  intro reader hreader readAt hchecked
  cases hbefore : writer.stage.cleared with
  | true =>
    have hmem := List.mem_of_getElem? hwriter
    exact hi.checked reader hreader readAt hchecked writer hmem hbefore
  | false =>
    obtain ⟨hlt, -⟩ := List.getElem?_eq_some_iff.mp hwriter
    have hafter : t.writers[i]? = some { writer with stage := stage } := by
      rw [hmoved]
      exact List.getElem?_set_self hlt
    exact horder writer _ hwriter hafter hbefore hcleared reader hreader readAt hchecked

theorem invalidatedSince_setTombstone {now startedAt : ℕ}
    (htarget : target ∈ targets key) (hle : startedAt ≤ now) :
    invalidatedSince key (setTombstone w target now) startedAt = true := by
  unfold invalidatedSince
  rw [List.any_eq_true]
  exact ⟨target, htarget, by simp [setTombstone, Tombstone.isVisible, hle]⟩

theorem nextPage_inv (hi : Inv key w) (hwriter : w.writers[i]? = some writer)
    {covered : Bool} {page : Page} (hstage : covered = true → writer.stage.cleared = true)
    (horder : ClearsInOrder w t i)
    (h : nextPage key w i writer covered page = some t) : Inv key t := by
  have hmem := List.mem_of_getElem? hwriter
  unfold nextPage at h
  by_cases hvalid : isPage key writer.target covered page = true
  · rw [if_pos hvalid] at h
    cases h
    refine inv_moveWriter hi hmem ?_ (by simp) (by simp) ?_ ?_
    · intro _ _ _ hpaged hlast
      obtain ⟨rfl, -, rfl⟩ := WriterStage.paged.inj hpaged
      unfold isPage at hvalid
      rw [hlast, Bool.and_eq_true] at hvalid
      simpa using hvalid.2
    · exact checked_of_clears _ hi hwriter rfl horder
    · intro hcleared readAt hcached
      simp only [WriterStage.cleared, hcached, Option.isSome_some, Bool.and_true, Bool.and_eq_true,
        Bool.or_eq_true, Bool.not_eq_true'] at hcleared
      obtain ⟨hcovered | hcovers, hnot⟩ := hcleared
      · exact hi.cached readAt hcached writer hmem (hstage hcovered)
      · rw [hcovers] at hnot
        simp at hnot
  · rw [if_neg hvalid] at h
    simp at h

theorem advanceWriter_inv (hi : Inv key w) (hwriter : w.writers[i]? = some writer)
    {page : Page} (horder : ClearsInOrder w t i) (hkeeps : KeepsTombstones key w t)
    (h : advanceWriter key w i writer page = some t) : Inv key t := by
  have hmem := List.mem_of_getElem? hwriter
  unfold advanceWriter at h
  cases hstage : writer.stage with
  | committed =>
    simp only [hstage] at h
    split at h
    · exact nextPage_inv hi hwriter (by simp) horder h
    · cases h
      have hempty : Inv key { w with cached := none } := inv_cached hi none (by simp)
      have hchecked := checked_of_clears .deleted hi hwriter rfl horder
      exact inv_moveWriter hempty hmem (by simp) (by simp) (by simp) hchecked (by simp)
  | scanning covered =>
    simp only [hstage] at h
    exact nextPage_inv hi hwriter (by simp [hstage, WriterStage.cleared]) horder h
  | paged covered found page' =>
    simp only [hstage] at h
    cases h
    have hgone := inv_tombstones hi (Nat.le_refl w.clock) hkeeps
    have hunlocked := inv_lock hgone (if page'.lock then none else w.lock)
    -- the key is cached behind this page only where an earlier page has covered it
    have hbehind : (if page'.last then .deleted else .scanning covered : WriterStage).cleared =
        true → ∀ readAt, (if found then none else w.cached) = some readAt →
          writer.commit ≤ readAt := by
      intro hcleared readAt hcached
      have hcovered : covered = true := by
        by_cases hlast : page'.last = true
        · exact hi.pages writer hmem covered found page' hstage hlast
        · simpa [hlast, WriterStage.cleared] using hcleared
      cases found with
      | true => simp at hcached
      | false => exact hi.cached readAt hcached writer hmem (by simp [hstage, hcovered,
          WriterStage.cleared])
    have hcached := inv_cached hunlocked (if found then none else w.cached) ?_
    · have hchecked := checked_of_clears _ hi hwriter rfl horder
      refine inv_moveWriter hcached hmem ?_ ?_ ?_ hchecked hbehind
      · split <;> simp
      · split <;> simp
      · split <;> simp
    · intro readAt hsome other hother hcleared
      cases found with
      | true => simp at hsome
      | false => exact hi.cached readAt hsome other hother hcleared
  | deleted =>
    simp only [hstage] at h
    cases h
    refine inv_moveWriter hi hmem (by simp) ?_ (by simp) ?_ ?_
    · intro now hnow
      exact (WriterStage.timed.inj hnow).symm
    · exact checked_of_clears _ hi hwriter rfl horder
    · intro _ readAt hcached
      exact hi.cached readAt hcached writer hmem (by rw [hstage]; rfl)
  | timed now =>
    simp only [hstage] at h
    cases h
    have hset := inv_tombstones hi (Nat.le_refl w.clock) hkeeps
    have hchecked := checked_of_clears .returned hi hwriter rfl horder
    refine inv_moveWriter hset hmem (by simp) (by simp) ?_ hchecked ?_
    · intro _ reader hreader startedAt readAt hloaded hlt
      have hle := hi.ordered reader hreader startedAt readAt hloaded writer hmem now hstage hlt
      exact invalidatedSince_setTombstone (hi.targets writer hmem) hle
    · intro _ readAt hcached
      exact hi.cached readAt hcached writer hmem (by rw [hstage]; rfl)
  | returned =>
    simp only [hstage] at h
    simp at h

theorem commit_inv (hi : Inv key w) {byPrefix : Bool}
    (hvalid : isInvalidation key byPrefix target = true) :
    Inv key { w with
      commits := w.commits + 1
      writers := w.writers ++ [⟨w.commits + 1, byPrefix, target, .committed⟩] } := by
  have hwriter (writer : Writer)
      (h : writer ∈ w.writers ++ [⟨w.commits + 1, byPrefix, target, .committed⟩]) :
      writer ∈ w.writers ∨ writer = ⟨w.commits + 1, byPrefix, target, .committed⟩ := by
    simpa using h
  constructor
  · intro writer h
    rcases hwriter writer h with hold | rfl
    · exact Nat.le_succ_of_le (hi.commits writer hold)
    · exact Nat.le_refl _
  · intro writer h
    rcases hwriter writer h with hold | rfl
    · exact hi.targets writer hold
    · exact target_mem_targets hvalid
  · intro writer h covered found page hstage hlast
    rcases hwriter writer h with hold | rfl
    · exact hi.pages writer hold covered found page hstage hlast
    · simp at hstage
  · exact hi.started
  · intro reader hreader startedAt readAt hloaded writer h now hstage hlt
    rcases hwriter writer h with hold | rfl
    · exact hi.ordered reader hreader startedAt readAt hloaded writer hold now hstage hlt
    · simp at hstage
  · intro reader hreader startedAt readAt hloaded writer h hstage hlt
    rcases hwriter writer h with hold | rfl
    · exact hi.stopped reader hreader startedAt readAt hloaded writer hold hstage hlt
    · simp at hstage
  · intro reader hreader readAt hchecked writer h hcleared
    rcases hwriter writer h with hold | rfl
    · exact hi.checked reader hreader readAt hchecked writer hold hcleared
    · simp [WriterStage.cleared] at hcleared
  · intro readAt hcached writer h hcleared
    rcases hwriter writer h with hold | rfl
    · exact hi.cached readAt hcached writer hold hcleared
    · simp [WriterStage.cleared] at hcleared

theorem read_inv (hi : Inv key w) (useLock : Bool) :
    Inv key { w with readers := w.readers ++ [⟨useLock, .started⟩] } := by
  have hreader (reader : Reader) (h : reader ∈ w.readers ++ [⟨useLock, .started⟩]) :
      reader ∈ w.readers ∨ reader = ⟨useLock, .started⟩ := by
    simpa using h
  refine { hi with started := ?_, ordered := ?_, stopped := ?_, checked := ?_ }
  · intro reader h startedAt hstarted
    rcases hreader reader h with hold | rfl
    · exact hi.started reader hold startedAt hstarted
    · simp [ReaderStage.startedAt] at hstarted
  · intro reader h startedAt readAt hloaded
    rcases hreader reader h with hold | rfl
    · exact hi.ordered reader hold startedAt readAt hloaded
    · simp at hloaded
  · intro reader h startedAt readAt hloaded
    rcases hreader reader h with hold | rfl
    · exact hi.stopped reader hold startedAt readAt hloaded
    · simp at hloaded
  · intro reader h readAt hchecked
    rcases hreader reader h with hold | rfl
    · exact hi.checked reader hold readAt hchecked
    · simp at hchecked

theorem step_inv {event : Event} (hi : Inv key w) (horder : InOrder key w event t)
    (h : Step key w event t) : Inv key t := by
  cases event with
  | read useLock =>
    cases h
    exact read_inv hi useLock
  | commit byPrefix target =>
    simp only [Step, next] at h
    split at h
    · rename_i hvalid
      cases h
      exact commit_inv hi hvalid
    · simp at h
  | tick elapsed =>
    cases h
    exact inv_tombstones hi (Nat.le_add_right w.clock elapsed) horder
  | expire =>
    cases h
    exact inv_cached hi none (by simp)
  | expireLock =>
    cases h
    exact inv_lock hi none
  | advanceReader i =>
    obtain ⟨reader, hreader, hadvance⟩ := Option.bind_eq_some_iff.mp h
    exact advanceReader_inv hi hreader (horder reader hreader) hadvance
  | advanceWriter i page =>
    obtain ⟨writer, hwriter, hadvance⟩ := Option.bind_eq_some_iff.mp h
    exact advanceWriter_inv hi hwriter horder.1 horder.2 hadvance

section Runs

variable {s : World} {path : List (Event × World)}

-- Where every check, every removal and every tombstone is in order, no value from
-- before a commit outlives the invalidation that follows it.
theorem no_stale_value (h0 : Initial s) (hp : Path (Step key) s path)
    (horder : EveryStep (InOrder key) s path) : ∀ t ∈ visited s path, NoStaleValue t := by
  intro t ht
  have hinv := hp.guarded_invariant h0.inv horder (fun _ _ _ hi hq hs => step_inv hi hq hs) t ht
  exact hinv.noStaleValue

end Runs

def jdKey : String := "airs:jd:1"

def idle : World :=
  { commits := 0
    clock := 0
    cached := none
    lock := none
    tombstones := fun _ => none
    readers := []
    writers := [] }

def noPage : Page := ⟨false, [], false, true⟩

def invalidate : List Event :=
  .commit false jdKey :: List.replicate 3 (.advanceWriter 0 noPage)

def readAfter : List Event :=
  invalidate ++ [.tick 1, .read false] ++ List.replicate 6 (.advanceReader 0)

def readAround : List Event :=
  .read false :: List.replicate 5 (.advanceReader 0) ++ invalidate ++ [.advanceReader 0]

theorem readAfter_inOrder :
    EveryStep (InOrder jdKey) idle (execute (next jdKey) idle readAfter) := by
  have hcheck (w : World) (reader : Reader) (hreturned : ∀ writer ∈ w.writers,
      writer.stage = .returned) : ChecksInOrder jdKey w reader :=
    fun _ _ _ _ writer hwriter _ hne => absurd (hreturned writer hwriter) hne
  have hclears (w t : World) (hnone : w.readers = []) :
      ClearsInOrder w t 0 ∧ KeepsTombstones jdKey w t := by
    constructor
    · intro writer writer' _ _ _ _ reader hreader
      rw [hnone] at hreader
      simp at hreader
    · intro reader hreader
      rw [hnone] at hreader
      simp at hreader
  refine ⟨trivial, hclears _ _ rfl, hclears _ _ rfl, hclears _ _ rfl, (hclears _ _ rfl).2, trivial,
    ?_, ?_, ?_, ?_, ?_, ?_, trivial⟩
  all_goals
    intro reader _
    refine hcheck _ reader fun writer hwriter => ?_
    obtain rfl := List.mem_singleton.mp hwriter
    rfl

theorem no_stale_value_readAfter :
    NoStaleValue (final idle (execute (next jdKey) idle readAfter)) :=
  no_stale_value ⟨rfl, rfl⟩ (execute_path (next jdKey) (fun _ _ _ hn => hn) idle readAfter)
    readAfter_inOrder _ (final_mem_visited _ _)

theorem stale_value_cached :
    ¬∀ path, Path (Step jdKey) idle path → ∀ t ∈ visited idle path, NoStaleValue t := by
  intro h
  have hp : Path (Step jdKey) idle (execute (next jdKey) idle readAround) :=
    execute_path (next jdKey) (fun _ _ _ hn => hn) idle readAround
  have hwriter : (final idle (execute (next jdKey) idle readAround)).writers =
      [⟨1, false, jdKey, .returned⟩] := by
    rfl
  have hcached : (final idle (execute (next jdKey) idle readAround)).cached = some 0 := by
    rfl
  have hle := h _ hp _ (final_mem_visited _ _) ⟨1, false, jdKey, .returned⟩
    (by rw [hwriter]; exact List.mem_singleton_self _) rfl 0 hcached
  exact absurd hle (by decide)

end AiHiring.CacheRuns
