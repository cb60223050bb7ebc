import AiHiring.Jd.Replay

namespace AiHiring.JDRetry

open Library

def Call.isReplaying (call : Call) : Bool :=
  match call.progress with
  | .purged _ => true
  | .reset _ => true
  | _ => false

section Statements

variable (casefold : String → String) (taskId : String) (w : World)

-- One message at most for a failure; and while there is none, and no call about to
-- send it, the call can be repeated.
structure Kept : Prop where
  once : w.dispatched ≤ 1
  repeatable : w.readable = true → w.dispatched = 0 → (∀ call ∈ w.calls, call.isReplaying = false) →
      isReplayable w.tables.log.status = true ∧ isReadable casefold taskId w.tables = true

structure Failed : Prop where
  status : isReplayable w.tables.log.status = true
  checkpoint : isReadable casefold taskId w.tables = true
  messages : w.messages = []
  runs : w.runs = 0
  calls : w.calls = []
  readable : w.readable = true
  dispatched : w.dispatched = 0

-- A purge commits while the task is failed and its checkpoint there, and nothing
-- raises between that commit and the message.
def Careful : Event → World → Prop
  | .advance i, _ => ∀ call kwargs, w.calls[i]? = some call → call.progress = .built kwargs →
      isReplayable w.tables.log.status = true ∧ w.tables.checkpoint ≠ none
  | .fail i, _ => ∀ call, w.calls[i]? = some call → call.isReplaying = false
  | _, _ => True

-- Before the message of a failure, with nothing under way.
structure Waiting : Prop where
  status : isReplayable w.tables.log.status = true
  messages : w.messages = []
  runs : w.runs = 0
  dispatched : w.dispatched = 0
  checkpoint : w.readable = true → isReadable casefold taskId w.tables = true

-- After it: one message at the broker or with a run, or none any more.
structure Sent : Prop where
  status : isReplayable w.tables.log.status = false
  underWay : w.messages.length + w.runs ≤ 1
  dispatched : w.dispatched = 1

-- What holds while a call replays.
structure Replaying : Prop where
  messages : w.messages = []
  runs : w.runs = 0
  dispatched : w.dispatched = 0
  checkpoint : w.tables.checkpoint = none

def owner (call : Call) : Option Unit := if call.isReplaying then some () else none

structure Inv : Prop where
  sole : SoleOwner owner w.calls
  replaying : ∀ call ∈ w.calls, call.isReplaying = true → Replaying w
  queued : ∀ call ∈ w.calls, ∀ kwargs, call.progress = .reset kwargs →
    isReplayable w.tables.log.status = false
  idle : (∀ call ∈ w.calls, call.isReplaying = false) → Waiting casefold taskId w ∨ Sent w

end Statements

variable {casefold : String → String} {taskId : String} {w t : World}

theorem owner_eq_some {call : Call} : owner call = some () ↔ call.isReplaying = true := by
  unfold owner
  split_ifs with h
  · simp [h]
  · simp [h]

theorem Inv.kept (h : Inv casefold taskId w) : Kept casefold taskId w := by
  by_cases hall : ∀ call ∈ w.calls, call.isReplaying = false
  · rcases h.idle hall with hwaiting | hsent
    · have hnone := hwaiting.dispatched
      exact ⟨by omega, fun hreadable _ _ => ⟨hwaiting.status, hwaiting.checkpoint hreadable⟩⟩
    · have hone := hsent.dispatched
      exact ⟨by omega, fun _ hnone _ => by omega⟩
  · have hnone : w.dispatched = 0 := by
      simp only [not_forall, Bool.not_eq_false] at hall
      obtain ⟨call, hcall, hreplaying⟩ := hall
      exact (h.replaying call hcall hreplaying).dispatched
    exact ⟨by omega, fun _ _ hidle => absurd hidle hall⟩

theorem inv_failed (h : Failed casefold taskId w) : Inv casefold taskId w where
  sole := h.calls ▸ soleOwner_nil
  replaying := by simp [h.calls]
  queued := by simp [h.calls]
  idle _ := .inl ⟨h.status, h.messages, h.runs, h.dispatched, fun _ => h.checkpoint⟩

section Calls

variable {i : ℕ} {call : Call}

theorem returned_idle (call : Call) :
    Call.isReplaying { call with progress := .returned } = false := rfl

-- Nobody else replays while one call does.
theorem others_idle (h : Inv casefold taskId w) (hi : w.calls[i]? = some call)
    (hreplaying : call.isReplaying = true) {progress : Progress}
    (hdone : Call.isReplaying { call with progress := progress } = false) :
    ∀ b ∈ w.calls.set i { call with progress := progress }, b.isReplaying = false := by
  have howner : owner { call with progress := progress } ≠ some () := by
    rw [Ne, owner_eq_some]
    simp [hdone]
  intro b hb
  have hfree := h.sole.released hi (owner_eq_some.mpr hreplaying) howner b hb
  rwa [Ne, owner_eq_some, Bool.not_eq_true] at hfree

theorem inv_moves (h : Inv casefold taskId w) (hi : w.calls[i]? = some call) {progress : Progress}
    (hbefore : call.isReplaying = false)
    (hafter : Call.isReplaying { call with progress := progress } = false) :
    Inv casefold taskId (moveTo w i call progress) := by
  have hnone : owner { call with progress := progress } ≠ some () := by
    rw [Ne, owner_eq_some]
    simp [hafter]
  refine ⟨h.sole.set hi fun _ howner => absurd howner hnone, fun b hb hb_replaying => ?_,
    fun b hb kwargs hkwargs => ?_, fun hall => ?_⟩
  · have hreplaying : Replaying w := by
      rcases mem_of_mem_set hb with rfl | hb
      · simp [hafter] at hb_replaying
      · exact h.replaying b hb hb_replaying
    exact ⟨hreplaying.messages, hreplaying.runs, hreplaying.dispatched, hreplaying.checkpoint⟩
  · rcases mem_of_mem_set hb with rfl | hb
    · have hprogress : progress = .reset kwargs := hkwargs
      simp [Call.isReplaying, hprogress] at hafter
    · exact h.queued b hb kwargs hkwargs
  · have hidle : ∀ b ∈ w.calls, b.isReplaying = false := by
      intro b hb
      by_contra hb_replaying
      rw [Bool.not_eq_false] at hb_replaying
      have hsome : ∃ x ∈ w.calls.set i { call with progress := progress }, x.isReplaying = true :=
        exists_mem_set hi ⟨b, hb, hb_replaying⟩ fun hcall =>
          absurd hcall (by simp [hbefore])
      obtain ⟨x, hx, hx_replaying⟩ := hsome
      exact absurd (hall x hx) (by simp [hx_replaying])
    rcases h.idle hidle with hwaiting | hsent
    · exact .inl ⟨hwaiting.status, hwaiting.messages, hwaiting.runs, hwaiting.dispatched,
        hwaiting.checkpoint⟩
    · exact .inr ⟨hsent.status, hsent.underWay, hsent.dispatched⟩

theorem inv_replays {moved : Call} (hmoved : moved ∈ t.calls)
    (hmoved_replaying : moved.isReplaying = true) (hsole : SoleOwner owner t.calls)
    (hreplaying : Replaying t)
    (hqueued : ∀ b ∈ t.calls, ∀ kwargs, b.progress = .reset kwargs →
      isReplayable t.tables.log.status = false) : Inv casefold taskId t :=
  ⟨hsole, fun _ _ _ => hreplaying, hqueued,
    fun hall => absurd (hall moved hmoved) (by simp [hmoved_replaying])⟩

theorem inv_purge (h : Inv casefold taskId w) (hi : w.calls[i]? = some call)
    (kwargs : JDSubmission) (hstatus : isReplayable w.tables.log.status = true)
    (hcheckpoint : w.tables.checkpoint ≠ none) :
    Inv casefold taskId
      (moveTo { w with tables := purgePreviousRun w.tables call.requestedBy } i call
        (.purged kwargs)) := by
  have hidle : ∀ b ∈ w.calls, b.isReplaying = false := by
    intro b hb
    by_contra hreplaying
    rw [Bool.not_eq_false] at hreplaying
    exact hcheckpoint (h.replaying b hb hreplaying).checkpoint
  have hwaiting : Waiting casefold taskId w := by
    rcases h.idle hidle with hwaiting | hsent
    · exact hwaiting
    · simp [hsent.status] at hstatus
  have hfree : ∀ b ∈ w.calls, owner b ≠ some () := by
    intro b hb
    rw [Ne, owner_eq_some]
    simp [hidle b hb]
  refine inv_replays (mem_set_self hi) rfl (h.sole.set hi fun _ _ => .inr hfree) ?_ ?_
  · exact ⟨hwaiting.messages, hwaiting.runs, hwaiting.dispatched, rfl⟩
  · intro b hb other hother
    rcases mem_of_mem_set hb with rfl | hb
    · simp at hother
    · have hb_replaying : b.isReplaying = true := by simp [Call.isReplaying, hother]
      simp [hidle b hb] at hb_replaying

theorem inv_reset (h : Inv casefold taskId w) (hi : w.calls[i]? = some call)
    {kwargs : JDSubmission} (hprogress : call.progress = .purged kwargs) :
    Inv casefold taskId
      (moveTo { w with tables := resetTaskLog w.tables } i call (.reset kwargs)) := by
  have hreplaying : call.isReplaying = true := by simp [Call.isReplaying, hprogress]
  have hold := h.replaying call (List.mem_of_getElem? hi) hreplaying
  have hsole : SoleOwner owner (w.calls.set i { call with progress := .reset kwargs }) :=
    h.sole.set hi fun _ _ => .inl (owner_eq_some.mpr hreplaying)
  refine inv_replays (mem_set_self hi) rfl hsole ?_ fun _ _ _ _ => rfl
  exact ⟨hold.messages, hold.runs, hold.dispatched, hold.checkpoint⟩

theorem inv_dispatch (h : Inv casefold taskId w) (hi : w.calls[i]? = some call)
    {kwargs : JDSubmission} (hprogress : call.progress = .reset kwargs) :
    Inv casefold taskId
      (moveTo { w with messages := w.messages ++ [kwargs], dispatched := w.dispatched + 1 } i call
        .returned) := by
  have hcall : call ∈ w.calls := List.mem_of_getElem? hi
  have hreplaying : call.isReplaying = true := by simp [Call.isReplaying, hprogress]
  have hold := h.replaying call hcall hreplaying
  have hidle := others_idle h hi hreplaying (returned_idle call)
  have hnone : owner { call with progress := .returned } ≠ some () := by
    rw [Ne, owner_eq_some]
    simp [Call.isReplaying]
  refine ⟨h.sole.set hi fun _ howner => absurd howner hnone, fun b hb hb_replaying => ?_,
    fun b hb other hother => ?_, fun _ => .inr ⟨h.queued call hcall kwargs hprogress, ?_, ?_⟩⟩
  · simp [hidle b hb] at hb_replaying
  · have hb_replaying : b.isReplaying = true := by simp [Call.isReplaying, hother]
    simp [hidle b hb] at hb_replaying
  · show (w.messages ++ [kwargs]).length + w.runs ≤ 1
    simp [hold.messages, hold.runs]
  · show w.dispatched + 1 = 1
    rw [hold.dispatched]

theorem advance_inv (h : Inv casefold taskId w) (hi : w.calls[i]? = some call)
    (hcare : Careful w (.advance i) t) (hadvance : advance casefold taskId w i call = some t) :
    Inv casefold taskId t := by
  unfold advance at hadvance
  cases hprogress : call.progress with
  | started =>
    have hbefore : call.isReplaying = false := by simp [Call.isReplaying, hprogress]
    simp only [hprogress] at hadvance
    cases hload : loadReplayable taskId w.tables call.requestedBy with
    | error error =>
      simp only [hload] at hadvance
      cases hadvance
      exact inv_moves h hi hbefore rfl
    | ok _ =>
      simp only [hload] at hadvance
      cases hadvance
      exact inv_moves h hi hbefore rfl
  | loaded =>
    have hbefore : call.isReplaying = false := by simp [Call.isReplaying, hprogress]
    simp only [hprogress] at hadvance
    cases hread : readCheckpoint casefold taskId w.tables with
    | error error =>
      simp only [hread] at hadvance
      cases hadvance
      exact inv_moves h hi hbefore rfl
    | ok kwargs =>
      simp only [hread] at hadvance
      cases hadvance
      exact inv_moves h hi hbefore rfl
  | built kwargs =>
    simp only [hprogress] at hadvance
    cases hadvance
    obtain ⟨hstatus, hcheckpoint⟩ := hcare call kwargs hi hprogress
    exact inv_purge h hi kwargs hstatus hcheckpoint
  | purged kwargs =>
    simp only [hprogress] at hadvance
    cases hadvance
    exact inv_reset h hi hprogress
  | reset kwargs =>
    simp only [hprogress] at hadvance
    cases hadvance
    exact inv_dispatch h hi hprogress
  | returned => simp [hprogress] at hadvance
  | raised error => simp [hprogress] at hadvance

theorem fail_inv (h : Inv casefold taskId w) (hi : w.calls[i]? = some call)
    (hcare : Careful w (.fail i) t) (hfail : fail w i call = some t) : Inv casefold taskId t := by
  have hbefore := hcare call hi
  unfold fail at hfail
  split at hfail
  · simp at hfail
  · simp at hfail
  · cases hfail
    exact inv_moves h hi hbefore rfl

end Calls

theorem sent_of_busy (h : Inv casefold taskId w) (hbusy : w.messages ≠ [] ∨ w.runs ≠ 0) :
    (∀ call ∈ w.calls, call.isReplaying = false) ∧ Sent w := by
  have hidle : ∀ call ∈ w.calls, call.isReplaying = false := by
    intro call hcall
    by_contra hreplaying
    rw [Bool.not_eq_false] at hreplaying
    have hold := h.replaying call hcall hreplaying
    rcases hbusy with hmessages | hruns
    · exact hmessages hold.messages
    · exact hruns hold.runs
  refine ⟨hidle, ?_⟩
  rcases h.idle hidle with hwaiting | hsent
  · rcases hbusy with hmessages | hruns
    · exact absurd hwaiting.messages hmessages
    · exact absurd hwaiting.runs hruns
  · exact hsent

theorem inv_idle (h : Inv casefold taskId w) (hcalls : t.calls = w.calls)
    (hidle : ∀ call ∈ w.calls, call.isReplaying = false)
    (hafter : Waiting casefold taskId t ∨ Sent t) : Inv casefold taskId t := by
  have hidle' : ∀ call ∈ t.calls, call.isReplaying = false := hcalls ▸ hidle
  refine ⟨hcalls ▸ h.sole, fun call hcall hreplaying => ?_, fun call hcall kwargs hkwargs => ?_,
    fun _ => hafter⟩
  · simp [hidle' call hcall] at hreplaying
  · have hreplaying : call.isReplaying = true := by simp [Call.isReplaying, hkwargs]
    simp [hidle' call hcall] at hreplaying

theorem run_inv (h : Inv casefold taskId w) {event : RunEvent}
    (hrun : runStep casefold taskId w event = some t) : Inv casefold taskId t := by
  cases event with
  | takes =>
    cases hmessages : w.messages with
    | nil => simp [runStep, hmessages] at hrun
    | cons message rest =>
      simp only [runStep, hmessages] at hrun
      cases hrun
      obtain ⟨hidle, hsent⟩ := sent_of_busy h (.inl (by simp [hmessages]))
      have hunderWay := hsent.underWay
      rw [hmessages, List.length_cons] at hunderWay
      refine inv_idle h rfl hidle (.inr ⟨rfl, ?_, hsent.dispatched⟩)
      show rest.length + (w.runs + 1) ≤ 1
      omega
  | records checkpoint failure =>
    simp only [runStep] at hrun
    split_ifs at hrun with hruns
    cases hrun
    obtain ⟨hidle, hsent⟩ := sent_of_busy h (.inr hruns)
    exact inv_idle h rfl hidle (.inr ⟨hsent.status, hsent.underWay, hsent.dispatched⟩)
  | retries message =>
    simp only [runStep] at hrun
    split_ifs at hrun with hruns
    cases hrun
    obtain ⟨hidle, hsent⟩ := sent_of_busy h (.inr hruns)
    have hunderWay := hsent.underWay
    refine inv_idle h rfl hidle (.inr ⟨rfl, ?_, hsent.dispatched⟩)
    show (w.messages ++ [message]).length + (w.runs - 1) ≤ 1
    rw [List.length_append, List.length_singleton]
    omega
  | givesUp status entry =>
    simp only [runStep] at hrun
    split_ifs at hrun with hrefused
    cases hrun
    rw [not_or] at hrefused
    obtain ⟨hruns, hstatus⟩ := hrefused
    obtain ⟨hidle, hsent⟩ := sent_of_busy h (.inr hruns)
    have hunderWay := hsent.underWay
    have hempty : w.messages = [] := List.eq_nil_of_length_eq_zero (by omega)
    have hfailed : isReplayable status = true := by simpa using hstatus
    refine inv_idle h rfl hidle (.inl ⟨hfailed, hempty, ?_, rfl, fun hread => hread⟩)
    show w.runs - 1 = 0
    omega
  | succeeds =>
    simp only [runStep] at hrun
    split_ifs at hrun with hruns
    cases hrun
    obtain ⟨hidle, hsent⟩ := sent_of_busy h (.inr hruns)
    have hunderWay := hsent.underWay
    refine inv_idle h rfl hidle (.inr ⟨rfl, ?_, hsent.dispatched⟩)
    show w.messages.length + (w.runs - 1) ≤ 1
    omega

theorem inv_step (h : Inv casefold taskId w) {event : Event} (hcare : Careful w event t)
    (hstep : Step casefold taskId w event t) : Inv casefold taskId t := by
  cases event with
  | call requestedBy =>
    cases hstep
    have hmem {b : Call} (hb : b ∈ w.calls ++ [⟨requestedBy, .started⟩]) :
        b ∈ w.calls ∨ b = ⟨requestedBy, .started⟩ := by simpa using hb
    refine ⟨h.sole.hire fun _ howner => by simp [owner, Call.isReplaying] at howner,
      fun b hb hb_replaying => ?_, fun b hb kwargs hkwargs => ?_, fun hall => ?_⟩
    · rcases hmem hb with hb | rfl
      · have hold := h.replaying b hb hb_replaying
        exact ⟨hold.messages, hold.runs, hold.dispatched, hold.checkpoint⟩
      · simp [Call.isReplaying] at hb_replaying
    · rcases hmem hb with hb | rfl
      · exact h.queued b hb kwargs hkwargs
      · simp at hkwargs
    · have hidle : ∀ b ∈ w.calls, b.isReplaying = false :=
        fun b hb => hall b (List.mem_append_left _ hb)
      rcases h.idle hidle with hold | hold
      · exact .inl ⟨hold.status, hold.messages, hold.runs, hold.dispatched, hold.checkpoint⟩
      · exact .inr ⟨hold.status, hold.underWay, hold.dispatched⟩
  | advance i =>
    obtain ⟨call, hi, hadvance⟩ := Option.bind_eq_some_iff.mp hstep
    exact advance_inv h hi hcare hadvance
  | fail i =>
    obtain ⟨call, hi, hfail⟩ := Option.bind_eq_some_iff.mp hstep
    exact fail_inv h hi hcare hfail
  | run event => exact run_inv h hstep

-- A failure leads to one message at most, and can be replayed until there is one,
-- in every run of calls and messages whose steps are careful.
theorem replayed_once (casefold : String → String) (taskId : String) (w : World)
    (path : List (Event × World)) (hfailed : Failed casefold taskId w)
    (hp : Path (Step casefold taskId) w path) (hcare : EveryStep Careful w path) :
    ∀ t ∈ visited w path, Kept casefold taskId t := by
  intro t ht
  exact (hp.guarded_invariant (inv_failed hfailed) hcare
    (fun _ _ _ h hcare hstep => inv_step h hcare hstep) t ht).kept

section Example

open JDProcessingPipeline JDResume

def submissionCheckpoint : Checkpoint :=
  ⟨.textCleaning, ContextSerializer.toDict (initialContext engineer)⟩

def failedTask : World where
  tables :=
    { log :=
        { taskType := jdTaskType
          createdBy := "hr"
          status := .failure
          retryCount := 2
          errorMessage := some "timed out"
          outputSummary := none
          dispatchFailed := false }
      checkpoint := some submissionCheckpoint
      failureLog := []
      stageExecutions := []
      deadLetter := some ⟨"timed out", none⟩ }
  messages := []
  runs := 0
  calls := []
  readable := true
  dispatched := 0

theorem failedTask_failed : Failed id "task" failedTask :=
  ⟨rfl, rfl, rfl, rfl, rfl, rfl, rfl⟩

def replayRun (events : List Event) : List (Event × World) :=
  execute (next id "task") failedTask events

theorem replayRun_path (events : List Event) :
    Path (Step id "task") failedTask (replayRun events) :=
  execute_path _ (fun _ _ _ h => h) failedTask events

def brokerDown : List Event :=
  .call "hr" :: List.replicate 4 (.advance 0) ++ [.fail 0]

def twoClicks : List Event :=
  [.call "hr", .call "hr", .advance 0, .advance 1, .advance 0, .advance 1] ++
    List.replicate 3 (.advance 0) ++ List.replicate 3 (.advance 1)

def replayedOnce : List Event :=
  .call "hr" :: List.replicate 5 (.advance 0) ++
    [.run .takes, .run (.records submissionCheckpoint ⟨.textCleaning, 1, "timed out", .transient⟩),
      .run (.givesUp .failure ⟨"timed out", none⟩)]

end Example

theorem not_kept_of_final {casefold : String → String} {taskId : String} {w : World}
    {path : List (Event × World)} (h : ¬Kept casefold taskId (final w path)) :
    ¬∀ t ∈ visited w path, Kept casefold taskId t :=
  fun hall => h (hall _ (final_mem_visited w path))

-- The task is stranded in QUEUED without a message, or two messages are out.
theorem stranded_or_doubled : (¬∀ t ∈ visited failedTask (replayRun brokerDown), Kept id "task" t) ∧
      ¬∀ t ∈ visited failedTask (replayRun twoClicks), Kept id "task" t := by
  constructor
  · refine not_kept_of_final fun hkept => ?_
    have hstatus := (hkept.repeatable rfl rfl (by decide)).1
    exact absurd hstatus (by decide)
  · refine not_kept_of_final fun hkept => ?_
    have hdispatched : (final failedTask (replayRun twoClicks)).dispatched = 2 := rfl
    have honce := hkept.once
    omega

theorem replayed_once_again : Kept id "task" (final failedTask (replayRun replayedOnce)) := by
  refine replayed_once id "task" failedTask _ failedTask_failed (replayRun_path _) ?_ _
    (final_mem_visited _ _)
  refine ⟨trivial, ?_, ?_, ?_, ?_, ?_, trivial, trivial, trivial, trivial⟩
  all_goals
    intro call kwargs hcall hprogress
    cases hcall
  · exact nomatch hprogress
  · exact nomatch hprogress
  · exact ⟨rfl, Option.some_ne_none submissionCheckpoint⟩
  · exact nomatch hprogress
  · exact nomatch hprogress

end AiHiring.JDRetry
