import AiHiring.Library.Crew
import AiHiring.Tasks.CompositeScore

namespace AiHiring

open Library

namespace SemanticRecovery

-- A SEMANTIC_SCORE row of the task log.
structure SemanticScoreLog where
  (id taskId : Uuid)
  status : TaskStatus
  deriving DecidableEq, Repr

structure Candidate where
  resumeId : Uuid
  deterministicPassed : Option Bool
  semanticScore : Option ℚ
  semanticBreakdown : Option String
  deriving DecidableEq, Repr

-- A call of `_enqueue_semantic_scoring` up to its commit, and from there on its message:
-- about to be sent, in the broker, with a worker, or in a retry countdown.
inductive Activity where
  | checking
  | looking
  | creating
  | reusing (logId : Uuid)
  | dispatching (taskId : Uuid)
  | queued (taskId : Uuid)
  | received (taskId : Uuid)
  | running (logId taskId : Uuid)
  -- what is left is `mark_success`
  | finishing (logId taskId : Uuid)
  -- what is left is to publish the retry
  | retrying (taskId : Uuid)
  | scheduled (taskId : Uuid)
  | ended
  deriving DecidableEq, Repr

def Activity.inFlight : Activity → Bool
  | dispatching _ | queued _ | received _ | running _ _ | finishing _ _ | retrying _
  | scheduled _ => true
  | _ => false

-- `keyed` is the row of the idempotency key; the others have none.
structure World where
  candidate : Candidate
  embeddings : List Uuid
  scoreable : Bool
  keyed : Option SemanticScoreLog
  others : List SemanticScoreLog
  crew : List Activity
  nextUuid : Uuid

inductive Outcome where
  | skip
  -- no JD embedding after the retries, or one of another model version
  | manualReview
  | score (score : ℚ) (breakdown : String)
  | retry
  | dead
  deriving DecidableEq, Repr

namespace World

section Steps

variable (w : World)

def hire (activity : Activity) : World := { w with crew := w.crew ++ [activity] }

def move (i : ℕ) (activity : Activity) : World := { w with crew := w.crew.set i activity }

def getByTaskId (taskId : Uuid) : Option SemanticScoreLog :=
  (w.keyed.filter fun log => log.taskId = taskId).or (w.others.find? fun log => log.taskId = taskId)

def stored (logId : Uuid) : Bool :=
  (w.keyed.any fun log => log.id = logId) || w.others.any fun log => log.id = logId

def mark (logId : Uuid) (status : TaskStatus) : World :=
  let marked (log : SemanticScoreLog) : SemanticScoreLog :=
    if log.id = logId then { log with status := status } else log
  { w with keyed := w.keyed.map marked, others := w.others.map marked }

def alreadyQueuedOrScored (status : TaskStatus) : Bool :=
  status = .queued || status = .running || status = .success

-- The row of the key as a call has read it.
def found (i : ℕ) (log : SemanticScoreLog) : World :=
  if alreadyQueuedOrScored log.status then w.move i .ended else w.move i (.reusing log.id)

-- `_enqueue_semantic_scoring`; `answers` says whether the broker takes the message.
def call (i : ℕ) (answers : Bool) : Activity → Option World
  | .checking =>
    if w.candidate.resumeId ∈ w.embeddings then some (w.move i .looking)
    else some (w.move i .ended)
  | .looking =>
    match w.keyed with
    | none => some (w.move i .creating)
    | some log => some (w.found i log)
  | .creating =>
    match w.keyed with
    | none =>
      some { w.move i (.dispatching w.nextUuid) with
        keyed := some ⟨w.nextUuid + 1, w.nextUuid, .queued⟩, nextUuid := w.nextUuid + 2 }
    | some log => some (w.found i log)
  | .reusing logId =>
    match w.keyed with
    | none => some (w.move i .ended)
    | some log =>
      if log.id = logId then
        some { w.move i (.dispatching w.nextUuid) with
          keyed := some { log with taskId := w.nextUuid, status := .queued }
          nextUuid := w.nextUuid + 1 }
      else some (w.move i .ended)
  | .dispatching taskId =>
    -- an error of `apply_async` is only logged
    if answers then some (w.move i (.queued taskId)) else some (w.move i .ended)
  | _ => none

def begin (i : ℕ) (taskId : Uuid) : World :=
  match w.getByTaskId taskId with
  | none =>
    { w.move i (.running w.nextUuid taskId) with
      others := w.others ++ [⟨w.nextUuid, taskId, .running⟩], nextUuid := w.nextUuid + 1 }
  | some log =>
    if log.status = .success then w.move i .ended
    else (w.mark log.id .running).move i (.running log.id taskId)

def applies : Bool :=
  w.scoreable && w.candidate.deterministicPassed = some true &&
    decide (w.candidate.resumeId ∈ w.embeddings)

def work (i : ℕ) (logId taskId : Uuid) : Outcome → Option World
  | .skip => if w.applies then none else some (w.move i (.finishing logId taskId))
  | .manualReview =>
    some { w.move i (.finishing logId taskId) with
      candidate := { w.candidate with semanticScore := none } }
  | .score score breakdown =>
    if w.applies then
      some { w.move i (.finishing logId taskId) with
        candidate := { w.candidate with
          semanticScore := some score, semanticBreakdown := some breakdown } }
    else none
  | .retry =>
    if w.stored logId then some ((w.mark logId .retry).move i (.retrying taskId))
    else some (w.move i .ended)
  | .dead =>
    if w.stored logId then some ((w.mark logId .dead).move i .ended)
    else some (w.move i .ended)

-- `get_pending_semantic_score_with_ready_embedding`
def recoverable : Bool :=
  w.candidate.deterministicPassed = some true && w.candidate.semanticScore.isNone &&
    decide (w.candidate.resumeId ∈ w.embeddings)

def Pending : Prop :=
  w.candidate.deterministicPassed = some true ∧ w.candidate.resumeId ∈ w.embeddings ∧
    w.candidate.semanticBreakdown = none ∧ w.scoreable = true

instance : Decidable w.Pending := inferInstanceAs (Decidable (_ ∧ _))

end Steps

end World

inductive Event where
  -- a deterministic task commits its result, and calls after a pass
  | deterministicScore (passed : Bool)
  -- EMBED_RESUME commits, and calls for the candidates that wait
  | embedResume (resumeId : Uuid)
  | recoverPendingSemanticScores
  -- an HR override
  | queuePostOverrideEvaluation
  | campaignStatus (scoreable : Bool)
  | resetForResubmission (newResumeId : Uuid)
  | resetForRescore
  | call (i : ℕ) (answers : Bool)
  | deliver (i : ℕ)
  | begin (i : ℕ)
  | work (i : ℕ) (outcome : Outcome)
  | markSuccess (i : ℕ)
  -- the retry is published, or cannot be
  | publish (i : ℕ) (answers : Bool)
  -- the countdown of a retry is over
  | due (i : ℕ)
  deriving DecidableEq, Repr

def next? (w : World) : Event → Option World
  | .deterministicScore passed =>
    let scored := { w with candidate := { w.candidate with deterministicPassed := some passed } }
    some (if passed then scored.hire .checking else scored)
  | .embedResume resumeId =>
    let embedded := { w with embeddings := resumeId :: w.embeddings }
    some (if w.candidate.resumeId = resumeId ∧ w.candidate.deterministicPassed = some true ∧
        w.candidate.semanticBreakdown = none then embedded.hire .checking else embedded)
  | .recoverPendingSemanticScores => some (if w.recoverable then w.hire .checking else w)
  | .queuePostOverrideEvaluation =>
    some (if w.candidate.semanticScore = none then w.hire .checking else w)
  | .campaignStatus scoreable => some { w with scoreable := scoreable }
  | .resetForResubmission newResumeId =>
    -- `semantic_breakdown` stays
    some { w with candidate := { w.candidate with
      resumeId := newResumeId, deterministicPassed := none, semanticScore := none } }
  | .resetForRescore =>
    let kept (log : SemanticScoreLog) : Bool := !World.alreadyQueuedOrScored log.status
    some { w with
      candidate := { w.candidate with
        deterministicPassed := none, semanticScore := none, semanticBreakdown := none }
      keyed := w.keyed.filter kept
      others := w.others.filter kept }
  | .call i answers =>
    match w.crew[i]? with
    | some activity => w.call i answers activity
    | none => none
  | .deliver i =>
    match w.crew[i]? with
    | some (.queued taskId) => some (w.move i (.received taskId))
    | _ => none
  | .begin i =>
    match w.crew[i]? with
    | some (.received taskId) => some (w.begin i taskId)
    | _ => none
  | .work i outcome =>
    match w.crew[i]? with
    | some (.running logId taskId) => w.work i logId taskId outcome
    | some (.finishing logId taskId) =>
      if outcome = .retry ∨ outcome = .dead then w.work i logId taskId outcome else none
    -- an error before the row is RUNNING: nothing is marked
    | some (.received taskId) =>
      if outcome = .retry then some (w.move i (.retrying taskId))
      else if outcome = .dead then some (w.move i .ended)
      else none
    | _ => none
  | .markSuccess i =>
    match w.crew[i]? with
    | some (.finishing logId _) => some ((w.mark logId .success).move i .ended)
    | _ => none
  | .publish i answers =>
    match w.crew[i]? with
    | some (.retrying taskId) =>
      some (w.move i (if answers then .scheduled taskId else .ended))
    | _ => none
  | .due i =>
    match w.crew[i]? with
    | some (.scheduled taskId) => some (w.move i (.queued taskId))
    | _ => none

def Step (w : World) (event : Event) (w' : World) : Prop := next? w event = some w'

def messageCount (w : World) : ℕ := w.crew.countP Activity.inFlight

-- One run of `recover_pending_semantic_scores`, with its call up to the broker.
def recoveryRun (w : World) : List Event :=
  [.recoverPendingSemanticScores, .call w.crew.length true, .call w.crew.length true,
    .call w.crew.length true, .call w.crew.length true]

def recovered (w : World) : World := final w (execute next? w (recoveryRun w))

-- (a) and (b) in one state.
structure Recoverable (w : World) : Prop where
  dispatches : w.Pending → messageCount w = 0 → messageCount (recovered w) = 1
  atMostOne : messageCount w ≤ 1

-- A call takes the row only when it is neither taken already nor waits for a retry, and
-- sends what it has committed; no task gives up, or loses its retry, before its row has been
-- RUNNING; a re-score deletes no row of a message; and nothing leaves the candidate pending
-- beside a SUCCESS.
def Orderly (w : World) : Event → World → Prop
  | .call i answers, _ =>
    (∀ logId, w.crew[i]? = some (.reusing logId) → ∀ log ∈ w.keyed,
      log.status ≠ .queued ∧ log.status ≠ .running ∧ (log.status = .retry → messageCount w = 0)) ∧
    ∀ taskId, w.crew[i]? = some (.dispatching taskId) → answers = true
  | .work i outcome, _ => ∀ taskId, w.crew[i]? = some (.received taskId) → outcome ≠ .dead
  | .publish _ answers, _ => answers = true ∨ ∀ log ∈ w.keyed, log.status ≠ .queued
  | .resetForRescore, _ => ∀ log ∈ w.keyed, log.status = .queued ∨ log.status = .running →
      messageCount w = 0
  | .deterministicScore _, w' | .embedResume _, w' | .campaignStatus _, w' | .markSuccess _, w' =>
    w'.Pending → ∀ log ∈ w'.keyed, log.status ≠ .success
  | _, _ => True

section Invariant

def ticket (activity : Activity) : Option Unit := if activity.inFlight then some () else none

-- How the row of the key stands to a message.
def Activity.Fits (log : SemanticScoreLog) : Activity → Prop
  | dispatching taskId | queued taskId | received taskId | retrying taskId | scheduled taskId =>
    log.taskId = taskId ∧ (log.status = .queued ∨ log.status = .retry)
  | running logId taskId | finishing logId taskId =>
    log.id = logId ∧ log.taskId = taskId ∧ log.status = .running
  | _ => False

structure Sound (w : World) : Prop where
  scored : w.candidate.semanticScore ≠ none → w.candidate.semanticBreakdown ≠ none
  alone : SoleOwner ticket w.crew
  fits : ∀ a ∈ w.crew, a.inFlight = true → ∃ log, w.keyed = some log ∧ a.Fits log
  busy : ∀ log, w.keyed = some log → log.status = .queued ∨ log.status = .running →
    ∃ a ∈ w.crew, a.inFlight = true
  settled : w.Pending → ∀ log, w.keyed = some log → log.status ≠ .success

variable {w w' : World} {i : ℕ} {a a' : Activity} {log log' : SemanticScoreLog}

theorem ticket_eq_some : ticket a = some () ↔ a.inFlight = true := by
  unfold ticket
  split_ifs with h
  · simp [h]
  · simp [h]

theorem ticket_eq_none (h : a.inFlight = false) (k : Unit) : ticket a ≠ some k := by
  unfold ticket
  rw [h]
  exact nofun

theorem quiet_iff : messageCount w = 0 ↔ ∀ a ∈ w.crew, a.inFlight = false := by
  unfold messageCount
  rw [List.countP_eq_zero]
  simp

theorem Sound.atMostOne (h : Sound w) : messageCount w ≤ 1 := by
  have hcount := h.alone.countP_le_one ()
  simp only [ticket_eq_some, Bool.decide_eq_true] at hcount
  exact hcount

theorem Sound.passOn (h : Sound w) (hi : w.crew[i]? = some a) (ha : a.inFlight = true)
    (hcrew : w'.crew = w.crew.set i a') (hkeyed : w'.keyed = some log')
    (hfits : a'.inFlight = true → a'.Fits log')
    (hbusy : log'.status = .queued ∨ log'.status = .running → a'.inFlight = true)
    (hscored : w'.candidate.semanticScore ≠ none → w'.candidate.semanticBreakdown ≠ none)
    (hsettled : w'.Pending → log'.status ≠ .success) : Sound w' := by
  constructor
  · exact hscored
  · rw [hcrew]
    exact h.alone.set hi fun k hk => .inl (ticket_eq_some.mpr ha)
  · rw [hcrew]
    intro b hb hflight
    rcases mem_set_other hb with rfl | ⟨j, hij, hj⟩
    · exact ⟨log', hkeyed, hfits hflight⟩
    · exact absurd (h.alone i j a b () hi hj (ticket_eq_some.mpr ha) (ticket_eq_some.mpr hflight))
        hij
  · rw [hcrew]
    intro other hother hstatus
    cases hkeyed.symm.trans hother
    exact ⟨a', mem_set_self hi, hbusy hstatus⟩
  · intro hpending other hother
    cases hkeyed.symm.trans hother
    exact hsettled hpending

theorem Sound.goesOn (h : Sound w) (hi : w.crew[i]? = some a) (ha : a.inFlight = false)
    (ha' : a'.inFlight = false) : Sound (w.move i a') := by
  constructor
  · exact h.scored
  · exact h.alone.set hi fun k hk => absurd hk (ticket_eq_none ha' k)
  · intro b hb hflight
    rcases mem_of_mem_set hb with rfl | hold
    · exact absurd (ha'.symm.trans hflight) nofun
    · exact h.fits b hold hflight
  · intro log hlog hstatus
    exact exists_mem_set hi (h.busy log hlog hstatus) fun hflight =>
      absurd (ha.symm.trans hflight) nofun
  · exact h.settled

variable {taskId logId : Uuid}

theorem Sound.takesOff (h : Sound w) (hi : w.crew[i]? = some a)
    (hquiet : ∀ b ∈ w.crew, b.inFlight = false)
    (hcrew : w'.crew = w.crew.set i (.dispatching taskId)) (hkeyed : w'.keyed = some log')
    (htask : log'.taskId = taskId) (hqueued : log'.status = .queued)
    (hcandidate : w'.candidate = w.candidate) : Sound w' := by
  constructor
  · rw [hcandidate]
    exact h.scored
  · rw [hcrew]
    exact h.alone.set hi fun k hk => .inr fun x hx => ticket_eq_none (hquiet x hx) k
  · rw [hcrew]
    intro b hb hflight
    rcases mem_of_mem_set hb with rfl | hold
    · exact ⟨log', hkeyed, htask, .inl hqueued⟩
    · exact absurd ((hquiet b hold).symm.trans hflight) nofun
  · rw [hcrew]
    exact fun log hlog _ => ⟨_, mem_set_self hi, rfl⟩
  · intro _ log hlog
    cases hkeyed.symm.trans hlog
    rw [hqueued]
    exact nofun

theorem Sound.hire (h : Sound w) (ha : a.inFlight = false) : Sound (w.hire a) := by
  constructor
  · exact h.scored
  · exact h.alone.hire fun k hk => absurd hk (ticket_eq_none ha k)
  · intro b hb hflight
    rcases List.mem_append.mp hb with hold | hlast
    · exact h.fits b hold hflight
    · rw [List.mem_singleton.mp hlast] at hflight
      exact absurd (ha.symm.trans hflight) nofun
  · intro log hlog hstatus
    obtain ⟨b, hb, hflight⟩ := h.busy log hlog hstatus
    exact ⟨b, List.mem_append_left _ hb, hflight⟩
  · exact h.settled

theorem Sound.around (h : Sound w) (hcrew : w'.crew = w.crew) (hkeyed : w'.keyed = w.keyed)
    (hscored : w'.candidate.semanticScore ≠ none → w'.candidate.semanticBreakdown ≠ none)
    (hsettled : w'.Pending → ∀ log ∈ w'.keyed, log.status ≠ .success) : Sound w' := by
  constructor
  · exact hscored
  · rw [hcrew]
    exact h.alone
  · rw [hcrew, hkeyed]
    exact h.fits
  · rw [hcrew, hkeyed]
    exact h.busy
  · exact hsettled

theorem Sound.handOver (h : Sound w) (hi : w.crew[i]? = some a) (ha : a.inFlight = true)
    (ha' : a'.inFlight = true) (hfits : ∀ log, a.Fits log → a'.Fits log) :
    Sound (w.move i a') := by
  obtain ⟨log, hlog, hold⟩ := h.fits a (List.mem_of_getElem? hi) ha
  exact h.passOn hi ha rfl hlog (fun _ => hfits log hold) (fun _ => ha') h.scored
    fun hpending => h.settled hpending log hlog

theorem mark_keyed (hlog : w.keyed = some log) (status : TaskStatus) :
    (w.mark log.id status).keyed = some { log with status := status } := by
  unfold World.mark
  simp [hlog]

theorem Sound.quiet (h : Sound w) (hnone : ∀ log, w.keyed = some log →
      log.status ≠ .queued ∧ log.status ≠ .running ∧ (log.status = .retry → messageCount w = 0)) :
    ∀ b ∈ w.crew, b.inFlight = false := by
  by_contra hsome
  push Not at hsome
  obtain ⟨b, hb, hflight⟩ := hsome
  rw [ne_eq, Bool.not_eq_false] at hflight
  obtain ⟨log, hlog, hfits⟩ := h.fits b hb hflight
  obtain ⟨hqueued, hrunning, hretry⟩ := hnone log hlog
  have hcount : messageCount w ≠ 0 := fun hzero =>
    absurd ((quiet_iff.mp hzero b hb).symm.trans hflight) nofun
  cases b with
  | running logId taskId => exact hrunning hfits.2.2
  | finishing logId taskId => exact hrunning hfits.2.2
  | checking => exact hfits
  | looking => exact hfits
  | creating => exact hfits
  | reusing logId => exact hfits
  | ended => exact hfits
  | _ =>
    rcases hfits.2 with hstatus | hstatus
    · exact hqueued hstatus
    · exact hcount (hretry hstatus)

theorem Sound.found (h : Sound w) (hi : w.crew[i]? = some a) (ha : a.inFlight = false)
    (log : SemanticScoreLog) : Sound (w.found i log) := by
  unfold World.found
  split_ifs
  · exact h.goesOn hi ha rfl
  · exact h.goesOn hi ha rfl

theorem sound_call (h : Sound w) (hi : w.crew[i]? = some a) {answers : Bool}
    (hguard : Orderly w (.call i answers) w') (hstep : w.call i answers a = some w') :
    Sound w' := by
  cases a with
  | checking =>
    unfold World.call at hstep
    dsimp only at hstep
    split_ifs at hstep
    · cases hstep
      exact h.goesOn hi rfl rfl
    · cases hstep
      exact h.goesOn hi rfl rfl
  | looking =>
    unfold World.call at hstep
    dsimp only at hstep
    split at hstep
    · cases hstep
      exact h.goesOn hi rfl rfl
    · cases hstep
      exact h.found hi rfl _
  | creating =>
    unfold World.call at hstep
    dsimp only at hstep
    split at hstep
    · rename_i hnone
      cases hstep
      have hquiet := h.quiet fun log hlog => absurd (hnone.symm.trans hlog) nofun
      exact h.takesOff hi hquiet rfl rfl rfl rfl rfl
    · cases hstep
      exact h.found hi rfl _
  | reusing logId =>
    unfold World.call at hstep
    dsimp only at hstep
    split at hstep
    · cases hstep
      exact h.goesOn hi rfl rfl
    · split_ifs at hstep
      · cases hstep
        exact h.takesOff hi (h.quiet (hguard.1 logId hi)) rfl rfl rfl rfl rfl
      · cases hstep
        exact h.goesOn hi rfl rfl
  | dispatching taskId =>
    obtain rfl := hguard.2 taskId hi
    cases hstep
    exact h.handOver hi rfl rfl fun _ hfits => hfits
  | _ => cases hstep

theorem getByTaskId_keyed (hlog : w.keyed = some log)
    (htask : log.taskId = taskId) : w.getByTaskId taskId = some log := by
  unfold World.getByTaskId
  simp [hlog, htask]

theorem stored_keyed (hlog : w.keyed = some log) (hid : log.id = logId) :
    w.stored logId = true := by
  unfold World.stored
  simp [hlog, hid]

theorem sound_begin (h : Sound w) (hi : w.crew[i]? = some (.received taskId)) :
    Sound (w.begin i taskId) := by
  obtain ⟨log, hlog, htask, hstatus⟩ := h.fits _ (List.mem_of_getElem? hi) rfl
  have hopen : log.status ≠ .success := by
    rcases hstatus with hstatus | hstatus
    · rw [hstatus]
      exact nofun
    · rw [hstatus]
      exact nofun
  unfold World.begin
  rw [getByTaskId_keyed hlog htask]
  dsimp only
  rw [if_neg hopen]
  exact h.passOn hi rfl rfl (mark_keyed hlog .running) (fun _ => ⟨rfl, htask, rfl⟩) (fun _ => rfl)
    h.scored fun _ => nofun

theorem sound_work (h : Sound w) (hi : w.crew[i]? = some a)
    (ha : a = .running logId taskId ∨ a = .finishing logId taskId) (outcome : Outcome)
    (hstep : w.work i logId taskId outcome = some w') : Sound w' := by
  have hflight : a.inFlight = true := by
    rcases ha with rfl | rfl <;> rfl
  obtain ⟨log, hlog, hfits⟩ := h.fits a (List.mem_of_getElem? hi) hflight
  obtain ⟨rfl, htask, hrunning⟩ : log.id = logId ∧ log.taskId = taskId ∧ log.status = .running := by
    rcases ha with rfl | rfl <;> exact hfits
  have hopen : log.status ≠ .success := hrunning ▸ nofun
  unfold World.work at hstep
  cases outcome with
  | skip =>
    dsimp only at hstep
    split_ifs at hstep
    cases hstep
    exact h.passOn hi hflight rfl hlog (fun _ => ⟨rfl, htask, hrunning⟩) (fun _ => rfl) h.scored
      fun _ => hopen
  | manualReview =>
    cases hstep
    exact h.passOn hi hflight rfl hlog (fun _ => ⟨rfl, htask, hrunning⟩) (fun _ => rfl)
      (fun hscore => absurd rfl hscore) fun _ => hopen
  | score score breakdown =>
    dsimp only at hstep
    split_ifs at hstep
    cases hstep
    exact h.passOn hi hflight rfl hlog (fun _ => ⟨rfl, htask, hrunning⟩) (fun _ => rfl)
      (fun _ => nofun) fun _ => hopen
  | retry =>
    rw [if_pos (stored_keyed hlog rfl)] at hstep
    cases hstep
    exact h.passOn hi hflight rfl (mark_keyed hlog .retry) (fun _ => ⟨htask, .inr rfl⟩)
      (fun _ => rfl) h.scored fun _ => nofun
  | dead =>
    dsimp only at hstep
    rw [if_pos (stored_keyed hlog rfl)] at hstep
    cases hstep
    exact h.passOn hi hflight rfl (mark_keyed hlog .dead) nofun
      (fun hstatus => absurd hstatus (by simp)) h.scored fun _ => nofun

theorem sound_markSuccess (h : Sound w) (hi : w.crew[i]? = some (.finishing logId taskId))
    (hguard : ((w.mark logId .success).move i .ended).Pending →
      ∀ log ∈ ((w.mark logId .success).move i .ended).keyed, log.status ≠ .success) :
    Sound ((w.mark logId .success).move i .ended) := by
  obtain ⟨log, hlog, rfl, htask, hrunning⟩ := h.fits _ (List.mem_of_getElem? hi) rfl
  refine h.passOn hi rfl rfl (mark_keyed hlog .success) nofun
    (fun hstatus => absurd hstatus (by simp)) h.scored ?_
  exact fun hpending => hguard hpending _ (mark_keyed hlog .success)

theorem sound_publish (h : Sound w) (hi : w.crew[i]? = some (.retrying taskId))
    (answers : Bool) (hguard : answers = true ∨ ∀ log ∈ w.keyed, log.status ≠ .queued) :
    Sound (w.move i (if answers then .scheduled taskId else .ended)) := by
  cases answers with
  | true => exact h.handOver hi rfl rfl fun _ hfits => hfits
  | false =>
    obtain ⟨log, hlog, htask, hstatus⟩ := h.fits _ (List.mem_of_getElem? hi) rfl
    have hretry : log.status = .retry := by
      rcases hguard with hguard | hguard
      · cases hguard
      · exact hstatus.resolve_left (hguard log hlog)
    refine h.passOn hi rfl rfl hlog nofun ?_ h.scored fun _ => hretry ▸ nofun
    rw [hretry]
    exact fun hbusy => absurd hbusy (by simp)

theorem sound_resetForRescore (h : Sound w)
    (hguard : ∀ log ∈ w.keyed, log.status = .queued ∨ log.status = .running → messageCount w = 0)
    (hstep : next? w .resetForRescore = some w') : Sound w' := by
  cases hstep
  have hidle : ∀ log, w.keyed = some log → log.status ≠ .queued ∧ log.status ≠ .running := by
    intro log hlog
    by_contra hbusy
    rw [not_and_or, not_not, not_not] at hbusy
    obtain ⟨b, hb, hflight⟩ := h.busy log hlog hbusy
    exact absurd ((quiet_iff.mp (hguard log hlog hbusy) b hb).symm.trans hflight) nofun
  constructor
  · exact fun hscore => absurd rfl hscore
  · exact h.alone
  · intro b hb hflight
    obtain ⟨log, hlog, hfits⟩ := h.fits b hb hflight
    obtain ⟨hqueued, hrunning⟩ := hidle log hlog
    have hretry : log.status = .retry := by
      cases b with
      | running logId taskId => exact absurd hfits.2.2 hrunning
      | finishing logId taskId => exact absurd hfits.2.2 hrunning
      | checking => exact hfits.elim
      | looking => exact hfits.elim
      | creating => exact hfits.elim
      | reusing logId => exact hfits.elim
      | ended => exact hfits.elim
      | _ => exact hfits.2.resolve_left hqueued
    refine ⟨log, ?_, hfits⟩
    rw [hlog, Option.filter_some, if_pos]
    rw [hretry]
    rfl
  · intro log hlog hstatus
    obtain ⟨hold, -⟩ := Option.filter_eq_some_iff.mp hlog
    obtain ⟨hqueued, hrunning⟩ := hidle log hold
    exact (hstatus.elim hqueued hrunning).elim
  · exact fun hpending => absurd hpending.1 nofun

theorem sound_step {event : Event} (h : Sound w) (hguard : Orderly w event w')
    (hstep : Step w event w') : Sound w' := by
  cases event with
  | deterministicScore passed =>
    cases hstep
    cases passed with
    | true =>
      have hscored : Sound { w with candidate :=
          { w.candidate with deterministicPassed := some true } } :=
        h.around rfl rfl h.scored hguard
      exact hscored.hire rfl
    | false => exact h.around rfl rfl h.scored hguard
  | embedResume resumeId =>
    cases hstep
    by_cases hwaits : w.candidate.resumeId = resumeId ∧
        w.candidate.deterministicPassed = some true ∧ w.candidate.semanticBreakdown = none
    · rw [if_pos hwaits] at hguard ⊢
      have hembedded : Sound { w with embeddings := resumeId :: w.embeddings } :=
        h.around rfl rfl h.scored hguard
      exact hembedded.hire rfl
    · rw [if_neg hwaits] at hguard ⊢
      exact h.around rfl rfl h.scored hguard
  | recoverPendingSemanticScores =>
    cases hstep
    split_ifs
    · exact h.hire rfl
    · exact h
  | queuePostOverrideEvaluation =>
    cases hstep
    split_ifs
    · exact h.hire rfl
    · exact h
  | campaignStatus scoreable =>
    cases hstep
    exact h.around rfl rfl h.scored hguard
  | resetForResubmission newResumeId =>
    cases hstep
    exact h.around rfl rfl (fun hscore => absurd rfl hscore) fun hpending =>
      absurd hpending.1 nofun
  | resetForRescore => exact sound_resetForRescore h hguard hstep
  | call i answers =>
    unfold Step next? at hstep
    dsimp only at hstep
    split at hstep
    · rename_i activity hi
      exact sound_call h hi hguard hstep
    · cases hstep
  | deliver i =>
    unfold Step next? at hstep
    dsimp only at hstep
    split at hstep
    · rename_i taskId hi
      cases hstep
      exact h.handOver hi rfl rfl fun _ hfits => hfits
    · cases hstep
  | begin i =>
    unfold Step next? at hstep
    dsimp only at hstep
    split at hstep
    · rename_i taskId hi
      cases hstep
      exact sound_begin h hi
    · cases hstep
  | work i outcome =>
    unfold Step next? at hstep
    dsimp only at hstep
    split at hstep
    · rename_i logId taskId hi
      exact sound_work h hi (.inl rfl) outcome hstep
    · rename_i logId taskId hi
      split_ifs at hstep
      exact sound_work h hi (.inr rfl) outcome hstep
    · rename_i taskId hi
      split_ifs at hstep with hretry hdead
      · cases hstep
        exact h.handOver hi rfl rfl fun _ hfits => hfits
      · exact absurd hdead (hguard taskId hi)
    · cases hstep
  | markSuccess i =>
    unfold Step next? at hstep
    dsimp only at hstep
    split at hstep
    · rename_i logId taskId hi
      cases hstep
      exact sound_markSuccess h hi hguard
    · cases hstep
  | publish i answers =>
    unfold Step next? at hstep
    dsimp only at hstep
    split at hstep
    · rename_i taskId hi
      cases hstep
      exact sound_publish h hi answers hguard
    · cases hstep
  | due i =>
    unfold Step next? at hstep
    dsimp only at hstep
    split at hstep
    · rename_i taskId hi
      cases hstep
      exact h.handOver hi rfl rfl fun _ hfits => hfits
    · cases hstep

section Recovery

variable {crew : List Activity} {rest : List Event} {event : Event}

theorem final_execute_cons (h : next? w event = some w') :
    final w (execute next? w (event :: rest)) = final w' (execute next? w' rest) := by
  rw [execute, h]
  rfl

theorem next?_last (hcrew : w.crew = crew ++ [a]) (answers : Bool) :
    next? w (.call crew.length answers) = w.call crew.length answers a := by
  unfold next?
  dsimp only
  rw [hcrew, List.getElem?_concat_length]

theorem move_last (hcrew : w.crew = crew ++ [a]) (a' : Activity) :
    (w.move crew.length a').crew = crew ++ [a'] := by
  show w.crew.set crew.length a' = _
  rw [hcrew, List.set_append_right _ _ (Nat.le_refl _), Nat.sub_self]
  rfl

theorem final_dispatching (taskId : Uuid) (hcrew : w.crew = crew ++ [.dispatching taskId]) :
    (final w (execute next? w [.call crew.length true])).crew = crew ++ [.queued taskId] := by
  have hcall := next?_last hcrew true
  rw [final_execute_cons (hcall.trans rfl)]
  exact move_last hcrew _

theorem final_committing (hcrew : w.crew = crew ++ [a])
    (ha : a = .creating ∧ w.keyed = none ∨ ∃ log, w.keyed = some log ∧ a = .reusing log.id) :
    ∃ taskId, (final w (execute next? w
      [.call crew.length true, .call crew.length true])).crew = crew ++ [.queued taskId] := by
  refine ⟨w.nextUuid, ?_⟩
  have hcall := next?_last hcrew true
  rcases ha with ⟨rfl, hnone⟩ | ⟨log, hlog, rfl⟩
  · have hcommit : w.call crew.length true .creating =
        some { w.move crew.length (.dispatching w.nextUuid) with
          keyed := some ⟨w.nextUuid + 1, w.nextUuid, .queued⟩, nextUuid := w.nextUuid + 2 } := by
      simp only [World.call, hnone]
    rw [final_execute_cons (hcall.trans hcommit)]
    exact final_dispatching _ (move_last hcrew _)
  · have hcommit : w.call crew.length true (.reusing log.id) =
        some { w.move crew.length (.dispatching w.nextUuid) with
          keyed := some { log with taskId := w.nextUuid, status := .queued }
          nextUuid := w.nextUuid + 1 } := by
      simp only [World.call, hlog, if_true]
    rw [final_execute_cons (hcall.trans hcommit)]
    exact final_dispatching _ (move_last hcrew _)

theorem Sound.recovers (h : Sound w) (hpending : w.Pending) (hnone : messageCount w = 0) :
    messageCount (recovered w) = 1 := by
  have hquiet := quiet_iff.mp hnone
  obtain ⟨hpassed, hembedded, hbreakdown, hscoreable⟩ := hpending
  have hscore : w.candidate.semanticScore = none := by
    by_contra hscore
    exact h.scored hscore hbreakdown
  have hselected : w.recoverable = true := by
    simp [World.recoverable, hpassed, hscore, hembedded]
  have hrecover : next? w .recoverPendingSemanticScores = some (w.hire .checking) := by
    simp only [next?, hselected, if_true]
  have hchecks : (w.hire .checking).call w.crew.length true .checking =
      some ((w.hire .checking).move w.crew.length .looking) := if_pos hembedded
  have hlooking := move_last (w := w.hire .checking) rfl .looking
  have hcrew : ∃ taskId, (recovered w).crew = w.crew ++ [.queued taskId] := by
    unfold recovered recoveryRun
    rw [final_execute_cons hrecover, final_execute_cons ((next?_last rfl true).trans hchecks)]
    cases hkeyed : w.keyed with
    | none =>
      have hlook : ((w.hire .checking).move w.crew.length .looking).call w.crew.length true
          .looking = some (((w.hire .checking).move w.crew.length .looking).move w.crew.length
            .creating) := by
        show (match w.keyed with
          | none => _
          | some log => _) = _
        rw [hkeyed]
      rw [final_execute_cons ((next?_last hlooking true).trans hlook)]
      exact final_committing (move_last hlooking _) (.inl ⟨rfl, hkeyed⟩)
    | some log =>
      -- its row is at FAILURE, RETRY, PAUSED or DEAD
      have hfree : World.alreadyQueuedOrScored log.status = false := by
        have hbusy : ¬(log.status = .queued ∨ log.status = .running) := by
          intro hstatus
          obtain ⟨b, hb, hflight⟩ := h.busy log hkeyed hstatus
          exact absurd ((hquiet b hb).symm.trans hflight) nofun
        have hopen := h.settled ⟨hpassed, hembedded, hbreakdown, hscoreable⟩ log hkeyed
        rw [not_or] at hbusy
        simp [World.alreadyQueuedOrScored, hbusy.1, hbusy.2, hopen]
      have hlook : ((w.hire .checking).move w.crew.length .looking).call w.crew.length true
          .looking = some (((w.hire .checking).move w.crew.length .looking).move w.crew.length
            (.reusing log.id)) := by
        show (match w.keyed with
          | none => _
          | some log => _) = _
        rw [hkeyed]
        simp only [World.found, hfree]
        rfl
      rw [final_execute_cons ((next?_last hlooking true).trans hlook)]
      exact final_committing (move_last hlooking _) (.inr ⟨log, hkeyed, rfl⟩)
  obtain ⟨taskId, hcrew⟩ := hcrew
  have hold : w.crew.countP Activity.inFlight = 0 := hnone
  unfold messageCount
  rw [hcrew, List.countP_append, hold]
  rfl

end Recovery

end Invariant

-- The candidate has been created: no row, no message, no call.
structure Begun (w : World) : Prop where
  candidate : w.candidate.semanticScore = none
  keyed : w.keyed = none
  crew : w.crew = []

theorem semantic_scores_recoverable (start : World) (hbegun : Begun start)
    (path : List (Event × World)) (hpath : Path Step start path)
    (hguard : EveryStep Orderly start path) : ∀ w ∈ visited start path, Recoverable w := by
  have hsound : Sound start := by
    constructor
    · exact fun hscore => absurd hbegun.candidate hscore
    · rw [hbegun.crew]
      exact soleOwner_nil
    · rw [hbegun.crew]
      exact fun a ha => absurd ha List.not_mem_nil
    · exact fun log hlog => absurd (hbegun.keyed.symm.trans hlog) nofun
    · exact fun _ log hlog => absurd (hbegun.keyed.symm.trans hlog) nofun
  intro w hw
  have hall := hpath.guarded_invariant hsound hguard
    (fun _ _ _ hs horderly hstep => sound_step hs horderly hstep) w hw
  exact ⟨hall.recovers, hall.atMostOne⟩

def created : World where
  candidate := ⟨1, none, none, none⟩
  embeddings := [1]
  scoreable := true
  keyed := none
  others := []
  crew := []
  nextUuid := 10

theorem created_begun : Begun created := ⟨rfl, rfl, rfl⟩

def run (events : List Event) : List (Event × World) := execute next? created events

theorem run_path (events : List Event) : Path Step created (run events) :=
  execute_path next? (fun _ _ _ h => h) created events

def retriedOnce : List Event :=
  [.deterministicScore true, .call 0 true, .call 0 true, .call 0 true, .call 0 true, .deliver 0,
    .begin 0, .work 0 .retry, .publish 0 true, .due 0, .deliver 0, .begin 0,
    .work 0 (.score (4 / 5) "matched"), .markSuccess 0]

theorem semantic_scores_recoverable_retried : Recoverable (final created (run retriedOnce)) ∧
      (final created (run retriedOnce)).candidate.semanticScore = some (4 / 5) := by
  refine ⟨semantic_scores_recoverable created created_begun _ (run_path retriedOnce) ?_ _
    (final_mem_visited _ _), by decide +kernel⟩
  refine ⟨fun _ => nofun, ⟨nofun, nofun⟩, ⟨nofun, nofun⟩, ⟨nofun, nofun⟩,
    ⟨nofun, fun _ _ => rfl⟩, trivial, trivial, nofun, .inl rfl, trivial, trivial, trivial, nofun,
    ?_, trivial⟩
  exact fun hpending => absurd hpending.2.2.1 nofun

-- A resubmission comes before the task, which skips: its row is a SUCCESS, and when the new
-- resume has passed and has its embedding, every scan passes the candidate over.
def skipped : List Event :=
  [.deterministicScore true, .call 0 true, .call 0 true, .call 0 true, .call 0 true,
    .resetForResubmission 2, .deliver 0, .begin 0, .work 0 .skip, .markSuccess 0, .embedResume 2,
    .deterministicScore true, .call 1 true, .call 1 true]

def doubled : List Event :=
  [.deterministicScore true, .call 0 true, .call 0 true, .call 0 true, .call 0 true, .deliver 0,
    .begin 0, .work 0 .retry, .publish 0 true, .recoverPendingSemanticScores, .call 1 true,
    .call 1 true, .call 1 true, .call 1 true]

theorem skipped_row_passed_over :
    (¬∀ start, Begun start → ∀ path, Path Step start path → ∀ w ∈ visited start path,
      w.Pending → messageCount w = 0 → messageCount (recovered w) = 1) ∧
    ¬∀ start, Begun start → ∀ path, Path Step start path → ∀ w ∈ visited start path,
      messageCount w ≤ 1 := by
  constructor
  · intro h
    have hone := h created created_begun _ (run_path skipped) _ (final_mem_visited _ _)
      (by decide +kernel) (by decide +kernel)
    have hzero : messageCount (recovered (final created (run skipped))) = 0 := by decide +kernel
    omega
  · intro h
    have hone := h created created_begun _ (run_path doubled) _ (final_mem_visited _ _)
    have htwo : messageCount (final created (run doubled)) = 2 := by decide +kernel
    omega

end SemanticRecovery

end AiHiring
