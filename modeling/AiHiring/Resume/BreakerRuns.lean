import AiHiring.Resume.CircuitBreaker

namespace AiHiring

open Library

namespace EmbeddingTask

open CircuitBreakerRepository

@[simp] theorem failuresInARow_nil : failuresInARow [] = 0 := rfl

theorem failuresInARow_cons (call : Call) (rest : List Call) :
    failuresInARow (call :: rest) = if call.raised then failuresInARow rest + 1 else 0 := by
  unfold failuresInARow
  rw [List.takeWhile_cons]
  split_ifs <;> simp

section Step

variable {threshold : ℕ} {w : World} {timing : Timing}

theorem isOpen_iff : isOpen (checked threshold w timing) = true ↔
      ∃ row, w.row = some row ∧ row.state = .open ∧ isDue row (checkedAt w timing) = false := by
  cases hrow : w.row with
  | none => simp [isOpen, checked, Session.begin, Session.flush, transitionToHalfOpenIfDue,
      getOrCreate, isDue, hrow]
  | some row =>
    have hflushed : (checked threshold w timing).flushed =
        some (transitionToHalfOpenIfDue (some row) (checkedAt w timing)) := by
      simp [checked, Session.begin, Session.flush, getOrCreate, hrow]
    unfold isOpen
    rw [hflushed]
    by_cases hdue : isDue row (checkedAt w timing) = true
    · simp [transitionToHalfOpenIfDue, getOrCreate, hdue]
    · simp [transitionToHalfOpenIfDue, getOrCreate, hdue]

theorem run_blocked (h : isOpen (checked threshold w timing) = true) :
    generateResumeEmbeddingTask threshold w timing =
      { w with clock := checkedAt w timing } := by
  obtain ⟨row, hrow, hopen, hdue⟩ := isOpen_iff.mp h
  unfold generateResumeEmbeddingTask
  rw [if_pos h]
  simp [checked, Session.begin, Session.flush, Session.commit, getOrCreate,
    transitionToHalfOpenIfDue, hrow, hdue]

theorem run_raised (h : isOpen (checked threshold w timing) = false)
    (hraises : timing.firstRaises = true) :
    generateResumeEmbeddingTask threshold w timing =
      { row := some (incrementFailure w.row (failedAt w timing)
          (failedAt w timing + timing.untilOpened))
        clock := failedAt w timing + timing.untilOpened
        calls := ⟨calledAt w timing, failedAt w timing, true⟩ :: w.calls } := by
  unfold generateResumeEmbeddingTask
  simp only [h, hraises]
  rfl

theorem run_returned (h : isOpen (checked threshold w timing) = false)
    (hraises : timing.firstRaises = false) :
    ∃ row, row.state = .closed ∧ row.failureCount = 0 ∧
      generateResumeEmbeddingTask threshold w timing =
        { row := some row
          clock := failedAt w timing + timing.untilOpened + timing.secondCall
          calls := ⟨failedAt w timing + timing.untilOpened,
              failedAt w timing + timing.untilOpened + timing.secondCall, timing.secondRaises⟩ ::
            ⟨calledAt w timing, failedAt w timing, false⟩ :: w.calls } := by
  obtain ⟨row, hrow⟩ : ∃ row, (checked threshold w timing).flushed = some row := ⟨_, rfl⟩
  refine ⟨{ row with state := .closed, failureCount := 0, openedAt := none, retryAfter := none },
    rfl, rfl, ?_⟩
  unfold generateResumeEmbeddingTask
  simp only [h, hraises]
  rw [hrow]
  cases timing.secondRaises <;> rfl

theorem incrementFailure_spec (row : Option CircuitBreakerState) (now openedAt : Instant) :
    (incrementFailure row now openedAt).failureCount = failureCount row + 1 ∧
      (incrementFailure row now openedAt).lastFailureAt = some now ∧
      ((incrementFailure row now openedAt).state = .open ↔ state row = .open ∨
        (getOrCreate row defaultFailureThreshold).failureThreshold ≤ failureCount row + 1) ∧
      (state row ≠ .halfOpen → (incrementFailure row now openedAt).state ≠ .halfOpen) := by
  have hcount : (getOrCreate row defaultFailureThreshold).failureCount = failureCount row := by
    cases row <;> rfl
  have hstate : (getOrCreate row defaultFailureThreshold).state = state row := by
    cases row <;> rfl
  unfold incrementFailure
  dsimp only
  rw [hcount, hstate]
  split_ifs with hopens
  · exact ⟨rfl, rfl, iff_of_true rfl (.inr hopens.2), by simp⟩
  · refine ⟨rfl, rfl, ?_, id⟩
    show state row = .open ↔ _
    constructor
    · exact .inl
    · intro h
      by_contra hno
      exact hopens ⟨hno, h.resolve_left hno⟩

end Step

-- Besides, the row remembers when the last call failed.
structure Inv (threshold : ℕ) (w : World) : Prop where
  holdsBack : HoldsBack threshold w
  settled : state w.row ≠ .halfOpen
  last : 0 < failuresInARow w.calls → ∃ row call rest, w.row = some row ∧
    w.calls = call :: rest ∧ row.lastFailureAt = some call.endedAt

section Steps

variable {threshold : ℕ} {w : World}

theorem spaced_cons {calls : List Call} {call : Call}
    (h : ∀ later after before earlier, calls = later ++ after :: before :: earlier →
      threshold ≤ failuresInARow (before :: earlier) →
        before.endedAt + openCooldown ≤ after.startedAt)
    (hcall : ∀ before earlier, calls = before :: earlier → threshold ≤ failuresInARow calls →
      before.endedAt + openCooldown ≤ call.startedAt) :
    ∀ later after before earlier, call :: calls = later ++ after :: before :: earlier →
      threshold ≤ failuresInARow (before :: earlier) →
        before.endedAt + openCooldown ≤ after.startedAt := by
  intro later after before earlier heq hfailed
  cases later with
  | nil =>
    obtain ⟨rfl, hrest⟩ := List.cons.inj heq
    exact hcall before earlier hrest (hrest ▸ hfailed)
  | cons first later =>
    obtain ⟨-, hrest⟩ := List.cons.inj heq
    exact h later after before earlier hrest hfailed

theorem Inv.distance (h : Inv threshold w) (hpos : 1 ≤ threshold) {timing : Timing}
    (hcare : threshold ≤ failureCount w.row → ∀ row, w.row = some row →
      ∀ failure, row.lastFailureAt = some failure → failure + openCooldown ≤ calledAt w timing) :
    ∀ before earlier, w.calls = before :: earlier → threshold ≤ failuresInARow w.calls →
      before.endedAt + openCooldown ≤ calledAt w timing := by
  intro before earlier hcalls hfailed
  obtain ⟨row, call, rest, hrow, hcalls', hlast⟩ := h.last (by omega)
  obtain ⟨rfl, -⟩ := List.cons.inj (hcalls.symm.trans hcalls')
  have hcount := h.holdsBack.counted
  exact hcare (by omega) row hrow _ hlast

theorem inv_run (h : Inv threshold w) (hpos : 1 ≤ threshold) (timing : Timing)
    (hcare : Careful threshold w (.run timing)) :
    Inv threshold (generateResumeEmbeddingTask threshold w timing) := by
  cases hopen : isOpen (checked threshold w timing) with
  | true =>
    rw [run_blocked hopen]
    exact ⟨⟨h.holdsBack.counted, h.holdsBack.opened, h.holdsBack.closed, h.holdsBack.spaced⟩,
      h.settled, h.last⟩
  | false =>
  obtain ⟨hgap, hrest⟩ := hcare hopen
  have hdistance := h.distance hpos hgap
  cases hfirst : timing.firstRaises with
  | true =>
    rw [if_pos hfirst] at hrest
    rw [run_raised hopen hfirst]
    obtain ⟨hcount, hlast, hstate, hhalf⟩ := incrementFailure_spec w.row (failedAt w timing)
      (failedAt w timing + timing.untilOpened)
    have hcounted := h.holdsBack.counted
    refine ⟨⟨?_, fun hreached => ?_, ?_, ?_⟩, hhalf h.settled, fun _ => ?_⟩
    · rw [failuresInARow_cons, if_pos rfl, ← hcounted]
      exact hcount
    · rw [failuresInARow_cons, if_pos rfl, ← hcounted] at hreached
      exact hstate.mpr (hrest hreached)
    · intro call rest hcalls hok
      obtain ⟨rfl, -⟩ := List.cons.inj hcalls
      simp at hok
    · exact spaced_cons h.holdsBack.spaced hdistance
    · exact ⟨_, _, _, rfl, rfl, hlast⟩
  | false =>
    rw [hfirst, if_neg (by simp)] at hrest
    obtain ⟨row, hclosed, hzero, heq⟩ := run_returned hopen hfirst
    rw [heq, hrest]
    have hnone (calls : List Call) (startedAt endedAt : Instant) :
        failuresInARow (⟨startedAt, endedAt, false⟩ :: calls) = 0 := by
      rw [failuresInARow_cons, if_neg (by simp)]
    refine ⟨⟨?_, fun hreached => ?_, fun _ _ _ _ => ⟨hclosed, hzero⟩, ?_⟩, ?_, fun hsome => ?_⟩
    · rw [hnone]
      exact hzero
    · rw [hnone] at hreached
      omega
    · refine spaced_cons (spaced_cons h.holdsBack.spaced hdistance) fun _ _ _ hreached => ?_
      rw [hnone] at hreached
      omega
    · have hstate : state (some row) = .closed := hclosed
      simp [hstate]
    · rw [hnone] at hsome
      omega

theorem inv_step (h : Inv threshold w) (hpos : 1 ≤ threshold) {event : Event} {t : World}
    (hcare : Careful threshold w event) (hstep : Step threshold w event t) : Inv threshold t := by
  obtain rfl := hstep
  cases event with
  | early elapsed =>
    exact ⟨⟨h.holdsBack.counted, h.holdsBack.opened, h.holdsBack.closed, h.holdsBack.spaced⟩,
      h.settled, h.last⟩
  | run timing => exact inv_run h hpos timing hcare

theorem careful_of_holdsBack (h : Inv threshold w) (hpos : 1 ≤ threshold) {event : Event}
    {t : World} (hstep : Step threshold w event t) (ht : HoldsBack threshold t) :
    Careful threshold w event := by
  obtain rfl := hstep
  cases event with
  | early elapsed => trivial
  | run timing =>
  intro hopen
  have hcounted := h.holdsBack.counted
  have hgap (later : List Call) (endedAt : Instant) (raised : Bool)
      (hcalls : (generateResumeEmbeddingTask threshold w timing).calls =
        later ++ ⟨calledAt w timing, endedAt, raised⟩ :: w.calls) :
      threshold ≤ failureCount w.row → ∀ row, w.row = some row →
        ∀ failure, row.lastFailureAt = some failure →
          failure + openCooldown ≤ calledAt w timing := by
    intro hreached row hrow failure hfailure
    obtain ⟨row', call, rest, hrow', hrest, hlast⟩ := h.last (by omega)
    cases hrow.symm.trans hrow'
    cases hfailure.symm.trans hlast
    have hbefore : threshold ≤ failuresInARow (call :: rest) := by
      rw [← hrest]
      omega
    exact ht.spaced later _ call rest (hrest ▸ hcalls) hbefore
  cases hfirst : timing.firstRaises with
  | true =>
    have heq := run_raised hopen hfirst
    refine ⟨hgap [] _ true (by rw [heq]; rfl), ?_⟩
    rw [if_pos rfl]
    intro hreached
    obtain ⟨-, -, hstate, -⟩ := incrementFailure_spec w.row (failedAt w timing)
      (failedAt w timing + timing.untilOpened)
    have hopened := ht.opened
    simp only [next] at hopened
    rw [heq, failuresInARow_cons, if_pos rfl, ← hcounted] at hopened
    exact hstate.mp (hopened hreached)
  | false =>
    obtain ⟨row, -, hzero, heq⟩ := run_returned hopen hfirst
    refine ⟨hgap [_] _ false (by rw [heq]; rfl), ?_⟩
    rw [if_neg (by simp)]
    have hcount := ht.counted
    simp only [next] at hcount
    rw [heq, failuresInARow_cons] at hcount
    cases hsecond : timing.secondRaises with
    | false => rfl
    | true =>
      rw [hsecond, if_pos rfl] at hcount
      have hnone : row.failureCount = _ + 1 := hcount
      omega

theorem probes_step {event : Event} {t : World} (hstep : Step threshold w event t) :
    Probes w event t := by
  obtain rfl := hstep
  rintro timing rfl
  have hblocked : isOpen (checked threshold w timing) = true ↔
      ∃ row, w.row = some row ∧ row.state = .open ∧ isDue row (checkedAt w timing) = false :=
    isOpen_iff
  simp only [next]
  cases hopen : isOpen (checked threshold w timing) with
  | true =>
    obtain ⟨row, hrow, hstate, hdue⟩ := hblocked.mp hopen
    rw [run_blocked hopen]
    refine iff_of_false (fun hall => ?_) (by simp)
    rw [hall row hrow hstate] at hdue
    exact Bool.noConfusion hdue
  | false =>
    have hcalls : (generateResumeEmbeddingTask threshold w timing).calls ≠ w.calls := by
      intro heq
      have hlength := congrArg List.length heq
      cases hfirst : timing.firstRaises with
      | true =>
        rw [run_raised hopen hfirst, List.length_cons] at hlength
        omega
      | false =>
        obtain ⟨row, -, -, hrun⟩ := run_returned hopen hfirst
        rw [hrun, List.length_cons, List.length_cons] at hlength
        omega
    refine iff_of_true (fun row hrow hstate => ?_) hcalls
    by_contra hdue
    have hyes := hblocked.mpr ⟨row, hrow, hstate, Bool.eq_false_iff.mpr hdue⟩
    rw [hopen] at hyes
    exact Bool.noConfusion hyes

end Steps

structure Start (w : World) : Prop where
  row : w.row = none
  calls : w.calls = []

theorem Start.inv {w : World} {threshold : ℕ} (h : Start w) (hpos : 1 ≤ threshold) :
    Inv threshold w := by
  obtain ⟨hrow, hcalls⟩ := h
  refine ⟨⟨?_, fun hreached => ?_, ?_, ?_⟩, ?_, fun hsome => ?_⟩
  · rw [hrow, hcalls]
    rfl
  · rw [hcalls, failuresInARow_nil] at hreached
    omega
  · simp [hcalls]
  · simp [hcalls]
  · simp [hrow, state]
  · rw [hcalls, failuresInARow_nil] at hsome
    omega

def noRow : World where
  row := none
  clock := 0
  calls := []

theorem noRow_start : Start noRow := by
  constructor
  · rfl
  · rfl

def next? (threshold : ℕ) (w : World) (event : Event) : Option World :=
  some (next threshold w event)

def runsOf (threshold : ℕ) (events : List Event) : List (Event × World) :=
  execute (next? threshold) noRow events

theorem runsOf_path (threshold : ℕ) (events : List Event) :
    Path (Step threshold) noRow (runsOf threshold events) :=
  execute_path (next? threshold) (fun _ _ _ h => Option.some.inj h) noRow events

def returns : Event := .run ⟨1, 1, 1, 0, 1, false, false⟩

def raises : Event := .run ⟨1, 1, 1, 0, 1, true, false⟩

end EmbeddingTask

end AiHiring
