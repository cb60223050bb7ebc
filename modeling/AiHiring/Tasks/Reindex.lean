import AiHiring.Library.Run
import AiHiring.Tasks.CompositeScore

namespace AiHiring

open Library

namespace Reindex

-- What `reindex_ivfflat_resume_embeddings` has committed for a message so far:
-- nothing, its log, RUNNING, the rebuilt index, and then there is only the ack left.
inductive Phase where
  | waiting
  | logged
  | running
  | rebuilt
  | ended
  deriving DecidableEq

-- A message that waits at the broker or is held by a worker.
structure Delivery where
  taskId : ℕ
  phase : Phase

def isInFlight (status : Option TaskStatus) : Bool :=
  status = some .queued ∨ status = some .running

-- The task logs by task id, which is unique. `dispatching` counts the reads that
-- found nothing in flight and have not come to `apply_async`.
structure World where
  logs : ℕ → Option TaskStatus
  deliveries : List Delivery
  dispatching : ℕ
  nextTask : ℕ

-- A read is one above the threshold. A failure is an exception in the task, and
-- `recorded` says whether its `mark_failure` commits. A crash loses the worker, so
-- that the message is requeued; a redelivery is one while the worker still runs.
inductive Event where
  | read
  | dispatch (sent : Bool)
  | work (i : ℕ)
  | fail (i : ℕ) (recorded : Bool)
  | crash (i : ℕ)
  | redeliver (i : ℕ)

def inFlight (w : World) : Bool := (List.range w.nextTask).any fun t => isInFlight (w.logs t)

def move (w : World) (i : ℕ) (d : Delivery) (phase : Phase) : World :=
  { w with deliveries := w.deliveries.set i { d with phase } }

def mark (w : World) (i : ℕ) (d : Delivery) (status : TaskStatus) (phase : Phase) : World :=
  { move w i d phase with logs := Function.update w.logs d.taskId (some status) }

def work (w : World) (i : ℕ) (d : Delivery) : World :=
  match d.phase with
  | .waiting =>
    match w.logs d.taskId with
    | some status => move w i d (if status = .success then .ended else .logged)
    | none => mark w i d .queued .logged
  | .logged => mark w i d .running .running
  | .running => move w i d .rebuilt
  | .rebuilt => mark w i d .success .ended
  | .ended => { w with deliveries := w.deliveries.eraseIdx i }

-- The log is marked only where `task_log` is set.
def fail (w : World) (i : ℕ) (recorded : Bool) (d : Delivery) : Option World :=
  match d.phase with
  | .waiting | .logged => some (move w i d .ended)
  | .running | .rebuilt =>
    some (if recorded then mark w i d .failure .ended else move w i d .ended)
  | .ended => none

def next (w : World) : Event → Option World
  | .read => some (if inFlight w then w else { w with dispatching := w.dispatching + 1 })
  | .dispatch sent =>
    let w' := { w with dispatching := w.dispatching - 1 }
    if w.dispatching = 0 then none
    else if sent then some { w' with
      deliveries := w.deliveries ++ [⟨w.nextTask, .waiting⟩]
      nextTask := w.nextTask + 1 }
    else some w'
  | .work i => w.deliveries[i]?.map (work w i)
  | .fail i recorded => w.deliveries[i]?.bind (fail w i recorded)
  | .crash i => w.deliveries[i]?.map fun d => move w i d .waiting
  | .redeliver i => w.deliveries[i]?.map fun d =>
      { w with deliveries := w.deliveries ++ [{ d with phase := .waiting }] }

def Step (w : World) (event : Event) (w' : World) : Prop := next w event = some w'

-- The index is rebuilt by one message at a time, and once there is none the next
-- read goes on to send another.
structure Exclusive (w : World) : Prop where
  alone : w.deliveries.length ≤ 1
  reopened : w.deliveries = [] → ∃ w', Step w .read w' ∧ w'.dispatching = w.dispatching + 1

-- The guard sees what is under way, a failed run leaves no log in flight, and the
-- broker delivers no message again that it has not lost.
def InOrder (w : World) : Event → Prop
  | .read => w.deliveries ≠ [] ∨ w.dispatching ≠ 0 → inFlight w
  | .fail i recorded => ∀ d ∈ w.deliveries[i]?,
      recorded ∧ (d.phase = .running ∨ d.phase = .rebuilt) ∨ ¬isInFlight (w.logs d.taskId)
  | .redeliver _ => False
  | _ => True

structure Quiet (w : World) : Prop where
  deliveries : w.deliveries = []
  dispatching : w.dispatching = 0
  inFlight : ¬inFlight w

structure Inv (w : World) : Prop where
  few : w.deliveries.length + w.dispatching ≤ 1
  held : ∀ t < w.nextTask, isInFlight (w.logs t) →
    ∃ d ∈ w.deliveries, d.taskId = t ∧ d.phase ≠ .ended

variable {w w' : World} {d : Delivery} {i : ℕ}

theorem inFlight_iff : inFlight w ↔ ∃ t < w.nextTask, isInFlight (w.logs t) := by
  simp [inFlight]

theorem Inv.sole (h : Inv w) (hd : w.deliveries[i]? = some d) :
    w.deliveries = [d] ∧ i = 0 ∧ w.dispatching = 0 := by
  have hfew := h.few
  cases hlist : w.deliveries with
  | nil => simp [hlist] at hd
  | cons first rest =>
    rw [hlist, List.length_cons] at hfew
    obtain rfl : rest = [] := List.length_eq_zero_iff.mp (by omega)
    rw [hlist] at hd
    cases i with
    | zero => exact ⟨by rw [Option.some.inj hd], rfl, by omega⟩
    | succ i => simp at hd

-- The only message there is moves on, and no other log changes.
theorem Inv.advance (h : Inv w) (hd : w.deliveries[i]? = some d) {phase : Phase}
    {logs : ℕ → Option TaskStatus} (hlogs : ∀ t, t ≠ d.taskId → logs t = w.logs t)
    (hended : phase = .ended → ¬isInFlight (logs d.taskId)) :
    Inv { move w i d phase with logs } := by
  obtain ⟨hlist, rfl, hnone⟩ := h.sole hd
  refine ⟨by simp [move, hlist, hnone], fun t ht hflight => ?_⟩
  have htask : d.taskId = t := by
    by_contra hother
    change isInFlight (logs t) at hflight
    rw [hlogs t (Ne.symm hother)] at hflight
    obtain ⟨x, hx, htask, -⟩ := h.held t ht hflight
    rw [hlist, List.mem_singleton] at hx
    exact hother (hx ▸ htask)
  exact ⟨{ d with phase }, by simp [move, hlist], htask,
    fun hphase => hended hphase (htask ▸ hflight)⟩

theorem Inv.move (h : Inv w) (hd : w.deliveries[i]? = some d) {phase : Phase}
    (hended : phase = .ended → ¬isInFlight (w.logs d.taskId)) : Inv (move w i d phase) :=
  h.advance hd (fun _ _ => rfl) hended

theorem Inv.mark (h : Inv w) (hd : w.deliveries[i]? = some d) {status : TaskStatus} {phase : Phase}
    (hended : phase = .ended → ¬isInFlight (some status)) : Inv (mark w i d status phase) := by
  apply h.advance hd
  · intro t hother
    exact Function.update_of_ne hother _ _
  · intro hphase
    rw [Function.update_self]
    exact hended hphase

theorem inv_work (h : Inv w) (hd : w.deliveries[i]? = some d) : Inv (work w i d) := by
  unfold work
  cases hphase : d.phase with
  | waiting =>
    cases hlog : w.logs d.taskId with
    | none => exact h.mark hd (by simp)
    | some status =>
      apply h.move hd
      intro hended
      split_ifs at hended with hsuccess
      rw [hlog, hsuccess]
      decide
  | logged => exact h.mark hd (by simp)
  | running => exact h.move hd (by simp)
  | rebuilt => exact h.mark hd fun _ => by decide
  | ended =>
    obtain ⟨hlist, rfl, hnone⟩ := h.sole hd
    refine ⟨by simp [hlist, hnone], fun t ht hflight => ?_⟩
    obtain ⟨x, hx, -, hopen⟩ := h.held t ht hflight
    rw [hlist, List.mem_singleton] at hx
    exact absurd (hx ▸ hphase) hopen

theorem inv_next {event : Event} (h : Inv w) (horder : InOrder w event)
    (hnext : Step w event w') : Inv w' := by
  cases event with
  | read =>
    cases hnext
    split_ifs with hflight
    · exact h
    · have hquiet := not_imp_not.mpr horder hflight
      rw [not_or, not_not, not_not] at hquiet
      exact ⟨by simp [hquiet], h.held⟩
  | dispatch sent =>
    have hfew := h.few
    simp only [Step, next] at hnext
    split_ifs at hnext with hzero
    · cases hnext
      refine ⟨by simp only [List.length_append, List.length_singleton]; omega, ?_⟩
      intro t ht hflight
      by_cases hnew : t = w.nextTask
      · exact ⟨_, List.mem_append_right _ (List.mem_singleton.mpr rfl), hnew.symm, by simp⟩
      · obtain ⟨d, hd, hheld⟩ := h.held t (Nat.lt_of_le_of_ne (Nat.le_of_lt_succ ht) hnew) hflight
        exact ⟨d, List.mem_append_left _ hd, hheld⟩
    · cases hnext
      exact ⟨by dsimp only; omega, h.held⟩
  | work i =>
    obtain ⟨d, hd, rfl⟩ := Option.map_eq_some_iff.mp hnext
    exact inv_work h hd
  | fail i recorded =>
    obtain ⟨d, hd, hfail⟩ := Option.bind_eq_some_iff.mp hnext
    have hover (hnot : ¬(recorded ∧ (d.phase = .running ∨ d.phase = .rebuilt))) :
        Inv (Reindex.move w i d .ended) := h.move hd fun _ => (horder d hd).resolve_left hnot
    unfold fail at hfail
    cases hphase : d.phase with
    | ended => simp [hphase] at hfail
    | waiting | logged =>
      rw [hphase] at hfail
      cases hfail
      exact hover (by simp [hphase])
    | running | rebuilt =>
      rw [hphase] at hfail
      cases hfail
      cases recorded with
      | true => exact h.mark hd fun _ => by decide
      | false => exact hover (by simp)
  | crash i =>
    obtain ⟨d, hd, rfl⟩ := Option.map_eq_some_iff.mp hnext
    exact h.move hd (by simp)
  | redeliver i => exact horder.elim

theorem Inv.exclusive (h : Inv w) : Exclusive w where
  alone := (Nat.le_add_right _ _).trans h.few
  reopened := by
    intro hnone
    have hidle : ¬inFlight w := by
      rw [inFlight_iff]
      rintro ⟨t, ht, hflight⟩
      obtain ⟨d, hd, -⟩ := h.held t ht hflight
      simp [hnone] at hd
    exact ⟨_, rfl, by rw [if_neg hidle]⟩

theorem exclusive_throughout {start : World} {path : List (Event × World)} (hstart : Quiet start)
    (hpath : Path Step start path)
    (horder : EveryStep (fun w event _ => InOrder w event) start path) :
    ∀ w ∈ visited start path, Exclusive w := by
  have hinv : Inv start :=
    ⟨by rw [hstart.deliveries, hstart.dispatching]; decide,
      fun t ht hflight => absurd (inFlight_iff.mpr ⟨t, ht, hflight⟩) hstart.inFlight⟩
  intro w hw
  exact (hpath.guarded_invariant hinv horder (fun _ _ _ => inv_next) w hw).exclusive

def idle : World := ⟨fun _ => none, [], 0, 0⟩

-- A run fails after RUNNING, and the read after it finds nothing in flight.
def failedRun : List Event :=
  [.read, .dispatch true, .work 0, .work 0, .fail 0 true, .work 0, .read]

theorem exclusive_failedRun : Exclusive (final idle (execute next idle failedRun)) := by
  refine exclusive_throughout ⟨rfl, rfl, by decide⟩ (execute_path next (fun _ _ _ h => h) _ _) ?_ _
    (final_mem_visited _ _)
  refine ⟨fun h => absurd h (by decide), trivial, trivial, trivial, ?_, trivial,
    fun h => absurd h (by decide), trivial⟩
  intro d hd
  exact Or.inl ⟨rfl, Or.inl (Option.some.inj hd ▸ rfl)⟩

-- Two dashboards read before either has dispatched.
theorem dispatched_twice :
    ¬∀ path, Path Step idle path → ∀ w ∈ visited idle path, Exclusive w := by
  intro h
  let path := execute next idle [.read, .read, .dispatch true, .dispatch true]
  have hpath : Path Step idle path := execute_path next (fun _ _ _ h => h) _ _
  exact absurd (h path hpath _ (final_mem_visited idle path)).alone (by decide)

end Reindex

end AiHiring
