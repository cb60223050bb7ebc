import AiHiring.Tasks.ScoringQueue

namespace AiHiring

open Library

namespace ScoringQueue

open World

def owner (worker : Worker) : Option ℕ :=
  if worker.phase = .done then none else some worker.message.taskId

def Row (rows : List ScoringLog) (taskId : ℕ) (status : TaskStatus) : Prop :=
  ∃ r ∈ rows, r.taskId = taskId ∧ r.status = status

def Sent (broker : List Message) (taskId : ℕ) : Prop := ∃ m ∈ broker, m.taskId = taskId

def AtWork (crew : List Worker) (taskId : ℕ) (phase : WorkerPhase) : Prop :=
  ∃ worker ∈ crew, worker.message.taskId = taskId ∧ worker.phase = phase

-- The log of a delivery is the task's, and RUNNING once the delivery has taken it
-- up; without a log there is none for the task.
structure Holds (rows : List ScoringLog) (worker : Worker) : Prop where
  unlogged : worker.log = none →
    worker.phase = .found ∧ ∀ r ∈ rows, r.taskId ≠ worker.message.taskId
  logged : ∀ id, worker.log = some id → ∃ r ∈ rows, r.id = id ∧
    r.taskId = worker.message.taskId ∧ (worker.phase ≠ .found → r.status = .running)

-- One delivery of a task at a time, on the task's one log.
structure Base (crew : List Worker) (rows : List ScoringLog) (broker : List Message)
    (nextTask nextTag : ℕ) : Prop where
  sole : SoleOwner owner crew
  unique : ∀ r ∈ rows, ∀ s ∈ rows, r.taskId = s.taskId → r = s
  tasks : ∀ r ∈ rows, r.taskId < nextTask
  sent : ∀ m ∈ broker, m.taskId < nextTask ∧ m.tag < nextTag
  tags : ∀ m ∈ broker, ∀ m' ∈ broker, m.tag = m'.tag → m = m'
  held : ∀ worker ∈ crew, worker.phase ≠ .done → worker.message ∈ broker
  holds : ∀ worker ∈ crew, worker.phase ≠ .done → Holds rows worker

section Bases

variable {crew : List Worker} {rows : List ScoringLog} {broker : List Message}
  {nextTask nextTag : ℕ}

theorem owner_eq_some {worker : Worker} {taskId : ℕ} :
    owner worker = some taskId ↔ worker.phase ≠ .done ∧ worker.message.taskId = taskId := by
  unfold owner
  split_ifs with h
  · simp [h]
  · simp [h]

-- The logs are rewritten in place; no RUNNING log is taken from a delivery.
theorem Base.map (h : Base crew rows broker nextTask nextTag) {f : ScoringLog → ScoringLog}
    (hid : ∀ r, (f r).id = r.id) (htask : ∀ r, (f r).taskId = r.taskId)
    (hkeep : ∀ r ∈ rows, r.status = .running → (f r).status = .running ∨
      ∀ worker ∈ crew, worker.phase ≠ .done → worker.phase ≠ .found → worker.log ≠ some r.id) :
    Base crew (rows.map f) broker nextTask nextTag := by
  refine ⟨h.sole, ?_, ?_, h.sent, h.tags, h.held, fun worker hw hwork => ?_⟩
  · intro r hr s hs heq
    obtain ⟨r₀, hr₀, rfl⟩ := List.mem_map.mp hr
    obtain ⟨s₀, hs₀, rfl⟩ := List.mem_map.mp hs
    rw [htask, htask] at heq
    rw [h.unique r₀ hr₀ s₀ hs₀ heq]
  · intro r hr
    obtain ⟨r₀, hr₀, rfl⟩ := List.mem_map.mp hr
    rw [htask]
    exact h.tasks r₀ hr₀
  · have hold := h.holds worker hw hwork
    refine ⟨fun hnone => ?_, fun id hlog => ?_⟩
    · obtain ⟨hfound, hno⟩ := hold.unlogged hnone
      refine ⟨hfound, fun r hr => ?_⟩
      obtain ⟨r₀, hr₀, rfl⟩ := List.mem_map.mp hr
      rw [htask]
      exact hno r₀ hr₀
    · obtain ⟨r, hr, hrid, hrtask, hrunning⟩ := hold.logged id hlog
      refine ⟨f r, List.mem_map_of_mem hr, (hid r).trans hrid, (htask r).trans hrtask,
        fun hphase => ?_⟩
      obtain hkept | hnobody := hkeep r hr (hrunning hphase)
      · exact hkept
      · exact absurd (hrid ▸ hlog) (hnobody worker hw hwork hphase)

theorem Base.send (h : Base crew rows broker nextTask nextTag) {taskId : ℕ}
    (htask : taskId < nextTask) (taskType : ScoringTask) (cc : Uuid) (retries : ℕ) :
    Base crew rows (broker ++ [⟨nextTag, taskId, taskType, cc, retries⟩]) nextTask
      (nextTag + 1) := by
  refine ⟨h.sole, h.unique, h.tasks, fun m hm => ?_, fun m hm m' hm' heq => ?_,
    fun worker hw hwork => List.mem_append_left _ (h.held worker hw hwork), h.holds⟩
  · obtain hm | hm := List.mem_append.mp hm
    · obtain ⟨hlt, htag⟩ := h.sent m hm
      exact ⟨hlt, by omega⟩
    · rw [List.mem_singleton.mp hm]
      exact ⟨htask, by simp⟩
  · obtain hm | hm := List.mem_append.mp hm
    · obtain hm' | hm' := List.mem_append.mp hm'
      · exact h.tags m hm m' hm' heq
      · obtain ⟨-, htag⟩ := h.sent m hm
        rw [List.mem_singleton.mp hm'] at heq
        simp only at heq
        omega
    · obtain hm' | hm' := List.mem_append.mp hm'
      · obtain ⟨-, htag⟩ := h.sent m' hm'
        rw [List.mem_singleton.mp hm] at heq
        simp only at heq
        omega
      · rw [List.mem_singleton.mp hm, List.mem_singleton.mp hm']

theorem Base.acknowledge (h : Base crew rows broker nextTask nextTag) {m : Message}
    (hfree : ∀ worker ∈ crew, worker.phase ≠ .done → worker.message.tag ≠ m.tag) :
    Base crew rows (broker.filter fun x => x.tag ≠ m.tag) nextTask nextTag := by
  refine ⟨h.sole, h.unique, h.tasks, fun x hx => h.sent x (List.mem_of_mem_filter hx),
    fun x hx y hy => h.tags x (List.mem_of_mem_filter hx) y (List.mem_of_mem_filter hy),
    fun worker hw hwork => ?_, h.holds⟩
  exact List.mem_filter.mpr ⟨h.held worker hw hwork, by simpa using hfree worker hw hwork⟩

theorem Base.addLog (h : Base crew rows broker nextTask nextTag) {log : ScoringLog} {next : ℕ}
    (hnext : nextTask ≤ next) (hlt : log.taskId < next)
    (hnone : ∀ r ∈ rows, r.taskId ≠ log.taskId)
    (hnobody : ∀ worker ∈ crew, worker.phase ≠ .done → worker.log = none →
      worker.message.taskId ≠ log.taskId) :
    Base crew (rows ++ [log]) broker next nextTag := by
  refine ⟨h.sole, fun r hr s hs heq => ?_, fun r hr => ?_, fun m hm => ?_, h.tags, h.held,
    fun worker hw hwork => ?_⟩
  · obtain hr | hr := List.mem_append.mp hr
    · obtain hs | hs := List.mem_append.mp hs
      · exact h.unique r hr s hs heq
      · rw [List.mem_singleton.mp hs] at heq
        exact absurd heq (hnone r hr)
    · obtain hs | hs := List.mem_append.mp hs
      · rw [List.mem_singleton.mp hr] at heq
        exact absurd heq.symm (hnone s hs)
      · rw [List.mem_singleton.mp hr, List.mem_singleton.mp hs]
  · obtain hr | hr := List.mem_append.mp hr
    · have hr_lt := h.tasks r hr
      omega
    · rw [List.mem_singleton.mp hr]
      exact hlt
  · obtain ⟨htask, htag⟩ := h.sent m hm
    exact ⟨by omega, htag⟩
  · have hold := h.holds worker hw hwork
    refine ⟨fun hlog => ?_, fun id hlog => ?_⟩
    · obtain ⟨hfound, hno⟩ := hold.unlogged hlog
      refine ⟨hfound, fun r hr => ?_⟩
      obtain hr | hr := List.mem_append.mp hr
      · exact hno r hr
      · rw [List.mem_singleton.mp hr]
        exact (hnobody worker hw hwork hlog).symm
    · obtain ⟨r, hr, hrest⟩ := hold.logged id hlog
      exact ⟨r, List.mem_append_left _ hr, hrest⟩

theorem Base.fresh (h : Base crew rows broker nextTask nextTag) :
    Base crew rows broker (nextTask + 1) nextTag := by
  refine ⟨h.sole, h.unique, fun r hr => ?_, fun m hm => ?_, h.tags, h.held, h.holds⟩
  · have hlt := h.tasks r hr
    omega
  · obtain ⟨hlt, htag⟩ := h.sent m hm
    exact ⟨by omega, htag⟩

theorem Base.setWorker (h : Base crew rows broker nextTask nextTag) {i : ℕ}
    {worker worker' : Worker} (hi : crew[i]? = some worker)
    (howner : ∀ k, owner worker' = some k → owner worker = some k ∨ ∀ x ∈ crew, owner x ≠ some k)
    (hheld : worker'.phase ≠ .done → worker'.message ∈ broker)
    (hholds : worker'.phase ≠ .done → Holds rows worker') :
    Base (crew.set i worker') rows broker nextTask nextTag := by
  refine ⟨h.sole.set hi howner, h.unique, h.tasks, h.sent, h.tags, fun x hx hwork => ?_,
    fun x hx hwork => ?_⟩
  · obtain rfl | hx := mem_of_mem_set hx
    · exact hheld hwork
    · exact h.held x hx hwork
  · obtain rfl | hx := mem_of_mem_set hx
    · exact hholds hwork
    · exact h.holds x hx hwork

theorem Base.advance (h : Base crew rows broker nextTask nextTag) {i : ℕ} {worker : Worker}
    (hi : crew[i]? = some worker) (hwork : worker.phase ≠ .done) (phase : WorkerPhase)
    (hholds : phase ≠ .done → Holds rows { worker with phase := phase }) :
    Base (crew.set i { worker with phase := phase }) rows broker nextTask nextTag := by
  refine h.setWorker hi (fun k hk => .inl ?_)
    (fun _ => h.held worker (List.mem_of_getElem? hi) hwork) hholds
  obtain ⟨-, htask⟩ := owner_eq_some.mp hk
  exact owner_eq_some.mpr ⟨hwork, htask⟩

theorem Base.hire (h : Base crew rows broker nextTask nextTag) {worker : Worker}
    (hsent : worker.message ∈ broker) (hholds : Holds rows worker)
    (hnobody : ∀ x ∈ crew, x.phase ≠ .done → x.message.taskId ≠ worker.message.taskId) :
    Base (crew ++ [worker]) rows broker nextTask nextTag := by
  refine ⟨h.sole.hire fun k hk x hx hxk => ?_, h.unique, h.tasks, h.sent, h.tags,
    fun x hx hwork => ?_, fun x hx hwork => ?_⟩
  · obtain ⟨-, rfl⟩ := owner_eq_some.mp hk
    obtain ⟨hxwork, hxtask⟩ := owner_eq_some.mp hxk
    exact hnobody x hx hxwork hxtask
  · obtain hx | hx := List.mem_append.mp hx
    · exact h.held x hx hwork
    · rw [List.mem_singleton.mp hx]
      exact hsent
  · obtain hx | hx := List.mem_append.mp hx
    · exact h.holds x hx hwork
    · rw [List.mem_singleton.mp hx]
      exact hholds

theorem Base.alone (h : Base crew rows broker nextTask nextTag) {i : ℕ} {worker x : Worker}
    (hi : crew[i]? = some worker) (hwork : worker.phase ≠ .done) (hx : x ∈ crew)
    (hxwork : x.phase ≠ .done) (htask : x.message.taskId = worker.message.taskId) :
    x = worker := by
  obtain ⟨j, hj⟩ := List.mem_iff_getElem?.mp hx
  have hij := h.sole i j worker x _ hi hj (owner_eq_some.mpr ⟨hwork, rfl⟩)
    (owner_eq_some.mpr ⟨hxwork, htask⟩)
  subst hij
  exact Option.some.inj (hj.symm.trans hi)

end Bases

-- Where a suspended task is: it has a message until it has stored its score, and is
-- SUCCESS from then on.
structure Watch (campaign : CampaignStatus) (crew : List Worker) (rows : List ScoringLog)
    (broker : List Message) (taskId : ℕ) (s : Suspension) : Prop where
  unresumed : s.resumed = false → s.executed = 0 ∧ campaign ≠ .active ∧
    (campaign = .paused → Row rows taskId .paused)
  alive : s.executed = 0 → s.resumed = true ∨ campaign = .paused → Sent broker taskId
  fresh : AtWork crew taskId .found ∨ AtWork crew taskId .running → s.executed = 0
  scored : AtWork crew taskId .scored → s.executed = 1
  once : s.executed ≤ 1
  ended : s.executed = 1 → AtWork crew taskId .scored ∨ Row rows taskId .success
  succeeded : Row rows taskId .success → s.executed = 1 ∨ (s.resumed = false ∧ campaign = .closed)

structure Inv (w : World) : Prop where
  base : Base w.crew w.logs.rows w.broker w.nextTask w.nextTag
  queued : ∀ taskId, Row w.logs.rows taskId .queued → Sent w.broker taskId
  known : ∀ taskId, w.suspension taskId ≠ none → taskId < w.nextTask
  watch : ∀ taskId s, w.suspension taskId = some s →
    Watch w.campaign w.crew w.logs.rows w.broker taskId s

-- PAUSED in a paused campaign, or DEAD by a closure or a cancellation.
def Blocked (w : World) (log : ScoringLog) : Prop :=
  (log.status = .paused ∧ w.campaign = .paused) ∨
    (log.status = .dead ∧ (log.errorMessage = some campaignClosedMessage ∨
      log.errorMessage = some DeterministicScoring.aiEvaluationSkippedErrorMessage))

-- The log on whose behalf a delivery takes a step.
def deliveredLog (w : World) : Event → Option Uuid
  | .deliver m => (w.getByTaskId m.taskId).map ScoringLog.id
  | .cancelDownstream i | .createLog i | .markRunning i | .skip i | .store i _ | .markSuccess i
  | .fail i _ _ | .lost i => w.crew[i]?.bind Worker.log
  | _ => none

-- A delivery for a blocked log computes no score, moves no stage and leaves the
-- log's status alone.
def Undisturbed (w : World) (event : Event) (t : World) : Prop :=
  ∀ log ∈ w.logs.rows, deliveredLog w event = some log.id → Blocked w log →
    t.scores = w.scores ∧ t.candidates = w.candidates ∧
      ∃ after ∈ t.logs.rows, after.id = log.id ∧ after.status = log.status

-- No message of the task is left and nobody works on it.
def Settled (w : World) (taskId : ℕ) : Prop :=
  ¬Sent w.broker taskId ∧ ∀ worker ∈ w.crew, owner worker ≠ some taskId

-- A suspended task does not run before the campaign is resumed, and runs exactly
-- once after that.
def RunsOnce (w : World) : Prop :=
  ∀ taskId s, w.suspension taskId = some s → (s.resumed = false → s.executed = 0) ∧
    (s.resumed = true → s.executed ≤ 1 ∧ (Settled w taskId → s.executed = 1))

def resumedTask (w : World) (taskId : ℕ) : Prop :=
  ∃ s, w.suspension taskId = some s ∧ s.resumed = true

def terminalOrWaiting (log : ScoringLog) : Prop := log.status ∉ [.queued, .running, .success]

-- What an enqueue, a delivery or a failure must not do.
def Careful (w : World) : Event → Prop
  | .enqueueDeterministic _ _ dispatched | .enqueueAiEvaluation _ dispatched
  | .enqueueCompositeScoring _ dispatched => dispatched = true
  | .enqueueSemantic cc dispatched => dispatched = true ∧
      ∀ log, w.getByIdempotencyKey (.semantic cc) = some log → terminalOrWaiting log →
        (∀ worker ∈ w.crew, worker.phase ≠ .done → worker.log ≠ some log.id) ∧
          (w.suspension log.taskId ≠ none → resumedTask w log.taskId)
  | .deliver m => ∀ worker ∈ w.crew, owner worker ≠ some m.taskId
  | .markRunning i => ∀ worker, w.crew[i]? = some worker →
      ∀ log ∈ w.logs.rows, worker.log = some log.id → ¬Blocked w log
  | .skip i => ∀ worker, w.crew[i]? = some worker → ¬resumedTask w worker.message.taskId
  | .fail i retried _ => ∀ worker, w.crew[i]? = some worker →
      (worker.phase = .scored → w.suspension worker.message.taskId = none) ∧
      (worker.phase = .found ∨ resumedTask w worker.message.taskId → retried = true ∨
        ∃ m ∈ w.broker, m.taskId = worker.message.taskId ∧ m.tag ≠ worker.message.tag)
  | .lost i => ∀ worker, w.crew[i]? = some worker → worker.phase = .scored →
      w.suspension worker.message.taskId = none
  | _ => True

section Watches

variable {campaign : CampaignStatus} {crew : List Worker} {rows : List ScoringLog}
  {broker : List Message} {taskId : ℕ} {s : Suspension}

theorem Watch.congr (h : Watch campaign crew rows broker taskId s) {crew' : List Worker}
    {rows' : List ScoringLog} {broker' : List Message}
    (hpaused : s.resumed = false → campaign = .paused → Row rows taskId .paused →
      Row rows' taskId .paused)
    (hsuccess : Row rows' taskId .success ↔ Row rows taskId .success)
    (hsent : Sent broker taskId → Sent broker' taskId)
    (hwork : ∀ phase, phase ≠ .done → (AtWork crew' taskId phase ↔ AtWork crew taskId phase)) :
    Watch campaign crew' rows' broker' taskId s := by
  refine ⟨fun hun => ?_, fun hnone hresumed => hsent (h.alive hnone hresumed), fun hat => ?_,
    fun hat => ?_, h.once, fun hone => ?_, fun hrow => h.succeeded (hsuccess.mp hrow)⟩
  · obtain ⟨hnone, hactive, hrow⟩ := h.unresumed hun
    exact ⟨hnone, hactive, fun hp => hpaused hun hp (hrow hp)⟩
  · rw [hwork .found (by simp), hwork .running (by simp)] at hat
    exact h.fresh hat
  · exact h.scored ((hwork .scored (by simp)).mp hat)
  · rw [hwork .scored (by simp)]
    exact (h.ended hone).imp id hsuccess.mpr

theorem Sent.mono {broker' : List Message} (h : Sent broker taskId) (hsub : broker ⊆ broker') :
    Sent broker' taskId := by
  obtain ⟨m, hm, htask⟩ := h
  exact ⟨m, hsub hm, htask⟩

theorem Row.append {log : ScoringLog} {status : TaskStatus} : Row (rows ++ [log]) taskId status ↔
      Row rows taskId status ∨ (log.taskId = taskId ∧ log.status = status) := by
  constructor
  · rintro ⟨r, hr, htask⟩
    obtain hr | hr := List.mem_append.mp hr
    · exact .inl ⟨r, hr, htask⟩
    · rw [List.mem_singleton.mp hr] at htask
      exact .inr htask
  · rintro (⟨r, hr, htask⟩ | htask)
    · exact ⟨r, List.mem_append_left _ hr, htask⟩
    · exact ⟨log, by simp, htask⟩

theorem Row.mark {selected : ScoringLog → Bool} {status status' : TaskStatus}
    {errorMessage : Option String} :
    Row (rows.map (withStatus selected status errorMessage)) taskId status' ↔
      (∃ r ∈ rows, r.taskId = taskId ∧ selected r = true ∧ status = status') ∨
      ∃ r ∈ rows, r.taskId = taskId ∧ selected r = false ∧ r.status = status' := by
  constructor
  · rintro ⟨r', hr', htask, hstatus⟩
    obtain ⟨r, hr, rfl⟩ := List.mem_map.mp hr'
    unfold withStatus at htask hstatus
    by_cases hsel : selected r = true
    · rw [if_pos hsel] at htask hstatus
      exact .inl ⟨r, hr, htask, hsel, hstatus⟩
    · rw [if_neg hsel] at htask hstatus
      exact .inr ⟨r, hr, htask, Bool.eq_false_iff.mpr hsel, hstatus⟩
  · rintro (⟨r, hr, htask, hsel, hstatus⟩ | ⟨r, hr, htask, hsel, hstatus⟩)
    · refine ⟨_, List.mem_map_of_mem hr, ?_, ?_⟩ <;> simp [withStatus, hsel, htask, hstatus]
    · refine ⟨_, List.mem_map_of_mem hr, ?_, ?_⟩ <;> simp [withStatus, hsel, htask, hstatus]

theorem withStatus_taskId (selected : ScoringLog → Bool) (status : TaskStatus)
    (errorMessage : Option String) (log : ScoringLog) :
    (withStatus selected status errorMessage log).taskId = log.taskId := by
  unfold withStatus
  split_ifs <;> rfl

theorem Base.mark {nextTask nextTag : ℕ} (h : Base crew rows broker nextTask nextTag)
    {selected : ScoringLog → Bool} (hsel : ∀ r ∈ rows, selected r = true → r.status ≠ .running)
    (status : TaskStatus) (errorMessage : Option String) :
    Base crew (rows.map (withStatus selected status errorMessage)) broker nextTask nextTag := by
  refine h.map (withStatus_id selected status errorMessage)
    (withStatus_taskId selected status errorMessage) fun r hr hrunning => .inl ?_
  unfold withStatus
  rw [if_neg fun hs => hsel r hr hs hrunning]
  exact hrunning

variable {i : ℕ} {worker worker' : Worker} {phase : WorkerPhase}

theorem atWork_set_ne (hi : crew[i]? = some worker) (hsame : worker'.message = worker.message)
    (hne : taskId ≠ worker.message.taskId) :
    AtWork (crew.set i worker') taskId phase ↔ AtWork crew taskId phase := by
  constructor
  · rintro ⟨x, hx, htask, hphase⟩
    obtain rfl | hx := mem_of_mem_set hx
    · rw [hsame] at htask
      exact absurd htask.symm hne
    · exact ⟨x, hx, htask, hphase⟩
  · exact fun hat => exists_mem_set hi hat fun h => absurd h.1.symm hne

-- Nobody else works on the task of a delivery that moves on.
theorem Base.atWork_set {nextTask nextTag : ℕ} (h : Base crew rows broker nextTask nextTag)
    (hi : crew[i]? = some worker) (hwork : worker.phase ≠ .done)
    (hat : AtWork (crew.set i worker') worker.message.taskId phase) (hphase : phase ≠ .done) :
    worker'.phase = phase := by
  obtain ⟨x, hx, htask, rfl⟩ := hat
  obtain ⟨j, hj⟩ := List.mem_iff_getElem?.mp hx
  obtain ⟨hlt, -⟩ := List.getElem?_eq_some_iff.mp hi
  by_cases hij : i = j
  · subst hij
    rw [List.getElem?_set_self hlt] at hj
    rw [Option.some.inj hj]
  · rw [List.getElem?_set_ne hij] at hj
    exact absurd (h.sole i j worker x _ hi hj (owner_eq_some.mpr ⟨hwork, rfl⟩)
      (owner_eq_some.mpr ⟨hphase, htask⟩)) hij

end Watches

end ScoringQueue

end AiHiring
