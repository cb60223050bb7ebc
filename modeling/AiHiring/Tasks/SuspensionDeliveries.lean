import AiHiring.Tasks.SuspensionQueue

namespace AiHiring

open Library

namespace ScoringQueue

open World

section Deliveries

variable {w : World}

theorem getByTaskId_some {taskId : ℕ} {log : ScoringLog} (h : w.getByTaskId taskId = some log) :
    log ∈ w.logs.rows ∧ log.taskId = taskId :=
  ⟨List.mem_of_find?_eq_some h, by simpa using List.find?_some h⟩

theorem getByTaskId_none {taskId : ℕ} (h : w.getByTaskId taskId = none) :
    ∀ r ∈ w.logs.rows, r.taskId ≠ taskId := by
  intro r hr
  simpa using List.find?_eq_none.mp h r hr

theorem Watch.unfinished {taskId : ℕ} {s : Suspension}
    (h : Watch w.campaign w.crew w.logs.rows w.broker taskId s)
    (hidle : ¬AtWork w.crew taskId .scored) (hrow : ¬Row w.logs.rows taskId .success) :
    s.executed = 0 := by
  have honce := h.once
  by_contra hne
  have hone : s.executed = 1 := by omega
  exact (h.ended hone).elim hidle hrow

theorem inv_acknowledge (h : Inv w) {m : Message} (hm : m ∈ w.broker)
    (hnobody : ∀ worker ∈ w.crew, owner worker ≠ some m.taskId)
    (hrow : Row w.logs.rows m.taskId .success) : Inv (w.acknowledge m) := by
  have hkept {x : Message} (hx : x ∈ w.broker) (htask : x.taskId ≠ m.taskId) :
      x ∈ (w.acknowledge m).broker := by
    refine List.mem_filter.mpr ⟨hx, ?_⟩
    simp only [ne_eq, decide_not, Bool.not_eq_true', decide_eq_false_iff_not]
    exact fun heq => htask (congrArg Message.taskId (h.base.tags x hx m hm heq))
  have hsent {taskId : ℕ} (hne : taskId ≠ m.taskId) (hsent : Sent w.broker taskId) :
      Sent (w.acknowledge m).broker taskId := by
    obtain ⟨x, hx, rfl⟩ := hsent
    exact ⟨x, hkept hx hne, rfl⟩
  refine ⟨h.base.acknowledge fun worker hw hwork heq => ?_, fun taskId hqueued => ?_, h.known,
    fun taskId s hs => ?_⟩
  · have hsame := h.base.tags _ (h.base.held worker hw hwork) m hm heq
    exact hnobody worker hw (owner_eq_some.mpr ⟨hwork, by rw [hsame]⟩)
  · refine hsent ?_ (h.queued taskId hqueued)
    rintro rfl
    obtain ⟨r, hr, htask, hstatus⟩ := hrow
    obtain ⟨r', hr', htask', hstatus'⟩ := hqueued
    obtain rfl := h.base.unique r hr r' hr' (htask.trans htask'.symm)
    rw [hstatus] at hstatus'
    exact TaskStatus.noConfusion hstatus'
  · have hold := h.watch taskId s hs
    refine ⟨hold.unresumed, fun hnone hresumed => ?_, hold.fresh, hold.scored, hold.once,
      hold.ended, hold.succeeded⟩
    refine hsent ?_ (hold.alive hnone hresumed)
    rintro rfl
    obtain hone | ⟨hun, hclosed⟩ := hold.succeeded hrow
    · omega
    · obtain hyes | hpaused := hresumed
      · rw [hun] at hyes
        exact Bool.noConfusion hyes
      · exact CampaignStatus.noConfusion (hclosed.symm.trans hpaused)

theorem inv_hire (h : Inv w) {m : Message} (hm : m ∈ w.broker) (log : Option Uuid)
    (hnobody : ∀ worker ∈ w.crew, owner worker ≠ some m.taskId)
    (hholds : Holds w.logs.rows ⟨m, log, .found⟩) (hrow : ¬Row w.logs.rows m.taskId .success) :
    Inv { w with crew := w.crew ++ [⟨m, log, .found⟩] } := by
  have hat (taskId : ℕ) (phase : WorkerPhase) (hne : taskId ≠ m.taskId ∨ phase ≠ .found) :
      AtWork (w.crew ++ [⟨m, log, .found⟩]) taskId phase ↔ AtWork w.crew taskId phase := by
    constructor
    · rintro ⟨x, hx, htask, hphase⟩
      obtain hx | hx := List.mem_append.mp hx
      · exact ⟨x, hx, htask, hphase⟩
      · rw [List.mem_singleton.mp hx] at htask hphase
        exact hne.elim (fun h => absurd htask.symm h) fun h => absurd hphase.symm h
    · rintro ⟨x, hx, hrest⟩
      exact ⟨x, List.mem_append_left _ hx, hrest⟩
  refine ⟨h.base.hire hm hholds fun x hx hwork htask => ?_, h.queued, h.known,
    fun taskId s hs => ?_⟩
  · exact hnobody x hx (owner_eq_some.mpr ⟨hwork, htask⟩)
  · have hold := h.watch taskId s hs
    by_cases htask : taskId = m.taskId
    · subst htask
      have hidle (phase : WorkerPhase) (hphase : phase ≠ .done) :
          ¬AtWork w.crew m.taskId phase := by
        rintro ⟨x, hx, hxtask, rfl⟩
        exact hnobody x hx (owner_eq_some.mpr ⟨hphase, hxtask⟩)
      refine ⟨hold.unresumed, hold.alive, fun _ => hold.unfinished (hidle .scored (by simp)) hrow,
        fun hscored => ?_, hold.once, fun hone => ?_, hold.succeeded⟩
      · rw [hat _ _ (.inr (by simp))] at hscored
        exact hold.scored hscored
      · rw [hat _ _ (.inr (by simp))]
        exact hold.ended hone
    · exact hold.congr (fun _ _ hp => hp) Iff.rfl (fun hsent => hsent)
        fun phase _ => hat taskId phase (.inl htask)

theorem inv_deliver (h : Inv w) {m : Message} {t : World} (hcare : Careful w (.deliver m))
    (hstep : w.next? (.deliver m) = some t) : Inv t := by
  simp only [next?] at hstep
  split_ifs at hstep with hin
  cases hfind : w.getByTaskId m.taskId with
  | none =>
    have hnone := getByTaskId_none hfind
    simp only [hfind, Option.some.injEq] at hstep
    subst hstep
    refine inv_hire h hin none hcare ⟨fun _ => ⟨rfl, hnone⟩, by simp⟩ ?_
    rintro ⟨r, hr, htask, -⟩
    exact hnone r hr htask
  | some log =>
    obtain ⟨hlog, htask⟩ := getByTaskId_some hfind
    simp only [hfind] at hstep
    split_ifs at hstep with hsuccess
    · cases hstep
      exact inv_acknowledge h hin hcare ⟨log, hlog, htask, hsuccess⟩
    · cases hstep
      refine inv_hire h hin (some log.id) hcare ⟨by simp, fun id hid => ?_⟩ ?_
      · exact ⟨log, hlog, Option.some.inj hid, htask, by simp⟩
      · rintro ⟨r, hr, hrtask, hrsuccess⟩
        obtain rfl := h.base.unique r hr log hlog (hrtask.trans htask.symm)
        exact hsuccess hrsuccess

theorem inv_createLog (h : Inv w) {i : ℕ} {worker : Worker} (hi : w.crew[i]? = some worker)
    (hphase : worker.phase = .found) (hlog : worker.log = none) :
    Inv ((w.createLog worker.message.taskId worker.message.taskType none
        worker.message.campaignCandidateId).setWorker i
      { worker with log := some w.logs.next }) := by
  let m := worker.message
  let log := newLog m.taskId m.taskType none m.campaignCandidateId w.logs.next
  have hmem := List.mem_of_getElem? hi
  have hwork : worker.phase ≠ .done := by simp [hphase]
  have hheld := h.base.held worker hmem hwork
  obtain ⟨hlt, -⟩ := h.base.sent m hheld
  obtain ⟨-, hnone⟩ := (h.base.holds worker hmem hwork).unlogged hlog
  -- the delivery steps aside while the log is created
  let idle : Worker := { worker with phase := .done }
  have hreleased : ∀ x ∈ w.crew.set i idle, owner x ≠ some m.taskId :=
    h.base.sole.released hi (owner_eq_some.mpr ⟨hwork, rfl⟩) (by simp [owner, idle])
  have hidle : Base (w.crew.set i idle) w.logs.rows w.broker w.nextTask w.nextTag :=
    h.base.advance hi hwork .done fun hne => absurd rfl hne
  have hadded : Base (w.crew.set i idle) (w.logs.rows ++ [log]) w.broker w.nextTask w.nextTag :=
    hidle.addLog (Nat.le_refl _) hlt hnone fun x hx hxwork _ htask =>
      hreleased x hx (owner_eq_some.mpr ⟨hxwork, htask⟩)
  obtain ⟨hlen, -⟩ := List.getElem?_eq_some_iff.mp hi
  have hbase : Base (w.crew.set i { worker with log := some w.logs.next })
      (w.logs.rows ++ [log]) w.broker w.nextTask w.nextTag := by
    rw [← List.set_set (l := w.crew) idle]
    refine hadded.setWorker (List.getElem?_set_self hlen) (fun k hk => .inr ?_)
      (fun _ => hheld) fun _ => ⟨by simp, fun id hid => ?_⟩
    · obtain ⟨-, rfl⟩ := owner_eq_some.mp hk
      exact hreleased
    · exact ⟨log, by simp, Option.some.inj hid, rfl, fun hne => absurd hphase hne⟩
  have hat (taskId : ℕ) (phase : WorkerPhase) :
      AtWork (w.crew.set i { worker with log := some w.logs.next }) taskId phase ↔
        AtWork w.crew taskId phase := by
    constructor
    · rintro ⟨x, hx, hrest⟩
      obtain rfl | hx := mem_of_mem_set hx
      · exact ⟨worker, hmem, hrest⟩
      · exact ⟨x, hx, hrest⟩
    · exact fun hat => exists_mem_set hi hat fun hrest => hrest
  refine ⟨hbase, fun taskId hrow => ?_, h.known, fun taskId s hs => ?_⟩
  · obtain hrow | ⟨rfl, -⟩ := Row.append.mp hrow
    · exact h.queued taskId hrow
    · exact ⟨m, hheld, rfl⟩
  · have hsuccess : Row (w.logs.rows ++ [log]) taskId .success ↔
        Row w.logs.rows taskId .success := by
      rw [Row.append]
      exact or_iff_left fun hnew => TaskStatus.noConfusion hnew.2
    exact (h.watch taskId s hs).congr (fun _ _ hrow => Row.append.mpr (.inl hrow)) hsuccess
      (fun hsent => hsent) fun phase _ => hat taskId phase

theorem Inv.row_iff (h : Inv w) {i : ℕ} {worker : Worker} (hi : w.crew[i]? = some worker)
    (hwork : worker.phase ≠ .done) {r : ScoringLog} (hr : r ∈ w.logs.rows) :
    worker.log = some r.id ↔ worker.log ≠ none ∧ r.taskId = worker.message.taskId := by
  have hholds := h.base.holds worker (List.mem_of_getElem? hi) hwork
  constructor
  · intro hlog
    obtain ⟨r', hr', hid, htask, -⟩ := hholds.logged r.id hlog
    obtain rfl := w.logs.eq_of_key_eq hr' hr hid
    exact ⟨by simp [hlog], htask⟩
  · rintro ⟨hsome, htask⟩
    obtain ⟨id, hid⟩ := Option.ne_none_iff_exists'.mp hsome
    obtain ⟨r', hr', hrid, hrtask, -⟩ := hholds.logged id hid
    obtain rfl := h.base.unique r' hr' r hr (hrtask.trans htask.symm)
    rw [hid, hrid]

theorem Inv.running (h : Inv w) {i : ℕ} {worker : Worker} (hi : w.crew[i]? = some worker)
    (hwork : worker.phase ≠ .done) (hfound : worker.phase ≠ .found) :
    worker.log ≠ none ∧ Row w.logs.rows worker.message.taskId .running := by
  have hholds := h.base.holds worker (List.mem_of_getElem? hi) hwork
  have hsome : worker.log ≠ none := fun hnone => hfound (hholds.unlogged hnone).1
  obtain ⟨id, hid⟩ := Option.ne_none_iff_exists'.mp hsome
  obtain ⟨r, hr, -, htask, hrunning⟩ := hholds.logged id hid
  exact ⟨hsome, r, hr, htask, hrunning hfound⟩

theorem Base.status_unique {crew : List Worker} {rows : List ScoringLog} {broker : List Message}
    {nextTask nextTag : ℕ} (h : Base crew rows broker nextTask nextTag) {taskId : ℕ}
    {status status' : TaskStatus} (hrow : Row rows taskId status) (hrow' : Row rows taskId status') :
    status = status' := by
  obtain ⟨r, hr, htask, rfl⟩ := hrow
  obtain ⟨r', hr', htask', rfl⟩ := hrow'
  rw [h.unique r hr r' hr' (htask.trans htask'.symm)]

theorem Inv.row_mark_log (h : Inv w) {i : ℕ} {worker : Worker} (hi : w.crew[i]? = some worker)
    (hwork : worker.phase ≠ .done) {id : Uuid} (hlog : worker.log = some id)
    {status status' : TaskStatus} {errorMessage : Option String} {taskId : ℕ} :
    Row (w.logs.rows.map (withStatus (fun log => log.id = id) status errorMessage)) taskId status' ↔
      if taskId = worker.message.taskId then status = status'
      else Row w.logs.rows taskId status' := by
  have hsel {r : ScoringLog} (hr : r ∈ w.logs.rows) :
      r.id = id ↔ r.taskId = worker.message.taskId := by
    have hiff := h.row_iff hi hwork hr
    rw [hlog, Option.some.injEq] at hiff
    exact eq_comm.trans (hiff.trans (and_iff_right (by simp)))
  obtain ⟨r₀, hr₀, hid₀, htask₀, -⟩ :=
    (h.base.holds worker (List.mem_of_getElem? hi) hwork).logged id hlog
  rw [Row.mark]
  split_ifs with htask
  · subst htask
    constructor
    · rintro (⟨-, -, -, -, heq⟩ | ⟨r, hr, hrtask, hnot, -⟩)
      · exact heq
      · rw [decide_eq_false_iff_not, hsel hr] at hnot
        exact absurd hrtask hnot
    · intro heq
      exact .inl ⟨r₀, hr₀, htask₀, decide_eq_true hid₀, heq⟩
  · constructor
    · rintro (⟨r, hr, rfl, hyes, -⟩ | ⟨r, hr, hrtask, -, heq⟩)
      · rw [decide_eq_true_iff, hsel hr] at hyes
        exact absurd hyes htask
      · exact ⟨r, hr, hrtask, heq⟩
    · rintro ⟨r, hr, rfl, heq⟩
      exact .inr ⟨r, hr, rfl, decide_eq_false fun hyes => htask ((hsel hr).mp hyes), heq⟩

theorem inv_markRunning (h : Inv w) {i : ℕ} {worker : Worker} (hi : w.crew[i]? = some worker)
    (hphase : worker.phase = .found) {id : Uuid} (hlog : worker.log = some id)
    (hfree : ∀ log ∈ w.logs.rows, worker.log = some log.id → ¬Blocked w log) :
    Inv ((w.mark (fun log => log.id = id) .running none).setWorker i
      { worker with phase := .running }) := by
  have hmem := List.mem_of_getElem? hi
  have hwork : worker.phase ≠ .done := by simp [hphase]
  have hrow (taskId : ℕ) (status : TaskStatus) := @Inv.row_mark_log w h i worker hi hwork id hlog
    .running status none taskId
  have hmarked : Base w.crew (w.logs.rows.map
      (withStatus (fun log => log.id = id) .running none)) w.broker w.nextTask w.nextTag := by
    refine h.base.map (withStatus_id _ _ _) (withStatus_taskId _ _ _) fun r hr hrunning =>
      .inl ?_
    unfold withStatus
    split_ifs
    · rfl
    · exact hrunning
  have hbase := hmarked.advance hi hwork .running fun _ => by
    refine ⟨fun hnone => ?_, fun id' hid' => ?_⟩
    · rw [hlog] at hnone
      simp at hnone
    · obtain ⟨r, hr, hrid, hrtask, -⟩ := (h.base.holds worker hmem hwork).logged id hlog
      have hsame : id = id' := Option.some.inj (hlog.symm.trans hid')
      refine ⟨_, List.mem_map_of_mem hr, (withStatus_id _ _ _ r).trans (hrid.trans hsame),
        (withStatus_taskId _ _ _ r).trans hrtask, fun _ => ?_⟩
      simp [withStatus, hrid]
  refine ⟨hbase, fun taskId hqueued => ?_, h.known, fun taskId s hs => ?_⟩
  · have hqueued := (hrow taskId .queued).mp hqueued
    split_ifs at hqueued
    · exact h.queued taskId hqueued
  · have hold := h.watch taskId s hs
    by_cases htask : taskId = worker.message.taskId
    · subst htask
      have hnone : s.executed = 0 := hold.fresh (.inl ⟨worker, hmem, rfl, hphase⟩)
      refine ⟨fun hun => ?_, hold.alive, fun _ => hnone, fun hat => ?_, hold.once, fun hone => ?_,
        fun hsuccess => ?_⟩
      · obtain ⟨-, hactive, hpaused⟩ := hold.unresumed hun
        refine ⟨hnone, hactive, fun hp => ?_⟩
        obtain ⟨r, hr, hrtask, hrpaused⟩ := hpaused hp
        have hrlog := (h.row_iff hi hwork hr).mpr ⟨by simp [hlog], hrtask⟩
        exact absurd (.inl ⟨hrpaused, hp⟩) (hfree r hr hrlog)
      · exact WorkerPhase.noConfusion (h.base.atWork_set hi hwork hat (by simp))
      · omega
      · have hsuccess := (hrow _ .success).mp hsuccess
        rw [if_pos rfl] at hsuccess
        exact TaskStatus.noConfusion hsuccess
    · refine hold.congr (fun _ _ hp => (hrow taskId .paused).mpr (by rwa [if_neg htask])) ?_
        (fun hsent => hsent) fun phase _ => atWork_set_ne hi rfl htask
      have hsuccess := hrow taskId .success
      rw [if_neg htask] at hsuccess
      exact hsuccess

theorem inv_store (h : Inv w) {i : ℕ} {worker : Worker} (hi : w.crew[i]? = some worker)
    (hphase : worker.phase = .running)
    (hgate : w.gateOpen worker.message.taskType worker.message.campaignCandidateId = true)
    (verdict : Verdict) :
    Inv ((w.store worker.message verdict).setWorker i { worker with phase := .scored }) := by
  have hmem := List.mem_of_getElem? hi
  have hwork : worker.phase ≠ .done := by simp [hphase]
  have hholds := h.base.holds worker hmem hwork
  obtain ⟨-, hrunning⟩ := h.running hi hwork (by simp [hphase])
  have hscoreable : w.campaign ≠ .closed := by
    intro hclosed
    unfold gateOpen at hgate
    cases hfind : w.candidates.find? worker.message.campaignCandidateId with
    | none => simp [hfind] at hgate
    | some candidate => simp [hfind, hclosed, scoreableCampaignStatuses] at hgate
  have hbase := h.base.advance hi hwork .scored fun _ =>
    ⟨fun hnone => absurd (hholds.unlogged hnone).1 (by simp [hphase]), fun id hid => by
      obtain ⟨r, hr, hrid, hrtask, hstatus⟩ := hholds.logged id hid
      exact ⟨r, hr, hrid, hrtask, fun _ => hstatus (by simp [hphase])⟩⟩
  have hknown (taskId : ℕ) (s : Suspension)
      (hs : (w.store worker.message verdict).suspension taskId = some s) :
      (taskId = worker.message.taskId ∧ ∃ old, w.suspension taskId = some old ∧
        s = { old with executed := old.executed + 1 }) ∨
      (taskId ≠ worker.message.taskId ∧ w.suspension taskId = some s) := by
    simp only [store] at hs
    by_cases htask : taskId = worker.message.taskId
    · subst htask
      rw [Function.update_self] at hs
      obtain ⟨old, hold, rfl⟩ := Option.map_eq_some_iff.mp hs
      exact .inl ⟨rfl, old, hold, rfl⟩
    · rw [Function.update_of_ne htask] at hs
      exact .inr ⟨htask, hs⟩
  refine ⟨hbase, h.queued, fun taskId hs => ?_, fun taskId s hs => ?_⟩
  · obtain ⟨s, hs⟩ := Option.ne_none_iff_exists'.mp hs
    obtain ⟨-, old, hold, -⟩ | ⟨-, hold⟩ := hknown taskId s hs
    · exact h.old hold
    · exact h.old hold
  · obtain ⟨rfl, old, hold, rfl⟩ | ⟨htask, hold⟩ := hknown taskId s hs
    · have hwatch := h.watch _ old hold
      have hnone : old.executed = 0 := hwatch.fresh (.inr ⟨worker, hmem, rfl, hphase⟩)
      have hresumed : old.resumed = true := by
        by_contra hun
        obtain ⟨-, hactive, hpaused⟩ := hwatch.unresumed (Bool.eq_false_iff.mpr hun)
        cases hcampaign : w.campaign with
        | active => exact hactive hcampaign
        | paused =>
          exact TaskStatus.noConfusion (h.base.status_unique (hpaused hcampaign) hrunning)
        | closed => exact hscoreable hcampaign
      have hscored : AtWork (w.crew.set i { worker with phase := .scored })
          worker.message.taskId .scored := ⟨_, mem_set_self hi, rfl, rfl⟩
      refine ⟨fun hun => ?_, fun hzero => ?_, fun hat => ?_, fun _ => ?_, ?_,
        fun _ => .inl hscored, fun _ => .inl ?_⟩
      · rw [hresumed] at hun
        exact Bool.noConfusion hun
      · simp only at hzero
        omega
      · obtain hat | hat := hat
        · exact WorkerPhase.noConfusion (h.base.atWork_set hi hwork hat (by simp))
        · exact WorkerPhase.noConfusion (h.base.atWork_set hi hwork hat (by simp))
      all_goals
        simp only
        omega
    · exact (h.watch taskId s hold).congr (fun _ _ hp => hp) Iff.rfl (fun hsent => hsent)
        fun phase _ => atWork_set_ne hi rfl htask

theorem Inv.released (h : Inv w) {i : ℕ} {worker : Worker} (hi : w.crew[i]? = some worker)
    (hwork : worker.phase ≠ .done) :
    ∀ x ∈ w.crew.set i { worker with phase := .done }, owner x ≠ some worker.message.taskId :=
  h.base.sole.released hi (owner_eq_some.mpr ⟨hwork, rfl⟩) (by simp [owner])

theorem finish_fields (w : World) (i : ℕ) (worker : Worker) (status : TaskStatus)
    (errorMessage : Option String) :
    let t := w.finish i worker status errorMessage
    t.crew = w.crew.set i { worker with phase := .done } ∧
      t.broker = w.broker.filter (fun x => x.tag ≠ worker.message.tag) ∧
      t.campaign = w.campaign ∧ t.suspension = w.suspension ∧ t.nextTask = w.nextTask ∧
      t.nextTag = w.nextTag ∧ t.scores = w.scores ∧ t.candidates = w.candidates ∧
      t.logs.rows = if worker.phase = .found then w.logs.rows else
        w.logs.rows.map (withStatus (fun log => some log.id = worker.log) status errorMessage) := by
  unfold finish
  split_ifs with hphase
  · exact ⟨rfl, rfl, rfl, rfl, rfl, rfl, rfl, rfl, rfl⟩
  · exact ⟨rfl, rfl, rfl, rfl, rfl, rfl, rfl, rfl, rfl⟩

theorem Inv.base_finish (h : Inv w) {i : ℕ} {worker : Worker} (hi : w.crew[i]? = some worker)
    (hwork : worker.phase ≠ .done) (status : TaskStatus) (errorMessage : Option String) :
    let t := w.finish i worker status errorMessage
    Base t.crew t.logs.rows t.broker t.nextTask t.nextTag := by
  obtain ⟨hcrew, hbroker, -, -, hnext, htag, -, -, hrows⟩ :=
    finish_fields w i worker status errorMessage
  have hreleased := h.released hi hwork
  have hidle := h.base.advance hi hwork .done fun hne => absurd rfl hne
  have hacked := hidle.acknowledge (m := worker.message) fun x hx hxwork heq => by
    have hsame := h.base.tags _ (hidle.held x hx hxwork) _
      (h.base.held worker (List.mem_of_getElem? hi) hwork) heq
    exact hreleased x hx (owner_eq_some.mpr ⟨hxwork, by rw [hsame]⟩)
  dsimp only
  rw [hcrew, hbroker, hnext, htag, hrows]
  split_ifs with hphase
  · exact hacked
  · refine hacked.map (withStatus_id _ _ _) (withStatus_taskId _ _ _) fun r hr hrunning => ?_
    by_cases hsel : some r.id = worker.log
    · refine .inr fun x hx hxwork _ hxlog => hreleased x hx (owner_eq_some.mpr ⟨hxwork, ?_⟩)
      obtain ⟨r', hr', hrid, hrtask, -⟩ := (hidle.holds x hx hxwork).logged r.id hxlog
      obtain rfl := w.logs.eq_of_key_eq hr' hr hrid
      exact hrtask.symm.trans ((h.row_iff hi hwork hr).mp hsel.symm).2
    · refine .inl ?_
      rw [withStatus, if_neg (by simpa using hsel)]
      exact hrunning

-- A delivery ends: what it leaves for the task has to be enough.
theorem inv_ended (h : Inv w) {i : ℕ} {worker : Worker} (hi : w.crew[i]? = some worker)
    (hwork : worker.phase ≠ .done) {status : TaskStatus} {errorMessage : Option String}
    (hstatus : status ≠ .queued)
    (hscored : worker.phase = .scored → status = .success ∨
      w.suspension worker.message.taskId = none)
    (hsuccess : worker.phase = .running → status = .success →
      ¬resumedTask w worker.message.taskId) {broker : List Message} {nextTag : ℕ}
    (hbase : Base (w.crew.set i { worker with phase := .done })
      (w.finish i worker status errorMessage).logs.rows broker w.nextTask nextTag)
    (hsub : (w.finish i worker status errorMessage).broker ⊆ broker)
    (hsent : worker.phase = .found ∨ (∃ s, w.suspension worker.message.taskId = some s ∧
      s.executed = 0 ∧ s.resumed = true) → Sent broker worker.message.taskId) :
    Inv { w.finish i worker status errorMessage with broker := broker, nextTag := nextTag } := by
  obtain ⟨hcrew, hbroker, hcampaign, hsuspension, hnext, -, -, -, hrows⟩ :=
    finish_fields w i worker status errorMessage
  have hmem := List.mem_of_getElem? hi
  have hheld := h.base.held worker hmem hwork
  have hother {taskId : ℕ} (hne : taskId ≠ worker.message.taskId) (hs : Sent w.broker taskId) :
      Sent broker taskId := by
    obtain ⟨m, hm, rfl⟩ := hs
    refine ⟨m, hsub ?_, rfl⟩
    rw [hbroker]
    refine List.mem_filter.mpr ⟨hm, ?_⟩
    simp only [ne_eq, decide_not, Bool.not_eq_true', decide_eq_false_iff_not]
    exact fun heq => hne (congrArg Message.taskId (h.base.tags m hm _ hheld heq))
  have hrow (taskId : ℕ) (status' : TaskStatus) :
      Row (w.finish i worker status errorMessage).logs.rows taskId status' ↔
        if worker.phase ≠ .found ∧ taskId = worker.message.taskId then status = status'
        else Row w.logs.rows taskId status' := by
    rw [hrows]
    by_cases hphase : worker.phase = .found
    · rw [if_pos hphase, if_neg fun hand => hand.1 hphase]
    · obtain ⟨hsome, -⟩ := h.running hi hwork hphase
      obtain ⟨id, hid⟩ := Option.ne_none_iff_exists'.mp hsome
      have hsel : (fun log : ScoringLog => decide (some log.id = worker.log)) =
          fun log => decide (log.id = id) := by
        funext log
        rw [hid]
        simp
      rw [if_neg hphase, hsel, h.row_mark_log hi hwork hid]
      simp [hphase]
  have hclosed {s : Suspension} (hs : w.suspension worker.message.taskId = some s)
      (hphase : worker.phase ≠ .found) (hun : s.resumed = false) : w.campaign = .closed := by
    obtain ⟨-, hactive, hpaused⟩ := (h.watch _ s hs).unresumed hun
    obtain ⟨-, hrunning⟩ := h.running hi hwork hphase
    cases hc : w.campaign with
    | active => exact absurd hc hactive
    | paused => exact TaskStatus.noConfusion (h.base.status_unique (hpaused hc) hrunning)
    | closed => rfl
  refine ⟨by simpa only [hcrew, hnext] using hbase, fun taskId hqueued => ?_, fun taskId hs => ?_,
    fun taskId s hs => ?_⟩
  · have hqueued := (hrow taskId .queued).mp hqueued
    split_ifs at hqueued with hand
    · exact absurd hqueued hstatus
    · by_cases htask : taskId = worker.message.taskId
      · subst htask
        exact hsent (.inl (not_not.mp fun hne => hand ⟨hne, rfl⟩))
      · exact hother htask (h.queued taskId hqueued)
  · have hs' : w.suspension taskId ≠ none := hsuspension ▸ hs
    simpa only [hnext] using h.known taskId hs'
  · have hs : w.suspension taskId = some s := hsuspension ▸ hs
    have hold := h.watch taskId s hs
    simp only [hcrew, hcampaign]
    by_cases htask : taskId = worker.message.taskId
    · subst htask
      have hnobody (phase : WorkerPhase) (hphase : phase ≠ .done) : ¬AtWork
          (w.crew.set i { worker with phase := .done }) worker.message.taskId phase := by
        rintro ⟨x, hx, hxtask, rfl⟩
        exact h.released hi hwork x hx (owner_eq_some.mpr ⟨hphase, hxtask⟩)
      refine ⟨fun hun => ?_, fun hnone hresumed => ?_, fun hat => ?_, fun hat => ?_, hold.once,
        fun hone => .inr ?_, fun hdone => ?_⟩
      · obtain ⟨hnone, hactive, hpaused⟩ := hold.unresumed hun
        refine ⟨hnone, hactive, fun hp => ?_⟩
        rw [hrow]
        by_cases hphase : worker.phase = .found
        · rw [if_neg fun hand => hand.1 hphase]
          exact hpaused hp
        · exact CampaignStatus.noConfusion (hp.symm.trans (hclosed hs hphase hun))
      · by_cases hphase : worker.phase = .found
        · exact hsent (.inl hphase)
        · refine hsent (.inr ⟨s, hs, hnone, ?_⟩)
          by_contra hun
          have hshut := hclosed hs hphase (Bool.eq_false_iff.mpr hun)
          exact CampaignStatus.noConfusion ((hresumed.resolve_left hun).symm.trans hshut)
      · exact absurd hat (not_or.mpr ⟨hnobody .found (by simp), hnobody .running (by simp)⟩)
      · exact absurd hat (hnobody .scored (by simp))
      · rw [hrow]
        cases hphase : worker.phase with
        | found =>
          rw [if_neg (by simp)]
          have hzero := hold.fresh (.inl ⟨worker, hmem, rfl, hphase⟩)
          omega
        | running =>
          have hzero := hold.fresh (.inr ⟨worker, hmem, rfl, hphase⟩)
          omega
        | scored =>
          rw [if_pos ⟨by simp, rfl⟩]
          exact (hscored hphase).resolve_right (by simp [hs])
        | done => exact absurd hphase hwork
      · have hdone := (hrow _ .success).mp hdone
        cases hphase : worker.phase with
        | found =>
          rw [if_neg (by simp [hphase])] at hdone
          exact hold.succeeded hdone
        | running =>
          rw [if_pos ⟨by simp [hphase], rfl⟩] at hdone
          have hun : s.resumed = false := by
            by_contra hyes
            exact hsuccess hphase hdone ⟨s, hs, Bool.eq_true_of_not_eq_false hyes⟩
          exact .inr ⟨hun, hclosed hs (by simp [hphase]) hun⟩
        | scored => exact .inl (hold.scored ⟨worker, hmem, rfl, hphase⟩)
        | done => exact absurd hphase hwork
    · have hkept (status' : TaskStatus) :=
        (hrow taskId status').trans (by rw [if_neg fun hand => htask hand.2])
      exact hold.congr (fun _ _ hp => (hkept .paused).mpr hp) (hkept .success) (hother htask)
        fun phase _ => atWork_set_ne hi rfl htask

theorem inv_lost (h : Inv w) {i : ℕ} {worker : Worker} (hi : w.crew[i]? = some worker)
    (hwork : worker.phase ≠ .done)
    (hscored : worker.phase = .scored → w.suspension worker.message.taskId = none) :
    Inv (w.setWorker i { worker with phase := .done }) := by
  refine ⟨h.base.advance hi hwork .done fun hne => absurd rfl hne, h.queued, h.known,
    fun taskId s hs => ?_⟩
  have hold := h.watch taskId s hs
  by_cases htask : taskId = worker.message.taskId
  · subst htask
    have hnobody (phase : WorkerPhase) (hphase : phase ≠ .done) : ¬AtWork
        (w.crew.set i { worker with phase := .done }) worker.message.taskId phase := by
      rintro ⟨x, hx, hxtask, rfl⟩
      exact h.released hi hwork x hx (owner_eq_some.mpr ⟨hphase, hxtask⟩)
    refine ⟨hold.unresumed, hold.alive, fun hat => ?_, fun hat => ?_, hold.once, fun hone => ?_,
      hold.succeeded⟩
    · exact absurd hat (not_or.mpr ⟨hnobody .found (by simp), hnobody .running (by simp)⟩)
    · exact absurd hat (hnobody .scored (by simp))
    · refine (hold.ended hone).imp (fun hat => ?_) id
      obtain ⟨x, hx, hxtask, hxphase⟩ := hat
      obtain rfl := h.base.alone hi hwork hx (by simp [hxphase]) hxtask
      have hs' : w.suspension x.message.taskId = some s := hs
      exact absurd (hscored hxphase) (by simp [hs'])
  · exact hold.congr (fun _ _ hp => hp) Iff.rfl (fun hsent => hsent)
      fun phase _ => atWork_set_ne hi rfl htask

end Deliveries

end ScoringQueue

end AiHiring
