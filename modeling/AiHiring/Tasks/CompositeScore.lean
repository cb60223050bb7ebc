import Mathlib.Data.Rat.Floor
import AiHiring.Library.Run
import AiHiring.Pipeline.Model

namespace AiHiring

open Library

inductive TaskStatus where
  | queued
  | running
  | success
  | failure
  | retry
  | paused
  | dead
  deriving DecidableEq, Repr

namespace CompositeScoring

-- What `validate_inputs` lets through: weights that sum to 100 and scores in
-- their ranges, each of which may be missing.
structure ScoreInputs where
  (deterministicScore semanticScore effectiveAiScore : Option ℚ)
  (weightDeterministic weightSemantic weightAi : ℚ)
  weightsSum : weightDeterministic + weightSemantic + weightAi = 100
  deterministicRange : ∀ q ∈ deterministicScore, 0 ≤ q ∧ q ≤ 100
  semanticRange : ∀ q ∈ semanticScore, 0 ≤ q ∧ q ≤ 1
  aiRange : ∀ q ∈ effectiveAiScore, 0 ≤ q ∧ q ≤ 100

-- `Decimal.quantize(0.01, ROUND_HALF_UP)`: ties go away from zero.
def roundCompositeScore (value : ℚ) : ℚ :=
  if 0 ≤ value then (⌊value * 100 + 1 / 2⌋ : ℚ) / 100 else (⌈value * 100 - 1 / 2⌉ : ℚ) / 100

-- A missing component counts as 0; the weights are used as configured.
def calculateScore (i : ScoreInputs) : ℚ :=
  i.weightDeterministic / 100 * i.deterministicScore.getD 0 +
    i.weightSemantic / 100 * (i.semanticScore.map (· * 100)).getD 0 +
    i.weightAi / 100 * i.effectiveAiScore.getD 0

def compositeScore (i : ScoreInputs) : ℚ := roundCompositeScore (calculateScore i)

-- How far the worker of a log has come; it holds the inputs from its read to
-- its write.
inductive Phase where
  | queued
  | running
  | read (inputs : ScoreInputs)
  | written
  | success

def Phase.status : Phase → TaskStatus
  | queued => .queued
  | running | read _ | written => .running
  | success => .success

def Phase.active (phase : Phase) : Bool :=
  phase.status = .queued ∨ phase.status = .running

structure TaskLog where
  id : Uuid
  phase : Phase

-- One candidate. `pending` counts the changes whose `_enqueue_composite_scoring`
-- has not looked at the logs yet, `passed` the calls that found none in flight
-- and have not created theirs; `scoredFrom` remembers what was scored.
structure World where
  inputs : ScoreInputs
  score : Option ℚ
  scoredFrom : Option ScoreInputs
  logs : Table TaskLog TaskLog.id
  (pending passed : ℕ)

inductive Action where
  | change (inputs : ScoreInputs)
  | check
  | create
  | markRunning (id : Uuid)
  | read (id : Uuid)
  | write (id : Uuid)
  | markSuccess (id : Uuid)

namespace World

def alreadyQueued (s : World) : Bool := s.logs.rows.any fun log => log.phase.active

def phaseOf (s : World) (id : Uuid) : Option Phase := (s.logs.find? id).map TaskLog.phase

def setPhase (s : World) (id : Uuid) (phase : Phase) : World :=
  { s with logs := s.logs.replace ⟨id, phase⟩ }

def next? (s : World) : Action → Option World
  | .change inputs => some { s with inputs := inputs, pending := s.pending + 1 }
  | .check =>
    if s.pending = 0 then none
    else if s.alreadyQueued then some { s with pending := s.pending - 1 }
    else some { s with pending := s.pending - 1, passed := s.passed + 1 }
  | .create =>
    if s.passed = 0 then none
    else some { s with
      passed := s.passed - 1
      logs := s.logs.insert (fun id => ⟨id, .queued⟩) fun _ => rfl }
  | .markRunning id =>
    match s.phaseOf id with
    | some .queued => some (s.setPhase id .running)
    | _ => none
  | .read id =>
    match s.phaseOf id with
    | some .running => some (s.setPhase id (.read s.inputs))
    | _ => none
  | .write id =>
    match s.phaseOf id with
    | some (.read inputs) =>
      some { s.setPhase id .written with
        score := some (compositeScore inputs), scoredFrom := some inputs }
    | _ => none
  | .markSuccess id =>
    match s.phaseOf id with
    | some .written => some (s.setPhase id .success)
    | _ => none

def Step (s : World) (action : Action) (t : World) : Prop := s.next? action = some t

def Idle (s : World) : Prop := s.alreadyQueued = false

def Current (s : World) : Prop := s.score = some (compositeScore s.inputs)

-- The calls of `_enqueue_composite_scoring` that changes still have to make.
def outstanding (s : World) : ℕ := s.pending + s.passed

end World

-- A worker in this phase will still write what these inputs say.
def Phase.Carries (inputs : ScoreInputs) : Phase → Prop
  | queued | running => True
  | read i => compositeScore i = compositeScore inputs
  | written | success => False

namespace World

def Carried (s : World) : Prop := ∃ log ∈ s.logs.rows, log.phase.Carries s.inputs

def CarriedBeside (s : World) (id : Uuid) : Prop :=
  ∃ log ∈ s.logs.rows, log.id ≠ id ∧ log.phase.Carries s.inputs

variable (s t : World)

variable (action : Action) (id : Uuid)

theorem phaseOf_eq_some (phase : Phase) :
    s.phaseOf id = some phase ↔ ⟨id, phase⟩ ∈ s.logs.rows := by
  simp only [phaseOf, Option.map_eq_some_iff, Table.find?_eq_some]
  constructor
  · rintro ⟨log, ⟨hlog, rfl⟩, rfl⟩
    exact hlog
  · intro h
    exact ⟨_, ⟨h, rfl⟩, rfl⟩

theorem mem_setPhase (old phase : Phase) (hold : s.phaseOf id = some old) (log : TaskLog) :
    log ∈ (s.setPhase id phase).logs.rows ↔
      log = ⟨id, phase⟩ ∨ log ∈ s.logs.rows ∧ log.id ≠ id := by
  have hmem := (s.phaseOf_eq_some id old).mp hold
  rw [setPhase, Table.mem_replace]
  constructor
  · intro h
    rcases h with h | ⟨h, -⟩
    · exact .inr h
    · exact .inl h
  · intro h
    rcases h with h | h
    · exact .inr ⟨h, _, hmem, rfl⟩
    · exact .inl h

theorem idle_iff : s.Idle ↔ ∀ log ∈ s.logs.rows, log.phase.active = false := by
  simp [Idle, alreadyQueued]

theorem idle_setPhase (old phase : Phase) (hold : s.phaseOf id = some old) :
    (s.setPhase id phase).Idle ↔
      phase.active = false ∧ ∀ log ∈ s.logs.rows, log.id ≠ id → log.phase.active = false := by
  rw [idle_iff]
  constructor
  · intro h
    constructor
    · exact h ⟨id, phase⟩ ((s.mem_setPhase id old phase hold _).mpr (.inl rfl))
    · intro log hlog hid
      exact h log ((s.mem_setPhase id old phase hold log).mpr (.inr ⟨hlog, hid⟩))
  · rintro ⟨hphase, hrest⟩ log hlog
    rcases (s.mem_setPhase id old phase hold log).mp hlog with rfl | ⟨hlog, hid⟩
    · exact hphase
    · exact hrest log hlog hid

theorem carried_setPhase (old phase : Phase) (hold : s.phaseOf id = some old) :
    (s.setPhase id phase).Carried ↔ phase.Carries s.inputs ∨ s.CarriedBeside id := by
  constructor
  · rintro ⟨log, hlog, hcarries⟩
    rcases (s.mem_setPhase id old phase hold log).mp hlog with rfl | ⟨hlog, hid⟩
    · exact .inl hcarries
    · exact .inr ⟨log, hlog, hid, hcarries⟩
  · intro h
    rcases h with h | ⟨log, hlog, hid, hcarries⟩
    · exact ⟨⟨id, phase⟩, (s.mem_setPhase id old phase hold _).mpr (.inl rfl), h⟩
    · exact ⟨log, (s.mem_setPhase id old phase hold log).mpr (.inr ⟨hlog, hid⟩), hcarries⟩

theorem carried_iff (old : Phase) (hold : s.phaseOf id = some old) :
    s.Carried ↔ old.Carries s.inputs ∨ s.CarriedBeside id := by
  have hmem := (s.phaseOf_eq_some id old).mp hold
  constructor
  · rintro ⟨log, hlog, hcarries⟩
    by_cases hid : log.id = id
    · have hsame : log = ⟨id, old⟩ := s.logs.eq_of_key_eq hlog hmem hid
      rw [hsame] at hcarries
      exact .inl hcarries
    · exact .inr ⟨log, hlog, hid, hcarries⟩
  · intro h
    rcases h with h | ⟨log, hlog, -, hcarries⟩
    · exact ⟨⟨id, old⟩, hmem, h⟩
    · exact ⟨log, hlog, hcarries⟩

theorem step_change (inputs : ScoreInputs) :
    s.Step (.change inputs) t ↔ t = { s with inputs := inputs, pending := s.pending + 1 } := by
  simp [Step, next?, eq_comm]

theorem step_check : s.Step .check t ↔ 0 < s.pending ∧
      t = if s.alreadyQueued then { s with pending := s.pending - 1 }
        else { s with pending := s.pending - 1, passed := s.passed + 1 } := by
  rw [Step, next?]
  by_cases hpending : s.pending = 0
  · simp [hpending]
  · have hpos : 0 < s.pending := by omega
    by_cases hqueued : s.alreadyQueued <;> simp [hpending, hpos, hqueued, eq_comm]

theorem step_create :
    s.Step .create t ↔ 0 < s.passed ∧ t = { s with
      passed := s.passed - 1
      logs := s.logs.insert (fun id => ⟨id, .queued⟩) fun _ => rfl } := by
  rw [Step, next?]
  by_cases hpassed : s.passed = 0
  · simp [hpassed]
  · have hpos : 0 < s.passed := by omega
    simp [hpassed, hpos, eq_comm]

theorem step_markRunning :
    s.Step (.markRunning id) t ↔ s.phaseOf id = some .queued ∧ t = s.setPhase id .running := by
  rw [Step, next?]
  rcases s.phaseOf id with _ | ⟨_ | _ | _ | _ | _⟩ <;> simp [eq_comm]

theorem step_read :
    s.Step (.read id) t ↔ s.phaseOf id = some .running ∧ t = s.setPhase id (.read s.inputs) := by
  rw [Step, next?]
  rcases s.phaseOf id with _ | ⟨_ | _ | _ | _ | _⟩ <;> simp [eq_comm]

theorem step_write :
    s.Step (.write id) t ↔ ∃ inputs, s.phaseOf id = some (.read inputs) ∧
      t = { s.setPhase id .written with
        score := some (compositeScore inputs), scoredFrom := some inputs } := by
  rw [Step, next?]
  rcases s.phaseOf id with _ | ⟨_ | _ | _ | _ | _⟩ <;> simp [eq_comm]

theorem step_markSuccess :
    s.Step (.markSuccess id) t ↔ s.phaseOf id = some .written ∧ t = s.setPhase id .success := by
  rw [Step, next?]
  rcases s.phaseOf id with _ | ⟨_ | _ | _ | _ | _⟩ <;> simp [eq_comm]

def Scored (s : World) : Prop := s.score = s.scoredFrom.map compositeScore

theorem scored_step (hs : s.Scored) (h : s.Step action t) : t.Scored := by
  cases action with
  | change inputs => exact ((s.step_change t inputs).mp h) ▸ hs
  | check =>
    obtain ⟨-, rfl⟩ := (s.step_check t).mp h
    split_ifs <;> exact hs
  | create => exact ((s.step_create t).mp h).2 ▸ hs
  | markRunning id => exact ((s.step_markRunning t id).mp h).2 ▸ hs
  | read id => exact ((s.step_read t id).mp h).2 ▸ hs
  | write id =>
    obtain ⟨inputs, -, rfl⟩ := (s.step_write t id).mp h
    rfl
  | markSuccess id => exact ((s.step_markSuccess t id).mp h).2 ▸ hs

-- A change that commits with no log in flight leaves the score as it is; the
-- last log in flight ends when the inputs last scored score as the ones now.
def Keeps (s : World) : Action → Prop
  | .change inputs => s.Idle → compositeScore inputs = compositeScore s.inputs
  | .markSuccess id =>
    (∀ log ∈ s.logs.rows, log.id ≠ id → log.phase.active = false) →
      s.scoredFrom.map compositeScore = some (compositeScore s.inputs)
  | _ => True

theorem idle_current_step_iff (hscored : s.Scored) (hs : s.Idle → s.Current)
    (h : s.Step action t) : (t.Idle → t.Current) ↔ s.Keeps action := by
  -- a log that stays in flight leaves nothing to show
  have hbusy (hphase : ¬t.Idle) : (t.Idle → t.Current) ↔ True :=
    iff_of_true (fun hidle => absurd hidle hphase) trivial
  cases action with
  | change inputs =>
    obtain rfl := (s.step_change t inputs).mp h
    constructor
    · intro hnew hidle
      have hnow := hs hidle
      exact Option.some.inj ((hnew hidle).symm.trans hnow)
    · intro hsame hidle
      exact (hs hidle).trans (congrArg some (hsame hidle).symm)
  | check =>
    obtain ⟨-, rfl⟩ := (s.step_check t).mp h
    refine iff_of_true ?_ trivial
    split_ifs <;> exact hs
  | create =>
    obtain ⟨-, rfl⟩ := (s.step_create t).mp h
    apply hbusy
    rw [idle_iff]
    intro hidle
    have hnew := hidle ⟨s.logs.next, .queued⟩ (by simp)
    simp [Phase.active, Phase.status] at hnew
  | markRunning id =>
    obtain ⟨hphase, rfl⟩ := (s.step_markRunning t id).mp h
    apply hbusy
    rw [s.idle_setPhase id .queued .running hphase]
    exact fun hidle => absurd hidle.1 (by decide)
  | read id =>
    obtain ⟨hphase, rfl⟩ := (s.step_read t id).mp h
    apply hbusy
    rw [s.idle_setPhase id .running _ hphase]
    exact fun hidle => absurd hidle.1 (by simp [Phase.active, Phase.status])
  | write id =>
    obtain ⟨inputs, hphase, rfl⟩ := (s.step_write t id).mp h
    apply hbusy
    intro hidle
    have hwritten := ((s.idle_setPhase id _ .written hphase).mp hidle).1
    exact absurd hwritten (by decide)
  | markSuccess id =>
    obtain ⟨hphase, rfl⟩ := (s.step_markSuccess t id).mp h
    have hidle := s.idle_setPhase id .written .success hphase
    have hcurrent : (s.setPhase id .success).Current ↔
        s.scoredFrom.map compositeScore = some (compositeScore s.inputs) := by
      rw [← show s.score = s.scoredFrom.map compositeScore from hscored]
      rfl
    rw [hidle, hcurrent, and_iff_right (by decide)]
    rfl

-- What a call that skips and a worker that writes an old score must leave
-- behind: the score of the inputs, a log that will write it, or another call.
def Lossless (s : World) : Action → Prop
  | .check => s.alreadyQueued = true → s.Current ∨ s.Carried ∨ 1 < s.outstanding
  | .write id => ∀ inputs, s.phaseOf id = some (.read inputs) →
      compositeScore inputs = compositeScore s.inputs ∨ s.CarriedBeside id ∨ 0 < s.outstanding
  | _ => True

def Accounted (s : World) : Prop := s.Current ∨ s.Carried ∨ 0 < s.outstanding

theorem accounted_setPhase (old phase : Phase) (hold : s.phaseOf id = some old)
    (hcarries : old.Carries s.inputs → phase.Carries s.inputs) (hs : s.Accounted) :
    (s.setPhase id phase).Accounted := by
  rcases hs with hcurrent | hcarried | hcall
  · exact .inl hcurrent
  · refine .inr (.inl ?_)
    rw [s.carried_setPhase id old phase hold]
    exact ((s.carried_iff id old hold).mp hcarried).imp_left hcarries
  · exact .inr (.inr hcall)

theorem accounted_step (hs : s.Accounted) (hkeep : s.Lossless action)
    (h : s.Step action t) : t.Accounted := by
  cases action with
  | change inputs =>
    obtain rfl := (s.step_change t inputs).mp h
    have hcall : 0 < s.pending + 1 + s.passed := by omega
    exact .inr (.inr hcall)
  | check =>
    obtain ⟨hpending, rfl⟩ := (s.step_check t).mp h
    by_cases hqueued : s.alreadyQueued = true
    · rw [if_pos hqueued]
      rcases hkeep hqueued with hcurrent | hcarried | hcalls
      · exact .inl hcurrent
      · exact .inr (.inl hcarried)
      · have hcall : 0 < s.pending - 1 + s.passed := by
          rw [outstanding] at hcalls
          omega
        exact .inr (.inr hcall)
    · rw [if_neg hqueued]
      have hcall : 0 < s.pending - 1 + (s.passed + 1) := by omega
      exact .inr (.inr hcall)
  | create =>
    obtain ⟨-, rfl⟩ := (s.step_create t).mp h
    exact .inr (.inl ⟨⟨s.logs.next, .queued⟩, by simp, trivial⟩)
  | markRunning id =>
    obtain ⟨hphase, rfl⟩ := (s.step_markRunning t id).mp h
    exact s.accounted_setPhase id .queued .running hphase (fun _ => trivial) hs
  | read id =>
    obtain ⟨hphase, rfl⟩ := (s.step_read t id).mp h
    have hread : (Phase.read s.inputs).Carries s.inputs := rfl
    exact s.accounted_setPhase id .running _ hphase (fun _ => hread) hs
  | write id =>
    obtain ⟨inputs, hphase, rfl⟩ := (s.step_write t id).mp h
    rcases hkeep inputs hphase with hsame | hbeside | hcall
    · exact .inl (congrArg some hsame)
    · exact .inr (.inl ((s.carried_setPhase id _ .written hphase).mpr (.inr hbeside)))
    · exact .inr (.inr hcall)
  | markSuccess id =>
    obtain ⟨hphase, rfl⟩ := (s.step_markSuccess t id).mp h
    exact s.accounted_setPhase id .written .success hphase (fun hold => hold.elim) hs

theorem not_idle_of_carried (hs : s.Carried) : ¬s.Idle := by
  obtain ⟨log, hlog, hcarries⟩ := hs
  intro hidle
  have hactive := s.idle_iff.mp hidle log hlog
  cases hphase : log.phase with
  | queued => rw [hphase] at hactive; exact absurd hactive (by decide)
  | running => rw [hphase] at hactive; exact absurd hactive (by decide)
  | read i => rw [hphase] at hactive; exact absurd hactive (by simp [Phase.active, Phase.status])
  | written => exact (hphase ▸ hcarries : Phase.Carries s.inputs .written)
  | success => exact (hphase ▸ hcarries : Phase.Carries s.inputs .success)

-- Where a run starts: the score is the one of the inputs, or a log in flight
-- will write it.
structure Start (s : World) : Prop where
  scored : s.Scored
  settled : s.Current ∨ s.Carried

end World

open World

def deterministicOnly (score : ℚ) (h : 0 ≤ score ∧ score ≤ 100) : ScoreInputs where
  deterministicScore := some score
  semanticScore := none
  effectiveAiScore := none
  weightDeterministic := 50
  weightSemantic := 30
  weightAi := 20
  weightsSum := by norm_num
  deterministicRange := by simpa using h
  semanticRange := by simp
  aiRange := by simp

def scoredWorld (inputs : ScoreInputs) : World where
  inputs := inputs
  score := some (compositeScore inputs)
  scoredFrom := some inputs
  logs := Table.empty
  pending := 0
  passed := 0

theorem scoredWorld_start (inputs : ScoreInputs) : (scoredWorld inputs).Start :=
  ⟨rfl, .inl rfl⟩

def first : ScoreInputs := deterministicOnly 80 (by norm_num)

def second : ScoreInputs := deterministicOnly 60 (by norm_num)

def third : ScoreInputs := deterministicOnly 40 (by norm_num)

def droppedRun : List (Action × World) :=
  execute next? (scoredWorld first)
    [.change second, .check, .create, .markRunning 0, .read 0, .change third, .check, .write 0,
      .markSuccess 0]

theorem droppedRun_path : Path Step (scoredWorld first) droppedRun :=
  execute_path next? (fun _ _ _ h => h) (scoredWorld first) _

def scoredRun : List (Action × World) :=
  execute next? (scoredWorld first)
    [.change second, .check, .create, .markRunning 0, .read 0, .write 0, .markSuccess 0]

theorem scoredRun_path : Path Step (scoredWorld first) scoredRun :=
  execute_path next? (fun _ _ _ h => h) (scoredWorld first) _

theorem compositeScore_second_ne_third : compositeScore second ≠ compositeScore third := by
  norm_num [compositeScore, calculateScore, roundCompositeScore, second, third, deterministicOnly]

end CompositeScoring

end AiHiring
