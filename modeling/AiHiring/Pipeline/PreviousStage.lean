import AiHiring.Pipeline.Intake
import AiHiring.Pipeline.StageWrite

namespace AiHiring

open Library

namespace PreviousStage

-- The candidate stands where its last history row says, and remembers the stage
-- that row left.
def Recorded (db : Db) (id : Uuid) : Prop :=
  ∃ cc last, db.campaignCandidates.find? id = some cc ∧ (db.historyOf id).getLast? = some last ∧
    cc.pipelineStage = last.toStage ∧ cc.previousStage = last.fromStage

-- The candidate's last move led back to the stage it started from.
def StaysPut (db : Db) (id : Uuid) : Prop :=
  ∀ cc, db.campaignCandidates.find? id = some cc → cc.previousStage = some cc.pipelineStage

def trailOf (db : Db) (id : Uuid) : List (Option PipelineStage × PipelineStage) :=
  (db.historyOf id).map fun row => (row.fromStage, row.toStage)

-- The half that no writer breaks: the history is a trail that ends at the
-- candidate's stage.
def OnTrail (db : Db) (id : Uuid) : Prop :=
  Chained (trailOf db id) ∧
    ∃ cc, db.campaignCandidates.find? id = some cc ∧ here (trailOf db id) = some cc.pipelineStage

variable {table : TransitionTable} {db db' : Db} {id : Uuid}

theorem created_onTrail (h : Created db id) : OnTrail db id := by
  obtain ⟨⟨cc, hfind, hstage, -⟩, first, hhistory, -, hto⟩ := h
  refine ⟨?_, cc, hfind, ?_⟩
  · rw [trailOf, hhistory]
    exact List.isChain_singleton _
  · rw [trailOf, hhistory, hstage, here]
    simp [hto]

theorem created_recorded (h : Created db id) : Recorded db id := by
  obtain ⟨⟨cc, hfind, hstage, hprevious⟩, first, hhistory, hfrom, hto⟩ := h
  exact ⟨cc, first, hfind, by rw [hhistory]; rfl, hstage.trans hto.symm, hprevious.trans hfrom.symm⟩

theorem trailOf_moved_self {before after : CampaignCandidate} (h : Moved db db' before after) :
    trailOf db' before.id =
      trailOf db before.id ++ [(some before.pipelineStage, after.pipelineStage)] := by
  obtain ⟨row, hrows, hfrom, hto⟩ := h.historyOf_self
  simp [trailOf, hrows, hfrom, hto]

theorem onTrail_step (call : StageWrite × Instant) (hi : OnTrail db id)
    (h : StageWrite.Step table db call db') : OnTrail db' id := by
  obtain ⟨hchained, cc, hfind, hhere⟩ := hi
  rcases StageWrite.step_cases call h with
    ⟨before, after, heffect⟩ | ⟨_, _, before, after, -, hrescored⟩
  · have hmoved := heffect.moved
    by_cases hid : id = before.id
    · subst hid
      obtain rfl : before = cc := Option.some.inj (hmoved.found.symm.trans hfind)
      rw [OnTrail, trailOf_moved_self hmoved]
      refine ⟨(chained_snoc _ _ _).mpr ⟨hchained, fun place hplace => ?_⟩, after,
        hmoved.find?_self, here_snoc _ _ _⟩
      rw [← hplace, hhere]
    · have hsame : trailOf db' id = trailOf db id := by
        rw [trailOf, hmoved.historyOf_other id hid, trailOf]
      rw [OnTrail, hsame]
      exact ⟨hchained, cc, (hmoved.find?_other id hid).trans hfind, hhere⟩
  · have hsame : trailOf db' id = trailOf db id := by rw [hrescored.db]; rfl
    rw [OnTrail, hsame]
    by_cases hid : id = before.id
    · subst hid
      obtain rfl : before = cc := Option.some.inj (hrescored.found.symm.trans hfind)
      exact ⟨hchained, after, hrescored.find?_self, hrescored.sameStage ▸ hhere⟩
    · exact ⟨hchained, cc, (hrescored.find?_other id hid).trans hfind, hhere⟩

theorem recorded_moved_iff (h : Moved db db' before after) :
    Recorded db' before.id ↔ after.previousStage = some before.pipelineStage := by
  obtain ⟨row, hrows, hfrom, hto⟩ := h.historyOf_self
  constructor
  · rintro ⟨other, last, hother, hlast, -, hprevious⟩
    rw [hrows, List.getLast?_concat] at hlast
    cases hlast
    obtain rfl := Option.some.inj (h.find?_self.symm.trans hother)
    rw [hprevious, hfrom]
  · intro hprevious
    refine ⟨after, row, h.find?_self, ?_, hto.symm, hprevious.trans hfrom.symm⟩
    rw [hrows, List.getLast?_concat]

theorem Recorded.unmoved (h : Recorded db id) (hhistory : db'.historyOf id = db.historyOf id)
    (hfind : db'.campaignCandidates.find? id = db.campaignCandidates.find? id) :
    Recorded db' id := by
  obtain ⟨cc, last, hcc, hlast, hstage, hprevious⟩ := h
  exact ⟨cc, last, hfind.trans hcc, (congrArg _ hhistory).trans hlast, hstage, hprevious⟩

theorem recorded_rescored (h : Recorded db id) (hrescored : Rescored db db' before after) :
    Recorded db' id := by
  have hhistory : db'.historyOf id = db.historyOf id := by rw [hrescored.db]; rfl
  by_cases hid : id = before.id
  · subst hid
    obtain ⟨cc, last, hcc, hlast, hstage, hprevious⟩ := h
    cases hrescored.found.symm.trans hcc
    exact ⟨after, last, hrescored.find?_self, (congrArg _ hhistory).trans hlast,
      hrescored.sameStage.trans hstage, hrescored.samePrevious.trans hprevious⟩
  · exact h.unmoved hhistory (hrescored.find?_other id hid)

-- In a recorded state the next state is recorded unless a writer that forgets
-- previous_stage moves the candidate on from a real move.
theorem recorded_step (call : StageWrite × Instant) (hi : OnTrail db id)
    (hgood : Recorded db id) (h : StageWrite.Step table db call db') :
    Recorded db' id ↔ (call.1.Forgets → call.1.candidate = id → StaysPut db id) := by
  obtain ⟨-, cc, hfind, hhere⟩ := hi
  rcases StageWrite.step_cases call h with
    ⟨before, after, heffect⟩ | ⟨_, _, before, after, hcall, hrescored⟩
  · have hmoved := heffect.moved
    have hcandidate := heffect.candidate
    by_cases hid : id = before.id
    · subst hid
      obtain rfl : before = cc := Option.some.inj (hmoved.found.symm.trans hfind)
      have hstays : StaysPut db before.id ↔ before.previousStage = some before.pipelineStage :=
        ⟨fun hput => hput before hfind,
          fun hput other hother => Option.some.inj (hfind.symm.trans hother) ▸ hput⟩
      rw [recorded_moved_iff hmoved, hstays]
      by_cases hforget : call.1.Forgets
      · rw [heffect.forgets hforget]
        exact ⟨fun hput _ _ => hput, fun hput => hput hforget hcandidate.symm⟩
      · exact ⟨fun _ hf => absurd hf hforget, fun _ => heffect.advances hforget⟩
    · have hsame := hgood.unmoved (hmoved.historyOf_other id hid) (hmoved.find?_other id hid)
      refine ⟨fun _ _ hc => absurd ?_ hid, fun _ => hsame⟩
      rw [hcandidate, hc]
  · have hno : ¬call.1.Forgets := by rw [hcall]; exact not_false
    exact ⟨fun _ hf => absurd hf hno, fun _ => recorded_rescored hgood hrescored⟩

-- previous_stage is the stage held before the last move in every state of a run
-- exactly when the run takes no step with a forgetting writer (a revert, an
-- override, a flag) unless the move before it had led nowhere.
theorem recorded_throughout_iff (table : TransitionTable) (db : Db) (id : Uuid)
    (hcreated : Created db id) (path : List ((StageWrite × Instant) × Db))
    (hp : Path (StageWrite.Step table) db path) :
    (∀ t ∈ visited db path, Recorded t id) ↔
      EveryStep (fun s call _ => call.1.Forgets → call.1.candidate = id → StaysPut s id) db path :=
  hp.visited_iff_everyStep (created_onTrail hcreated)
    (fun _ call _ hi hs => onTrail_step call hi hs) (created_recorded hcreated)
    (fun _ call _ hi hgood hs => recorded_step call hi hgood hs)

def overrideAndRevert : List (StageWrite × Instant) :=
  [(.transitionToScreening 0, 1),
   (.transitionToRejected 0 "Deterministic filter rejection" none .deterministic none none none, 2),
   (.applyHrOverride 0 "recruiter" "HR override" none, 3),
   (.revertOverride 0 true "Overridden by mistake" "recruiter" (some "RECRUITER"), 4)]

def overrideAndRevertRun : List ((StageWrite × Instant) × Db) :=
  execute (StageWrite.next? seededTransitions) freshDb overrideAndRevert

theorem overrideAndRevertRun_path :
    Path (StageWrite.Step seededTransitions) freshDb overrideAndRevertRun :=
  execute_path (StageWrite.next? seededTransitions)
    (fun _ call _ h => StageWrite.next?_step call h) freshDb overrideAndRevert

theorem recorded_throughout_iff_overrideAndRevert :
    (∀ t ∈ visited freshDb overrideAndRevertRun, Recorded t 0) ↔
      EveryStep (fun s call _ => call.1.Forgets → call.1.candidate = 0 → StaysPut s 0)
        freshDb overrideAndRevertRun :=
  recorded_throughout_iff seededTransitions freshDb 0 freshDb_created overrideAndRevertRun
    overrideAndRevertRun_path

-- The revert leaves the candidate at REJECTED with previous_stage REJECTED.
theorem not_recorded_after_revert :
    Created freshDb 0 ∧ Path (StageWrite.Step seededTransitions) freshDb overrideAndRevertRun ∧
      ¬∀ t ∈ visited freshDb overrideAndRevertRun, Recorded t 0 := by
  refine ⟨freshDb_created, overrideAndRevertRun_path, fun hall => ?_⟩
  obtain ⟨cc, last, hfind, hlast, -, hprevious⟩ := hall _ (final_mem_visited _ _)
  have hcc : cc.previousStage = some .rejected := by
    have h := congrArg (Option.map CampaignCandidate.previousStage) hfind
    exact Option.some.inj (h.symm.trans (by decide +kernel))
  have hfrom : last.fromStage = some .screening := by
    have h := congrArg (Option.map CampaignCandidateStageHistory.fromStage) hlast
    exact Option.some.inj (h.symm.trans (by decide +kernel))
  rw [hcc, hfrom] at hprevious
  exact absurd hprevious (by decide)

end PreviousStage

end AiHiring
