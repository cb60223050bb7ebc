import AiHiring.Interview.Effects
import AiHiring.Pipeline.Intake

namespace AiHiring

open Library

namespace Finalized

def At (db : Db) (cc : Uuid) (stage : PipelineStage) : Prop :=
  ∃ row, db.campaignCandidates.find? cc = some row ∧ row.pipelineStage = stage

def LiveRound (db : Db) (cc : Uuid) : Prop :=
  ∃ r ∈ db.interviewSchedules.rows, r.campaignCandidateId = cc ∧ r.status.active = true

-- A move through one of the three engines to SELECTED or REJECTED, of a
-- candidate that has been at INTERVIEW before.
def Finalizes (past : List Db) (db : Db) (call : StageWrite) : Prop :=
  call.RunsHooks ∧ (∃ row, db.campaignCandidates.find? call.candidate = some row ∧
      (call.target row = some .selected ∨ call.target row = some .rejected)) ∧
    ∃ s ∈ past, At s call.candidate .interview

-- Nothing is left to be held after such a move.
def Closed (past : List Db) (db : Db) (action : HiringAction) (db' : Db) : Prop :=
  match action with
  | .move call => Finalizes past db call.1 → ¬LiveRound db' call.1.candidate
  | .interview _ => True

-- Such a move leaves from INTERVIEW itself, or finds nothing to close.
def Direct (past : List Db) (db : Db) (action : HiringAction) : Prop :=
  match action with
  | .move call => Finalizes past db call.1 →
      At db call.1.candidate .interview ∨ ¬LiveRound db call.1.candidate
  | .interview _ => True

variable {table : TransitionTable} {db db' : Db}

theorem not_active_cancelledIn (cc : Uuid) (reason : String) (now : Instant)
    (round : InterviewSchedule) (hcc : round.campaignCandidateId = cc) :
    (InterviewScheduleRepository.cancelledIn cc reason now round).status.active = false := by
  rw [InterviewScheduleRepository.cancelledIn]
  by_cases hactive : round.status.active = true
  · rw [if_pos ⟨hcc, hactive⟩]
    rfl
  · rw [if_neg (fun h => hactive h.2)]
    exact Bool.eq_false_iff.mpr hactive

-- A move to SELECTED or REJECTED closes the rounds when it leaves INTERVIEW and
-- looks at none otherwise.
theorem liveRound_after (call : StageWrite × Instant) (before after : CampaignCandidate)
    (h : StageWrite.Effect db db' call before after) (hhooks : call.1.RunsHooks)
    (hfinal : after.pipelineStage = .selected ∨ after.pipelineStage = .rejected) :
    LiveRound db' before.id ↔ before.pipelineStage ≠ .interview ∧ LiveRound db before.id := by
  have hrounds := h.hooked hhooks
  have hentry : after.pipelineStage ≠ .interview := by
    rcases hfinal with hstage | hstage <;> rw [hstage] <;> decide
  have hscreening : after.pipelineStage ≠ .screening := by
    rcases hfinal with hstage | hstage <;> rw [hstage] <;> decide
  have hexit : after.pipelineStage ∈ interviewExitCascadeStages := by
    rcases hfinal with hstage | hstage <;> rw [hstage] <;> decide
  rw [hookedRounds, if_neg hentry] at hrounds
  by_cases hleaves : before.pipelineStage = .interview
  · have hcascade : cascades before.pipelineStage after.pipelineStage := .inl ⟨hleaves, hexit⟩
    rw [if_pos hcascade] at hrounds
    refine ⟨?_, fun hlive => absurd hleaves hlive.1⟩
    intro hlive
    obtain ⟨r, hr, hcc, hactive⟩ := hlive
    rw [hrounds, Table.rows_modify] at hr
    obtain ⟨old, -, rfl⟩ := List.mem_map.mp hr
    have hold : old.campaignCandidateId = before.id := by simpa using hcc
    rw [not_active_cancelledIn _ _ _ old hold] at hactive
    simp at hactive
  · have hcascade : ¬cascades before.pipelineStage after.pipelineStage := by
      intro hcascade
      rcases hcascade with hinterview | hback
      · exact hleaves hinterview.1
      · exact hscreening hback.1
    rw [if_neg hcascade] at hrounds
    rw [LiveRound, LiveRound, hrounds]
    exact ⟨fun hlive => ⟨hleaves, hlive⟩, fun hlive => hlive.2⟩

theorem closed_step (past : List Db) (action : HiringAction)
    (h : HiringAction.Step table db action db') :
    Closed past db action db' ↔ Direct past db action := by
  cases action with
  | interview call => exact Iff.rfl
  | move call =>
    apply imp_congr_right
    intro hfinal
    obtain ⟨hhooks, ⟨row, hrow, htarget⟩, -⟩ := hfinal
    rcases StageWrite.step_cases call h with
      ⟨before, after, heffect⟩ | ⟨cc, env, before, after, hcall, -⟩
    · have hfound := heffect.moved.found
      rw [heffect.candidate] at hfound
      obtain rfl : row = before := Option.some.inj (hrow.symm.trans hfound)
      have hstage : after.pipelineStage = .selected ∨ after.pipelineStage = .rejected := by
        rw [heffect.target, Option.some.injEq, Option.some.injEq] at htarget
        exact htarget
      have hat : At db call.1.candidate .interview ↔ row.pipelineStage = .interview := by
        rw [At, hrow]
        simp
      rw [← heffect.candidate, liveRound_after call row after heffect hhooks hstage,
        heffect.candidate, hat]
      tauto
    · rw [hcall] at hhooks
      exact absurd hhooks id

-- In a run, every finalized candidate is left without a live round exactly when
-- every finalizing move leaves INTERVIEW directly or finds no live round.
theorem closed_throughout_iff (table : TransitionTable) (db : Db)
    (path : List (HiringAction × Db)) (hp : Path (HiringAction.Step table) db path) :
    EveryStepSince Closed db path ↔
      EveryStepSince (fun past s action _ => Direct past s action) db path :=
  hp.everyStepSince_congr fun past _ action _ hstep => closed_step past action hstep

def selectedFromHold : List HiringAction :=
  [.move (.transition 0 .shortlisted recruiter none none idle, 2),
   .move (.transition 0 .interview recruiter none none idle, 3),
   .interview (.schedule 0 "recruiter" ["RECRUITER"] videoCall office),
   .move (.transition 0 .hold recruiter none none idle, 5),
   .move (.transition 0 .selected recruiter none none idle, 6)]

def selectedFromHoldRun : List (HiringAction × Db) :=
  execute (HiringAction.next? seededTransitions) screenedDb selectedFromHold

theorem selectedFromHoldRun_path :
    Path (HiringAction.Step seededTransitions) screenedDb selectedFromHoldRun :=
  execute_path (HiringAction.next? seededTransitions)
    (fun s action t h => HiringAction.next?_step seededTransitions s t action h) screenedDb
    selectedFromHold

theorem closed_throughout_iff_selectedFromHold :
    EveryStepSince Closed screenedDb selectedFromHoldRun ↔
      EveryStepSince (fun past s action _ => Direct past s action) screenedDb
        selectedFromHoldRun :=
  closed_throughout_iff seededTransitions screenedDb selectedFromHoldRun selectedFromHoldRun_path

theorem at_iff (db : Db) (cc : Uuid) (stage : PipelineStage) : At db cc stage ↔
      (db.campaignCandidates.find? cc).map CampaignCandidate.pipelineStage = some stage :=
  Option.map_eq_some_iff.symm

theorem liveRound_iff (db : Db) (cc : Uuid) :
    LiveRound db cc ↔ (db.interviewSchedules.rows.any fun r =>
      r.campaignCandidateId = cc ∧ r.status.active = true) = true := by
  simp [LiveRound]

theorem selectedFromHoldRun_ne_nil : selectedFromHoldRun ≠ [] := List.cons_ne_nil _ _

-- The candidate is selected while the interview is still scheduled.
theorem not_closed_from_hold :
    Path (HiringAction.Step seededTransitions) screenedDb selectedFromHoldRun ∧
      ¬EveryStepSince Closed screenedDb selectedFromHoldRun := by
  refine ⟨selectedFromHoldRun_path, fun hall => ?_⟩
  have hne := selectedFromHoldRun_ne_nil
  have hclosed := hall _ (selectedFromHoldRun.getLast hne).1
    (selectedFromHoldRun.getLast hne).2 [] (List.dropLast_append_getLast hne).symm
  have haction : (selectedFromHoldRun.getLast hne).1 =
      .move (.transition 0 .selected recruiter none none idle, 6) := rfl
  rw [haction] at hclosed
  have hfound : ∃ row, (final screenedDb selectedFromHoldRun.dropLast).campaignCandidates.find? 0 =
      some row := ⟨_, rfl⟩
  have hbeen : ∃ s ∈ visited screenedDb selectedFromHoldRun.dropLast,
      (s.campaignCandidates.find? 0).map CampaignCandidate.pipelineStage = some .interview := by
    decide +kernel
  obtain ⟨row, hrow⟩ := hfound
  obtain ⟨s, hs, hinterview⟩ := hbeen
  refine hclosed ⟨trivial, ⟨row, hrow, .inl rfl⟩, s, hs, (at_iff s 0 _).mpr hinterview⟩ ?_
  have hlive :
      ((selectedFromHoldRun.getLast selectedFromHoldRun_ne_nil).2.interviewSchedules.rows.any
        fun r => r.campaignCandidateId = 0 ∧ r.status.active = true) = true := by
    decide +kernel
  exact (liveRound_iff _ 0).mpr hlive

end Finalized

end AiHiring
