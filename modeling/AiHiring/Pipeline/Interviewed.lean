import AiHiring.Pipeline.PreviousStage

namespace AiHiring

open Library StageWrite AllowedTransitionRepository
open CampaignCandidateRepository (getById)

namespace PreviousStage

-- Neither the stage nor the one before it is an interview or a selection.
def Early (cc : CampaignCandidate) : Prop :=
  cc.pipelineStage ∉ [.interview, .selected] ∧
    ∀ stage ∈ cc.previousStage, stage ∉ [PipelineStage.interview, .selected]

def Interviewed (db : Db) (id : Uuid) : Prop := ∃ row ∈ db.historyOf id, row.toStage = .interview

def OnCourse (db : Db) (id : Uuid) : Prop :=
  ∃ cc, db.campaignCandidates.find? id = some cc ∧ (Interviewed db id ∨ Early cc)

-- The override goes where HR says, whatever the table lists.
def OverridesToSelected (db : Db) : StageWrite → Prop
  | call@(.overrideCandidateStage ..) => ∃ before,
    db.campaignCandidates.find? call.candidate = some before ∧ call.target before = some .selected
  | _ => False

variable {db db' : Db} {id : Uuid} {before after : CampaignCandidate} {call : StageWrite × Instant}

-- The shipped table leads to SELECTED only from an interview or an earlier selection.
theorem get_selected_of_early (h : Early before) :
    get seededTransitions before.pipelineStage .selected before.previousStage = none := by
  rw [Option.eq_none_iff_forall_ne_some]
  intro row hrow
  obtain ⟨hmem, hfrom, hto, hprevious⟩ := get_some _ _ _ _ _ hrow
  have hseed : ∀ row ∈ seedRows, row.toStage = .selected →
      row.fromStage ∈ [PipelineStage.interview, .selected] ∨
        ∃ s ∈ row.previousStage, s ∈ [PipelineStage.interview, .selected] := by decide +kernel
  rcases hseed row hmem hto with hnear | ⟨s, hs, hnear⟩
  · exact h.1 (hfrom ▸ hnear)
  · rcases hprevious with hnone | hsame
    · cases hnone ▸ hs
    · exact h.2 s (hsame ▸ hs) hnear

-- Every writer but the override asks the table before it selects.
theorem not_selects_of_early (h : Step seededTransitions db call db')
    (heffect : Effect db db' call before after) (hearly : Early before)
    (hno : ¬OverridesToSelected db call.1) : after.pipelineStage ≠ .selected := by
  intro hselected
  have hget := get_selected_of_early hearly
  have htarget := hselected ▸ heffect.target
  have hfound := heffect.moved.found
  rw [heffect.candidate] at hfound
  rcases call with ⟨call, now⟩
  cases call <;> simp only [candidate] at hfound
  case transition =>
    cases htarget
    simp [Step, run, StageTransitionService.transition, getById, hfound,
      StageTransitionService.permit, hget, bind, Except.bind] at h
  case transitionStage cc withRepo request =>
    have hto : request.toStage = .selected := Option.some.inj htarget
    simp [Step, run, withCandidate, getById, hfound, PipelineTransitionService.transitionStage,
      PipelineTransitionService.permit, hto, hget, bind, Except.bind] at h
  case transitionOnAiSuccess =>
    cases htarget
    simp [Step, run, withCandidate, getById, hfound, StageTransitionService.transitionOnAiSuccess,
      isTransitionAllowed, hget] at h
  case overrideCandidateStage => exact hno ⟨before, hfound, htarget⟩
  all_goals cases htarget

theorem onCourse_step (h : OnCourse db id) (hno : ¬OverridesToSelected db call.1)
    (hstep : Step seededTransitions db call db') : OnCourse db' id := by
  obtain ⟨cc, hfind, hstate⟩ := h
  rcases step_cases call hstep with
    ⟨before, after, heffect⟩ | ⟨_, _, before, after, -, hrescored⟩
  · have hmoved := heffect.moved
    by_cases hid : id = before.id
    · subst hid
      cases hmoved.found.symm.trans hfind
      obtain ⟨row, hrows, -, hto⟩ := hmoved.historyOf_self
      refine ⟨after, hmoved.find?_self, ?_⟩
      rw [Interviewed, hrows]
      rcases hstate with ⟨old, hold, hinterview⟩ | hearly
      · exact .inl ⟨old, List.mem_append_left _ hold, hinterview⟩
      · by_cases hinterview : after.pipelineStage = .interview
        · exact .inl ⟨row, by simp, hto.trans hinterview⟩
        · have hselected := not_selects_of_early hstep heffect hearly hno
          refine .inr ⟨by simp [hinterview, hselected], ?_⟩
          by_cases hforget : call.1.Forgets
          · exact heffect.forgets hforget ▸ hearly.2
          · rw [heffect.advances hforget]
            rintro _ ⟨⟩
            exact hearly.1
    · rw [OnCourse, Interviewed, hmoved.find?_other id hid, hmoved.historyOf_other id hid]
      exact ⟨cc, hfind, hstate⟩
  · have hhistory : db'.historyOf id = db.historyOf id := by rw [hrescored.db]; rfl
    rw [OnCourse, Interviewed, hhistory]
    by_cases hid : id = before.id
    · subst hid
      cases hrescored.found.symm.trans hfind
      refine ⟨after, hrescored.find?_self, ?_⟩
      rwa [Early, hrescored.sameStage, hrescored.samePrevious]
    · exact ⟨cc, (hrescored.find?_other id hid).trans hfind, hstate⟩

-- Whichever writers a run mixes, nobody is selected under the shipped table without an
-- interview in the history, unless HR overrides the stage to SELECTED.
theorem selected_after_interview (hcreated : Created db id)
    {path : List ((StageWrite × Instant) × Db)}
    (hp : Path (fun db call db' => ¬OverridesToSelected db call.1 ∧
      Step seededTransitions db call db') db path) :
    ∀ t ∈ visited db path, ∀ cc, t.campaignCandidates.find? id = some cc →
      cc.pipelineStage = .selected → Interviewed t id := by
  have hstart : OnCourse db id := by
    obtain ⟨⟨cc, hfind, hstage, hprevious⟩, -⟩ := hcreated
    exact ⟨cc, hfind, .inr ⟨by simp [hstage], by simp [hprevious]⟩⟩
  intro t ht cc hfind hselected
  obtain ⟨other, hother, hstate⟩ :=
    hp.invariant hstart (fun _ _ _ h hs => onCourse_step h hs.1 hs.2) t ht
  cases hother.symm.trans hfind
  exact hstate.resolve_right fun hearly => hearly.1 (by simp [hselected])

def selection : List (StageWrite × Instant) :=
  [(.transitionToScreening 0, 1), (.transition 0 .shortlisted recruiter none none idle, 2),
    (.transition 0 .interview recruiter none none idle, 3),
    (.transition 0 .selected recruiter none none idle, 4)]

def selectionRun : List ((StageWrite × Instant) × Db) :=
  execute (next? seededTransitions) freshDb selection

theorem selected_after_interview_run : Interviewed (final freshDb selectionRun) 0 := by
  have hno : ∀ call ∈ selection, ∀ db, ¬OverridesToSelected db call.1 := by
    simp [selection, OverridesToSelected]
  have hstage : ((final freshDb selectionRun).campaignCandidates.find? 0).map
      CampaignCandidate.pipelineStage = some .selected := by decide +kernel
  obtain ⟨cc, hfind, hselected⟩ := Option.map_eq_some_iff.mp hstage
  exact selected_after_interview freshDb_created (execute_path_of _
    (fun db call _ hno h => ⟨hno db, next?_step call h⟩) _ _ hno) _
    (final_mem_visited _ _) cc hfind hselected

-- Whatever becomes of previous_stage, the history stays a trail.
theorem trail_throughout (table : TransitionTable) (hcreated : Created db id)
    {path : List ((StageWrite × Instant) × Db)} (hp : Path (Step table) db path) :
    ∀ t ∈ visited db path, OnTrail t id :=
  hp.invariant (created_onTrail hcreated) fun _ call _ hi hs => onTrail_step call hi hs

theorem trail_throughout_overridden : OnTrail (final freshDb overrideAndRevertRun) 0 :=
  trail_throughout seededTransitions freshDb_created overrideAndRevertRun_path _
    (final_mem_visited _ _)

end PreviousStage

end AiHiring
