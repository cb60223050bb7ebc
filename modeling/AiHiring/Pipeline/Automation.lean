import AiHiring.Pipeline.Intake
import AiHiring.Pipeline.Writers

namespace AiHiring

open StageTransitionService AllowedTransitionRepository

inductive AIRecommendation where
  | shortlist
  | hold
  | reject
  deriving DecidableEq, Repr

-- A call of one of the three automated writers; a rejection by automation
-- passes no decision_by_user_id.
inductive AutomatedCall where
  | toScreening
  | onAiSuccess (toStage : PipelineStage) (decisionType : DecisionType) (changeReason : String)
      (scoresSnapshot : Option Dict) (decisionReason : Option String)
      (decisionDetails : Option Dict)
  | toRejected (changeReason : String) (scoresSnapshot : Option Dict)
      (decisionSource : DecisionSource) (decisionReason : Option String)
      (decisionDetails : Option Dict)

namespace AutomatedCall

def toStage : AutomatedCall → PipelineStage
  | toScreening => .screening
  | onAiSuccess toStage _ _ _ _ _ => toStage
  | toRejected _ _ _ _ _ => .rejected

def run (table : TransitionTable) (db : Db) (cc : CampaignCandidate) (now : Instant) :
    AutomatedCall → Db × Bool
  | toScreening => transitionToScreening table db cc now
  | onAiSuccess toStage decisionType changeReason scoresSnapshot decisionReason
      decisionDetails =>
      transitionOnAiSuccess table db cc toStage decisionType changeReason scoresSnapshot
        decisionReason decisionDetails now
  | toRejected changeReason scoresSnapshot decisionSource decisionReason decisionDetails =>
    transitionToRejected table db cc changeReason scoresSnapshot decisionSource
      decisionReason decisionDetails none now

-- The test each writer makes before it writes anything.
def Passes (table : TransitionTable) (cc : CampaignCandidate) (call : AutomatedCall) : Prop :=
  (call = toScreening → cc.pipelineStage = .uploaded) ∧
    isTransitionAllowed table cc.pipelineStage call.toStage cc.previousStage = true

end AutomatedCall

-- What the scoring tasks do with the outcome of a layer: a failed layer and
-- the three recommendations of the AI evaluation.
inductive ScoringResult where
  | deterministicFailed (breakdown : Dict) (rejectionReason : String)
  | semanticFailed (breakdown : Dict) (semanticExplanation : String)
  | aiEvaluated (recommendation : AIRecommendation) (aiResponse : Dict)
      (rejectionReason : String)

namespace ScoringResult

def call : ScoringResult → AutomatedCall
  | deterministicFailed breakdown rejectionReason =>
    .toRejected "Deterministic filter rejection" (some breakdown) .deterministic
      (some rejectionReason) (some breakdown)
  | semanticFailed breakdown semanticExplanation =>
    .toRejected "Semantic similarity filter rejection" (some breakdown) .semantic
      (some semanticExplanation) (some breakdown)
  | aiEvaluated .reject aiResponse rejectionReason =>
    .toRejected "AI evaluation rejection" (some aiResponse) .ai (some rejectionReason)
      (some aiResponse)
  | aiEvaluated .shortlist aiResponse _ =>
    .onAiSuccess .shortlisted .shortlisted "AI evaluation shortlist recommendation"
      (some aiResponse) (some "AI evaluation recommended shortlisting this candidate.")
      (some aiResponse)
  | aiEvaluated .hold aiResponse _ =>
    .onAiSuccess .hold .hold "AI evaluation hold recommendation" (some aiResponse)
      (some "AI evaluation recommended placing this candidate on hold.") (some aiResponse)

def isRejection (result : ScoringResult) : Prop := result.call.toStage = .rejected

instance (result : ScoringResult) : Decidable result.isRejection :=
  inferInstanceAs (Decidable (_ = _))

end ScoringResult

namespace AutomatedCall

variable (table : TransitionTable) (db : Db) (cc : CampaignCandidate) (now : Instant)

theorem run_refused (call : AutomatedCall) (h : ¬call.Passes table cc) :
    call.run table db cc now = (db, false) := by
  cases call with
  | toScreening =>
    by_cases hstage : cc.pipelineStage = .uploaded
    · have hrow : isTransitionAllowed table cc.pipelineStage .screening cc.previousStage =
          false := by
        rw [← Bool.not_eq_true]
        exact fun hrow => h ⟨fun _ => hstage, hrow⟩
      simp [run, transitionToScreening, hrow]
    · simp [run, transitionToScreening, hstage]
  | onAiSuccess toStage decisionType changeReason scoresSnapshot decisionReason decisionDetails =>
    have hrow : isTransitionAllowed table cc.pipelineStage toStage cc.previousStage =
        false := by
      rw [← Bool.not_eq_true]
      exact fun hrow => h ⟨by simp, hrow⟩
    simp [run, transitionOnAiSuccess, hrow]
  | toRejected changeReason scoresSnapshot decisionSource decisionReason decisionDetails =>
    have hrow : isTransitionAllowed table cc.pipelineStage .rejected cc.previousStage =
        false := by
      rw [← Bool.not_eq_true]
      exact fun hrow => h ⟨by simp, hrow⟩
    simp [run, transitionToRejected, hrow]

theorem run_passes (call : AutomatedCall) (h : call.Passes table cc) :
    (call.run table db cc now).2 = true := by
  have hrow := h.2
  cases call with
  | toScreening => simp_all [run, transitionToScreening, toStage, Passes]
  | onAiSuccess toStage decisionType changeReason scoresSnapshot decisionReason decisionDetails =>
    rw [AutomatedCall.toStage] at hrow
    simp [run, transitionOnAiSuccess, hrow]
  | toRejected changeReason scoresSnapshot decisionSource decisionReason decisionDetails =>
    rw [AutomatedCall.toStage] at hrow
    simp [run, transitionToRejected, hrow]

theorem run_applied_iff (call : AutomatedCall) :
    (call.run table db cc now).2 = true ↔ call.Passes table cc := by
  constructor
  · intro happlied
    by_contra hrefused
    rw [run_refused table db cc now call hrefused] at happlied
    simp at happlied
  · exact run_passes table db cc now call

theorem run_moved (call : AutomatedCall) (hcc : db.campaignCandidates.find? cc.id = some cc)
    (h : call.Passes table cc) :
    ∃ after, Moved db (call.run table db cc now).1 cc after ∧
      after.pipelineStage = call.toStage ∧ after.previousStage = some cc.pipelineStage := by
  have happlied := run_passes table db cc now call h
  have hpair : call.run table db cc now = ((call.run table db cc now).1, true) :=
    Prod.ext rfl happlied
  cases call with
  | toScreening =>
    obtain ⟨after, hmoved, hstage, hprevious, -, -⟩ :=
      transitionToScreening_ok table db _ now cc hcc hpair
    exact ⟨after, hmoved, hstage, hprevious⟩
  | onAiSuccess toStage decisionType changeReason scoresSnapshot decisionReason decisionDetails =>
    obtain ⟨after, hmoved, hstage, hprevious, -, -⟩ :=
      transitionOnAiSuccess_ok table db _ now cc hcc toStage decisionType changeReason
        scoresSnapshot decisionReason decisionDetails hpair
    exact ⟨after, hmoved, hstage, hprevious⟩
  | toRejected changeReason scoresSnapshot decisionSource decisionReason decisionDetails =>
    obtain ⟨after, hmoved, hstage, hprevious, -, -⟩ :=
      transitionToRejected_ok table db _ now cc hcc changeReason scoresSnapshot
        decisionSource decisionReason decisionDetails none hpair
    exact ⟨after, hmoved, hstage, hprevious⟩

end AutomatedCall

-- The states the seeded rows let a rejection leave, whoever asks for it.
def rejectable (previousStage : Option PipelineStage) : PipelineStage → Bool
  | .screening | .shortlisted | .interview | .selected => true
  | .hmReview => previousStage ∈ [some .shortlisted, some .screening, some .interview,
      some .selected, some .hold, some .rejected, some .fraudReview]
  | .hold => previousStage ∈ [some .screening, some .shortlisted, some .interview,
      some .hmReview, some .fraudReview]
  | .fraudReview => previousStage ∈ [some .screening, some .shortlisted, some .hmReview,
      some .interview, some .selected, some .hold, some .rejected]
  | .uploaded | .rejected => false

theorem seeded_rejections (stage : PipelineStage) (previousStage : Option PipelineStage) :
    isTransitionAllowed seededTransitions stage .rejected previousStage =
      rejectable previousStage stage := by
  cases previousStage with
  | none => cases stage <;> decide +kernel
  | some previous => cases previous <;> cases stage <;> decide +kernel

theorem seeded_screening (toStage : PipelineStage) (previousStage : Option PipelineStage)
    (h : toStage = .shortlisted ∨ toStage = .hold ∨ toStage = .rejected) :
    isTransitionAllowed seededTransitions .screening toStage previousStage = true := by
  rcases h with rfl | rfl | rfl
  all_goals
    cases previousStage with
    | none => decide +kernel
    | some previous => cases previous <;> decide +kernel

-- No row leads from these stages to either outcome of a positive evaluation.
def beyondAi : List PipelineStage := [.uploaded, .selected, .rejected]

theorem seeded_beyondAi (stage toStage : PipelineStage) (previousStage : Option PipelineStage)
    (hstage : stage ∈ beyondAi) (h : toStage = .shortlisted ∨ toStage = .hold) :
    isTransitionAllowed seededTransitions stage toStage previousStage = false := by
  simp only [beyondAi, List.mem_cons, List.not_mem_nil, or_false] at hstage
  rcases hstage with rfl | rfl | rfl <;> rcases h with rfl | rfl
  all_goals
    cases previousStage with
    | none => decide +kernel
    | some previous => cases previous <;> decide +kernel

theorem ScoringResult.call_toStage (result : ScoringResult) :
    result.call.toStage = .shortlisted ∨ result.call.toStage = .hold ∨
      result.call.toStage = .rejected := by
  rcases result with _ | _ | ⟨_ | _ | _⟩ <;> simp [call, AutomatedCall.toStage]

theorem ScoringResult.passes_iff (table : TransitionTable) (cc : CampaignCandidate)
    (result : ScoringResult) :
    result.call.Passes table cc ↔
      isTransitionAllowed table cc.pipelineStage result.call.toStage cc.previousStage = true := by
  apply and_iff_right
  intro hcall
  have hto := result.call_toStage
  rw [hcall] at hto
  simp [AutomatedCall.toStage] at hto

def MovesOnlyScreening (table : TransitionTable) : Prop :=
  ∀ (db : Db) (cc : CampaignCandidate) (result : ScoringResult) (now : Instant),
    db.campaignCandidates.find? cc.id = some cc →
    (result.call.run table db cc now).2 = true → cc.pipelineStage = .screening

def MovesAlongSystemRows (table : TransitionTable) : Prop :=
  ∀ (db : Db) (cc : CampaignCandidate) (call : AutomatedCall) (now : Instant),
    db.campaignCandidates.find? cc.id = some cc → (call.run table db cc now).2 = true →
    ∃ row, get table cc.pipelineStage call.toStage cc.previousStage = some row ∧
      "SYSTEM" ∈ row.allowedRoles

-- Automated moves follow the rows, whatever roles these list.
theorem automated_move_governed :
    (∀ (table : TransitionTable) (db : Db) (cc : CampaignCandidate) (call : AutomatedCall)
      (now : Instant), db.campaignCandidates.find? cc.id = some cc →
      (call.Passes table cc →
        (∃ row, get table cc.pipelineStage call.toStage cc.previousStage = some row) ∧
        ∃ after, Moved db (call.run table db cc now).1 cc after ∧
          after.pipelineStage = call.toStage ∧
          after.previousStage = some cc.pipelineStage) ∧
      (¬call.Passes table cc → call.run table db cc now = (db, false))) ∧
    ∀ (db : Db) (cc : CampaignCandidate) (result : ScoringResult) (now : Instant),
      db.campaignCandidates.find? cc.id = some cc →
      (cc.pipelineStage = .screening → (result.call.run seededTransitions db cc now).2 = true) ∧
      (result.isRejection → ((result.call.run seededTransitions db cc now).2 = true ↔
          rejectable cc.previousStage cc.pipelineStage = true)) ∧
      (¬result.isRejection → cc.pipelineStage ∈ beyondAi →
        result.call.run seededTransitions db cc now = (db, false)) := by
  constructor
  · intro table db cc call now hcc
    constructor
    · intro hpasses
      exact ⟨Option.isSome_iff_exists.mp hpasses.2,
        AutomatedCall.run_moved table db cc now call hcc hpasses⟩
    · exact AutomatedCall.run_refused table db cc now call
  · intro db cc result now _
    have hto := result.call_toStage
    refine ⟨?_, ?_, ?_⟩
    · intro hstage
      rw [AutomatedCall.run_applied_iff, result.passes_iff, hstage]
      exact seeded_screening _ _ hto
    · intro hrejection
      rw [AutomatedCall.run_applied_iff, result.passes_iff, show result.call.toStage = .rejected
        from hrejection, seeded_rejections]
    · intro hpositive hstage
      apply AutomatedCall.run_refused
      rw [result.passes_iff, Bool.not_eq_true]
      apply seeded_beyondAi _ _ _ hstage
      rcases hto with h | h | h
      · exact .inl h
      · exact .inr h
      · exact absurd h hpositive

-- A recruiter has put the candidate on hold; the late semantic failure rejects
-- it along the row of the recruiter.
def heldCandidate : CampaignCandidate :=
  (CampaignCandidateService.newCandidate 0 0 0 0).movedTo .screening |>.movedTo .hold

def heldDb : Db := CampaignCandidateRepository.update freshDb heldCandidate

theorem heldCandidate_stored :
    heldDb.campaignCandidates.find? heldCandidate.id = some heldCandidate :=
  freshDb.campaignCandidates.find?_replace_self heldCandidate
    (CampaignCandidateService.newCandidate 0 0 0 0) rfl

def lateFailure : ScoringResult :=
  .semanticFailed [("semantic_passed", .bool false)] "Semantic score below the threshold."

theorem late_failure_moves_held_candidate : ¬(MovesOnlyScreening seededTransitions ∧
      ∀ table : TransitionTable, MovesAlongSystemRows table) := by
  have hmoved : (lateFailure.call.run seededTransitions heldDb heldCandidate 2).2 = true := by
    rw [AutomatedCall.run_applied_iff, lateFailure.passes_iff]
    decide +kernel
  intro h
  have hstage := h.1 heldDb heldCandidate lateFailure 2 heldCandidate_stored hmoved
  exact absurd hstage (by decide)

theorem automated_move_governed_held :
    (∃ row, get seededTransitions .hold .rejected (some .screening) = some row) ∧
      (lateFailure.call.run seededTransitions heldDb heldCandidate 2).2 = true := by
  have hfirst := (automated_move_governed.1 seededTransitions heldDb heldCandidate
    lateFailure.call 2 heldCandidate_stored).1
  have hsecond := (automated_move_governed.2 heldDb heldCandidate lateFailure 2
    heldCandidate_stored).2.1 (by decide)
  have hpasses : lateFailure.call.Passes seededTransitions heldCandidate := by
    rw [lateFailure.passes_iff]
    decide +kernel
  exact ⟨(hfirst hpasses).1, hsecond.mpr (by decide)⟩

end AiHiring
