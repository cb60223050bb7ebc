import AiHiring.Pipeline.Intake
import AiHiring.Pipeline.StageWrite

namespace AiHiring

open Library AllowedTransitionRepository

namespace Agreement

-- One human, acting in one role, asks for a move.
structure Ask where
  toStage : PipelineStage
  (role by_ : String)
  reason : Option String

def HumanRole (role : String) : Prop := role ≠ "" ∧ role ≠ "SYSTEM"

def Ask.actor (ask : Ask) : Actor where
  roles := [ask.role]
  id := some ask.by_

def Ask.request (ask : Ask) : PipelineTransitionService.StageRequest where
  toStage := ask.toStage
  changedBy := some ask.by_
  actorRole := some ask.role
  reason := ask.reason
  source := .manual
  decisionType := none
  decisionSource := none
  decisionDetails := none

-- Text that holds nothing but spaces: given for one engine, missing for the other.
def WhitespaceOnly (reason : Option String) : Prop :=
  ∃ given, reason = some given ∧ given ≠ "" ∧ ¬NonBlank given

def moves (db : Db) (id : Uuid) : List (Option PipelineStage × PipelineStage) :=
  (db.historyOf id).map fun row => (row.fromStage, row.toStage)

def place (db : Db) (id : Uuid) : Option (PipelineStage × Option PipelineStage) :=
  (db.campaignCandidates.find? id).map fun cc => (cc.pipelineStage, cc.previousStage)

-- What the two engines are to leave alike.
structure SameMove (first second : Db) (id : Uuid) : Prop where
  place : place first id = place second id
  rounds : first.interviewSchedules = second.interviewSchedules
  moves : moves first id = moves second id

inductive Agree (id : Uuid) :
    Except ServiceError (Db × Bool) → Except ServiceError (Db × CampaignCandidate) → Prop
  | moved (first second : Db) (cc : CampaignCandidate) (h : SameMove first second id) :
      Agree id (.ok (first, true)) (.ok (second, cc))
  | invalid (fromStage toStage : PipelineStage) :
      Agree id (.error (.invalidTransition fromStage toStage))
        (.error (.invalidTransition fromStage toStage))
  | forbidden (fromStage toStage : PipelineStage) (roles : List String) :
      Agree id (.error (.forbiddenRole fromStage toStage roles))
        (.error (.forbiddenRole fromStage toStage roles))
  | unreasoned (fromStage toStage : PipelineStage) :
      Agree id (.error (.reasonRequired fromStage toStage))
        (.error (.reasonRequired fromStage toStage))

-- The move is open to the role but for a reason.
def NeedsReason (table : TransitionTable) (cc : CampaignCandidate) (ask : Ask) : Prop :=
  ∃ row, get table cc.pipelineStage ask.toStage cc.previousStage = some row ∧
    ask.role ∈ row.allowedRoles ∧ row.requiresReason = true

theorem reasonGiven_eq (reason : Option String) (hno : ¬WhitespaceOnly reason) :
    StageTransitionService.reasonGiven reason =
      !PipelineTransitionService.reasonMissing reason := by
  cases reason with
  | none => rfl
  | some given =>
    by_cases hempty : given = ""
    · subst hempty
      rfl
    · have hblank : NonBlank given := by
        by_contra hblank
        exact hno ⟨given, rfl, hempty, hblank⟩
      have hgiven :=
        (StageTransitionService.reasonGiven_iff (some given)).mpr ⟨given, rfl, hblank⟩
      simp [hgiven, PipelineTransitionService.reasonMissing, hempty]

-- The rule both engines apply, with what each takes for a missing reason left open.
def judge (table : TransitionTable) (cc : CampaignCandidate) (ask : Ask) (missing : Bool) :
    Except ServiceError AllowedTransition :=
  match get table cc.pipelineStage ask.toStage cc.previousStage with
  | none => .error (.invalidTransition cc.pipelineStage ask.toStage)
  | some row =>
    if ask.role ∉ row.allowedRoles then
      .error (.forbiddenRole cc.pipelineStage ask.toStage [ask.role])
    else if row.requiresReason ∧ missing then
      .error (.reasonRequired cc.pipelineStage ask.toStage)
    else .ok row

section Judge

variable (table : TransitionTable) (db : Db) (now : Instant) (cc : CampaignCandidate) (ask : Ask)

theorem permit_actor : StageTransitionService.permit table cc ask.toStage ask.actor ask.reason =
      (judge table cc ask (!StageTransitionService.reasonGiven ask.reason)).map
        fun row => (row, ask.role) := by
  unfold StageTransitionService.permit judge
  cases hget : get table cc.pipelineStage ask.toStage cc.previousStage with
  | none => simp only [hget]; rfl
  | some row =>
    by_cases hlists : ask.role ∈ row.allowedRoles
    · have hfind : ask.actor.roles.find? (fun r => r ∈ row.allowedRoles) = some ask.role := by
        simp [Ask.actor, hlists]
      simp only [hget, hfind, hlists, not_true, if_false]
      split_ifs <;> rfl
    · have hfind : ask.actor.roles.find? (fun r => r ∈ row.allowedRoles) = none := by
        simp [Ask.actor, hlists]
      simp only [hget, hfind, hlists, not_false_eq_true, if_true]
      rfl

theorem permit_request (hrole : ask.role ≠ "") :
    PipelineTransitionService.permit table cc ask.request =
      judge table cc ask (PipelineTransitionService.reasonMissing ask.reason) := by
  have heffective : PipelineTransitionService.effectiveRole ask.request = ask.role := by
    simp [PipelineTransitionService.effectiveRole, Ask.request, hrole]
  unfold PipelineTransitionService.permit
  rw [heffective]
  rfl

theorem judge_congr (hno : ¬NeedsReason table cc ask) (missing other : Bool) :
    judge table cc ask missing = judge table cc ask other := by
  unfold judge
  cases hget : get table cc.pipelineStage ask.toStage cc.previousStage with
  | none => rfl
  | some row =>
    by_cases hlists : ask.role ∈ row.allowedRoles
    · have hrequires : ¬row.requiresReason = true :=
        fun hrequires => hno ⟨row, hget, hlists, hrequires⟩
      simp [hlists, hrequires]
    · simp [hlists]

theorem judge_needsReason (h : NeedsReason table cc ask) :
    judge table cc ask true = .error (.reasonRequired cc.pipelineStage ask.toStage) ∧
      ∃ row, judge table cc ask false = .ok row := by
  obtain ⟨row, hget, hlists, hrequires⟩ := h
  unfold judge
  simp [hget, hlists, hrequires]

theorem judge_error (missing : Bool) (e : ServiceError) (id : Uuid)
    (h : judge table cc ask missing = .error e) : Agree id (.error e) (.error e) := by
  unfold judge at h
  cases hget : get table cc.pipelineStage ask.toStage cc.previousStage with
  | none =>
    simp only [hget] at h
    rw [← Except.error.inj h]
    exact Agree.invalid _ _
  | some row =>
    simp only [hget] at h
    split_ifs at h
    · rw [← Except.error.inj h]
      exact Agree.unreasoned _ _
    · rw [← Except.error.inj h]
      exact Agree.forbidden _ _ _

theorem sameMove_of_moved {first second : Db} {after other : CampaignCandidate}
    (hfirst : Moved db first cc after) (hsecond : Moved db second cc other)
    (hstage : after.pipelineStage = other.pipelineStage)
    (hprevious : after.previousStage = other.previousStage)
    (hrounds : first.interviewSchedules = second.interviewSchedules) :
    SameMove first second cc.id := by
  constructor
  · simp only [place, hfirst.find?_self, hsecond.find?_self, Option.map_some, hstage, hprevious]
  · exact hrounds
  · obtain ⟨row, hrows, hfrom, hto⟩ := hfirst.historyOf_self
    obtain ⟨other, hothers, hfrom', hto'⟩ := hsecond.historyOf_self
    simp only [moves, hrows, hothers, List.map_append, List.map_cons, List.map_nil, hfrom, hto,
      hfrom', hto', hstage]

variable (withRepo : Bool) (env : RescoreEnv)
variable (hcc : db.campaignCandidates.find? cc.id = some cc) (hrole : HumanRole ask.role)

include hcc hrole

theorem transition_judged :
    match judge table cc ask (!StageTransitionService.reasonGiven ask.reason) with
    | .ok _ => ∃ db', StageTransitionService.transition table db cc.id ask.toStage ask.actor
        ask.reason none env now = .ok (db', true)
    | .error e => StageTransitionService.transition table db cc.id ask.toStage ask.actor
        ask.reason none env now = .error e := by
  have hsystem : "SYSTEM" ∉ ask.actor.roles := by
    simpa [Ask.actor] using Ne.symm hrole.2
  have h := StageTransitionService.transition_attributed table db now cc ask.toStage ask.actor
    ask.reason none env ask.by_ hcc rfl hsystem rfl
  rw [permit_actor] at h
  cases hjudge : judge table cc ask (!StageTransitionService.reasonGiven ask.reason) with
  | error e => rw [hjudge] at h; exact h
  | ok row => rw [hjudge] at h; exact h

omit hcc in
theorem transitionStage_judged :
    match judge table cc ask (PipelineTransitionService.reasonMissing ask.reason) with
    | .ok _ => ∃ result, PipelineTransitionService.transitionStage table db withRepo cc
        ask.request now = .ok result
    | .error e => PipelineTransitionService.transitionStage table db withRepo cc ask.request
        now = .error e := by
  have h := PipelineTransitionService.transitionStage_attributed table db now withRepo cc
    ask.request ask.by_ rfl
  rwa [permit_request table cc ask hrole.1] at h

theorem agree_of_judge
    (hsame : judge table cc ask (!StageTransitionService.reasonGiven ask.reason) =
      judge table cc ask (PipelineTransitionService.reasonMissing ask.reason)) :
    Agree cc.id
      (StageTransitionService.transition table db cc.id ask.toStage ask.actor ask.reason none env
        now)
      (PipelineTransitionService.transitionStage table db withRepo cc ask.request now) := by
  have hfirst := transition_judged table db now cc ask env hcc hrole
  have hsecond := transitionStage_judged table db now cc ask withRepo hrole
  rw [hsame] at hfirst
  cases hjudge : judge table cc ask (PipelineTransitionService.reasonMissing ask.reason) with
  | error e =>
    simp only [hjudge] at hfirst hsecond
    rw [hfirst, hsecond]
    exact judge_error table cc ask _ e cc.id hjudge
  | ok row =>
    simp only [hjudge] at hfirst hsecond
    obtain ⟨first, hfirst⟩ := hfirst
    obtain ⟨⟨second, other⟩, hsecond⟩ := hsecond
    obtain ⟨before, after, hmoved, hid, hstage, hprevious, -, hrounds, -⟩ :=
      StageTransitionService.transition_ok table db first now _ _ _ _ _ _ hfirst
    obtain ⟨hmoved', hstage', hprevious', -, hrounds', -⟩ :=
      PipelineTransitionService.transitionStage_ok table db second now _ _ _ _ hcc hsecond
    obtain rfl : before = cc := by
      have hbefore := hmoved.found
      rw [hid, hcc] at hbefore
      exact (Option.some.inj hbefore).symm
    rw [hfirst, hsecond]
    exact Agree.moved _ _ _ (sameMove_of_moved db before hmoved hmoved'
      (hstage.trans hstage'.symm) (hprevious.trans hprevious'.symm)
      (hrounds.trans hrounds'.symm))

omit hcc hrole in
theorem whitespaceOnly_reads (h : WhitespaceOnly ask.reason) :
    StageTransitionService.reasonGiven ask.reason = false ∧
      PipelineTransitionService.reasonMissing ask.reason = false := by
  obtain ⟨given, hgiven, hne, hblank⟩ := h
  rw [hgiven]
  constructor
  · by_contra hread
    obtain ⟨other, hother, hnonblank⟩ :=
      (StageTransitionService.reasonGiven_iff _).mp (Bool.eq_true_of_not_eq_false hread)
    exact hblank (Option.some.inj hother ▸ hnonblank)
  · simp [PipelineTransitionService.reasonMissing, hne]

theorem not_agree_whitespace (hspaces : WhitespaceOnly ask.reason)
    (hneeds : NeedsReason table cc ask) :
    ¬Agree cc.id
      (StageTransitionService.transition table db cc.id ask.toStage ask.actor ask.reason none env
        now)
      (PipelineTransitionService.transitionStage table db withRepo cc ask.request now) := by
  obtain ⟨hgiven, hmissing⟩ := whitespaceOnly_reads ask hspaces
  obtain ⟨hrefused, row, haccepted⟩ := judge_needsReason table cc ask hneeds
  have hfirst := transition_judged table db now cc ask env hcc hrole
  have hsecond := transitionStage_judged table db now cc ask withRepo hrole
  simp only [hgiven, Bool.not_false, hrefused] at hfirst
  simp only [hmissing, haccepted] at hsecond
  obtain ⟨result, hsecond⟩ := hsecond
  rw [hfirst, hsecond]
  intro h
  cases h

end Judge

-- The engines part exactly on text of spaces where the governing row asks for a
-- reason: `transition` strips it, `transition_stage` takes it.
theorem agree_iff (table : TransitionTable) (db : Db) (cc : CampaignCandidate) (ask : Ask)
    (withRepo : Bool) (env : RescoreEnv) (now : Instant)
    (hcc : db.campaignCandidates.find? cc.id = some cc) (hrole : HumanRole ask.role) :
    Agree cc.id
        (StageTransitionService.transition table db cc.id ask.toStage ask.actor ask.reason none
          env now)
        (PipelineTransitionService.transitionStage table db withRepo cc ask.request now) ↔
      ¬(WhitespaceOnly ask.reason ∧ NeedsReason table cc ask) := by
  by_cases hspaces : WhitespaceOnly ask.reason
  · by_cases hneeds : NeedsReason table cc ask
    · have hno := not_agree_whitespace table db now cc ask withRepo env hcc hrole hspaces hneeds
      exact ⟨fun h => absurd h hno, fun h => absurd ⟨hspaces, hneeds⟩ h⟩
    · have hagree := agree_of_judge table db now cc ask withRepo env hcc hrole
        (judge_congr table cc ask hneeds _ _)
      exact ⟨fun _ h => hneeds h.2, fun _ => hagree⟩
  · have hagree := agree_of_judge table db now cc ask withRepo env hcc hrole
      (by rw [reasonGiven_eq _ hspaces, Bool.not_not])
    exact ⟨fun _ h => hspaces h.1, fun _ => hagree⟩

def blankRejection : Ask where
  toStage := .rejected
  role := "RECRUITER"
  by_ := "recruiter"
  reason := some " "

theorem agree_iff_fresh :
    Agree 0 (StageTransitionService.transition seededTransitions freshDb 0 .rejected
          blankRejection.actor (some " ") none idle 2)
        (PipelineTransitionService.transitionStage seededTransitions freshDb true
          (CampaignCandidateService.newCandidate 0 0 0 0) blankRejection.request 2) ↔
      ¬(WhitespaceOnly (some " ") ∧ NeedsReason seededTransitions
        (CampaignCandidateService.newCandidate 0 0 0 0) blankRejection) :=
  agree_iff seededTransitions freshDb (CampaignCandidateService.newCandidate 0 0 0 0)
    blankRejection true idle 2 rfl ⟨by decide, by decide⟩

theorem blank_rejection_divides :
    HumanRole blankRejection.role ∧ ∃ cc, screenedDb.campaignCandidates.find? cc.id = some cc ∧
      ¬Agree cc.id (StageTransitionService.transition seededTransitions screenedDb cc.id .rejected
          blankRejection.actor blankRejection.reason none idle 2)
        (PipelineTransitionService.transitionStage seededTransitions screenedDb true cc
          blankRejection.request 2) := by
  obtain ⟨cc, hcc⟩ : ∃ cc, screenedDb.campaignCandidates.find? 0 = some cc := ⟨_, rfl⟩
  have hid : cc.id = 0 := ((screenedDb.campaignCandidates.find?_eq_some _ _).mp hcc).2
  have hplace : cc.pipelineStage = .screening ∧ cc.previousStage = some .uploaded := by
    have h := congrArg (Option.map fun cc => (cc.pipelineStage, cc.previousStage)) hcc
    have hpair := h.symm.trans (by decide +kernel : _ = some (.screening, some .uploaded))
    exact Prod.mk.inj (Option.some.inj hpair)
  have hrole : HumanRole blankRejection.role := ⟨by decide, by decide⟩
  rw [← hid] at hcc
  refine ⟨hrole, cc, hcc, ?_⟩
  have hneeds : NeedsReason seededTransitions cc blankRejection := by
    rw [NeedsReason, hplace.1, hplace.2]
    exact ⟨_, rfl, by decide, rfl⟩
  have hspaces : WhitespaceOnly blankRejection.reason := ⟨" ", rfl, by decide, by decide⟩
  exact not_agree_whitespace seededTransitions screenedDb 2 cc blankRejection true
    idle hcc hrole hspaces hneeds

end Agreement

end AiHiring
