import AiHiring.Compliance.DeletedResume

namespace AiHiring.Deletion

open Library
open InterviewScheduleRepository (interviewIds deleteByCampaignCandidateId)
open ResumeRepository (getAllVersionsByCandidate)
open CampaignCandidateRepository (getByCandidateId deleteStageHistory deleteStageTransitionLog)

-- The campaign_candidate with which the erasure takes a row.
def Row.erasedWith : Row → Option Uuid
  | .campaignCandidate id _ _ => some id
  | .campaignCandidateStageHistory _ campaignCandidateId => some campaignCandidateId
  | .stageTransitionLog _ campaignCandidateId => some campaignCandidateId
  | .campaignCandidateAIEvaluation _ campaignCandidateId => some campaignCandidateId
  | .candidateCompositeScoreHistory _ campaignCandidateId => some campaignCandidateId
  | .candidateNote _ campaignCandidateId => some campaignCandidateId
  | .interviewSchedule _ campaignCandidateId => some campaignCandidateId
  | .celeryTaskLog _ _ _ campaignCandidateId => campaignCandidateId
  | .deadLetterQueue _ _ _ campaignCandidateId => campaignCandidateId
  | _ => none

-- The round with which it takes one.
def Row.erasedWithRound : Row → Option Uuid
  | .interviewInterviewer _ interviewId => some interviewId
  | .interviewScheduleHistory _ interviewId => some interviewId
  | .interviewFeedback _ interviewScheduleId _ => some interviewScheduleId
  | .emailNotification _ _ _ interviewScheduleId => interviewScheduleId
  | _ => none

def Row.erasedWithResume : Row → Option Uuid
  | .resume id _ _ _ => some id
  | .resumeParseAttempt _ resumeId => some resumeId
  | .celeryTaskLog _ _ resumeId _ => resumeId
  | .deadLetterQueue _ _ resumeId _ => resumeId
  | _ => none

-- The candidate with whom it takes a row before the loop.
def Row.erasedFirst : Row → Option Uuid
  | .candidateSkill _ owner _ => some owner
  | .resumeEmbedding _ _ owner => some owner
  | .emailNotification _ (.candidate owner) _ _ => some owner
  | _ => none

-- And after all the others.
def Row.erasedLast : Row → Option Uuid
  | .candidate id => some id
  | .candidateConsent _ owner => some owner
  | _ => none

-- How far the loop gets before it meets a round.
def roundPosition (rows : List Row) (campaignCandidateIds : List Uuid)
    (interviewId : Option Uuid) : ℕ :=
  campaignCandidateIds.findIdx fun cc =>
    interviewId.any (· ∈ interviewIds rows cc)

namespace CandidateErasureService

def resumeIds (rows : List Row) (candidateId : Uuid) : List Uuid :=
  (getAllVersionsByCandidate rows candidateId).map ResumeVersion.id

-- Rows that name rows of the candidate are the candidate's, and go with them.
structure Erasable (rows : List Row) (candidateId : Uuid) : Prop where
  skills {id owner resumeId} : .candidateSkill id owner resumeId ∈ rows →
    resumeId ∈ resumeIds rows candidateId → owner = candidateId
  embeddings {id resumeId owner} : .resumeEmbedding id resumeId owner ∈ rows →
    resumeId ∈ resumeIds rows candidateId → owner = candidateId
  applications {id owner resumeId} : .campaignCandidate id owner resumeId ∈ rows →
    resumeId ∈ resumeIds rows candidateId →
    id ∈ getByCandidateId rows candidateId
  feedback {id i j i'} : .interviewFeedback id i j ∈ rows → .interviewInterviewer j i' ∈ rows →
    roundPosition rows (getByCandidateId rows candidateId) (some i) ≤
      roundPosition rows (getByCandidateId rows candidateId) (some i')
  interviewerEmails {id j cc i i'} : .emailNotification id (.externalInterviewer j) cc i ∈ rows →
    .interviewInterviewer j i' ∈ rows →
    roundPosition rows (getByCandidateId rows candidateId) i ≤
      roundPosition rows (getByCandidateId rows candidateId) (some i')
  applicationEmails {id recipient cc i} : .emailNotification id recipient (some cc) i ∈ rows →
    recipient ≠ .candidate candidateId →
    roundPosition rows (getByCandidateId rows candidateId) i ≤
      position (getByCandidateId rows candidateId) (some cc)
  letters : LetterFirst rows (getByCandidateId rows candidateId)
    (resumeIds rows candidateId)

variable {rows : List Row} {candidateId : Uuid} {s r : Row}

variable {row : Row}

theorem takes_rounds (hrow : row ∈ rows) (cc : Uuid) :
    takes (Call.statements (deleteByCampaignCandidateId rows cc)) row =
      true ↔ (∃ id, row = .interviewSchedule id cc) ∨
        row.erasedWithRound.any (· ∈ interviewIds rows cc) = true := by
  by_cases hnone : interviewIds rows cc = []
  · have hround (id : Uuid) : row ≠ .interviewSchedule id cc := by
      rintro rfl
      have hmem : id ∈ interviewIds rows cc :=
        List.mem_filterMap.mpr ⟨_, hrow, if_pos rfl⟩
      rw [hnone] at hmem
      exact List.not_mem_nil hmem
    have hany (i : Option Uuid) : (i.any fun x => x ∈ ([] : List Uuid)) = false := by
      cases i <;> rfl
    simp only [deleteByCampaignCandidateId, if_pos hnone]
    simp only [hnone, hround, exists_false, hany, Call.statements_other, Call.statements_nil,
      takes_nil, Bool.false_eq_true, or_self]
  · simp only [deleteByCampaignCandidateId, if_neg hnone,
      Call.statements_other, Call.statements_delete, Call.statements_nil]
    cases row <;> simp only [takes_cons, takes_nil, Row.erasedWithRound, Option.any_some,
      Option.any_none, Bool.or_false, Bool.false_or, decide_eq_true_eq, reduceCtorEq, exists_false,
      false_or, or_false, Row.interviewSchedule.injEq, exists_eq_left', Bool.false_eq_true]

theorem takes_clear (hrow : row ∈ rows) (cc : Uuid) :
    takes (Call.statements (clearCampaignCandidate rows cc)) row = true ↔
      row.erasedWith = some cc ∨ row.erasedWithRound.any (· ∈ interviewIds rows cc) = true := by
  simp only [clearCampaignCandidate, Call.statements_append, takes_append, Bool.or_eq_true,
    takes_rounds hrow]
  cases row <;> simp only [deleteStageHistory, deleteStageTransitionLog,
    CandidateNoteRepository.deleteByCampaignCandidateId,
    CandidateCompositeScoreHistoryRepository.deleteByCampaignCandidateId,
    DeadLetterQueueRepository.deleteByCampaignCandidateId,
    CeleryTaskLogRepository.deleteByCampaignCandidateId, CampaignCandidateRepository.delete,
    Call.statements_delete, Call.statements_other, Call.statements_nil, takes_cons, takes_nil,
    Bool.or_false, Bool.false_or, decide_eq_true_eq, Row.erasedWith, Row.erasedWithRound,
    reduceCtorEq, exists_false, false_or, or_false, Option.any_none, Bool.false_eq_true,
    Option.some.injEq, Row.interviewSchedule.injEq, exists_eq_left', or_self]

theorem takes_clearResume (resume : ResumeVersion) (row : Row) :
    takes (Call.statements (clearResume resume)) row = true ↔
      row.erasedWithResume = some resume.id := by
  cases row <;> simp [clearResume, Row.erasedWithResume]

theorem noLater_clear (h : References s r) (cc : Uuid)
    (hs : takes (Call.statements (clearCampaignCandidate rows cc)) s = true) :
    NoLater (Call.statements (clearCampaignCandidate rows cc)) s r := by
  revert hs
  simp only [clearCampaignCandidate, deleteStageHistory, deleteStageTransitionLog,
    CandidateNoteRepository.deleteByCampaignCandidateId, deleteByCampaignCandidateId,
    CandidateCompositeScoreHistoryRepository.deleteByCampaignCandidateId,
    DeadLetterQueueRepository.deleteByCampaignCandidateId,
    CeleryTaskLogRepository.deleteByCampaignCandidateId, CampaignCandidateRepository.delete]
  split_ifs
  all_goals
    simp only [List.cons_append, List.nil_append, Call.statements_delete, Call.statements_other,
      Call.statements_nil]
    cases h <;> simp only [noLater_cons, noLater_nil, takes_cons, takes_nil, Bool.or_false,
      Bool.false_or, Bool.false_eq_true, false_or, decide_eq_true_eq, decide_eq_false_iff_not,
      true_and, and_true, or_true, implies_true, IsEmpty.forall_iff]
    all_goals exact .inl

theorem noLater_clearResume (h : References s r) (resume : ResumeVersion)
    (hs : takes (Call.statements (clearResume resume)) s = true) :
    NoLater (Call.statements (clearResume resume)) s r := by
  rw [takes_clearResume] at hs
  cases h <;> simp_all [noLater_cons, clearResume, Row.erasedWithResume]

theorem mem_getByCandidateId (rows : List Row) (candidateId cc : Uuid) :
    cc ∈ getByCandidateId rows candidateId ↔
      ∃ resumeId, .campaignCandidate cc candidateId resumeId ∈ rows := by
  rw [getByCandidateId, List.mem_filterMap]
  constructor
  · rintro ⟨row, hrow, hsome⟩
    cases row with
    | campaignCandidate id owner resumeId =>
      by_cases howner : owner = candidateId
      · obtain rfl : id = cc := by simpa [howner] using hsome
        exact ⟨resumeId, howner ▸ hrow⟩
      · simp [howner] at hsome
    | _ => simp at hsome
  · rintro ⟨resumeId, hrow⟩
    exact ⟨_, hrow, if_pos rfl⟩

theorem mem_getAllVersions (rows : List Row) (candidateId : Uuid) (resume : ResumeVersion) :
    resume ∈ getAllVersionsByCandidate rows candidateId ↔
      .resume resume.id candidateId resume.filePath resume.versionNumber ∈ rows := by
  rw [getAllVersionsByCandidate, List.mem_insertionSort, List.mem_filterMap]
  constructor
  · rintro ⟨row, hrow, hsome⟩
    cases row with
    | resume id owner filePath versionNumber =>
      by_cases howner : owner = candidateId
      · obtain rfl : _ = resume := by simpa [howner] using hsome
        exact howner ▸ hrow
      · simp [howner] at hsome
    | _ => simp at hsome
  · intro hrow
    exact ⟨_, hrow, if_pos rfl⟩

theorem mem_resumeIds (rows : List Row) (candidateId resumeId : Uuid) :
    resumeId ∈ resumeIds rows candidateId ↔
      ∃ filePath versionNumber, .resume resumeId candidateId filePath versionNumber ∈ rows := by
  rw [resumeIds, List.mem_map]
  constructor
  · rintro ⟨resume, hresume, rfl⟩
    exact ⟨_, _, (mem_getAllVersions rows candidateId resume).mp hresume⟩
  · rintro ⟨filePath, versionNumber, hrow⟩
    exact ⟨⟨resumeId, filePath, versionNumber⟩,
      (mem_getAllVersions rows candidateId _).mpr hrow, rfl⟩

theorem getById_eq_some {found : Uuid}
    (h : CandidateRepository.getById rows candidateId = some found) :
    .candidate candidateId ∈ rows := by
  obtain ⟨row, hrow, hsome⟩ := List.exists_of_findSome?_eq_some h
  cases row with
  | candidate id =>
    by_cases hid : id = candidateId
    · exact hid ▸ hrow
    · simp [hid] at hsome
  | _ => simp at hsome

def first (candidateId : Uuid) : List Statement :=
  [ResumeRepository.deleteEmbeddingsByCandidate candidateId,
    ResumeRepository.deleteCandidateSkillsByCandidate candidateId,
    EmailNotificationRepository.deleteByCandidate candidateId]

def last (candidateId : Uuid) : List Statement :=
  [ConsentRepository.deleteByCandidate candidateId, CandidateRepository.delete candidateId]

theorem statements_calls (rows : List Row) (candidateId : Uuid) :
    Call.statements (calls rows candidateId) = Call.statements (first candidateId) ++
        ((((getByCandidateId rows candidateId).flatMap fun cc =>
            Call.statements (clearCampaignCandidate rows cc)) ++
          (getAllVersionsByCandidate rows candidateId).flatMap fun resume =>
            Call.statements (clearResume resume)) ++
        Call.statements (last candidateId)) := by
  simp [calls, first, last, Call.statements_flatMap]

theorem takes_first (candidateId : Uuid) (row : Row) :
    takes (Call.statements (first candidateId)) row = true ↔
      row.erasedFirst = some candidateId := by
  cases row with
  | emailNotification id recipient cc i =>
    cases recipient <;> simp [first, Row.erasedFirst]
  | _ => simp [first, Row.erasedFirst]

-- The round of the loop that takes a row.
def loopPosition (rows : List Row) (candidateId : Uuid) (row : Row) : ℕ :=
  (getByCandidateId rows candidateId).findIdx fun cc =>
    row.erasedWith = some cc ∨ row.erasedWithRound.any (· ∈ interviewIds rows cc)

def InLoop (rows : List Row) (candidateId : Uuid) (row : Row) : Prop :=
  ∃ cc ∈ getByCandidateId rows candidateId,
    row.erasedWith = some cc ∨ row.erasedWithRound.any (· ∈ interviewIds rows cc) = true

theorem takes_loops (hrow : row ∈ rows) :
    takes (((getByCandidateId rows candidateId).flatMap fun cc =>
          Call.statements (clearCampaignCandidate rows cc)) ++
        (getAllVersionsByCandidate rows candidateId).flatMap fun resume =>
          Call.statements (clearResume resume)) row = true ↔
      InLoop rows candidateId row ∨
        ∃ resumeId ∈ resumeIds rows candidateId, row.erasedWithResume = some resumeId := by
  rw [takes_append, Bool.or_eq_true, takes_flatMap, takes_flatMap, List.any_eq_true,
    List.any_eq_true]
  simp only [takes_clear hrow, takes_clearResume, InLoop, resumeIds, List.mem_map]
  refine or_congr Iff.rfl ?_
  constructor
  · rintro ⟨resume, hresume, hcleared⟩
    exact ⟨resume.id, ⟨resume, hresume, rfl⟩, hcleared⟩
  · rintro ⟨_, ⟨resume, hresume, rfl⟩, hcleared⟩
    exact ⟨resume, hresume, hcleared⟩

theorem noLater_loops_iff (h : References s r) (hs : s ∈ rows) (hr : r ∈ rows) :
    NoLater (((getByCandidateId rows candidateId).flatMap fun cc =>
          Call.statements (clearCampaignCandidate rows cc)) ++
        (getAllVersionsByCandidate rows candidateId).flatMap fun resume =>
          Call.statements (clearResume resume)) s r ↔
      loopPosition rows candidateId s ≤ loopPosition rows candidateId r ∧
        (InLoop rows candidateId s ∨ position (resumeIds rows candidateId) s.erasedWithResume ≤
            position (resumeIds rows candidateId) r.erasedWithResume) := by
  have hloop {row : Row} (hrow : row ∈ rows) (cc : Uuid) :
      takes (Call.statements (clearCampaignCandidate rows cc)) row =
        decide (row.erasedWith = some cc ∨ row.erasedWithRound.any
          (· ∈ interviewIds rows cc) = true) := by
    rw [Bool.eq_iff_iff, takes_clear hrow, decide_eq_true_eq]
  have hlast (row : Row) (resume : ResumeVersion) :
      takes (Call.statements (clearResume resume)) row =
        decide (row.erasedWithResume = some resume.id) := by
    rw [Bool.eq_iff_iff, takes_clearResume, decide_eq_true_eq]
  rw [noLater_loops _ _ _ _ s r (fun cc _ => noLater_clear h cc)
    fun resume _ => noLater_clearResume h resume]
  simp only [hloop hs, hloop hr, hlast, decide_eq_true_eq, loopPosition, InLoop, position,
    resumeIds, List.findIdx_map, Function.comp_def]

theorem before_last (h : References s r) (hs : s ∈ rows) (candidateId : Uuid) :
    s.erasedFirst = some candidateId ∨ (InLoop rows candidateId s ∨
        ∃ resumeId ∈ resumeIds rows candidateId, s.erasedWithResume = some resumeId) ∨
      NoLater (Call.statements (last candidateId)) s r := by
  by_cases hr : takes (Call.statements (last candidateId)) r = true
  · cases h with
    | @consent id c =>
      have hc : c = candidateId := by simpa [last] using hr
      refine .inr (.inr ?_)
      simp [last, noLater_cons, hc]
    | @resume id c path v =>
      have hc : c = candidateId := by simpa [last] using hr
      refine .inr (.inl (.inr ⟨id, ?_, rfl⟩))
      exact (mem_resumeIds rows candidateId id).mpr ⟨path, v, hc ▸ hs⟩
    | @applicationCandidate id c r' =>
      have hc : c = candidateId := by simpa [last] using hr
      refine .inr (.inl (.inl ⟨id, ?_, .inl rfl⟩))
      exact (mem_getByCandidateId rows candidateId id).mpr ⟨r', hc ▸ hs⟩
    | @skillCandidate id c r' =>
      have hc : c = candidateId := by simpa [last] using hr
      exact .inl (congrArg some hc)
    | @emailCandidate id c cc i =>
      have hc : c = candidateId := by simpa [last] using hr
      exact .inl (congrArg some hc)
    | _ => simp [last] at hr
  · exact .inr (.inr (noLater_of_not_takes (by simpa using hr)))

theorem noLater_calls (h : References s r) (hs : s ∈ rows) (hr : r ∈ rows) :
    NoLater (Call.statements (calls rows candidateId)) s r ↔ s.erasedFirst = some candidateId ∨
        loopPosition rows candidateId s ≤ loopPosition rows candidateId r ∧
          (InLoop rows candidateId s ∨ position (resumeIds rows candidateId) s.erasedWithResume ≤
              position (resumeIds rows candidateId) r.erasedWithResume) := by
  have hfirst : NoLater (Call.statements (first candidateId)) s r := by
    refine noLater_of_not_takes ?_
    rw [← Bool.not_eq_true, takes_first]
    cases h <;> simp [Row.erasedFirst]
  rw [statements_calls, noLater_append, noLater_append, takes_first, takes_loops hs,
    noLater_loops_iff h hs hr]
  constructor
  · rintro ⟨-, howned | ⟨hloops, -⟩⟩
    · exact .inl howned
    · exact .inr hloops
  · rintro (howned | hloops)
    · exact ⟨hfirst, .inl howned⟩
    · rcases before_last h hs candidateId with howned | hlast
      · exact ⟨hfirst, .inl howned⟩
      · exact ⟨hfirst, .inr ⟨hloops, hlast⟩⟩

theorem loopPosition_le (h : ∀ cc ∈ getByCandidateId rows candidateId,
    (r.erasedWith = some cc ∨ r.erasedWithRound.any (· ∈ interviewIds rows cc) = true) →
    (s.erasedWith = some cc ∨ s.erasedWithRound.any (· ∈ interviewIds rows cc) = true)) :
    loopPosition rows candidateId s ≤ loopPosition rows candidateId r := by
  refine List.findIdx_le_findIdx fun cc hcc hr => ?_
  rw [decide_eq_true_eq] at hr ⊢
  exact h cc hcc hr

theorem mem_interviewIds (rows : List Row) (cc i : Uuid) :
    i ∈ interviewIds rows cc ↔ .interviewSchedule i cc ∈ rows := by
  rw [interviewIds, List.mem_filterMap]
  constructor
  · rintro ⟨row, hrow, hsome⟩
    cases row with
    | interviewSchedule id cc' =>
      by_cases hcc : cc' = cc
      · obtain rfl : id = i := by simpa [hcc] using hsome
        exact hcc ▸ hrow
      · simp [hcc] at hsome
    | _ => simp at hsome
  · intro hrow
    exact ⟨_, hrow, if_pos rfl⟩

theorem loopPosition_direct (h : row.erasedWithRound = none) :
    loopPosition rows candidateId row =
      position (getByCandidateId rows candidateId) row.erasedWith := by
  simp [loopPosition, position, h]

theorem loopPosition_round (h : row.erasedWith = none) :
    loopPosition rows candidateId row = roundPosition rows (getByCandidateId rows candidateId)
        row.erasedWithRound := by
  simp [loopPosition, roundPosition, h]

theorem loopPosition_le_none (h : r.erasedWith = none) (h' : r.erasedWithRound = none) :
    loopPosition rows candidateId s ≤ loopPosition rows candidateId r := by
  rw [loopPosition_direct h', h, position_none]
  exact List.findIdx_le_length

-- The foreign keys accept the statements, and no embedding is left behind,
-- exactly when the candidate is erasable.
theorem erasable_iff : ((∀ s ∈ rows, ∀ r ∈ rows, References s r →
      NoLater (Call.statements (calls rows candidateId)) s r) ∧
    ∀ id resumeId owner, .resumeEmbedding id resumeId owner ∈ rows →
      resumeId ∈ resumeIds rows candidateId → owner = candidateId) ↔
    Erasable rows candidateId := by
  constructor
  · intro ⟨horder, hembeddings⟩
    have hcalls {s r : Row} (hs : s ∈ rows) (hr : r ∈ rows) (h : References s r) :=
      (noLater_calls h hs hr).mp (horder s hs r hr h)
    refine ⟨?_, fun {id resumeId owner} => hembeddings id resumeId owner, ?_, ?_, ?_, ?_, ?_, ?_⟩
    · intro id owner resumeId hs hmem
      obtain ⟨filePath, versionNumber, hr⟩ := (mem_resumeIds rows candidateId resumeId).mp hmem
      rcases hcalls hs hr .skillResume with hfirst | ⟨-, ⟨cc, -, hloop⟩ | hle⟩
      · exact Option.some.inj hfirst
      · simp [Row.erasedWith, Row.erasedWithRound] at hloop
      · exact absurd hmem ((length_le_position _ resumeId).mp (position_none _ ▸ hle))
    · intro id owner resumeId hs hmem
      obtain ⟨filePath, versionNumber, hr⟩ := (mem_resumeIds rows candidateId resumeId).mp hmem
      rcases hcalls hs hr .applicationResume with hfirst | ⟨-, ⟨cc, hcc, hloop⟩ | hle⟩
      · simp [Row.erasedFirst] at hfirst
      · obtain rfl : id = cc := by simpa [Row.erasedWith, Row.erasedWithRound] using hloop
        exact hcc
      · exact absurd hmem ((length_le_position _ resumeId).mp (position_none _ ▸ hle))
    · intro id i j i' hs hr
      rcases hcalls hs hr .feedbackInterviewer with hfirst | ⟨hle, -⟩
      · simp [Row.erasedFirst] at hfirst
      · rwa [loopPosition_round rfl, loopPosition_round rfl] at hle
    · intro id j cc i i' hs hr
      rcases hcalls hs hr .emailInterviewer with hfirst | ⟨hle, -⟩
      · simp [Row.erasedFirst] at hfirst
      · rwa [loopPosition_round rfl, loopPosition_round rfl] at hle
    · intro id recipient cc i hs hother
      by_cases hcc : cc ∈ getByCandidateId rows candidateId
      · obtain ⟨resumeId, hr⟩ := (mem_getByCandidateId rows candidateId cc).mp hcc
        rcases hcalls hs hr .emailApplication with hfirst | ⟨hle, -⟩
        · cases recipient with
          | candidate owner => exact absurd (Option.some.inj hfirst) fun h => hother (h ▸ rfl)
          | externalInterviewer j => simp [Row.erasedFirst] at hfirst
        · rwa [loopPosition_round rfl, loopPosition_direct rfl] at hle
      · have hlength := (length_le_position _ cc).mpr hcc
        exact Nat.le_trans List.findIdx_le_length hlength
    · intro id taskId r cc id' r' cc' hs hr
      rcases hcalls hs hr .letterTask with hfirst | ⟨hle, -⟩
      · simp [Row.erasedFirst] at hfirst
      · rwa [loopPosition_direct rfl, loopPosition_direct rfl] at hle
    · intro id taskId r cc id' r' cc' hs hr hnot
      rcases hcalls hs hr .letterTask with hfirst | ⟨-, ⟨x, hx, hloop⟩ | hle⟩
      · simp [Row.erasedFirst] at hfirst
      · rcases hloop with hloop | hloop
        · exact absurd hloop (hnot x hx)
        · simp [Row.erasedWithRound] at hloop
      · exact hle
  · intro h
    refine ⟨?_, fun id resumeId owner => h.embeddings⟩
    intro s hs r hr href
    rw [noLater_calls href hs hr]
    cases href with
    | feedbackInterviewer =>
      refine .inr ⟨?_, .inr (Nat.le_refl _)⟩
      rw [loopPosition_round rfl, loopPosition_round rfl]
      exact h.feedback hs hr
    | emailInterviewer =>
      refine .inr ⟨?_, .inr (Nat.le_refl _)⟩
      rw [loopPosition_round rfl, loopPosition_round rfl]
      exact h.interviewerEmails hs hr
    | @emailApplication id recipient cc i c r =>
      by_cases hown : recipient = .candidate candidateId
      · exact .inl (by rw [hown]; rfl)
      · refine .inr ⟨?_, .inr (Nat.le_refl _)⟩
        rw [loopPosition_round rfl, loopPosition_direct rfl]
        exact h.applicationEmails hs hown
    | letterTask =>
      refine .inr ⟨?_, ?_⟩
      · rw [loopPosition_direct rfl, loopPosition_direct rfl]
        exact h.letters.loop hs hr
      · rw [or_iff_not_imp_left]
        intro hnot
        exact h.letters.rest hs hr fun x hx hsome => hnot ⟨x, hx, .inl hsome⟩
    | @skillResume id c r owner path v =>
      by_cases hmem : r ∈ resumeIds rows candidateId
      · exact .inl (congrArg some (h.skills hs hmem))
      · refine .inr ⟨loopPosition_le_none rfl rfl, .inr ?_⟩
        exact position_none (resumeIds rows candidateId) ▸ (length_le_position _ r).mpr hmem
    | @applicationResume id c r owner path v =>
      refine .inr ⟨loopPosition_le_none rfl rfl, ?_⟩
      by_cases hmem : r ∈ resumeIds rows candidateId
      · exact .inl ⟨id, h.applications hs hmem, .inl rfl⟩
      · refine .inr ?_
        exact position_none (resumeIds rows candidateId) ▸ (length_le_position _ r).mpr hmem
    | interviewer | roundHistory | feedbackRound | emailRound =>
      refine .inr ⟨loopPosition_le fun cc hcc hround => .inr ?_, .inr (Nat.le_refl _)⟩
      obtain rfl := Option.some.inj (hround.resolve_right Bool.false_ne_true)
      simpa [Row.erasedWithRound, mem_interviewIds] using hr
    | stageHistory | transition | aiEvaluation | scoreHistory | note | round =>
      exact .inr ⟨loopPosition_le fun cc hcc hround => hround, .inr (Nat.le_refl _)⟩
    | taskApplication | letterApplication =>
      refine .inr ⟨loopPosition_le fun cc hcc hround => hround, .inr ?_⟩
      exact position_le_none _ _
    | parseAttempt | taskResume | letterResume =>
      exact .inr ⟨loopPosition_le_none rfl rfl, .inr (Nat.le_refl _)⟩
    | consent | resume | skillCandidate | applicationCandidate | emailCandidate =>
      exact .inr ⟨loopPosition_le_none rfl rfl, .inr (position_le_none _ _)⟩

def gone (rows : List Row) (candidateId : Uuid) : List Key :=
  .candidate candidateId :: (resumeIds rows candidateId).map .resume ++
    (getByCandidateId rows candidateId).map .campaignCandidate

def own (rows : List Row) (candidateId : Uuid) : List Key :=
  gone rows candidateId ++
    ((getByCandidateId rows candidateId).flatMap (interviewIds rows)).map .interviewSchedule

theorem takes_last (candidateId : Uuid) (row : Row) :
    takes (Call.statements (last candidateId)) row = true ↔ row.erasedLast = some candidateId := by
  cases row <;> simp [last, Row.erasedLast]

theorem takes_calls (hrow : row ∈ rows) :
    takes (Call.statements (calls rows candidateId)) row = true ↔
      row.erasedFirst = some candidateId ∨ InLoop rows candidateId row ∨
        (∃ resumeId ∈ resumeIds rows candidateId, row.erasedWithResume = some resumeId) ∨
        row.erasedLast = some candidateId := by
  rw [statements_calls, takes_append, takes_append, Bool.or_eq_true, Bool.or_eq_true, takes_first,
    takes_loops hrow, takes_last, or_assoc]

theorem not_apart_of_takes (hrow : row ∈ rows)
    (h : takes (Call.statements (calls rows candidateId)) row = true) :
    ¬row.Apart (own rows candidateId) := by
  intro hapart
  have hcandidate : .candidate candidateId ∈ own rows candidateId := by simp [own, gone]
  rcases (takes_calls hrow).mp h with hfirst | ⟨cc, hcc, hwith | hround⟩ |
    ⟨resumeId, hmem, hwith⟩ | hlast
  · refine hapart.2 (.candidate candidateId) ?_ hcandidate
    cases row with
    | emailNotification id recipient cc i =>
      cases recipient <;> simp_all [Row.erasedFirst, Row.names, EmailRecipient.key]
    | _ => simp_all [Row.erasedFirst, Row.names]
  · have howned : .campaignCandidate cc ∈ own rows candidateId := by simp [own, gone, hcc]
    cases row <;> simp only [Row.erasedWith, reduceCtorEq, Option.some.injEq] at hwith <;>
      subst hwith
    all_goals
      first
        | exact hapart.1 _ rfl howned
        | exact hapart.2 (.campaignCandidate _) (by simp [Row.names]) howned
  · cases hwith : row.erasedWithRound with
    | none => simp [hwith] at hround
    | some i =>
      have hi : i ∈ interviewIds rows cc := by
        simpa [hwith] using hround
      have howned : .interviewSchedule i ∈ own rows candidateId := by
        simp only [own, List.mem_append, List.mem_map, List.mem_flatMap]
        exact .inr ⟨i, ⟨cc, hcc, hi⟩, rfl⟩
      refine hapart.2 (.interviewSchedule i) ?_ howned
      cases row <;> simp_all [Row.erasedWithRound, Row.names]
  · have howned : .resume resumeId ∈ own rows candidateId := by simp [own, gone, hmem]
    cases row <;> simp only [Row.erasedWithResume, reduceCtorEq, Option.some.injEq] at hwith <;>
      subst hwith
    all_goals
      first
        | exact hapart.1 _ rfl howned
        | exact hapart.2 (.resume _) (by simp [Row.names]) howned
  · cases row <;> simp only [Row.erasedLast, reduceCtorEq, Option.some.injEq] at hlast <;>
      subst hlast
    · exact hapart.1 _ rfl hcandidate
    · exact hapart.2 _ List.mem_cons_self hcandidate

theorem apart_of_not_takes (hfound : .candidate candidateId ∈ rows)
    (hembeddings : ∀ id resumeId owner, .resumeEmbedding id resumeId owner ∈ rows →
      resumeId ∈ resumeIds rows candidateId → owner = candidateId)
    (horder : ∀ s ∈ rows, ∀ r ∈ rows, References s r →
      NoLater (Call.statements (calls rows candidateId)) s r) (hrow : row ∈ rows)
    (h : takes (Call.statements (calls rows candidateId)) row = false) :
    row.Apart (gone rows candidateId) := by
  have hnot : ¬(row.erasedFirst = some candidateId ∨ InLoop rows candidateId row ∨
      (∃ resumeId ∈ resumeIds rows candidateId, row.erasedWithResume = some resumeId) ∨
      row.erasedLast = some candidateId) := by
    rw [← takes_calls hrow, h]
    exact Bool.false_ne_true
  have hfirst (c : Uuid) (hc : c = candidateId) : row.erasedFirst ≠ some c :=
    fun hsome => hnot (.inl (hc ▸ hsome))
  refine ⟨?_, ?_⟩
  · intro k hkey hk
    rcases List.mem_cons.mp hk with rfl | hk
    · cases row <;> simp only [Row.key, Option.mem_def, reduceCtorEq, Option.some.injEq,
        Key.candidate.injEq] at hkey
      exact hnot (.inr (.inr (.inr (congrArg some hkey))))
    · rcases List.mem_append.mp hk with hk | hk
      · obtain ⟨resumeId, hmem, rfl⟩ := List.mem_map.mp hk
        cases row <;> simp only [Row.key, Option.mem_def, reduceCtorEq, Option.some.injEq,
          Key.resume.injEq] at hkey
        exact hnot (.inr (.inr (.inl ⟨resumeId, hmem, congrArg some hkey⟩)))
      · obtain ⟨cc, hcc, rfl⟩ := List.mem_map.mp hk
        cases row <;> simp only [Row.key, Option.mem_def, reduceCtorEq, Option.some.injEq,
          Key.campaignCandidate.injEq] at hkey
        exact hnot (.inr (.inl ⟨cc, hcc, .inl (congrArg some hkey)⟩))
  · intro k hnames hk
    rcases List.mem_cons.mp hk with rfl | hk
    · refine not_mem_names horder hrow h hfound rfl ?_ ?_ hnames
      · exact (takes_calls hfound).mpr (.inr (.inr (.inr rfl)))
      · rintro id resumeId owner rfl hmem
        have heq : candidateId = owner := by simpa [Row.names] using hmem
        exact hfirst owner heq.symm rfl
    · rcases List.mem_append.mp hk with hk | hk
      · obtain ⟨resumeId, hmem, rfl⟩ := List.mem_map.mp hk
        obtain ⟨filePath, versionNumber, hr⟩ := (mem_resumeIds rows candidateId resumeId).mp hmem
        refine not_mem_names horder hrow h hr rfl ?_ ?_ hnames
        · exact (takes_calls hr).mpr (.inr (.inr (.inl ⟨resumeId, hmem, rfl⟩)))
        · rintro id resumeId' owner rfl hmem'
          have heq : resumeId = resumeId' := by simpa [Row.names] using hmem'
          exact hfirst owner (hembeddings id resumeId' owner hrow (heq ▸ hmem)) rfl
      · obtain ⟨cc, hcc, rfl⟩ := List.mem_map.mp hk
        obtain ⟨resumeId, hr⟩ := (mem_getByCandidateId rows candidateId cc).mp hcc
        refine not_mem_names horder hrow h hr rfl ?_ ?_ hnames
        · exact (takes_calls hr).mpr (.inr (.inl ⟨cc, hcc, .inl rfl⟩))
        · rintro id resumeId' owner rfl hmem'
          simp [Row.names] at hmem'

theorem files_calls (rows : List Row) (candidateId : Uuid) : Call.files (calls rows candidateId) =
      (getAllVersionsByCandidate rows candidateId).map ResumeVersion.filePath := by
  have hloop (cc : Uuid) : Call.files (clearCampaignCandidate rows cc) = [] := by
    by_cases hnone : interviewIds rows cc = []
    · simp [clearCampaignCandidate, deleteByCampaignCandidateId, hnone]
    · simp [clearCampaignCandidate, deleteByCampaignCandidateId, hnone]
  have hresume (resume : ResumeVersion) :
      Call.files (clearResume resume) = [resume.filePath] := by simp [clearResume]
  rw [List.map_eq_flatMap]
  simp [calls, Call.files_flatMap, hloop, hresume]

theorem whole_iff {w : World} {found : Uuid}
    (h : CandidateRepository.getById w.rows candidateId = some found) :
    Whole (eraseCandidate candidateId) (gone w.rows candidateId) (own w.rows candidateId) w ↔
      Erasable w.rows candidateId ∧
        ∀ resume ∈ getAllVersionsByCandidate w.rows candidateId, resume.filePath ∉ w.files := by
  have hfound := getById_eq_some h
  rw [whole_lookup (calls w.rows candidateId) fun fails => by
      simp only [eraseCandidate, h],
    transaction_whole_iff fun row => not_apart_of_takes, ← erasable_iff, files_calls,
    List.forall_mem_map]
  constructor
  · rintro ⟨horder, hapart, hfiles⟩
    refine ⟨⟨horder, ?_⟩, hfiles⟩
    intro id resumeId owner hrow hmem
    cases htaken : takes (Call.statements (calls w.rows candidateId))
        (.resumeEmbedding id resumeId owner) with
    | false =>
      have hgone : .resume resumeId ∈ gone w.rows candidateId := by simp [gone, hmem]
      exact absurd hgone ((hapart _ hrow htaken).2 _ List.mem_cons_self)
    | true =>
      rcases (takes_calls hrow).mp htaken with hfirst | ⟨cc, -, hloop⟩ | ⟨x, -, hwith⟩ | hlast
      · exact Option.some.inj hfirst
      · simp [Row.erasedWith, Row.erasedWithRound] at hloop
      · simp [Row.erasedWithResume] at hwith
      · simp [Row.erasedLast] at hlast
  · rintro ⟨⟨horder, hembeddings⟩, hfiles⟩
    refine ⟨horder, ?_, hfiles⟩
    intro row hrow hstays
    exact apart_of_not_takes hfound hembeddings horder hrow hstays

end CandidateErasureService

-- The law of both deletions, for every state and every row they may be called for.
theorem deletions_whole_iff (w : World) :
    (∀ resumeId resume, ResumeRepository.getById w.rows resumeId = some resume →
      (Whole (ResumeCleanupService.deleteResume resumeId)
          (ResumeCleanupService.gone w.rows resumeId)
          (ResumeCleanupService.gone w.rows resumeId) w ↔
        ResumeCleanupService.Deletable w.rows resumeId ∧ resume.filePath ∉ w.files)) ∧
    ∀ candidateId found, CandidateRepository.getById w.rows candidateId = some found →
      (Whole (CandidateErasureService.eraseCandidate candidateId)
          (CandidateErasureService.gone w.rows candidateId)
          (CandidateErasureService.own w.rows candidateId) w ↔
        CandidateErasureService.Erasable w.rows candidateId ∧
          ∀ resume ∈ getAllVersionsByCandidate w.rows candidateId, resume.filePath ∉ w.files) :=
  ⟨fun _ _ => ResumeCleanupService.whole_iff, fun _ _ => CandidateErasureService.whole_iff⟩

def applied : World where
  rows := [.candidate 1, .resume 2 1 "resume.pdf" 1, .campaignCandidate 3 1 2,
    .celeryTaskLog 4 "task" none (some 3), .deadLetterQueue 5 "task" none (some 3)]
  files := []

theorem deletions_whole_iff_applied :
    Whole (ResumeCleanupService.deleteResume 2) (ResumeCleanupService.gone applied.rows 2)
        (ResumeCleanupService.gone applied.rows 2) applied ∧
      Whole (CandidateErasureService.eraseCandidate 1)
        (CandidateErasureService.gone applied.rows 1) (CandidateErasureService.own applied.rows 1)
        applied := by
  have hids : CampaignCandidateRepository.getByResumeId applied.rows 2 = [3] := by decide
  have hccs : getByCandidateId applied.rows 1 = [3] := by decide
  have hletters (ids ids' : List Uuid) : LetterFirst applied.rows ids ids' := by
    refine ⟨?_, ?_⟩
    · intro id taskId r cc id' r' cc' hletter htask
      simp [applied] at hletter htask
      simp [hletter, htask]
    · intro id taskId r cc id' r' cc' hletter htask _
      simp [applied] at hletter htask
      simp [hletter, htask]
  refine ⟨((deletions_whole_iff applied).1 2 ⟨2, "resume.pdf", 1⟩ (by decide)).mpr
      ⟨⟨?_, hletters _ _⟩, ?_⟩,
    ((deletions_whole_iff applied).2 1 1 (by decide)).mpr ⟨?_, ?_⟩⟩
  · rw [hids]
    decide
  · exact List.not_mem_nil
  · refine ⟨?_, ?_, ?_, ?_, ?_, ?_, hletters _ _⟩
    case refine_3 =>
      intro id owner resumeId happlication _
      have hid : id = 3 := by
        simp [applied] at happlication
        exact happlication.1
      rw [hccs, hid]
      exact List.mem_cons_self
    all_goals simp [applied]
  · intro resume hresume
    exact List.not_mem_nil

def moved : World where
  rows := applied.rows ++ [.stageTransitionLog 6 3]
  files := ["resume.pdf"]

-- The transition log refuses the deletion of the resume; the erasure whose
-- commit fails keeps the rows and has lost the file.
theorem moved_not_whole :
    ¬Whole (ResumeCleanupService.deleteResume 2) (ResumeCleanupService.gone moved.rows 2)
        (ResumeCleanupService.gone moved.rows 2) moved ∧
      ¬Whole (CandidateErasureService.eraseCandidate 1)
        (CandidateErasureService.gone moved.rows 1) (CandidateErasureService.own moved.rows 1)
        moved := by
  constructor
  · intro h
    have hraised : (ResumeCleanupService.deleteResume 2 (fun _ => false) moved).1 =
        .error .raised := by decide +kernel
    have hok := h.succeeds
    rw [hraised] at hok
    simp at hok
  · intro h
    have hraised : (CandidateErasureService.eraseCandidate 1 (fun n => n = 24) moved).1 =
        .error .raised := by decide +kernel
    have hlost : (CandidateErasureService.eraseCandidate 1 (fun n => n = 24) moved).2.files =
        [] := by decide +kernel
    have hsame := h.restored (fun n => n = 24) (by rw [hraised]; simp)
    rw [hsame] at hlost
    simp [moved] at hlost

end AiHiring.Deletion
