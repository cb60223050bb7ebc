import AiHiring.Compliance.Deletion

namespace AiHiring.Deletion

open Library

-- Every foreign key between the tables.
inductive References : Row → Row → Prop where
  | consent {id c} : References (.candidateConsent id c) (.candidate c)
  | resume {id c path v} : References (.resume id c path v) (.candidate c)
  | parseAttempt {id r c path v} : References (.resumeParseAttempt id r) (.resume r c path v)
  | skillCandidate {id c r} : References (.candidateSkill id c r) (.candidate c)
  | skillResume {id c r owner path v} :
      References (.candidateSkill id c r) (.resume r owner path v)
  | applicationCandidate {id c r} : References (.campaignCandidate id c r) (.candidate c)
  | applicationResume {id c r owner path v} :
      References (.campaignCandidate id c r) (.resume r owner path v)
  | stageHistory {id cc c r} :
      References (.campaignCandidateStageHistory id cc) (.campaignCandidate cc c r)
  | transition {id cc c r} : References (.stageTransitionLog id cc) (.campaignCandidate cc c r)
  | aiEvaluation {id cc c r} :
      References (.campaignCandidateAIEvaluation id cc) (.campaignCandidate cc c r)
  | scoreHistory {id cc c r} :
      References (.candidateCompositeScoreHistory id cc) (.campaignCandidate cc c r)
  | note {id cc c r} : References (.candidateNote id cc) (.campaignCandidate cc c r)
  | round {id cc c r} : References (.interviewSchedule id cc) (.campaignCandidate cc c r)
  | interviewer {id i cc} : References (.interviewInterviewer id i) (.interviewSchedule i cc)
  | roundHistory {id i cc} :
      References (.interviewScheduleHistory id i) (.interviewSchedule i cc)
  | feedbackRound {id i j cc} :
      References (.interviewFeedback id i j) (.interviewSchedule i cc)
  | feedbackInterviewer {id i j i'} :
      References (.interviewFeedback id i j) (.interviewInterviewer j i')
  | emailCandidate {id c cc i} :
      References (.emailNotification id (.candidate c) cc i) (.candidate c)
  | emailInterviewer {id j cc i i'} :
      References (.emailNotification id (.externalInterviewer j) cc i) (.interviewInterviewer j i')
  | emailApplication {id recipient cc i c r} :
      References (.emailNotification id recipient (some cc) i) (.campaignCandidate cc c r)
  | emailRound {id recipient cc i cc'} :
      References (.emailNotification id recipient cc (some i)) (.interviewSchedule i cc')
  | taskResume {id task r cc owner path v} :
      References (.celeryTaskLog id task (some r) cc) (.resume r owner path v)
  | taskApplication {id task r cc c r'} :
      References (.celeryTaskLog id task r (some cc)) (.campaignCandidate cc c r')
  | letterTask {id task r cc id' r' cc'} :
      References (.deadLetterQueue id task r cc) (.celeryTaskLog id' task r' cc')
  | letterResume {id task r cc owner path v} :
      References (.deadLetterQueue id task (some r) cc) (.resume r owner path v)
  | letterApplication {id task r cc c r'} :
      References (.deadLetterQueue id task r (some cc)) (.campaignCandidate cc c r')

theorem References.refers {s r : Row} (h : References s r) : schema.Refers s r := by
  cases h <;> simp [Schema.Refers, schema, Row.foreignKeys, Row.names, Row.key, EmailRecipient.key]

theorem EmailRecipient.eq_key (k : Key) (recipient : EmailRecipient) :
    k = recipient.key ↔ match k with
      | .candidate id => recipient = .candidate id
      | .interviewInterviewer id => recipient = .externalInterviewer id
      | _ => False := by
  cases recipient <;> cases k <;> simp [EmailRecipient.key, eq_comm]

theorem references_iff (s r : Row) : schema.Refers s r ↔ References s r := by
  refine ⟨?_, References.refers⟩
  rintro ⟨k, hk, hkey⟩
  cases r <;> simp only [schema, Row.key, reduceCtorEq, Option.some.injEq] at hkey
  all_goals
    subst hkey
    cases s <;> simp only [schema, Row.foreignKeys, Row.names, List.mem_cons, List.not_mem_nil,
      List.mem_append, List.mem_map, Option.mem_toList, EmailRecipient.eq_key, reduceCtorEq,
      or_false, false_or, and_false, exists_false, Key.candidate.injEq, Key.resume.injEq,
      Key.campaignCandidate.injEq, Key.interviewSchedule.injEq, Key.interviewInterviewer.injEq,
      Key.celeryTaskLog.injEq] at hk
  all_goals
    first
      | subst hk
      | obtain ⟨_, rfl, rfl⟩ := hk
    constructor

-- A row that neither is one of these nor names one.
def Row.Apart (own : List Key) (row : Row) : Prop :=
  (∀ k ∈ row.key, k ∉ own) ∧ ∀ k ∈ row.names, k ∉ own

instance (own : List Key) (row : Row) : Decidable (row.Apart own) :=
  inferInstanceAs (Decidable ((∀ k ∈ row.key, _) ∧ ∀ k ∈ row.names, _))

-- `gone` must have left the database; the rows that go with it name one of `own`.
structure Whole (method : (ℕ → Bool) → World → Except DeletionError Unit × World)
    (gone own : List Key) (w : World) : Prop where
  succeeds : (method (fun _ => false) w).1 = .ok ()
  cleared (fails : ℕ → Bool) : (method fails w).1 = .ok () →
    ∀ row ∈ (method fails w).2.rows, row.Apart gone
  unchanged (fails : ℕ → Bool) : (method fails w).1 = .ok () →
    ((method fails w).2.rows.filter fun row => row.Apart own) =
      w.rows.filter fun row => row.Apart own
  restored (fails : ℕ → Bool) : (method fails w).1 ≠ .ok () → (method fails w).2 = w

section Transaction

variable {calls : List Statement} {fails : ℕ → Bool} {w : World} {gone own : List Key}

theorem transaction_ok : (transaction calls fails w).1 = .ok () ↔
    (carryOut schema (calls ++ [.other]) fails w).1 = true := by
  unfold transaction
  cases hcarried : carryOut schema (calls ++ [.other]) fails w with
  | mk returned w' => cases returned <;> simp

theorem transaction_world : (transaction calls fails w).2 =
    (carryOut schema (calls ++ [.other]) fails w).2 := by
  unfold transaction
  cases hcarried : carryOut schema (calls ++ [.other]) fails w with
  | mk returned w' => cases returned <;> rfl

theorem statements_commit : Call.statements (calls ++ [.other]) = Call.statements calls := by
  simp [Call.statements, Call.statement]

theorem transaction_rows (h : (transaction calls fails w).1 = .ok ()) :
    (transaction calls fails w).2.rows =
      w.rows.filter fun row => !takes (Call.statements calls) row := by
  have hall := carryOut_rows (transaction_ok.mp h)
  rw [statements_commit] at hall
  rw [transaction_world]
  exact ((schema.deleteAll_eq_some _ _ _).mp hall).2

theorem transaction_succeeds : (transaction calls (fun _ => false) w).1 = .ok () ↔
    ∀ s ∈ w.rows, ∀ r ∈ w.rows, References s r → NoLater (Call.statements calls) s r := by
  rw [transaction_ok, carryOut_undisturbed, statements_commit, Schema.deleteAll_isSome]
  simp only [references_iff]

theorem transaction_whole_iff
    (htakes : ∀ row ∈ w.rows, takes (Call.statements calls) row = true → ¬row.Apart own) :
    Whole (transaction calls) gone own w ↔
      (∀ s ∈ w.rows, ∀ r ∈ w.rows, References s r → NoLater (Call.statements calls) s r) ∧
      (∀ row ∈ w.rows, takes (Call.statements calls) row = false → row.Apart gone) ∧
      ∀ f ∈ Call.files calls, f ∉ w.files := by
  have hrestored (horder : ∀ s ∈ w.rows, ∀ r ∈ w.rows, References s r →
      NoLater (Call.statements calls) s r) :
      (∀ fails, (transaction calls fails w).1 ≠ .ok () → (transaction calls fails w).2 = w) ↔
        ∀ f ∈ Call.files calls, f ∉ w.files := by
    rw [← carryOut_restores_iff (S := schema)]
    · refine forall_congr' fun fails => ?_
      rw [transaction_world, ne_eq, transaction_ok, Bool.not_eq_true]
    · rw [Schema.deleteAll_isSome]
      simpa only [references_iff] using horder
  constructor
  · intro h
    have horder := transaction_succeeds.mp h.succeeds
    refine ⟨horder, ?_, (hrestored horder).mp h.restored⟩
    intro row hrow hstays
    refine h.cleared (fun _ => false) h.succeeds row ?_
    rw [transaction_rows h.succeeds, List.mem_filter, hstays]
    exact ⟨hrow, rfl⟩
  · intro ⟨horder, hcleared, hfiles⟩
    refine ⟨transaction_succeeds.mpr horder, ?_, ?_, (hrestored horder).mpr hfiles⟩
    · intro fails hok row hrow
      rw [transaction_rows hok, List.mem_filter, Bool.not_eq_true'] at hrow
      exact hcleared row hrow.1 hrow.2
    · intro fails hok
      rw [transaction_rows hok, List.filter_filter]
      refine List.filter_congr fun row hrow => ?_
      by_cases hapart : row.Apart own
      · have hstays : takes (Call.statements calls) row = false := by
          by_contra htaken
          exact htakes row hrow (by simpa using htaken) hapart
        simp [hapart, hstays]
      · simp [hapart]

-- The lookup before the transaction raises without having changed anything.
theorem whole_lookup {method : (ℕ → Bool) → World → Except DeletionError Unit × World}
    (calls : List Statement) (h : ∀ fails, method fails w =
      if fails 0 then (.error .raised, w) else transaction calls (fun n => fails (n + 1)) w) :
    Whole method gone own w ↔ Whole (transaction calls) gone own w := by
  have hclean (fails : ℕ → Bool) (hzero : fails 0 = false) :
      method fails w = transaction calls (fun n => fails (n + 1)) w := by
    rw [h, hzero, if_neg Bool.false_ne_true]
  have hlater (fails : ℕ → Bool) :
      method (fun n => if n = 0 then false else fails (n - 1)) w = transaction calls fails w := by
    rw [hclean _ rfl]
    rfl
  constructor
  · intro hmethod
    refine ⟨?_, ?_, ?_, ?_⟩
    · have := hmethod.succeeds
      rwa [hclean _ rfl] at this
    · intro fails
      have := hmethod.cleared fun n => if n = 0 then false else fails (n - 1)
      rwa [hlater] at this
    · intro fails
      have := hmethod.unchanged fun n => if n = 0 then false else fails (n - 1)
      rwa [hlater] at this
    · intro fails
      have := hmethod.restored fun n => if n = 0 then false else fails (n - 1)
      rwa [hlater] at this
  · intro htransaction
    have hraised (fails : ℕ → Bool) (hone : fails 0 = true) :
        method fails w = (.error .raised, w) := by
      rw [h, if_pos hone]
    refine ⟨?_, ?_, ?_, ?_⟩
    · rw [hclean _ rfl]
      exact htransaction.succeeds
    · intro fails hok
      cases hzero : fails 0 with
      | true => simp [hraised fails hzero] at hok
      | false =>
        rw [hclean fails hzero] at hok ⊢
        exact htransaction.cleared _ hok
    · intro fails hok
      cases hzero : fails 0 with
      | true => simp [hraised fails hzero] at hok
      | false =>
        rw [hclean fails hzero] at hok ⊢
        exact htransaction.unchanged _ hok
    · intro fails hraises
      cases hzero : fails 0 with
      | true => rw [hraised fails hzero]
      | false =>
        rw [hclean fails hzero] at hraises ⊢
        exact htransaction.restored _ hraises

end Transaction

section Order

variable {ps : List (Row → Bool)} {rows : List Row}

theorem Row.mem_foreignKeys {row : Row} {k : Key} (h : k ∈ row.names) : k ∈ row.foreignKeys ∨
      ∃ id resumeId candidateId, row = .resumeEmbedding id resumeId candidateId := by
  cases row with
  | resumeEmbedding id resumeId candidateId => exact .inr ⟨id, resumeId, candidateId, rfl⟩
  | _ => exact .inl h

-- A row that is left names no row that went, unless no foreign key says so.
theorem not_mem_names (horder : ∀ s ∈ rows, ∀ r ∈ rows, References s r → NoLater ps s r)
    {row r : Row} {k : Key} (hrow : row ∈ rows) (hstays : takes ps row = false) (hr : r ∈ rows)
    (hkey : r.key = some k) (hgoes : takes ps r = true)
    (hembedding : ∀ id resumeId candidateId, row = .resumeEmbedding id resumeId candidateId →
      k ∉ row.names) : k ∉ row.names := by
  intro hk
  rcases Row.mem_foreignKeys hk with hforeign | ⟨id, resumeId, candidateId, hrow'⟩
  · have href := (references_iff row r).mp ⟨k, hforeign, hkey⟩
    have htaken := (horder row hrow r hr href).takes hgoes
    simp [hstays] at htaken
  · exact hembedding id resumeId candidateId hrow' hk

end Order

-- How far a loop over these ids gets before it meets one of them.
def position (ids : List Uuid) (id : Option Uuid) : ℕ := ids.findIdx fun x => id = some x

theorem position_none (ids : List Uuid) : position ids none = ids.length := by
  rw [position, List.findIdx_eq_length]
  intro x hx
  rfl

theorem position_lt_iff (ids : List Uuid) (id : Option Uuid) :
    position ids id < ids.length ↔ ∃ x ∈ ids, id = some x := by
  simp only [position, List.findIdx_lt_length, decide_eq_true_eq]

theorem length_le_position (ids : List Uuid) (id : Uuid) :
    ids.length ≤ position ids (some id) ↔ id ∉ ids := by
  rw [← Nat.not_lt, position_lt_iff]
  simp

theorem position_le_none (ids : List Uuid) (id : Option Uuid) :
    position ids id ≤ position ids none := by
  rw [position_none]
  exact List.findIdx_le_length

end AiHiring.Deletion
