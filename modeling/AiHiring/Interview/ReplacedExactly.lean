import AiHiring.Interview.Interviewers

namespace AiHiring

open Library InterviewScheduleRepository

section Placing

variable (lower : String → String) (interviewId : Uuid) (existing : List InterviewInterviewer)

def InterviewInterviewer.core (row : InterviewInterviewer) : Uuid × Uuid × String × Bool :=
  (row.id, row.interviewId, row.email, row.isActive)

-- The incoming interviewers who get a row of their own.
def unmatched (inputs : List InterviewerInput) : List InterviewerInput :=
  inputs.filter fun input => (existingByEmail lower existing input.email).isNone

-- A new row's core, for the interviewer and the id that he gets.
def newCore (entry : InterviewerInput × ℕ) : Uuid × Uuid × String × Bool :=
  (entry.2, interviewId, entry.1.email, true)

variable {lower interviewId existing}

theorem core_renameRow (input : InterviewerInput) (id : Uuid) (row : InterviewInterviewer) :
    (renameRow input id row).core = row.core := by
  unfold renameRow
  split_ifs
  · rfl
  · rfl

theorem map_core_renameRow (rows : List InterviewInterviewer) (input : InterviewerInput)
    (id : Uuid) :
    (rows.map (renameRow input id)).map InterviewInterviewer.core =
      rows.map InterviewInterviewer.core := by
  rw [List.map_map]
  exact List.map_congr_left fun row _ => core_renameRow input id row

theorem unmatched_cons_some {input : InterviewerInput} {row : InterviewInterviewer}
    (h : existingByEmail lower existing input.email = some row) (rest : List InterviewerInput) :
    unmatched lower existing (input :: rest) = unmatched lower existing rest := by
  simp [unmatched, h]

theorem unmatched_cons_none {input : InterviewerInput}
    (h : existingByEmail lower existing input.email = none) (rest : List InterviewerInput) :
    unmatched lower existing (input :: rest) = input :: unmatched lower existing rest := by
  simp [unmatched, h]

-- By induction on the request: the old rows keep their cores, and the unmatched come after.
theorem core_placeInterviewers (inputs : List InterviewerInput) (t : Interviewers) :
    (placeInterviewers lower interviewId existing t inputs).1.rows.map InterviewInterviewer.core =
      t.rows.map InterviewInterviewer.core ++
        ((unmatched lower existing inputs).zipIdx t.next).map (newCore interviewId) := by
  induction inputs generalizing t with
  | nil => simp [placeInterviewers, unmatched]
  | cons input rest ih =>
    unfold placeInterviewers
    cases hfound : existingByEmail lower existing input.email with
    | some row =>
      rw [unmatched_cons_some hfound]
      have hrest := ih (t.modify (renameRow input row.id) (renameRow_id input row.id))
      rw [Table.rows_modify, map_core_renameRow] at hrest
      exact hrest
    | none =>
      rw [unmatched_cons_none hfound]
      have hrest := ih (t.insert (newInterviewer interviewId input)
        (newInterviewer_id interviewId input))
      rw [Table.rows_insert, List.map_append, List.append_assoc] at hrest
      exact hrest

-- The ids of the request's rows: those found, and the next ones.
theorem mem_placedIds {inputs : List InterviewerInput} {t : Interviewers} {id : Uuid} :
    id ∈ (placeInterviewers lower interviewId existing t inputs).2 ↔
      (∃ input ∈ inputs, ∃ row, existingByEmail lower existing input.email = some row ∧
        row.id = id) ∨
      ∃ input, (input, id) ∈ (unmatched lower existing inputs).zipIdx t.next := by
  induction inputs generalizing t with
  | nil => simp [placeInterviewers, unmatched]
  | cons input rest ih =>
    unfold placeInterviewers
    cases hfound : existingByEmail lower existing input.email with
    | some row =>
      have hrest := ih (t := t.modify (renameRow input row.id) (renameRow_id input row.id))
      rw [unmatched_cons_some hfound]
      have hself : (∃ found, some row = some found ∧ found.id = id) ↔ id = row.id := by
        simp [eq_comm]
      simp only [List.mem_cons, hrest, exists_eq_or_imp, hfound, hself, or_assoc]
      exact Iff.rfl
    | none =>
      have hrest := ih (t := t.insert (newInterviewer interviewId input)
        (newInterviewer_id interviewId input))
      rw [unmatched_cons_none hfound, List.zipIdx_cons]
      have hfirst : (∃ i, (i, id) = (input, t.next)) ↔ id = t.next := by simp
      simp only [List.mem_cons, hrest, exists_eq_or_imp, hfound, reduceCtorEq, false_and,
        exists_false, false_or, exists_or, hfirst]
      exact or_left_comm

end Placing

section Replacing

variable {lower : String → String} {interviewId : Uuid} {t : Interviewers}
  {inputs : List InterviewerInput}

def requestEmails (lower : String → String) (inputs : List InterviewerInput) : List String :=
  inputs.map fun input => lower input.email

def activeEmails (lower : String → String) (t : Interviewers) (interviewId : Uuid) :
    List String :=
  (getActiveInterviewers t interviewId).map fun row => lower row.email

theorem mem_dropped {existing : List InterviewInterviewer} {id : Uuid} :
    id ∈ dropped lower existing inputs ↔
      ∃ old ∈ existing, lower old.email ∉ requestEmails lower inputs ∧ old.id = id := by
  simp only [dropped, List.mem_map, List.mem_filter, decide_eq_true_eq, requestEmails, and_assoc]

theorem dropped_lt {id : Uuid}
    (h : id ∈ dropped lower (getActiveInterviewers t interviewId) inputs) : id < t.next := by
  obtain ⟨old, hold, -, rfl⟩ := mem_dropped.mp h
  exact t.below old (mem_getActiveInterviewers.mp hold).1

def arrivals (lower : String → String) (t : Interviewers) (interviewId : Uuid)
    (inputs : List InterviewerInput) : List (InterviewerInput × ℕ) :=
  (unmatched lower (getActiveInterviewers t interviewId) inputs).zipIdx t.next

variable {entry : InterviewerInput × ℕ} {ids : List Uuid} {old : InterviewInterviewer}
    {email : String} {after : Interviewers}

theorem arrivals_ge (h : entry ∈ arrivals lower t interviewId inputs) : t.next ≤ entry.2 :=
  (List.mem_zipIdx h).1

theorem arrival_not_dropped (h : entry ∈ arrivals lower t interviewId inputs) :
    entry.2 ∉ dropped lower (getActiveInterviewers t interviewId) inputs :=
  fun hin => absurd (dropped_lt hin) (not_lt.mpr (arrivals_ge h))

-- A row that was there, active still unless the request drops it.
structure Stays (ids : List Uuid) (old row : InterviewInterviewer) : Prop where
  id : row.id = old.id
  interviewId : row.interviewId = old.interviewId
  email : row.email = old.email
  active : row.isActive = true ↔ old.isActive = true ∧ old.id ∉ ids

theorem stays_deactivate {placed : InterviewInterviewer}
    (h : placed.core = old.core) : Stays ids old (deactivate ids placed) := by
  simp only [InterviewInterviewer.core, Prod.mk.injEq] at h
  obtain ⟨hid, hround, hemail, hactive⟩ := h
  unfold deactivate
  split_ifs with hin
  · exact ⟨hid, hround, hemail, by simp [← hid, hin]⟩
  · exact ⟨hid, hround, hemail, by simp [← hid, hin, hactive]⟩

theorem replaced_origin {row : InterviewInterviewer}
    (h : row ∈ (replaceInterviewers lower t interviewId inputs).1.rows) :
    (∃ old ∈ t.rows, Stays (dropped lower (getActiveInterviewers t interviewId) inputs) old row) ∨
    ∃ entry ∈ arrivals lower t interviewId inputs, row.core = newCore interviewId entry := by
  obtain ⟨placed, hplaced, rfl⟩ := List.mem_map.mp h
  have hcore := List.mem_map_of_mem (f := InterviewInterviewer.core) hplaced
  rw [core_placeInterviewers] at hcore
  obtain hold | hnew := List.mem_append.mp hcore
  · obtain ⟨old, hmem, heq⟩ := List.mem_map.mp hold
    exact .inl ⟨old, hmem, stays_deactivate heq.symm⟩
  · obtain ⟨entry, hentry, heq⟩ := List.mem_map.mp hnew
    refine .inr ⟨entry, hentry, ?_⟩
    have hid : placed.id = entry.2 := (congrArg Prod.fst heq).symm
    rw [deactivate, if_neg (hid ▸ arrival_not_dropped hentry)]
    exact heq.symm

theorem replaced_stays (h : old ∈ t.rows) :
    ∃ row ∈ (replaceInterviewers lower t interviewId inputs).1.rows,
      Stays (dropped lower (getActiveInterviewers t interviewId) inputs) old row := by
  have hcore : old.core ∈ (placeInterviewers lower interviewId
      (getActiveInterviewers t interviewId) t inputs).1.rows.map InterviewInterviewer.core := by
    rw [core_placeInterviewers]
    exact List.mem_append_left _ (List.mem_map_of_mem h)
  obtain ⟨placed, hplaced, heq⟩ := List.mem_map.mp hcore
  exact ⟨_, List.mem_map_of_mem hplaced, stays_deactivate heq⟩

theorem replaced_arrives (h : entry ∈ arrivals lower t interviewId inputs) :
    ∃ row ∈ (replaceInterviewers lower t interviewId inputs).1.rows,
      row.core = newCore interviewId entry := by
  have hcore : newCore interviewId entry ∈ (placeInterviewers lower interviewId
      (getActiveInterviewers t interviewId) t inputs).1.rows.map InterviewInterviewer.core := by
    rw [core_placeInterviewers]
    exact List.mem_append_right _ (List.mem_map_of_mem h)
  obtain ⟨placed, hplaced, heq⟩ := List.mem_map.mp hcore
  refine ⟨_, List.mem_map_of_mem hplaced, ?_⟩
  have hid : placed.id = entry.2 := congrArg Prod.fst heq
  rw [deactivate, if_neg (hid ▸ arrival_not_dropped h)]
  exact heq

theorem existingByEmail_eq_some {existing : List InterviewInterviewer}
    {row : InterviewInterviewer} (h : existingByEmail lower existing email = some row) :
    row ∈ existing ∧ lower row.email = lower email := by
  refine ⟨mem_of_existingByEmail h, ?_⟩
  unfold existingByEmail at h
  simpa using List.find?_some h

theorem existingByEmail_eq_none {existing : List InterviewInterviewer} :
    existingByEmail lower existing email = none ↔
      ∀ row ∈ existing, lower row.email ≠ lower email := by
  simp [existingByEmail]

theorem arrival_spec (h : entry ∈ arrivals lower t interviewId inputs) :
    lower entry.1.email ∈ requestEmails lower inputs ∧
      ∀ old ∈ getActiveInterviewers t interviewId, lower old.email ≠ lower entry.1.email := by
  have hmem : entry.1 ∈ unmatched lower (getActiveInterviewers t interviewId) inputs :=
    List.fst_mem_of_mem_zipIdx h
  obtain ⟨hin, hnone⟩ := List.mem_filter.mp hmem
  exact ⟨List.mem_map_of_mem hin, existingByEmail_eq_none.mp (Option.isNone_iff_eq_none.mp hnone)⟩

theorem request_cases (h : email ∈ requestEmails lower inputs) :
    (∃ old ∈ getActiveInterviewers t interviewId, lower old.email = email) ∨
      ∃ entry ∈ arrivals lower t interviewId inputs, lower entry.1.email = email := by
  obtain ⟨input, hinput, rfl⟩ := List.mem_map.mp h
  by_cases hany : ∃ old ∈ getActiveInterviewers t interviewId, lower old.email = lower input.email
  · exact .inl hany
  · have hnone : existingByEmail lower (getActiveInterviewers t interviewId) input.email = none :=
      existingByEmail_eq_none.mpr fun old hold heq => hany ⟨old, hold, heq⟩
    have hmem : input ∈ unmatched lower (getActiveInterviewers t interviewId) inputs :=
      List.mem_filter.mpr ⟨hinput, Option.isNone_iff_eq_none.mpr hnone⟩
    obtain ⟨index, hindex, heq⟩ := List.getElem_of_mem hmem
    refine .inr ⟨(input, t.next + index), ?_, rfl⟩
    rw [arrivals, List.mk_add_mem_zipIdx_iff_getElem?, List.getElem?_eq_getElem hindex, heq]

-- Different requests do not share an address, so neither do the arrivals.
theorem arrival_unique (h : (requestEmails lower inputs).Nodup) {other : InterviewerInput × ℕ}
    (hentry : entry ∈ arrivals lower t interviewId inputs)
    (hother : other ∈ arrivals lower t interviewId inputs)
    (heq : lower entry.1.email = lower other.1.email) : entry = other := by
  have hnodup : ((unmatched lower (getActiveInterviewers t interviewId) inputs).map
      fun input => lower input.email).Nodup :=
    h.sublist (List.filter_sublist.map _)
  have hmap : ((arrivals lower t interviewId inputs).map
      fun entry => lower entry.1.email).Nodup := by
    have hfst : (arrivals lower t interviewId inputs).map Prod.fst =
        unmatched lower (getActiveInterviewers t interviewId) inputs := List.zipIdx_map_fst _ _
    rw [← hfst, List.map_map] at hnodup
    exact hnodup
  exact List.inj_on_of_nodup_map hmap hentry hother heq

-- What a row that is active afterwards was: active, and named if it is the round's, or
-- one of the arrivals.
theorem active_cases {round : Uuid} {row : InterviewInterviewer}
    (h : row ∈ getActiveInterviewers (replaceInterviewers lower t interviewId inputs).1 round) :
    (∃ old ∈ getActiveInterviewers t round, row.id = old.id ∧ row.email = old.email ∧
      (round = interviewId → lower old.email ∈ requestEmails lower inputs)) ∨
    round = interviewId ∧ ∃ entry ∈ arrivals lower t interviewId inputs,
      row.id = entry.2 ∧ row.email = entry.1.email := by
  obtain ⟨hmem, hround, hactive⟩ := mem_getActiveInterviewers.mp h
  obtain ⟨old, hold, hstays⟩ | ⟨entry, hentry, hcore⟩ := replaced_origin hmem
  · obtain ⟨holdActive, hnot⟩ := hstays.active.mp hactive
    have hin : old ∈ getActiveInterviewers t round :=
      mem_getActiveInterviewers.mpr ⟨hold, hstays.interviewId.symm.trans hround, holdActive⟩
    refine .inl ⟨old, hin, hstays.id, hstays.email, ?_⟩
    rintro rfl
    by_contra hrequest
    exact hnot (mem_dropped.mpr ⟨old, hin, hrequest, rfl⟩)
  · simp only [InterviewInterviewer.core, newCore, Prod.mk.injEq] at hcore
    exact .inr ⟨hround.symm.trans hcore.2.1, entry, hentry, hcore.1, hcore.2.2.1⟩

theorem active_stays (hold : old ∈ getActiveInterviewers t interviewId)
    (hrequest : lower old.email ∈ requestEmails lower inputs) :
    ∃ row ∈ getActiveInterviewers (replaceInterviewers lower t interviewId inputs).1 interviewId,
      row.id = old.id ∧ row.email = old.email := by
  obtain ⟨hmem, hround, hactive⟩ := mem_getActiveInterviewers.mp hold
  obtain ⟨row, hrow, hstays⟩ : ∃ row ∈ (replaceInterviewers lower t interviewId inputs).1.rows,
      Stays (dropped lower (getActiveInterviewers t interviewId) inputs) old row :=
    replaced_stays hmem
  have hnot : old.id ∉ dropped lower (getActiveInterviewers t interviewId) inputs := by
    intro hin
    obtain ⟨other, hother, hgone, hid⟩ := mem_dropped.mp hin
    obtain rfl := t.eq_of_key_eq (mem_getActiveInterviewers.mp hother).1 hmem hid
    exact hgone hrequest
  refine ⟨row, mem_getActiveInterviewers.mpr ⟨hrow, hstays.interviewId.trans hround, ?_⟩,
    hstays.id, hstays.email⟩
  exact hstays.active.mpr ⟨hactive, hnot⟩

theorem active_arrives (h : entry ∈ arrivals lower t interviewId inputs) :
    ∃ row ∈ getActiveInterviewers (replaceInterviewers lower t interviewId inputs).1 interviewId,
      row.id = entry.2 ∧ row.email = entry.1.email := by
  obtain ⟨row, hrow, hcore⟩ := replaced_arrives h
  simp only [InterviewInterviewer.core, newCore, Prod.mk.injEq] at hcore
  obtain ⟨hid, hround, hemail, hactive⟩ := hcore
  exact ⟨row, mem_getActiveInterviewers.mpr ⟨hrow, hround, hactive⟩, hid, hemail⟩

theorem mem_activeEmails : email ∈ activeEmails lower t interviewId ↔
    ∃ row ∈ getActiveInterviewers t interviewId, lower row.email = email := List.mem_map

theorem activeEmails_replaced :
    email ∈ activeEmails lower (replaceInterviewers lower t interviewId inputs).1 interviewId ↔
      email ∈ requestEmails lower inputs := by
  rw [mem_activeEmails]
  constructor
  · rintro ⟨row, hrow, rfl⟩
    obtain ⟨old, -, -, hemail, hrequest⟩ | ⟨-, entry, hentry, -, hemail⟩ := active_cases hrow
    · rw [hemail]
      exact hrequest rfl
    · rw [hemail]
      exact (arrival_spec hentry).1
  · intro hrequest
    obtain ⟨old, hold, rfl⟩ | ⟨entry, hentry, rfl⟩ :
        (∃ old ∈ getActiveInterviewers t interviewId, lower old.email = email) ∨
          ∃ entry ∈ arrivals lower t interviewId inputs, lower entry.1.email = email :=
      request_cases hrequest
    · obtain ⟨row, hrow, -, hemail⟩ := active_stays hold hrequest
      exact ⟨row, hrow, by rw [hemail]⟩
    · obtain ⟨row, hrow, -, hemail⟩ := active_arrives hentry
      exact ⟨row, hrow, by rw [hemail]⟩

-- One active row an address, in every round.
def DistinctEmails (lower : String → String) (t : Interviewers) : Prop :=
  ∀ interviewId, (activeEmails lower t interviewId).Nodup

theorem active_eq_of_email (h : DistinctEmails lower t) {row other : InterviewInterviewer}
    (hrow : row ∈ getActiveInterviewers t interviewId)
    (hother : other ∈ getActiveInterviewers t interviewId)
    (heq : lower row.email = lower other.email) : row = other :=
  List.inj_on_of_nodup_map (h interviewId) hrow hother heq

theorem distinctEmails_replaced (h : DistinctEmails lower t)
    (hrequest : (requestEmails lower inputs).Nodup) :
    DistinctEmails lower (replaceInterviewers lower t interviewId inputs).1 := by
  intro round
  have hrows : (getActiveInterviewers (replaceInterviewers lower t interviewId inputs).1
      round).Nodup :=
    ((replaceInterviewers lower t interviewId inputs).1.nodup.of_map _).filter _
  apply List.Nodup.map_on _ hrows
  intro row hrow other hother heq
  have hid : row.id = other.id → row = other :=
    (replaceInterviewers lower t interviewId inputs).1.eq_of_key_eq
      (mem_getActiveInterviewers.mp hrow).1 (mem_getActiveInterviewers.mp hother).1
  apply hid
  obtain ⟨old, hold, hrowId, hrowEmail, -⟩ | ⟨rfl, entry, hentry, hrowId, hrowEmail⟩ :=
    active_cases hrow
  · obtain ⟨old', hold', hotherId, hotherEmail, -⟩ | ⟨rfl, entry, hentry, -, hotherEmail⟩ :=
      active_cases hother
    · rw [hrowEmail, hotherEmail] at heq
      rw [hrowId, hotherId, active_eq_of_email h hold hold' heq]
    · rw [hrowEmail, hotherEmail] at heq
      exact absurd heq ((arrival_spec hentry).2 old hold)
  · obtain ⟨old', hold', -, hotherEmail, -⟩ | ⟨-, entry', hentry', hotherId, hotherEmail⟩ :=
      active_cases hother
    · rw [hrowEmail, hotherEmail] at heq
      exact absurd heq.symm ((arrival_spec hentry).2 old' hold')
    · rw [hrowEmail, hotherEmail] at heq
      rw [hrowId, hotherId, arrival_unique hrequest hentry hentry' heq]

-- What replacing the interviewers of a round has to come to.
structure ReplacedExactly (lower : String → String) (t : Interviewers) (interviewId : Uuid)
    (inputs : List InterviewerInput)
    (after : Interviewers × List InterviewInterviewer × List InterviewInterviewer) : Prop where
  distinct : (activeEmails lower after.1 interviewId).Nodup
  emails : ∀ email, email ∈ activeEmails lower after.1 interviewId ↔
    email ∈ requestEmails lower inputs
  kept : ∀ old ∈ getActiveInterviewers t interviewId,
    ∀ row ∈ getActiveInterviewers after.1 interviewId,
      lower old.email = lower row.email → row.id = old.id
  softly : ∀ old ∈ t.rows, ∃ row ∈ after.1.rows, row.id = old.id ∧
    (row.isActive = true → old.isActive = true)
  active : after.2.1.Nodup ∧ ∀ row, row ∈ after.2.1 ↔
    row ∈ getActiveInterviewers after.1 interviewId
  removed : after.2.2.Nodup ∧ ∀ row, row ∈ after.2.2 ↔ row ∈ after.1.rows ∧ row.isActive = false ∧
      ∃ old ∈ t.rows, old.id = row.id ∧ old.isActive = true

theorem mem_found {row : InterviewInterviewer} :
    row ∈ ids.filterMap after.find? ↔ row ∈ after.rows ∧ row.id ∈ ids := by
  rw [List.mem_filterMap]
  constructor
  · rintro ⟨id, hid, hfind⟩
    obtain ⟨hmem, rfl⟩ := (after.find?_eq_some _ _).mp hfind
    exact ⟨hmem, hid⟩
  · rintro ⟨hmem, hid⟩
    exact ⟨row.id, hid, (after.find?_eq_some _ _).mpr ⟨hmem, rfl⟩⟩

theorem nodup_found (h : ids.Nodup) :
    (ids.filterMap after.find?).Nodup := by
  apply List.Nodup.filterMap _ h
  intro id id' row hrow hrow'
  obtain ⟨-, rfl⟩ := (after.find?_eq_some _ _).mp hrow
  exact ((after.find?_eq_some _ _).mp hrow').2

theorem length_found (h : ∀ id ∈ ids, ∃ row ∈ after.rows, row.id = id) :
    (ids.filterMap after.find?).length = ids.length := by
  induction ids with
  | nil => rfl
  | cons id rest ih =>
    obtain ⟨row, hrow, hid⟩ := h id List.mem_cons_self
    have hfind : after.find? id = some row := (after.find?_eq_some _ _).mpr ⟨hrow, hid⟩
    rw [List.filterMap_cons_some hfind, List.length_cons, List.length_cons,
      ih fun other hother => h other (List.mem_cons_of_mem id hother)]

theorem length_placedIds {existing : List InterviewInterviewer} (inputs : List InterviewerInput)
    (t : Interviewers) :
    (placeInterviewers lower interviewId existing t inputs).2.length = inputs.length := by
  induction inputs generalizing t with
  | nil => rfl
  | cons input rest ih =>
    unfold placeInterviewers
    cases existingByEmail lower existing input.email with
    | some row => exact congrArg (· + 1) (ih _)
    | none => exact congrArg (· + 1) (ih _)

theorem nodup_placedIds {existing : List InterviewInterviewer} {inputs : List InterviewerInput}
    {t : Interviewers} (hrequest : (requestEmails lower inputs).Nodup)
    (hids : ∀ row ∈ existing, ∀ other ∈ existing, row.id = other.id → row = other)
    (hbelow : ∀ row ∈ existing, row.id < t.next) :
    (placeInterviewers lower interviewId existing t inputs).2.Nodup := by
  induction inputs generalizing t with
  | nil => exact List.nodup_nil
  | cons input rest ih =>
    obtain ⟨hfresh, hrest⟩ := List.nodup_cons.mp hrequest
    unfold placeInterviewers
    cases hfound : existingByEmail lower existing input.email with
    | some row =>
      obtain ⟨hrow, hemail⟩ := existingByEmail_eq_some hfound
      refine List.nodup_cons.mpr ⟨fun hmem => ?_, ih hrest hbelow⟩
      obtain ⟨other, hother, row', hfound', hid⟩ | ⟨other, hother⟩ := mem_placedIds.mp hmem
      · obtain ⟨hrow', hemail'⟩ := existingByEmail_eq_some hfound'
        obtain rfl := hids row' hrow' row hrow hid
        have hrepeated : lower input.email ∈ requestEmails lower rest := by
          rw [← hemail, hemail']
          exact List.mem_map_of_mem hother
        exact hfresh hrepeated
      · exact absurd (hbelow row hrow) (not_lt.mpr (List.mem_zipIdx hother).1)
    | none =>
      have hnext : ∀ row ∈ existing, row.id < t.next + 1 :=
        fun row hrow => Nat.lt_succ_of_lt (hbelow row hrow)
      refine List.nodup_cons.mpr ⟨fun hmem => ?_, ih hrest hnext⟩
      obtain ⟨other, -, row', hfound', hid⟩ | ⟨other, hother⟩ := mem_placedIds.mp hmem
      · exact absurd hid (ne_of_lt (hbelow row' (existingByEmail_eq_some hfound').1))
      · exact absurd (List.mem_zipIdx hother).1 (Nat.not_succ_le_self t.next)

theorem mem_placedIds_iff (h : DistinctEmails lower t) {row : InterviewInterviewer}
    (hrow : row ∈ (replaceInterviewers lower t interviewId inputs).1.rows) :
    row.id ∈ (placeInterviewers lower interviewId (getActiveInterviewers t interviewId) t
      inputs).2 ↔
      row ∈ getActiveInterviewers (replaceInterviewers lower t interviewId inputs).1
        interviewId := by
  have hsame {active : InterviewInterviewer} (hactive : active ∈ getActiveInterviewers
      (replaceInterviewers lower t interviewId inputs).1 interviewId) (hid : active.id = row.id) :
      row ∈ getActiveInterviewers (replaceInterviewers lower t interviewId inputs).1
        interviewId := by
    obtain rfl := (replaceInterviewers lower t interviewId inputs).1.eq_of_key_eq
      (mem_getActiveInterviewers.mp hactive).1 hrow hid
    exact hactive
  rw [mem_placedIds]
  constructor
  · rintro (⟨input, hinput, old, hfound, hid⟩ | ⟨input, harrival⟩)
    · obtain ⟨hold, hemail⟩ := existingByEmail_eq_some hfound
      have hrequest : lower old.email ∈ requestEmails lower inputs := by
        rw [hemail]
        exact List.mem_map_of_mem hinput
      obtain ⟨active, hactive, hactiveId, -⟩ := active_stays hold hrequest
      exact hsame hactive (hactiveId.trans hid)
    · obtain ⟨active, hactive, hactiveId, -⟩ := active_arrives harrival
      exact hsame hactive hactiveId
  · intro hactive
    obtain ⟨old, hold, hid, -, hrequest⟩ | ⟨-, entry, hentry, hid, -⟩ := active_cases hactive
    · obtain ⟨input, hinput, hemail⟩ := List.mem_map.mp (hrequest rfl)
      refine .inl ⟨input, hinput, old, ?_, hid.symm⟩
      cases hfound : existingByEmail lower (getActiveInterviewers t interviewId) input.email with
      | none => exact absurd hemail.symm (existingByEmail_eq_none.mp hfound old hold)
      | some found =>
        obtain ⟨hfoundMem, hfoundEmail⟩ := existingByEmail_eq_some hfound
        rw [active_eq_of_email h hfoundMem hold (hfoundEmail.trans hemail)]
    · refine .inr ⟨entry.1, ?_⟩
      rw [hid]
      exact hentry

theorem replacedExactly_of_nodup (h : DistinctEmails lower t)
    (hrequest : (requestEmails lower inputs).Nodup) :
    ReplacedExactly lower t interviewId inputs
      (replaceInterviewers lower t interviewId inputs) where
  distinct := distinctEmails_replaced h hrequest interviewId
  emails _ := activeEmails_replaced
  kept := by
    intro old hold row hrow heq
    obtain ⟨old', hold', hid, hemail, -⟩ | ⟨-, entry, hentry, -, hemail⟩ := active_cases hrow
    · rw [hemail] at heq
      rw [hid, active_eq_of_email h hold hold' heq]
    · rw [hemail] at heq
      exact absurd heq ((arrival_spec hentry).2 old hold)
  softly := by
    intro old hold
    obtain ⟨row, hrow, hstays⟩ : ∃ row ∈ (replaceInterviewers lower t interviewId inputs).1.rows,
        Stays (dropped lower (getActiveInterviewers t interviewId) inputs) old row :=
      replaced_stays hold
    exact ⟨row, hrow, hstays.id, fun hactive => (hstays.active.mp hactive).1⟩
  active := by
    have hids : ∀ row ∈ getActiveInterviewers t interviewId,
        ∀ other ∈ getActiveInterviewers t interviewId, row.id = other.id → row = other :=
      fun row hrow other hother => t.eq_of_key_eq (mem_getActiveInterviewers.mp hrow).1
        (mem_getActiveInterviewers.mp hother).1
    have hbelow : ∀ row ∈ getActiveInterviewers t interviewId, row.id < t.next :=
      fun row hrow => t.below row (mem_getActiveInterviewers.mp hrow).1
    refine ⟨nodup_found (nodup_placedIds hrequest hids hbelow), fun row => mem_found.trans ?_⟩
    constructor
    · rintro ⟨hrow, hid⟩
      exact (mem_placedIds_iff h hrow).mp hid
    · intro hactive
      have hrow := (mem_getActiveInterviewers.mp hactive).1
      exact ⟨hrow, (mem_placedIds_iff h hrow).mpr hactive⟩
  removed := by
    have hids : (dropped lower (getActiveInterviewers t interviewId) inputs).Nodup :=
      t.nodup.sublist ((List.filter_sublist.trans List.filter_sublist).map _)
    refine ⟨nodup_found hids, fun row => mem_found.trans ?_⟩
    constructor
    · rintro ⟨hrow, hid⟩
      obtain ⟨old, hold, hgone, heq⟩ := mem_dropped.mp hid
      obtain ⟨hmem, -, hactive⟩ := mem_getActiveInterviewers.mp hold
      refine ⟨hrow, ?_, old, hmem, heq, hactive⟩
      obtain ⟨old', hold', hstays⟩ | ⟨entry, hentry, hcore⟩ := replaced_origin hrow
      · rw [← Bool.not_eq_true, hstays.active, ← hstays.id]
        exact fun hboth => hboth.2 hid
      · have hentryId : row.id = entry.2 := congrArg Prod.fst hcore
        exact absurd (hentryId ▸ hid) (arrival_not_dropped hentry)
    · rintro ⟨hrow, hinactive, old, hold, hid, hactive⟩
      refine ⟨hrow, ?_⟩
      obtain ⟨old', hold', hstays⟩ | ⟨entry, hentry, hcore⟩ := replaced_origin hrow
      · obtain rfl := t.eq_of_key_eq hold hold' (hid.trans hstays.id)
        by_contra hnot
        rw [hid.symm] at hnot
        rw [hstays.active.mpr ⟨hactive, hnot⟩] at hinactive
        cases hinactive
      · simp only [InterviewInterviewer.core, newCore, Prod.mk.injEq] at hcore
        rw [hcore.2.2.2] at hinactive
        cases hinactive

theorem nodup_of_replacedExactly (h : ReplacedExactly lower t interviewId inputs
      (replaceInterviewers lower t interviewId inputs)) : (requestEmails lower inputs).Nodup := by
  have hfound : ∀ id ∈ (placeInterviewers lower interviewId (getActiveInterviewers t interviewId)
      t inputs).2, ∃ row ∈ (replaceInterviewers lower t interviewId inputs).1.rows,
        row.id = id := by
    intro id hid
    obtain ⟨input, -, old, hold, rfl⟩ | ⟨input, harrival⟩ := mem_placedIds.mp hid
    · obtain ⟨row, hrow, hstays⟩ : ∃ row ∈ (replaceInterviewers lower t interviewId inputs).1.rows,
          Stays (dropped lower (getActiveInterviewers t interviewId) inputs) old row :=
        replaced_stays (mem_getActiveInterviewers.mp (existingByEmail_eq_some hold).1).1
      exact ⟨row, hrow, hstays.id⟩
    · obtain ⟨row, hrow, hcore⟩ := replaced_arrives harrival
      exact ⟨row, hrow, congrArg Prod.fst hcore⟩
  have hlength : (replaceInterviewers lower t interviewId inputs).2.1.length = inputs.length :=
    (length_found hfound).trans (length_placedIds inputs t)
  have hactive : (getActiveInterviewers (replaceInterviewers lower t interviewId inputs).1
      interviewId).Nodup :=
    ((replaceInterviewers lower t interviewId inputs).1.nodup.of_map _).filter _
  have hperm := (List.perm_ext_iff_of_nodup h.active.1 hactive).mpr h.active.2
  have hsubset : activeEmails lower (replaceInterviewers lower t interviewId inputs).1
      interviewId ⊆ requestEmails lower inputs := fun email hemail => (h.emails email).mp hemail
  have hsame : (requestEmails lower inputs).length ≤ (activeEmails lower
      (replaceInterviewers lower t interviewId inputs).1 interviewId).length := by
    rw [requestEmails, activeEmails, List.length_map, List.length_map, ← hperm.length_eq, hlength]
  exact ((List.subperm_of_subset h.distinct hsubset).perm_of_length_le hsame).nodup_iff.mp
    h.distinct

end Replacing

-- Every one of a sequence of calls, each on what the ones before left.
def EveryReplaced (lower : String → String) :
    Interviewers → List (Uuid × List InterviewerInput) → Prop
  | _, [] => True
  | t, (interviewId, inputs) :: rest =>
    ReplacedExactly lower t interviewId inputs (replaceInterviewers lower t interviewId inputs) ∧
      EveryReplaced lower (replaceInterviewers lower t interviewId inputs).1 rest

theorem everyReplaced_iff {lower : String → String} (calls : List (Uuid × List InterviewerInput))
    {t : Interviewers} (h : DistinctEmails lower t) : EveryReplaced lower t calls ↔
      ∀ call ∈ calls, (requestEmails lower call.2).Nodup := by
  induction calls generalizing t with
  | nil => simp [EveryReplaced]
  | cons call rest ih =>
    rw [EveryReplaced, List.forall_mem_cons]
    constructor
    · rintro ⟨hcall, hrest⟩
      have hrequest := nodup_of_replacedExactly hcall
      exact ⟨hrequest, (ih (distinctEmails_replaced h hrequest)).mp hrest⟩
    · rintro ⟨hrequest, hrest⟩
      exact ⟨replacedExactly_of_nodup h hrequest,
        (ih (distinctEmails_replaced h hrequest)).mpr hrest⟩

theorem interviewers_replaced_exactly (lower : String → String)
    (calls : List (Uuid × List InterviewerInput)) :
    EveryReplaced lower Table.empty calls ↔ ∀ call ∈ calls, (requestEmails lower call.2).Nodup :=
  everyReplaced_iff calls fun _ => List.nodup_nil

def annTwice : List InterviewerInput := [⟨"Ann", "ann@x.io", none⟩, ⟨"Ann B", "Ann@x.io", none⟩]

theorem invited_twice :
    activeEmails String.toLower (replaceInterviewers String.toLower Table.empty 0 annTwice).1 0 =
      ["ann@x.io", "ann@x.io"] ∧
    ¬EveryReplaced String.toLower Table.empty [(0, annTwice)] := by
  have hemails : activeEmails String.toLower
      (replaceInterviewers String.toLower Table.empty 0 annTwice).1 0 =
        ["ann@x.io", "ann@x.io"] := by decide +kernel
  refine ⟨hemails, fun hcalls => ?_⟩
  have hdistinct := hcalls.1.distinct
  rw [hemails] at hdistinct
  exact absurd hdistinct (by decide)

end AiHiring
