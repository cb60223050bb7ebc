import AiHiring.Interview.Notifications

namespace AiHiring

open Library InterviewScheduleRepository

-- A row that the rewriting of a round's interviewers has gone over: the same one
-- still, and untouched unless it is one of the round's.
structure SameInterviewer (existing : List InterviewInterviewer) (old row : InterviewInterviewer) :
    Prop where
  id : old.id = row.id
  interviewId : old.interviewId = row.interviewId
  isActive : old.isActive = row.isActive
  untouched : row = old ∨ old.id ∈ existing.map InterviewInterviewer.id

structure Placed (interviewId : Uuid) (existing : List InterviewInterviewer) (t : Interviewers)
    (placed : Interviewers × List Uuid) : Prop where
  next : t.next ≤ placed.1.next
  old : ∀ row ∈ placed.1.rows, ¬t.next ≤ row.id → ∃ old ∈ t.rows, SameInterviewer existing old row
  new : ∀ row ∈ placed.1.rows, t.next ≤ row.id →
    row.interviewId = interviewId ∧ row.isActive = true ∧ row.id ∈ placed.2
  ids : ∀ id ∈ placed.2, id ∈ existing.map InterviewInterviewer.id ∨ t.next ≤ id

section Replacing

variable {lower : String → String} {interviewId : Uuid} {existing : List InterviewInterviewer}

theorem mem_of_existingByEmail {email : String} {row : InterviewInterviewer}
    (h : existingByEmail lower existing email = some row) : row ∈ existing := by
  unfold existingByEmail at h
  exact List.mem_reverse.mp (List.mem_of_find?_eq_some h)

-- By induction on the request: a row is renamed, or one is added.
theorem placed_placeInterviewers (inputs : List InterviewerInput) (t : Interviewers) :
    Placed interviewId existing t (placeInterviewers lower interviewId existing t inputs) := by
  induction inputs generalizing t with
  | nil =>
    refine ⟨Nat.le_refl _, fun row hrow _ => ⟨row, hrow, rfl, rfl, rfl, .inl rfl⟩, ?_, by simp
      [placeInterviewers]⟩
    intro row hrow hid
    have hbelow := t.below row hrow
    omega
  | cons input rest ih =>
    unfold placeInterviewers
    split
    · next found hfound =>
        have hin : found.id ∈ existing.map InterviewInterviewer.id :=
          List.mem_map_of_mem (mem_of_existingByEmail hfound)
        have hrest := ih (t.modify (renameRow input found.id) (renameRow_id input found.id))
        refine ⟨hrest.next, fun row hrow hid => ?_, fun row hrow hid => ?_, fun id hid => ?_⟩
        · obtain ⟨renamedRow, hmem, hsame⟩ := hrest.old row hrow hid
          obtain ⟨old, hold, rfl⟩ := List.mem_map.mp hmem
          by_cases heq : old.id = found.id
          · have hrename : renameRow input found.id old = renamed input old := if_pos heq
            rw [hrename] at hsame
            exact ⟨old, hold, hsame.id, hsame.interviewId, hsame.isActive, .inr (heq ▸ hin)⟩
          · have hrename : renameRow input found.id old = old := if_neg heq
            rw [hrename] at hsame
            exact ⟨old, hold, hsame⟩
        · obtain ⟨hround, hactive, hplaced⟩ := hrest.new row hrow hid
          exact ⟨hround, hactive, List.mem_cons_of_mem _ hplaced⟩
        · obtain rfl | hid := List.mem_cons.mp hid
          · exact .inl hin
          · exact hrest.ids id hid
    · have hrest := ih (t.insert (newInterviewer interviewId input)
        (newInterviewer_id interviewId input))
      have hnext : (t.insert (newInterviewer interviewId input)
        (newInterviewer_id interviewId input)).next = t.next + 1 := rfl
      -- whatever has an id below the next but one is old or the row just added
      have hold (row : InterviewInterviewer) (hrow : row ∈ (placeInterviewers lower interviewId
          existing (t.insert (newInterviewer interviewId input)
            (newInterviewer_id interviewId input)) rest).1.rows) (hid : ¬t.next + 1 ≤ row.id) :
          ∃ old, (old ∈ t.rows ∨ old = newInterviewer interviewId input t.next) ∧
            SameInterviewer existing old row := by
        obtain ⟨old, hmem, hsame⟩ := hrest.old row hrow hid
        rw [Table.rows_insert, List.mem_append, List.mem_singleton] at hmem
        exact ⟨old, hmem, hsame⟩
      refine ⟨Nat.le_trans (Nat.le_succ t.next) hrest.next, fun row hrow hid => ?_, fun row hrow hid => ?_, fun id hid => ?_⟩
      · obtain ⟨old, hmem | rfl, hsame⟩ := hold row hrow (by omega)
        · exact ⟨old, hmem, hsame⟩
        · have hnew : t.next = row.id := hsame.id
          omega
      · by_cases hlater : t.next + 1 ≤ row.id
        · obtain ⟨hround, hactive, hplaced⟩ := hrest.new row hrow hlater
          exact ⟨hround, hactive, List.mem_cons_of_mem _ hplaced⟩
        · obtain ⟨old, hmem | rfl, hsame⟩ := hold row hrow (by omega)
          · have hbelow := t.below old hmem
            rw [hsame.id] at hbelow
            omega
          · have hrow_id : row.id = t.next := hsame.id.symm
            refine ⟨hsame.interviewId.symm, hsame.isActive.symm, ?_⟩
            rw [hrow_id]
            exact List.mem_cons_self
      · obtain rfl | hid := List.mem_cons.mp hid
        · exact .inr (Nat.le_refl _)
        · obtain hin | hlater := hrest.ids id hid
          · exact .inl hin
          · rw [hnext] at hlater
            exact .inr (by omega)

-- What replacing the interviewers of a round comes to, with the rows that the
-- service goes on to notify.
structure Replaced (t : Interviewers) (interviewId : Uuid)
    (after : Interviewers × List InterviewInterviewer × List InterviewInterviewer) : Prop where
  next : t.next ≤ after.1.next
  old : ∀ row ∈ after.1.rows, ¬t.next ≤ row.id → ∃ old ∈ t.rows, old.id = row.id ∧
    old.interviewId = row.interviewId ∧ (row.isActive = true → old.isActive = true) ∧
    (old.interviewId ≠ interviewId → row = old)
  new : ∀ row ∈ after.1.rows, t.next ≤ row.id → row.interviewId = interviewId ∧ row ∈ after.2.1
  active : ∀ row ∈ after.2.1, row ∈ after.1.rows ∧ row.interviewId = interviewId
  removed : ∀ row ∈ after.2.2,
    row ∈ after.1.rows ∧ row.interviewId = interviewId ∧ row.isActive = false

theorem mem_getActiveInterviewers {t : Interviewers} {row : InterviewInterviewer} :
    row ∈ getActiveInterviewers t interviewId ↔
      row ∈ t.rows ∧ row.interviewId = interviewId ∧ row.isActive = true := by
  simp [getActiveInterviewers]

theorem replaced_replaceInterviewers (t : Interviewers) (inputs : List InterviewerInput) :
    Replaced t interviewId (replaceInterviewers lower t interviewId inputs) := by
  let existing := getActiveInterviewers t interviewId
  let placed := placeInterviewers lower interviewId existing t inputs
  let ids := dropped lower existing inputs
  have hplaced : Placed interviewId existing t placed := placed_placeInterviewers inputs t
  have hids : ∀ id ∈ ids, id ∈ existing.map InterviewInterviewer.id := by
    intro id hid
    obtain ⟨row, hrow, rfl⟩ := List.mem_map.mp hid
    exact List.mem_map_of_mem (List.mem_of_mem_filter hrow)
  -- an id of the round's active rows is the id of one of them only
  have hexisting (old : InterviewInterviewer) (hold : old ∈ t.rows)
      (hid : old.id ∈ existing.map InterviewInterviewer.id) :
      old.interviewId = interviewId ∧ old.isActive = true := by
    obtain ⟨row, hrow, heq⟩ := List.mem_map.mp hid
    obtain ⟨hmem, hround, hactive⟩ := mem_getActiveInterviewers.mp hrow
    obtain rfl := t.eq_of_key_eq hmem hold heq
    exact ⟨hround, hactive⟩
  have hbelow : ∀ id ∈ existing.map InterviewInterviewer.id, ¬t.next ≤ id := by
    intro id hid
    obtain ⟨row, hrow, rfl⟩ := List.mem_map.mp hid
    have hlt := t.below row (mem_getActiveInterviewers.mp hrow).1
    omega
  let after := placed.1.modify (deactivate ids) (deactivate_id ids)
  have hrow (row : InterviewInterviewer) (hmem : row ∈ after.rows) :
      ∃ p ∈ placed.1.rows, p.id = row.id ∧ p.interviewId = row.interviewId ∧
        (row.id ∈ ids → row.isActive = false) ∧ (row.id ∉ ids → row = p) ∧
        (row.isActive = true → p.isActive = true) := by
    obtain ⟨p, hp, rfl⟩ := List.mem_map.mp hmem
    refine ⟨p, hp, (deactivate_id ids p).symm, ?_⟩
    rw [deactivate_id]
    unfold deactivate
    split_ifs with hid
    · simp [hid]
    · simp [hid]
  have hold (row : InterviewInterviewer) (hmem : row ∈ after.rows) (hid : ¬t.next ≤ row.id) :
      ∃ old ∈ t.rows, old.id = row.id ∧ old.interviewId = row.interviewId ∧
        (row.isActive = true → old.isActive = true) ∧
        (old.interviewId ≠ interviewId → row = old) := by
    obtain ⟨p, hp, hpid, hpround, -, hsame, hactive⟩ := hrow row hmem
    obtain ⟨old, hold, hkept⟩ := hplaced.old p hp (hpid ▸ hid)
    refine ⟨old, hold, hkept.id.trans hpid, hkept.interviewId.trans hpround, fun h => ?_,
      fun hother => ?_⟩
    · rw [hkept.isActive]
      exact hactive h
    · have hnot : old.id ∉ existing.map InterviewInterviewer.id :=
        fun hin => hother (hexisting old hold hin).1
      rw [hsame fun hin => hnot (hkept.id.trans hpid ▸ hids row.id hin)]
      exact hkept.untouched.resolve_right hnot
  have hround (row : InterviewInterviewer) (hmem : row ∈ after.rows)
      (hid : row.id ∈ existing.map InterviewInterviewer.id) : row.interviewId = interviewId := by
    obtain ⟨old, hin, hsame, hsameRound, -⟩ := hold row hmem (hbelow row.id hid)
    rw [← hsameRound]
    exact (hexisting old hin (hsame ▸ hid)).1
  have hnew (row : InterviewInterviewer) (hmem : row ∈ after.rows) (hid : t.next ≤ row.id) :
      row.interviewId = interviewId ∧ row.id ∈ placed.2 := by
    obtain ⟨p, hp, hpid, hpround, -⟩ := hrow row hmem
    obtain ⟨hin, -, hplacedId⟩ := hplaced.new p hp (hpid ▸ hid)
    exact ⟨hpround.symm.trans hin, hpid ▸ hplacedId⟩
  refine ⟨hplaced.next, hold, fun row hmem hid => ?_, fun row hmem => ?_, fun row hmem => ?_⟩
  · obtain ⟨hin, hplacedId⟩ := hnew row hmem hid
    exact ⟨hin, List.mem_filterMap.mpr ⟨row.id, hplacedId, (after.find?_eq_some _ _).mpr
      ⟨hmem, rfl⟩⟩⟩
  · obtain ⟨id, hid, hfind⟩ := List.mem_filterMap.mp hmem
    obtain ⟨hin, rfl⟩ := (after.find?_eq_some _ _).mp hfind
    obtain hold | hlater := hplaced.ids row.id hid
    · exact ⟨hin, hround row hin hold⟩
    · exact ⟨hin, (hnew row hin hlater).1⟩
  · obtain ⟨id, hid, hfind⟩ := List.mem_filterMap.mp hmem
    obtain ⟨hin, rfl⟩ := (after.find?_eq_some _ _).mp hfind
    obtain ⟨p, -, -, -, hinactive, -⟩ := hrow row hin
    exact ⟨hin, hround row hin (hids row.id hid), hinactive hid⟩

end Replacing

end AiHiring
