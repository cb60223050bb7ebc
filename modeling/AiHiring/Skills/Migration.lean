import AiHiring.Library.Backfill
import AiHiring.Skills.Names

namespace AiHiring

open Library SkillRepository SkillStore

-- The skill tables with the column occurrence_count of skill_ontology.
structure CountedStore extends SkillStore where
  occurrenceCount : Uuid → ℕ

namespace SkillCurationService

section Counted

def bumpOccurrenceCount (s : CountedStore) (skillId : Uuid) : CountedStore :=
  { s with
    occurrenceCount :=
      Function.update s.occurrenceCount skillId (s.occurrenceCount skillId + 1) }

def withSkillStore (s : CountedStore) (store : SkillStore) : CountedStore :=
  { s with toSkillStore := store }

variable (canonicalSkillId : Uuid)

theorem manualJdSkill_id (link : JDUnknownSkill) (id : Uuid) :
    (manualJdSkill link canonicalSkillId id).id = id := rfl

theorem manualCandidateSkill_id (c : CandidateSkill) (id : Uuid) :
    (manualCandidateSkill c canonicalSkillId id).id = id := rfl

def createJdSkillCounted (s : CountedStore) (link : JDUnknownSkill) : CountedStore :=
  match getJdSkill s.toSkillStore link.jdId canonicalSkillId with
  | some _ => s
  | none =>
    let created := createJdSkill s.toSkillStore (manualJdSkill link canonicalSkillId)
      (manualJdSkill_id canonicalSkillId link)
    bumpOccurrenceCount (withSkillStore s created) canonicalSkillId

def retroactiveJdSkillCounted (s : CountedStore) (link : JDUnknownSkill) : CountedStore :=
  let s := createJdSkillCounted canonicalSkillId s link
  withSkillStore s (markJdUnknownSkillResolved s.toSkillStore link)

def createCandidateSkillCounted (s : CountedStore) (c : CandidateSkill) : CountedStore :=
  match getCandidateSkillByCanonical s.toSkillStore c.resumeId canonicalSkillId with
  | some _ => s
  | none =>
    let created := createCandidateSkill s.toSkillStore (manualCandidateSkill c canonicalSkillId)
      (manualCandidateSkill_id canonicalSkillId c)
    bumpOccurrenceCount (withSkillStore s created) canonicalSkillId

def migrateCandidateSkillCounted (s : CountedStore) (c : CandidateSkill) : CountedStore :=
  let s := createCandidateSkillCounted canonicalSkillId s c
  withSkillStore s (deleteCandidateSkill s.toSkillStore c)

-- The two loops that `resolve_unknown_skill` and the creation of a skill share.
def migrateOccurrencesCounted (s : CountedStore) (unknownSkillId : Uuid) : CountedStore :=
  let links := getPendingJdLinks s.toSkillStore unknownSkillId
  let s := links.foldl (retroactiveJdSkillCounted canonicalSkillId) s
  let s := withSkillStore s (links.foldl deleteJdUnknownSkill s.toSkillStore)
  (getCandidateSkillsByUnknownSkillId s.toSkillStore unknownSkillId).foldl
    (migrateCandidateSkillCounted canonicalSkillId) s

variable (lower : String → String) (db : JdDatabase) (counts : Uuid → ℕ)

def resolveUnknownSkillCounted (unknownSkillId : Uuid)
    (resolutionType : UnknownSkillResolutionType) :
    Except SkillError (JdDatabase × (Uuid → ℕ)) := do
  let unknownSkill ← getUnknownSkillOr404 db unknownSkillId
  let targetSkill ← getSkillOr404 db canonicalSkillId
  if unknownSkill.status ≠ .pending then
    Except.error (.badRequest (s!"Unknown skill '{text unknownSkillId}' is not pending " ++
      s!"(status={unknownSkill.status.value})."))
  else do
    let ontology ← aliasedOntology lower db targetSkill unknownSkill resolutionType
    let db := withOntology db ontology
    let jdIds := jdIdsOf (getPendingJdLinks db.toSkillStore unknownSkill.id)
    let s := migrateOccurrencesCounted targetSkill.id ⟨db.toSkillStore, counts⟩ unknownSkill.id
    return (refreshJdVerificationStatus
      { db with toSkillStore :=
          updateUnknownSkillStatus s.toSkillStore unknownSkill .mappedToExisting } jdIds,
      s.occurrenceCount)

-- The new skill starts with the column's default of 0.
def createCanonicalSkillFromUnknownCounted (unknownSkillId : Uuid) (fields : CanonicalFields) :
    Except SkillError (JdDatabase × (Uuid → ℕ)) := do
  let unknownSkill ← getUnknownSkillOr404 db unknownSkillId
  let newSkillId := db.ontology.skills.next
  (createCanonicalSkill lower db.ontology unknownSkill.rawText fields).map fun ontology =>
    let db := withOntology db ontology
    let jdIds := jdIdsOf (getPendingJdLinks db.toSkillStore unknownSkill.id)
    let s := migrateOccurrencesCounted newSkillId
      ⟨db.toSkillStore, Function.update counts newSkillId 0⟩ unknownSkill.id
    (refreshJdVerificationStatus
      { db with toSkillStore := deleteUnknownSkillCascade s.toSkillStore unknownSkill } jdIds,
      s.occurrenceCount)

end Counted

section Uncounted

variable (canonicalSkillId : Uuid)

theorem toSkillStore_retroactiveJdSkillCounted (s : CountedStore) (link : JDUnknownSkill) :
    (retroactiveJdSkillCounted canonicalSkillId s link).toSkillStore =
      retroactiveJdSkill canonicalSkillId s.toSkillStore link := by
  unfold retroactiveJdSkillCounted retroactiveJdSkill createJdSkillCounted
  cases getJdSkill s.toSkillStore link.jdId canonicalSkillId <;> rfl

theorem toSkillStore_migrateCandidateSkillCounted (s : CountedStore) (c : CandidateSkill) :
    (migrateCandidateSkillCounted canonicalSkillId s c).toSkillStore =
      migrateCandidateSkill canonicalSkillId s.toSkillStore c := by
  unfold migrateCandidateSkillCounted migrateCandidateSkill createCandidateSkillCounted
  cases getCandidateSkillByCanonical s.toSkillStore c.resumeId canonicalSkillId <;> rfl

theorem toSkillStore_foldl {ι : Type} (counted : CountedStore → ι → CountedStore)
    (plain : SkillStore → ι → SkillStore)
    (hstep : ∀ s item, (counted s item).toSkillStore = plain s.toSkillStore item)
    (batch : List ι) (s : CountedStore) :
    (batch.foldl counted s).toSkillStore = batch.foldl plain s.toSkillStore := by
  induction batch generalizing s with
  | nil => rfl
  | cons item rest ih => rw [List.foldl_cons, List.foldl_cons, ih, hstep]

-- The counters are kept beside the rows: the rows are those of the calls without them.
theorem toSkillStore_migrateOccurrencesCounted (s : CountedStore) (unknownSkillId : Uuid) :
    (migrateOccurrencesCounted canonicalSkillId s unknownSkillId).toSkillStore =
      migrateOccurrences s.toSkillStore unknownSkillId canonicalSkillId := by
  have hlinks := toSkillStore_foldl _ _ (toSkillStore_retroactiveJdSkillCounted canonicalSkillId)
    (getPendingJdLinks s.toSkillStore unknownSkillId) s
  unfold migrateOccurrencesCounted migrateOccurrences createRetroactiveJdSkills
  rw [← hlinks]
  exact toSkillStore_foldl _ _ (toSkillStore_migrateCandidateSkillCounted canonicalSkillId) _ _

end Uncounted

section Loops

variable (t : Uuid)

def jdSkillOwner (row : JDSkill) : Uuid × Uuid := (row.jdId, row.canonicalSkillId)

-- Only the counter of the target moves.
def OthersCounted (counts : Uuid → ℕ) (s : CountedStore) : Prop :=
  ∀ v, v ≠ t → s.occurrenceCount v = counts v

theorem othersCounted_bump (counts : Uuid → ℕ) (s : CountedStore) (h : OthersCounted t counts s)
    (store : SkillStore) :
    OthersCounted t counts (bumpOccurrenceCount (withSkillStore s store) t) := by
  intro v hv
  show Function.update s.occurrenceCount t _ v = counts v
  rw [Function.update_of_ne hv]
  exact h v hv

theorem backfill_retroactiveJdSkillCounted (s : CountedStore) (link : JDUnknownSkill) :
    Backfill jdSkillOwner (fun link : JDUnknownSkill => (link.jdId, t))
        (fun link row => row = manualJdSkill link t row.id) link s.jdSkills.rows
        (retroactiveJdSkillCounted t s link).jdSkills.rows ∧
      (retroactiveJdSkillCounted t s link).occurrenceCount t + s.jdSkills.rows.length =
        s.occurrenceCount t + (retroactiveJdSkillCounted t s link).jdSkills.rows.length := by
  unfold retroactiveJdSkillCounted createJdSkillCounted
  cases hfind : getJdSkill s.toSkillStore link.jdId t with
  | some row =>
    have hrow := List.mem_of_find?_eq_some hfind
    have hsame : row.jdId = link.jdId ∧ row.canonicalSkillId = t := by
      simpa using List.find?_some hfind
    exact ⟨.kept row hrow (Prod.ext hsame.1 hsame.2), rfl⟩
  | none =>
    have hnone : ∀ old ∈ s.jdSkills.rows, jdSkillOwner old ≠ (link.jdId, t) := by
      intro old hold hsame
      obtain ⟨hjd, ht⟩ := Prod.mk.inj hsame
      exact absurd (decide_eq_true (And.intro hjd ht))
        (by simpa using List.find?_eq_none.mp hfind old hold)
    refine ⟨.added (manualJdSkill link t s.jdSkills.next) hnone rfl rfl, ?_⟩
    show Function.update s.occurrenceCount t (s.occurrenceCount t + 1) t + _ =
      _ + (s.jdSkills.rows ++ [_]).length
    rw [Function.update_self, List.length_append, List.length_singleton]
    omega

theorem othersCounted_retroactiveJdSkillCounted (counts : Uuid → ℕ) (s : CountedStore)
    (link : JDUnknownSkill) (h : OthersCounted t counts s) :
    OthersCounted t counts (retroactiveJdSkillCounted t s link) := by
  unfold retroactiveJdSkillCounted createJdSkillCounted
  cases getJdSkill s.toSkillStore link.jdId t with
  | some row => exact h
  | none => exact othersCounted_bump t counts s h _

def targetRows (s : SkillStore) : List CandidateSkill :=
  s.candidateSkills.rows.filter fun row => row.canonicalSkillId = some t

-- What the loop over the rows of the batch relies on: none of them is a row of the target.
structure Migrating (counts : Uuid → ℕ) (batch : List CandidateSkill) (s : CountedStore) :
    Prop where
  below : ∀ c ∈ batch, c.id < s.candidateSkills.next
  apart : ∀ c ∈ batch, ∀ row ∈ s.candidateSkills.rows, row.id = c.id → row.canonicalSkillId ≠ some t
  others : OthersCounted t counts s

theorem targetRows_deleteCandidateSkill (s : SkillStore) (c : CandidateSkill)
    (hapart : ∀ row ∈ s.candidateSkills.rows, row.id = c.id → row.canonicalSkillId ≠ some t) :
    targetRows t (deleteCandidateSkill s c) = targetRows t s := by
  show (s.candidateSkills.delete _).rows.filter _ = _
  rw [Table.rows_delete, List.filter_filter, targetRows]
  apply List.filter_congr
  intro row hrow
  by_cases htarget : row.canonicalSkillId = some t
  · have hid : row.id ≠ c.id := fun hid => hapart row hrow hid htarget
    simp [htarget, hid]
  · simp [htarget]

theorem migrateCandidateSkillCounted_step (counts : Uuid → ℕ) (batch : List CandidateSkill)
    (s : CountedStore) (h : Migrating t counts batch s) (c : CandidateSkill) (hc : c ∈ batch) :
    Migrating t counts batch (migrateCandidateSkillCounted t s c) ∧
      Backfill CandidateSkill.resumeId CandidateSkill.resumeId
        (fun c row => row = manualCandidateSkill c t row.id) c (targetRows t s.toSkillStore)
        (targetRows t (migrateCandidateSkillCounted t s c).toSkillStore) ∧
      (migrateCandidateSkillCounted t s c).occurrenceCount t +
          (targetRows t s.toSkillStore).length =
        s.occurrenceCount t +
          (targetRows t (migrateCandidateSkillCounted t s c).toSkillStore).length := by
  unfold migrateCandidateSkillCounted createCandidateSkillCounted
  cases hfind : getCandidateSkillByCanonical s.toSkillStore c.resumeId t with
  | some row =>
    have hrow := List.mem_of_find?_eq_some hfind
    have hsame : row.resumeId = c.resumeId ∧ row.canonicalSkillId = some t := by
      simpa using List.find?_some hfind
    have hview : targetRows t (deleteCandidateSkill s.toSkillStore c) =
        targetRows t s.toSkillStore :=
      targetRows_deleteCandidateSkill t s.toSkillStore c (h.apart c hc)
    refine ⟨⟨h.below, ?_, h.others⟩, ?_, ?_⟩
    · intro other hother old hold
      exact h.apart other hother old (List.mem_filter.mp hold).1
    · show Backfill _ _ _ c (targetRows t s.toSkillStore)
        (targetRows t (deleteCandidateSkill s.toSkillStore c))
      rw [hview]
      exact .kept row (List.mem_filter.mpr ⟨hrow, decide_eq_true hsame.2⟩) hsame.1
    · show _ = _ + (targetRows t (deleteCandidateSkill s.toSkillStore c)).length
      rw [hview]
      rfl
  | none =>
    let row := manualCandidateSkill c t s.candidateSkills.next
    let created := createCandidateSkill s.toSkillStore (manualCandidateSkill c t) fun _ => rfl
    have hrows : created.candidateSkills.rows = s.candidateSkills.rows ++ [row] := rfl
    have happart : ∀ other ∈ batch, ∀ old ∈ created.candidateSkills.rows, old.id = other.id →
        old.canonicalSkillId ≠ some t := by
      intro other hother old hold hid
      rw [hrows, List.mem_append, List.mem_singleton] at hold
      rcases hold with hold | rfl
      · exact h.apart other hother old hold hid
      · -- the row is new: no row of the batch has its id
        exact absurd hid.symm (Nat.ne_of_lt (h.below other hother))
    have hview : targetRows t (deleteCandidateSkill created c) =
        targetRows t s.toSkillStore ++ [row] := by
      rw [targetRows_deleteCandidateSkill t created c (happart c hc), targetRows, hrows,
        List.filter_append]
      congr 1
      exact List.filter_cons_of_pos (decide_eq_true rfl)
    have hnone : ∀ old ∈ targetRows t s.toSkillStore, old.resumeId ≠ c.resumeId := by
      intro old hold hsame
      obtain ⟨hin, htarget⟩ := List.mem_filter.mp hold
      exact absurd (decide_eq_true (And.intro hsame (of_decide_eq_true htarget)))
        (by simpa using List.find?_eq_none.mp hfind old hin)
    refine ⟨⟨?_, ?_, ?_⟩, ?_, ?_⟩
    · intro other hother
      exact Nat.lt_succ_of_lt (h.below other hother)
    · intro other hother old hold
      exact happart other hother old (List.mem_filter.mp hold).1
    · exact othersCounted_bump t counts s h.others created
    · show Backfill _ _ _ c (targetRows t s.toSkillStore)
        (targetRows t (deleteCandidateSkill created c))
      rw [hview]
      exact .added row hnone rfl rfl
    · show Function.update s.occurrenceCount t (s.occurrenceCount t + 1) t + _ =
        _ + (targetRows t (deleteCandidateSkill created c)).length
      rw [hview, Function.update_self, List.length_append, List.length_singleton]
      omega

theorem mem_migrateCandidateSkill (s : SkillStore) (c row : CandidateSkill)
    (hrow : row.canonicalSkillId ≠ some t) :
    row ∈ (migrateCandidateSkill t s c).candidateSkills.rows ↔
      row ∈ s.candidateSkills.rows ∧ row.id ≠ c.id := by
  simp only [migrateCandidateSkill, deleteCandidateSkill, Table.rows_delete, List.mem_filter,
    Bool.not_eq_true', decide_eq_false_iff_not]
  apply and_congr_left
  intro _
  cases getCandidateSkillByCanonical s c.resumeId t with
  | some found => rfl
  | none =>
    have hrows : (createCandidateSkill s (manualCandidateSkill c t)
        fun _ => rfl).candidateSkills.rows =
          s.candidateSkills.rows ++ [manualCandidateSkill c t s.candidateSkills.next] := rfl
    rw [hrows, List.mem_append, List.mem_singleton]
    apply or_iff_left
    rintro rfl
    exact hrow rfl

theorem mem_foldl_migrateCandidateSkill (batch : List CandidateSkill) (s : SkillStore)
    (row : CandidateSkill) (hrow : row.canonicalSkillId ≠ some t) :
    row ∈ (batch.foldl (migrateCandidateSkill t) s).candidateSkills.rows ↔
      row ∈ s.candidateSkills.rows ∧ row.id ∉ batch.map (·.id) := by
  induction batch generalizing s with
  | nil => simp
  | cons c rest ih =>
    rw [List.foldl_cons, ih, mem_migrateCandidateSkill t s c row hrow, List.map_cons,
      List.mem_cons, not_or, and_assoc]

theorem jdSkills_foldl_deleteJdUnknownSkill (links : List JDUnknownSkill) (s : SkillStore) :
    (links.foldl deleteJdUnknownSkill s).jdSkills = s.jdSkills := by
  induction links generalizing s with
  | nil => rfl
  | cons link rest ih => exact ih (deleteJdUnknownSkill s link)

theorem jdSkills_foldl_migrateCandidateSkill (batch : List CandidateSkill) (s : SkillStore) :
    (batch.foldl (migrateCandidateSkill t) s).jdSkills = s.jdSkills := by
  induction batch generalizing s with
  | nil => rfl
  | cons c rest ih =>
    have hstep : (migrateCandidateSkill t s c).jdSkills = s.jdSkills := by
      unfold migrateCandidateSkill
      split <;> rfl
    rw [List.foldl_cons, ih, hstep]

end Loops

-- The unique constraints of the tables; unknown_skill_id is set on unmatched rows only.
structure Consistent (s : SkillStore) : Prop where
  uqJdSkill : ∀ a ∈ s.jdSkills.rows, ∀ b ∈ s.jdSkills.rows,
    a.jdId = b.jdId → a.canonicalSkillId = b.canonicalSkillId → a = b
  uqLink : ∀ a ∈ s.jdUnknownSkills.rows, ∀ b ∈ s.jdUnknownSkills.rows,
    a.jdId = b.jdId → a.unknownSkillId = b.unknownSkillId → a = b
  uqCandidateSkill : ∀ a ∈ s.candidateSkills.rows, ∀ b ∈ s.candidateSkills.rows,
    a.resumeId = b.resumeId → a.canonicalSkillId = b.canonicalSkillId →
      a.canonicalSkillId ≠ none → a = b
  unmatched : ∀ c ∈ s.candidateSkills.rows, c.unknownSkillId ≠ none → c.canonicalSkillId = none

-- Nothing of the unknown skill is lost or counted twice on its way to the target.
structure Migrated (s s' : CountedStore) (u t : Uuid) (newJdSkills : List JDSkill)
    (newCandidateSkills : List CandidateSkill) : Prop where
  links : LinksClosed s.toSkillStore s'.toSkillStore u
  noCandidate : ∀ c ∈ s'.candidateSkills.rows, c.unknownSkillId ≠ some u
  jdSkills : s'.jdSkills.rows = s.jdSkills.rows ++ newJdSkills
  jdSkill : ∀ link, s.toSkillStore.PendingLink link → link.unknownSkillId = u →
    ∃! row, row ∈ s'.jdSkills.rows ∧ row.jdId = link.jdId ∧ row.canonicalSkillId = t
  newJdSkill : ∀ row ∈ newJdSkills, row.canonicalSkillId = t ∧
    ∃ link, s.toSkillStore.PendingLink link ∧ link.unknownSkillId = u ∧ link.jdId = row.jdId
  mandatory : ∀ row ∈ newJdSkills, ∀ link, s.toSkillStore.PendingLink link →
    link.unknownSkillId = u → link.jdId = row.jdId → row.mandatory = link.mandatory.getD false
  candidateSkills : targetRows t s'.toSkillStore = targetRows t s.toSkillStore ++ newCandidateSkills
  otherCandidateSkills : ∀ row, row.canonicalSkillId ≠ some t →
    (row ∈ s'.candidateSkills.rows ↔ row ∈ s.candidateSkills.rows ∧ row.unknownSkillId ≠ some u)
  candidateSkill : ∀ c ∈ s.candidateSkills.rows, c.unknownSkillId = some u →
    ∃! row, row ∈ s'.candidateSkills.rows ∧ row.resumeId = c.resumeId ∧
      row.canonicalSkillId = some t
  newCandidateSkill : ∀ row ∈ newCandidateSkills, row.scoringWeight = 1 ∧
    ∃ c ∈ s.candidateSkills.rows, c.unknownSkillId = some u ∧ c.resumeId = row.resumeId ∧
      c.candidateId = row.candidateId
  counted : s'.occurrenceCount t =
    s.occurrenceCount t + newJdSkills.length + newCandidateSkills.length
  otherCounts : ∀ v, v ≠ t → s'.occurrenceCount v = s.occurrenceCount v

section Migrated

variable (s : CountedStore) (u t : Uuid)

theorem jdSkills_retroactive :
    ∃ new, ((getPendingJdLinks s.toSkillStore u).foldl (retroactiveJdSkillCounted t)
        s).jdSkills.rows = s.jdSkills.rows ++ new ∧
      Backfilled jdSkillOwner (fun link : JDUnknownSkill => (link.jdId, t))
        (fun link row => row = manualJdSkill link t row.id)
        (getPendingJdLinks s.toSkillStore u) s.jdSkills.rows new ∧
      ((getPendingJdLinks s.toSkillStore u).foldl (retroactiveJdSkillCounted t)
        s).occurrenceCount t = s.occurrenceCount t + new.length ∧
      OthersCounted t s.occurrenceCount ((getPendingJdLinks s.toSkillStore u).foldl
        (retroactiveJdSkillCounted t) s) :=
  backfilled_foldl (retroactiveJdSkillCounted t) (fun s => s.jdSkills.rows)
    (fun s => s.occurrenceCount t) (OthersCounted t s.occurrenceCount) _
    (fun s' hothers link _ =>
      ⟨othersCounted_retroactiveJdSkillCounted t _ s' link hothers,
        backfill_retroactiveJdSkillCounted t s' link⟩)
    s fun _ _ => rfl

def linked : CountedStore :=
  let links := getPendingJdLinks s.toSkillStore u
  let resolved := links.foldl (retroactiveJdSkillCounted t) s
  withSkillStore resolved (links.foldl deleteJdUnknownSkill resolved.toSkillStore)

theorem candidateSkills_linked : (linked s u t).candidateSkills = s.candidateSkills := by
  show ((getPendingJdLinks s.toSkillStore u).foldl deleteJdUnknownSkill _).candidateSkills = _
  rw [(deleteLinks_frame _).2.1, toSkillStore_foldl _ _ (toSkillStore_retroactiveJdSkillCounted t)]
  exact (retroactive_frame _ _).2.1

theorem migrateOccurrencesCounted_eq : migrateOccurrencesCounted t s u =
    (getCandidateSkillsByUnknownSkillId s.toSkillStore u).foldl
      (migrateCandidateSkillCounted t) (linked s u t) := by
  have hbatch : getCandidateSkillsByUnknownSkillId (linked s u t).toSkillStore u =
      getCandidateSkillsByUnknownSkillId s.toSkillStore u := by
    rw [getCandidateSkillsByUnknownSkillId, candidateSkills_linked]
    rfl
  rw [← hbatch]
  rfl

variable {s}

theorem migrating_linked (h : Consistent s.toSkillStore)
    (hothers : OthersCounted t s.occurrenceCount (linked s u t)) :
    Migrating t s.occurrenceCount (getCandidateSkillsByUnknownSkillId s.toSkillStore u)
      (linked s u t) := by
  refine ⟨?_, ?_, hothers⟩
  · intro c hc
    rw [candidateSkills_linked]
    exact s.candidateSkills.below c (List.mem_filter.mp hc).1
  · intro c hc row hrow hid
    rw [candidateSkills_linked] at hrow
    obtain ⟨hmem, hunknown⟩ := List.mem_filter.mp hc
    obtain rfl : row = c := s.candidateSkills.eq_of_key_eq hrow hmem hid
    have hsome : row.unknownSkillId = some u := of_decide_eq_true hunknown
    rw [h.unmatched row hmem (by simp [hsome])]
    exact nofun

theorem candidateSkills_migrated (h : Consistent s.toSkillStore)
    (hothers : OthersCounted t s.occurrenceCount (linked s u t)) :
    ∃ new, targetRows t (migrateOccurrencesCounted t s u).toSkillStore =
        targetRows t s.toSkillStore ++ new ∧
      Backfilled CandidateSkill.resumeId CandidateSkill.resumeId
        (fun c row => row = manualCandidateSkill c t row.id)
        (getCandidateSkillsByUnknownSkillId s.toSkillStore u) (targetRows t s.toSkillStore) new ∧
      (migrateOccurrencesCounted t s u).occurrenceCount t =
        (linked s u t).occurrenceCount t + new.length ∧
      OthersCounted t s.occurrenceCount (migrateOccurrencesCounted t s u) := by
  have hview : targetRows t (linked s u t).toSkillStore = targetRows t s.toSkillStore := by
    rw [targetRows, candidateSkills_linked, targetRows]
  obtain ⟨new, hrows, hfilled, hcount, hfinal⟩ :=
    backfilled_foldl (migrateCandidateSkillCounted t) (fun s => targetRows t s.toSkillStore)
      (fun s => s.occurrenceCount t)
      (Migrating t s.occurrenceCount (getCandidateSkillsByUnknownSkillId s.toSkillStore u)) _
      (fun s' hs' c hc => migrateCandidateSkillCounted_step t _ _ s' hs' c hc)
      (linked s u t) (migrating_linked u t h hothers)
  rw [← migrateOccurrencesCounted_eq] at hrows hcount hfinal
  rw [hview] at hrows hfilled
  exact ⟨new, hrows, hfilled, hcount, hfinal.others⟩

theorem mem_candidateSkills_migrated (row : CandidateSkill) (hrow : row.canonicalSkillId ≠ some t) :
    row ∈ (migrateOccurrencesCounted t s u).candidateSkills.rows ↔
      row ∈ s.candidateSkills.rows ∧ row.unknownSkillId ≠ some u := by
  rw [migrateOccurrencesCounted_eq,
    toSkillStore_foldl _ _ (toSkillStore_migrateCandidateSkillCounted t),
    mem_foldl_migrateCandidateSkill t _ _ row hrow, candidateSkills_linked]
  apply and_congr_right
  intro hmem
  apply not_congr
  rw [List.mem_map]
  constructor
  · rintro ⟨c, hc, hid⟩
    obtain ⟨hin, hunknown⟩ := List.mem_filter.mp hc
    obtain rfl : c = row := s.candidateSkills.eq_of_key_eq hin hmem hid
    exact of_decide_eq_true hunknown
  · intro hunknown
    exact ⟨row, List.mem_filter.mpr ⟨hmem, decide_eq_true hunknown⟩, rfl⟩

theorem mem_targetRows (store : SkillStore) (row : CandidateSkill) : row ∈ targetRows t store ↔
      row ∈ store.candidateSkills.rows ∧ row.canonicalSkillId = some t := by
  rw [targetRows, List.mem_filter, decide_eq_true_iff]

theorem unknownSkillId_migrated (h : Consistent s.toSkillStore) (new : List CandidateSkill)
    (hrows : targetRows t (migrateOccurrencesCounted t s u).toSkillStore =
      targetRows t s.toSkillStore ++ new)
    (hnew : ∀ row ∈ new, row.unknownSkillId = none) :
    ∀ c ∈ (migrateOccurrencesCounted t s u).candidateSkills.rows, c.unknownSkillId ≠ some u := by
  intro c hc hu
  by_cases htarget : c.canonicalSkillId = some t
  · have hin := (mem_targetRows t _ c).mpr ⟨hc, htarget⟩
    rw [hrows, List.mem_append] at hin
    rcases hin with hin | hin
    · -- a matched row refers to no unknown skill
      have hnone := h.unmatched c ((mem_targetRows t _ c).mp hin).1 (by simp [hu])
      exact absurd (htarget.symm.trans hnone) nofun
    · exact absurd (hu.symm.trans (hnew c hin)) nofun
  · exact ((mem_candidateSkills_migrated u t c htarget).mp hc).2 hu

theorem jdSkills_linked (rows : List JDSkill) (hrows : ((getPendingJdLinks s.toSkillStore u).foldl
    (retroactiveJdSkillCounted t) s).jdSkills.rows = rows) :
    (migrateOccurrencesCounted t s u).jdSkills.rows = rows := by
  rw [migrateOccurrencesCounted_eq,
    toSkillStore_foldl _ _ (toSkillStore_migrateCandidateSkillCounted t),
    jdSkills_foldl_migrateCandidateSkill]
  show ((getPendingJdLinks s.toSkillStore u).foldl deleteJdUnknownSkill _).jdSkills.rows = rows
  rw [jdSkills_foldl_deleteJdUnknownSkill]
  exact hrows

theorem mem_getPendingJdLinks (store : SkillStore) (link : JDUnknownSkill) :
    link ∈ getPendingJdLinks store u ↔ store.PendingLink link ∧ link.unknownSkillId = u := by
  rw [getPendingJdLinks, List.mem_filter, decide_eq_true_iff, PendingLink]
  tauto

variable (s)

theorem migrated_migrateOccurrencesCounted (h : Consistent s.toSkillStore) :
    ∃ newJdSkills newCandidateSkills,
      Migrated s (migrateOccurrencesCounted t s u) u t newJdSkills newCandidateSkills := by
  obtain ⟨newJdSkills, hjdRows, hjd, hjdCount, hjdOthers⟩ := jdSkills_retroactive s u t
  obtain ⟨newCandidateSkills, htarget, hcandidate, hcount, hothers⟩ :=
    candidateSkills_migrated u t h hjdOthers
  have hlinks : LinksClosed s.toSkillStore (migrateOccurrencesCounted t s u).toSkillStore u := by
    rw [toSkillStore_migrateOccurrencesCounted]
    exact (migrate_links u t).1
  have hrows := jdSkills_linked u t _ hjdRows
  refine ⟨newJdSkills, newCandidateSkills, ?_, ?_, hrows, ?_, ?_, ?_, htarget, ?_, ?_, ?_, ?_, ?_⟩
  · exact hlinks
  · apply unknownSkillId_migrated u t h _ htarget
    intro row hrow
    obtain ⟨c, -, -, hmade⟩ := hcandidate.origin row hrow
    rw [hmade]
    rfl
  · intro link hpending hu
    rw [hrows]
    obtain ⟨row, ⟨hrow, howner⟩, hone⟩ := hjd.exactlyOne
      (fun a ha b hb hsame => h.uqJdSkill a ha b hb (Prod.mk.inj hsame).1 (Prod.mk.inj hsame).2)
      link ((mem_getPendingJdLinks u _ link).mpr ⟨hpending, hu⟩)
    refine ⟨row, ⟨hrow, Prod.mk.inj howner⟩, ?_⟩
    rintro other ⟨hother, hjdId, ht⟩
    exact hone other ⟨hother, Prod.ext hjdId ht⟩
  · intro row hrow
    obtain ⟨link, hlink, howner, -⟩ := hjd.origin row hrow
    obtain ⟨hpending, hu⟩ := (mem_getPendingJdLinks u _ link).mp hlink
    exact ⟨(Prod.mk.inj howner).2, link, hpending, hu, (Prod.mk.inj howner).1.symm⟩
  · intro row hrow link hpending hu hjdId
    obtain ⟨origin, horigin, howner, hmade⟩ := hjd.origin row hrow
    obtain ⟨hpending', hu'⟩ := (mem_getPendingJdLinks u _ origin).mp horigin
    -- one link of the JD refers to u
    obtain rfl : link = origin := h.uqLink link hpending.1 origin hpending'.1
      (hjdId.trans (Prod.mk.inj howner).1) (hu.trans hu'.symm)
    rw [hmade]
    rfl
  · exact mem_candidateSkills_migrated u t
  · intro c hc hu
    obtain ⟨row, ⟨hrow, howner⟩, hone⟩ := hcandidate.exactlyOne (fun a ha b hb hsame => by
        obtain ⟨ha, hat⟩ := (mem_targetRows t _ a).mp ha
        obtain ⟨hb, hbt⟩ := (mem_targetRows t _ b).mp hb
        exact h.uqCandidateSkill a ha b hb hsame (hat.trans hbt.symm) (by simp [hat]))
      c (List.mem_filter.mpr ⟨hc, decide_eq_true hu⟩)
    rw [← htarget] at hrow
    obtain ⟨hmem, hrowt⟩ := (mem_targetRows t _ row).mp hrow
    refine ⟨row, ⟨hmem, howner, hrowt⟩, ?_⟩
    rintro other ⟨hother, hsame, hot⟩
    refine hone other ⟨?_, hsame⟩
    rw [← htarget]
    exact (mem_targetRows t _ other).mpr ⟨hother, hot⟩
  · intro row hrow
    obtain ⟨c, hc, howner, hmade⟩ := hcandidate.origin row hrow
    obtain ⟨hin, hu⟩ := List.mem_filter.mp hc
    refine ⟨by rw [hmade]; rfl, c, hin, of_decide_eq_true hu, howner.symm, ?_⟩
    rw [hmade]
    rfl
  · rw [hcount]
    show ((getPendingJdLinks s.toSkillStore u).foldl _ s).occurrenceCount t + _ = _
    rw [hjdCount]
  · exact hothers

variable {newJdSkills : List JDSkill} {newCandidateSkills : List CandidateSkill}

theorem Migrated.ofOntology {s' : CountedStore} {u t : Uuid}
    {ontology : SkillOntologyTable} (db : JdDatabase)
    (counts : Uuid → ℕ) (h : Migrated ⟨(withOntology db ontology).toSkillStore, counts⟩ s' u t
      newJdSkills newCandidateSkills) :
    Migrated ⟨db.toSkillStore, counts⟩ s' u t newJdSkills newCandidateSkills :=
  ⟨h.links, h.noCandidate, h.jdSkills, h.jdSkill, h.newJdSkill, h.mandatory, h.candidateSkills,
    h.otherCandidateSkills, h.candidateSkill, h.newCandidateSkill, h.counted, h.otherCounts⟩

theorem Migrated.after {s s' s'' : CountedStore} {u t : Uuid}
    (h : Migrated s s' u t newJdSkills newCandidateSkills)
    (hlinks : ∀ link, s''.toSkillStore.PendingLink link ↔ s'.toSkillStore.PendingLink link)
    (hjd : s''.jdSkills = s'.jdSkills)
    (hcandidates : s''.candidateSkills.rows = s'.candidateSkills.rows)
    (hcounts : s''.occurrenceCount = s'.occurrenceCount) :
    Migrated s s'' u t newJdSkills newCandidateSkills := by
  have htarget : targetRows t s''.toSkillStore = targetRows t s'.toSkillStore := by
    rw [targetRows, hcandidates, targetRows]
  constructor
  · exact fun link => (hlinks link).trans (h.links link)
  · rw [hcandidates]
    exact h.noCandidate
  · rw [hjd]
    exact h.jdSkills
  · rw [hjd]
    exact h.jdSkill
  · exact h.newJdSkill
  · exact h.mandatory
  · rw [htarget]
    exact h.candidateSkills
  · rw [hcandidates]
    exact h.otherCandidateSkills
  · rw [hcandidates]
    exact h.candidateSkill
  · exact h.newCandidateSkill
  · rw [hcounts]
    exact h.counted
  · rw [hcounts]
    exact h.otherCounts

theorem Migrated.cascade {s s' : CountedStore} {t : Uuid} (unknownSkill : UnknownSkill)
    (h : Migrated s s' unknownSkill.id t newJdSkills newCandidateSkills) :
    Migrated s (withSkillStore s' (deleteUnknownSkillCascade s'.toSkillStore unknownSkill))
      unknownSkill.id t newJdSkills newCandidateSkills := by
  refine h.after ?_ rfl ?_ rfl
  · intro link
    show link ∈ (s'.jdUnknownSkills.delete _).rows ∧ _ ↔ _
    rw [Table.rows_delete, List.mem_filter, PendingLink]
    constructor
    · rintro ⟨⟨hlink, -⟩, hpending⟩
      exact ⟨hlink, hpending⟩
    · rintro ⟨hlink, hpending⟩
      have hne := ((h.links link).mp ⟨hlink, hpending⟩).2
      exact ⟨⟨hlink, by simpa using hne⟩, hpending⟩
  · show (s'.candidateSkills.delete _).rows = _
    rw [Table.rows_delete, List.filter_eq_self]
    intro c hc
    simpa using h.noCandidate c hc

end Migrated

theorem unknown_resolved_losslessly (lower : String → String) (db : JdDatabase) (counts : Uuid → ℕ)
    (h : Consistent db.toSkillStore) (u : Uuid) :
    (∀ t resolutionType db' counts',
      resolveUnknownSkillCounted t lower db counts u resolutionType = .ok (db', counts') →
        ∃ newJdSkills newCandidateSkills, Migrated ⟨db.toSkillStore, counts⟩
          ⟨db'.toSkillStore, counts'⟩ u t newJdSkills newCandidateSkills) ∧
      ∀ fields db' counts',
        createCanonicalSkillFromUnknownCounted lower db counts u fields = .ok (db', counts') →
          ∃ newJdSkills newCandidateSkills, Migrated
            ⟨db.toSkillStore, Function.update counts db.ontology.skills.next 0⟩
            ⟨db'.toSkillStore, counts'⟩ u db.ontology.skills.next newJdSkills
            newCandidateSkills := by
  constructor
  · intro t resolutionType db' counts' hcall
    simp only [resolveUnknownSkillCounted, bind_eq_ok] at hcall
    obtain ⟨unknownSkill, hunknown, targetSkill, htarget, hcall⟩ := hcall
    obtain ⟨rfl, -⟩ := getUnknownSkillOr404_ok db u unknownSkill hunknown
    obtain ⟨-, rfl⟩ := getSkillOr404_stored htarget
    split_ifs at hcall
    simp only [bind_eq_ok] at hcall
    obtain ⟨ontology, -, hcall⟩ := hcall
    cases hcall
    obtain ⟨newJdSkills, newCandidateSkills, hmigrated⟩ :=
      migrated_migrateOccurrencesCounted ⟨(withOntology db ontology).toSkillStore, counts⟩
        unknownSkill.id targetSkill.id
        ⟨h.uqJdSkill, h.uqLink, h.uqCandidateSkill, h.unmatched⟩
    refine ⟨newJdSkills, newCandidateSkills, ?_⟩
    rw [(refresh_refreshed _ _).store]
    exact (hmigrated.ofOntology db counts).after (fun link => Iff.rfl) rfl rfl rfl
  · intro fields db' counts' hcall
    simp only [createCanonicalSkillFromUnknownCounted, bind_eq_ok] at hcall
    obtain ⟨unknownSkill, hunknown, hcall⟩ := hcall
    obtain ⟨rfl, -⟩ := getUnknownSkillOr404_ok db u unknownSkill hunknown
    obtain ⟨ontology, -, hcall⟩ := (map_eq_ok _ _ _).mp hcall
    cases hcall
    obtain ⟨newJdSkills, newCandidateSkills, hmigrated⟩ :=
      migrated_migrateOccurrencesCounted
        ⟨(withOntology db ontology).toSkillStore, Function.update counts db.ontology.skills.next 0⟩
        unknownSkill.id db.ontology.skills.next
        ⟨h.uqJdSkill, h.uqLink, h.uqCandidateSkill, h.unmatched⟩
    refine ⟨newJdSkills, newCandidateSkills, ?_⟩
    rw [(refresh_refreshed _ _).store]
    exact (hmigrated.ofOntology db _).cascade unknownSkill

def waiting : JdDatabase :=
  Library.final SkillRun.noSkills (SkillRun.skillRun
    [.persistJd (SkillRun.unmatchedJd "jd" "Go"),
      .persistResume ⟨0, 0, [SkillRun.unmatched "Go", SkillRun.unmatched "Go"]⟩])

theorem consistent_waiting : Consistent waiting.toSkillStore := by
  have hnone : ∀ c ∈ waiting.candidateSkills.rows, c.canonicalSkillId = none := by decide
  have hlinks : waiting.jdUnknownSkills.rows.map (·.id) = [0] := by decide
  constructor
  · intro a ha
    have hempty : waiting.jdSkills.rows = [] := by rfl
    rw [hempty] at ha
    simp at ha
  · intro a ha b hb _ _
    have hids : ∀ link ∈ waiting.jdUnknownSkills.rows, link.id = 0 := by
      intro link hlink
      have hin : link.id ∈ waiting.jdUnknownSkills.rows.map (·.id) :=
        List.mem_map.mpr ⟨link, hlink, rfl⟩
      rw [hlinks] at hin
      exact List.mem_singleton.mp hin
    exact waiting.jdUnknownSkills.eq_of_key_eq ha hb ((hids a ha).trans (hids b hb).symm)
  · intro a ha b hb _ _ hsome
    exact absurd (hnone a ha) hsome
  · intro c hc _
    exact hnone c hc

def go : CanonicalFields := ⟨some "Go", none, none, none, "verified", "HR", true⟩

theorem unknown_resolved_losslessly_go : ∃ db' counts' newJdSkills newCandidateSkills,
    createCanonicalSkillFromUnknownCounted id waiting (fun _ => 0) 0 go = .ok (db', counts') ∧
      Migrated ⟨waiting.toSkillStore, Function.update (fun _ => 0) 0 0⟩
        ⟨db'.toSkillStore, counts'⟩ 0 0 newJdSkills newCandidateSkills := by
  obtain ⟨⟨db', counts'⟩, hcall⟩ : ∃ result, createCanonicalSkillFromUnknownCounted id waiting
      (fun _ => 0) 0 go = .ok result := ⟨_, rfl⟩
  obtain ⟨newJdSkills, newCandidateSkills, hmigrated⟩ :=
    (unknown_resolved_losslessly id waiting (fun _ => 0) consistent_waiting 0).2 go db' counts'
      hcall
  exact ⟨db', counts', newJdSkills, newCandidateSkills, hcall, hmigrated⟩

end SkillCurationService

end AiHiring
