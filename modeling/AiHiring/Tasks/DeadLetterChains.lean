import AiHiring.Tasks.DeadLetterReplay

namespace AiHiring

open Library

namespace DeadLetterChains

open DeadLetterReplay

abbrev Entries := Table DeadLetterEntry DeadLetterEntry.id

-- The column moved_to_dlq_at, and how the database orders rows of the same instant.
structure Moved where
  movedToDlqAt : Uuid → Instant
  tie : Uuid → ℕ

-- What the screen is asked for; `campaign` carries the candidates and the resumes of
-- the campaign.
structure Listing where
  campaign : Request
  (limit offset : ℕ)
  includeResolved : Bool

-- `_dlq_chain_key`, and `campaign_candidate_id or resume_id` in Python, where an id is
-- never falsy.
def dlqChainKey (entry : DeadLetterEntry) : Option Uuid :=
  entry.campaignCandidateId.or entry.resumeId

def samePartition (first second : DeadLetterEntry) : Prop :=
  first.taskType = second.taskType ∧ dlqChainKey first = dlqChainKey second

instance (first second : DeadLetterEntry) : Decidable (samePartition first second) :=
  inferInstanceAs (Decidable (_ ∧ _))

namespace Moved

variable (moved : Moved)

def Newer (first second : DeadLetterEntry) : Prop :=
  moved.movedToDlqAt second.id < moved.movedToDlqAt first.id ∨
    moved.movedToDlqAt second.id = moved.movedToDlqAt first.id ∧
      moved.tie first.id < moved.tie second.id

instance (first second : DeadLetterEntry) : Decidable (moved.Newer first second) :=
  inferInstanceAs (Decidable (_ ∨ _))

-- `order_by(moved_to_dlq_at.desc())`
def newestFirst (entries : List DeadLetterEntry) : List DeadLetterEntry :=
  entries.insertionSort fun first second =>
    moved.movedToDlqAt second.id ≤ moved.movedToDlqAt first.id

def firstOfPartition (entries : List DeadLetterEntry) : List DeadLetterEntry :=
  entries.filter fun head => entries.all fun other =>
    samePartition head other → other.id = head.id ∨ moved.Newer head other

end Moved

section Repository

variable (moved : Moved) (table : Entries)

def getDlqChainHeadsPage (listing : Listing) : List DeadLetterEntry :=
  let replayable := table.rows.filter fun entry =>
    inCampaign listing.campaign entry && (builder entry).isSome
  let heads := (moved.firstOfPartition replayable).filter fun head =>
    listing.includeResolved || head.resolvedAt.isNone
  ((moved.newestFirst heads).drop listing.offset).take listing.limit

-- The dictionary from a chain to the id of its head; a later head would win.
def chainKeys (heads : List DeadLetterEntry) : List ((String × Uuid) × Uuid) :=
  heads.filterMap fun head => (dlqChainKey head).map fun key => ((head.taskType, key), head.id)

def headOf (keys : List ((String × Uuid) × Uuid)) (row : DeadLetterEntry) : Option Uuid :=
  (dlqChainKey row).bind fun key =>
    (keys.reverse.find? fun entry => entry.1 = (row.taskType, key)).map Prod.snd

def getDlqChainRows (heads : List DeadLetterEntry) (headId : Uuid) : List DeadLetterEntry :=
  let keys := chainKeys heads
  if keys = [] then
    heads.filter fun head => head.id = headId
  else
    (moved.newestFirst (table.rows.filter fun row => (headOf keys row).isSome)).filter fun row =>
      headOf keys row = some headId

def atRest : World where
  entries := table
  phase := fun _ => .start
  results := fun _ => []
  marks := []
  tickets := []

def countDlqChainReplays (entry : DeadLetterEntry) : ℕ :=
  (atRest table).countDlqChainReplays 0 entry

end Repository

inductive ChainStatus where
  | resolved
  | replaying
  | limitReached
  | opened
  deriving DecidableEq

structure Attempt where
  id : Uuid
  movedToDlqAt : Instant
  replayedAt : Option Instant

structure ChainFields where
  status : ChainStatus
  (attemptCount replaysUsed replayLimit : ℕ)
  resolvedAt : Option Instant
  history : List Attempt

def chainStatus (head : DeadLetterEntry) (replaysUsed replayLimit : ℕ) : ChainStatus :=
  if head.resolvedAt.isSome then .resolved
  else if head.replayedAt.isSome then .replaying
  else if replayLimit ≤ replaysUsed then .limitReached
  else .opened

-- `chains.get(head.id) or [head]`
def shownRows (moved : Moved) (table : Entries) (heads : List DeadLetterEntry)
    (head : DeadLetterEntry) : List DeadLetterEntry :=
  match getDlqChainRows moved table heads head.id with
  | [] => [head]
  | rows => rows

def chainFields (moved : Moved) (table : Entries) (replayLimit : ℕ)
    (heads : List DeadLetterEntry) (head : DeadLetterEntry) : ChainFields :=
  let rows := shownRows moved table heads head
  let replaysUsed := rows.countP fun row => row.replayedAt.isSome
  { status := chainStatus head replaysUsed replayLimit
    attemptCount := rows.length
    replaysUsed
    replayLimit
    resolvedAt := head.resolvedAt
    history := (rows.filter fun row => row.id ≠ head.id).map fun row =>
      ⟨row.id, moved.movedToDlqAt row.id, row.replayedAt⟩ }

def getDeadLetterQueueForCampaign (moved : Moved) (table : Entries) (replayLimit : ℕ)
    (listing : Listing) : List (DeadLetterEntry × ChainFields) :=
  let heads := getDlqChainHeadsPage moved table listing
  heads.map fun head => (head, chainFields moved table replayLimit heads head)

def openFor (taskType : String) (campaignCandidateId resumeId : Option Uuid)
    (row : DeadLetterEntry) : Bool :=
  row.taskType = taskType && row.resolvedAt.isNone &&
    match campaignCandidateId, resumeId with
    | some campaignCandidateId, _ => row.campaignCandidateId = some campaignCandidateId
    | none, some resumeId => row.resumeId = some resumeId && row.campaignCandidateId.isNone
    | none, none => false

def resolveOpen (table : Entries) (taskType : String) (campaignCandidateId resumeId : Option Uuid)
    (resolvedAt : Instant) : Entries :=
  table.modify (fun row => if openFor taskType campaignCandidateId resumeId row then
    { row with resolvedAt := some resolvedAt } else row) (by
      intro row
      split_ifs <;> rfl)

-- The chain that the screen shows: the head and its history.
def displayed (head : DeadLetterEntry) (fields : ChainFields) : List Uuid :=
  head.id :: fields.history.map Attempt.id

-- The screen, the replay guard and the resolution mean the same chain.
structure SameChain (table : Entries) (head : DeadLetterEntry) (fields : ChainFields) : Prop where
  replays : fields.replaysUsed = countDlqChainReplays table head
  admitted : fields.status = .opened → countDlqChainReplays table head < fields.replayLimit
  refused : fields.status = .limitReached → fields.replayLimit ≤ countDlqChainReplays table head
  resolves : ∀ now, (resolveOpen table head.taskType head.campaignCandidateId head.resumeId
      now).rows = table.rows.map fun row =>
    if row.id ∈ displayed head fields ∧ row.resolvedAt.isNone then
      { row with resolvedAt := some now } else row

-- The rows that carry the id of the head's candidate as their resume's, or the id of
-- its resume as their candidate's, and the rows that carry both ids.
def Alike (table : Entries) (head : DeadLetterEntry) : Prop :=
  match head.campaignCandidateId with
  | some campaignCandidateId => ∀ row ∈ table.rows, row.taskType = head.taskType →
      row.campaignCandidateId = none → row.resumeId = some campaignCandidateId →
      row.replayedAt = none ∧ row.resolvedAt.isSome
  | none =>
    (∀ row ∈ table.rows, row.taskType = head.taskType →
      row.campaignCandidateId = head.resumeId → row.resolvedAt.isSome) ∧
    table.rows.countP (fun row => row.taskType = head.taskType && row.replayedAt.isSome &&
        row.campaignCandidateId = head.resumeId) =
      table.rows.countP fun row => row.taskType = head.taskType && row.replayedAt.isSome &&
        row.resumeId = head.resumeId && row.campaignCandidateId.isSome

section Shown

variable {moved : Moved} {table : Entries} {replayLimit : ℕ} {listing : Listing}
  {head other row : DeadLetterEntry}

theorem dlqChainKey_isSome {campaign : Request} (h : inCampaign campaign row = true) :
    (dlqChainKey row).isSome := by
  unfold inCampaign at h
  unfold dlqChainKey
  cases hcandidate : row.campaignCandidateId with
  | some campaignCandidateId => rfl
  | none =>
    cases hresume : row.resumeId with
    | some resumeId => rfl
    | none => simp [hcandidate, hresume] at h

theorem mem_page (h : head ∈ getDlqChainHeadsPage moved table listing) :
    head ∈ moved.firstOfPartition (table.rows.filter fun entry =>
      inCampaign listing.campaign entry && (builder entry).isSome) := by
  have hdropped := List.mem_of_mem_drop (List.mem_of_mem_take h)
  have hsorted := (List.mem_insertionSort _).mp hdropped
  exact List.mem_of_mem_filter hsorted

theorem page_stored (h : head ∈ getDlqChainHeadsPage moved table listing) :
    head ∈ table.rows ∧ (dlqChainKey head).isSome := by
  have hfiltered := List.mem_filter.mp (List.mem_of_mem_filter (mem_page h))
  have hboth := (Bool.and_eq_true _ _).mp hfiltered.2
  exact ⟨hfiltered.1, dlqChainKey_isSome hboth.1⟩

theorem page_distinct (hhead : head ∈ getDlqChainHeadsPage moved table listing)
    (hother : other ∈ getDlqChainHeadsPage moved table listing)
    (hsame : samePartition head other) : head = other := by
  have hfirst := List.mem_filter.mp (mem_page hhead)
  have hsecond := List.mem_filter.mp (mem_page hother)
  have hnewer := List.all_eq_true.mp hfirst.2 other hsecond.1
  have holder := List.all_eq_true.mp hsecond.2 head hfirst.1
  rw [decide_eq_true_eq] at hnewer holder
  have hid : other.id = head.id := by
    by_contra hne
    have hlt := (hnewer hsame).resolve_left hne
    have hgt := (holder ⟨hsame.1.symm, hsame.2.symm⟩).resolve_left (Ne.symm hne)
    obtain hlater | ⟨heq, htie⟩ := hlt
    · obtain hearlier | ⟨heq', -⟩ := hgt
      · exact lt_asymm hlater hearlier
      · exact absurd heq' hlater.ne'
    · obtain hearlier | ⟨-, htie'⟩ := hgt
      · exact absurd heq hearlier.ne'
      · exact lt_asymm htie htie'
  exact table.eq_of_key_eq (page_stored hhead).1 (page_stored hother).1 hid.symm

theorem mem_chainKeys {heads : List DeadLetterEntry} {entry : (String × Uuid) × Uuid} :
    entry ∈ chainKeys heads ↔ ∃ head ∈ heads, ∃ key, dlqChainKey head = some key ∧
        entry = ((head.taskType, key), head.id) := by
  unfold chainKeys
  rw [List.mem_filterMap]
  constructor
  · intro h
    obtain ⟨head, hhead, hmap⟩ := h
    obtain ⟨key, hkey, hentry⟩ := Option.map_eq_some_iff.mp hmap
    exact ⟨head, hhead, key, hkey, hentry.symm⟩
  · intro h
    obtain ⟨head, hhead, key, hkey, hentry⟩ := h
    exact ⟨head, hhead, Option.map_eq_some_iff.mpr ⟨key, hkey, hentry.symm⟩⟩

theorem headOf_eq (hhead : head ∈ getDlqChainHeadsPage moved table listing) :
    headOf (chainKeys (getDlqChainHeadsPage moved table listing)) row = some head.id ↔
      samePartition head row := by
  let page := getDlqChainHeadsPage moved table listing
  have hstored := page_stored hhead
  obtain ⟨key, hkey⟩ := Option.isSome_iff_exists.mp hstored.2
  unfold headOf
  cases hrow : dlqChainKey row with
  | none =>
    constructor
    · intro h
      cases h
    · intro h
      rw [h.2, hrow] at hkey
      cases hkey
  | some rowKey =>
    have hentry (entry : (String × Uuid) × Uuid)
        (hfound : (chainKeys page).reverse.find? (fun entry =>
          entry.1 = (row.taskType, rowKey)) = some entry) :
        ∃ other ∈ page, samePartition other row ∧ entry.2 = other.id := by
      have hmem := List.mem_reverse.mp (List.mem_of_find?_eq_some hfound)
      have hselected := List.find?_some hfound
      obtain ⟨other, hother, otherKey, hotherKey, rfl⟩ := mem_chainKeys.mp hmem
      obtain ⟨htype, heq⟩ := Prod.mk.inj (of_decide_eq_true hselected)
      exact ⟨other, hother, ⟨htype, by rw [hotherKey, hrow, heq]⟩, rfl⟩
    constructor
    · intro h
      obtain ⟨entry, hfound, hid⟩ := Option.map_eq_some_iff.mp h
      obtain ⟨other, hother, hsame, hotherId⟩ := hentry entry hfound
      have heq : other = head := table.eq_of_key_eq (page_stored hother).1 hstored.1
        (hotherId.symm.trans hid)
      exact heq ▸ hsame
    · intro hsame
      have hin : ((head.taskType, key), head.id) ∈ (chainKeys page).reverse :=
        List.mem_reverse.mpr (mem_chainKeys.mpr ⟨head, hhead, key, hkey, rfl⟩)
      have hselected : (head.taskType, key) = (row.taskType, rowKey) := by
        rw [hsame.1, Option.some.inj (hkey.symm.trans (hsame.2.trans hrow))]
      cases hfound : (chainKeys page).reverse.find? (fun entry =>
          entry.1 = (row.taskType, rowKey)) with
      | none =>
        have hnone := List.find?_eq_none.mp hfound _ hin
        exact absurd (decide_eq_true hselected) hnone
      | some entry =>
        obtain ⟨other, hother, hotherSame, hotherId⟩ := hentry entry hfound
        have heq : other = head := page_distinct hother hhead
          ⟨hotherSame.1.trans hsame.1.symm, hotherSame.2.trans hsame.2.symm⟩
        rw [Option.bind_some]
        change (List.find? _ (chainKeys page).reverse).map Prod.snd = some head.id
        rw [hfound]
        exact congrArg some (hotherId.trans (congrArg DeadLetterEntry.id heq))

theorem shownRows_eq {heads : List DeadLetterEntry}
    (hne : getDlqChainRows moved table heads head.id ≠ []) :
    shownRows moved table heads head = getDlqChainRows moved table heads head.id := by
  unfold shownRows
  split
  · next hnone => exact absurd hnone hne
  · rfl

theorem shownRows_perm (hhead : head ∈ getDlqChainHeadsPage moved table listing) :
    (shownRows moved table (getDlqChainHeadsPage moved table listing) head).Perm
      (table.rows.filter fun row => samePartition head row) := by
  let page := getDlqChainHeadsPage moved table listing
  have hstored := page_stored hhead
  obtain ⟨key, hkey⟩ := Option.isSome_iff_exists.mp hstored.2
  have hkeys : chainKeys page ≠ [] :=
    List.ne_nil_of_mem (mem_chainKeys.mpr ⟨head, hhead, key, hkey, rfl⟩)
  have hrows : (getDlqChainRows moved table page head.id).Perm
      (table.rows.filter fun row => samePartition head row) := by
    unfold getDlqChainRows
    rw [if_neg hkeys]
    have hsorted := (List.perm_insertionSort (fun first second : DeadLetterEntry =>
      moved.movedToDlqAt second.id ≤ moved.movedToDlqAt first.id)
      (table.rows.filter fun row => (headOf (chainKeys page) row).isSome)).filter
        fun row => headOf (chainKeys page) row = some head.id
    refine hsorted.trans (List.Perm.of_eq ?_)
    rw [List.filter_filter]
    refine List.filter_congr fun row _ => ?_
    by_cases hsame : samePartition head row
    · have hself := (headOf_eq hhead).mpr hsame
      change headOf (chainKeys page) row = some head.id at hself
      simp only [hself, hsame, Option.isSome_some, decide_true, Bool.and_self]
    · have hother : headOf (chainKeys page) row ≠ some head.id :=
        fun h => hsame ((headOf_eq hhead).mp h)
      simp only [hother, hsame, decide_false, Bool.false_and]
  have hmem : head ∈ getDlqChainRows moved table page head.id :=
    hrows.mem_iff.mpr (List.mem_filter.mpr ⟨hstored.1, decide_eq_true ⟨rfl, rfl⟩⟩)
  rw [shownRows_eq (List.ne_nil_of_mem hmem)]
  exact hrows

theorem openFor_unresolved {taskType : String} {campaignCandidateId resumeId : Option Uuid}
    (h : openFor taskType campaignCandidateId resumeId row = true) : row.resolvedAt = none := by
  unfold openFor at h
  simp only [Bool.and_eq_true, Option.isNone_iff_eq_none] at h
  exact h.1.2

theorem chainStatus_spec (head : DeadLetterEntry) (replaysUsed replayLimit : ℕ) :
    (chainStatus head replaysUsed replayLimit = .opened → replaysUsed < replayLimit) ∧
      (chainStatus head replaysUsed replayLimit = .limitReached → replayLimit ≤ replaysUsed) := by
  unfold chainStatus
  split_ifs with hresolved hreplayed hlimit
  · simp
  · simp
  · exact ⟨by simp, fun _ => hlimit⟩
  · exact ⟨fun _ => by omega, by simp⟩

section Chain

variable (moved replayLimit) (hhead : head ∈ getDlqChainHeadsPage moved table listing)

include hhead

theorem replaysUsed_eq :
    (chainFields moved table replayLimit (getDlqChainHeadsPage moved table listing)
      head).replaysUsed =
      table.rows.countP fun row => samePartition head row && row.replayedAt.isSome := by
  have hcount := (shownRows_perm hhead).countP_eq fun row => row.replayedAt.isSome
  rw [List.countP_filter] at hcount
  have hcomm : (fun row : DeadLetterEntry => row.replayedAt.isSome && samePartition head row) =
      fun row => samePartition head row && row.replayedAt.isSome :=
    funext fun row => Bool.and_comm _ _
  rw [hcomm] at hcount
  exact hcount

theorem mem_displayed (hrow : row ∈ table.rows) :
    row.id ∈ displayed head (chainFields moved table replayLimit
      (getDlqChainHeadsPage moved table listing) head) ↔ samePartition head row := by
  have hstored := page_stored hhead
  have hshown (other : DeadLetterEntry) : other ∈ shownRows moved table
      (getDlqChainHeadsPage moved table listing) head ↔
        other ∈ table.rows ∧ samePartition head other := by
    rw [(shownRows_perm hhead).mem_iff, List.mem_filter, decide_eq_true_eq]
  unfold displayed chainFields
  simp only [List.map_map, List.mem_cons, List.mem_map, List.mem_filter, Function.comp,
    decide_eq_true_eq]
  constructor
  · intro h
    obtain hid | ⟨other, ⟨hother, -⟩, hid⟩ := h
    · have heq : row = head := table.eq_of_key_eq hrow hstored.1 hid
      exact heq ▸ ⟨rfl, rfl⟩
    · have hsame := (hshown other).mp hother
      have heq : other = row := table.eq_of_key_eq hsame.1 hrow hid
      exact heq ▸ hsame.2
  · intro hsame
    by_cases hid : row.id = head.id
    · exact .inl hid
    · exact .inr ⟨row, ⟨(hshown row).mpr ⟨hrow, hsame⟩, hid⟩, rfl⟩

theorem sameChain_iff : SameChain table head (chainFields moved table replayLimit
      (getDlqChainHeadsPage moved table listing) head) ↔
      table.rows.countP (fun row => samePartition head row && row.replayedAt.isSome) =
          countDlqChainReplays table head ∧
        ∀ row ∈ table.rows, openFor head.taskType head.campaignCandidateId head.resumeId row ↔
          samePartition head row ∧ row.resolvedAt = none := by
  let fields := chainFields moved table replayLimit (getDlqChainHeadsPage moved table listing) head
  have hused := replaysUsed_eq moved replayLimit hhead
  rw [← hused]
  constructor
  · intro h
    refine ⟨h.replays, fun row hrow => ?_⟩
    have hresolved := List.map_inj_left.mp (h.resolves 0) row hrow
    have hiff : row.id ∈ displayed head fields ∧ row.resolvedAt.isNone ↔
        samePartition head row ∧ row.resolvedAt = none :=
      and_congr (mem_displayed moved replayLimit hhead hrow) Option.isNone_iff_eq_none
    rw [if_congr hiff rfl rfl] at hresolved
    by_cases hopen : openFor head.taskType head.campaignCandidateId head.resumeId row
    · by_cases hshown : samePartition head row ∧ row.resolvedAt = none
      · exact iff_of_true hopen hshown
      · rw [if_pos hopen, if_neg hshown] at hresolved
        have hnone := openFor_unresolved hopen
        rw [← hresolved] at hnone
        cases hnone
    · by_cases hshown : samePartition head row ∧ row.resolvedAt = none
      · rw [if_neg hopen, if_pos hshown] at hresolved
        have hnone := hshown.2
        rw [hresolved] at hnone
        cases hnone
      · exact iff_of_false hopen hshown
  · intro h
    obtain ⟨hcount, hopen⟩ := h
    refine ⟨hcount, ?_, ?_, ?_⟩
    · intro hstatus
      have hless := (chainStatus_spec head fields.replaysUsed replayLimit).1 hstatus
      exact hcount ▸ hless
    · intro hstatus
      have hle := (chainStatus_spec head fields.replaysUsed replayLimit).2 hstatus
      exact hcount ▸ hle
    · intro now
      refine List.map_congr_left fun row hrow => ?_
      refine if_congr ((hopen row hrow).trans ?_) rfl rfl
      exact and_congr (mem_displayed moved replayLimit hhead hrow).symm
        Option.isNone_iff_eq_none.symm

end Chain

theorem countDlqChainReplays_eq : countDlqChainReplays table head =
      match head.campaignCandidateId with
      | some campaignCandidateId => table.rows.countP fun row =>
        inChain head.taskType campaignCandidateId row && row.replayedAt.isSome
      | none =>
        match head.resumeId with
        | some resumeId => table.rows.countP fun row =>
          row.taskType = head.taskType ∧ row.resumeId = some resumeId ∧ row.replayedAt.isSome
        | none => 0 := by
  have hsees (row : DeadLetterEntry) : (atRest table).seesReplayed 0 row = row.replayedAt.isSome :=
    Bool.or_false _
  unfold countDlqChainReplays World.countDlqChainReplays
  simp only [hsees]
  rfl

end Shown

section Counting

variable {α : Type*} {rows : List α} {p q r : α → Bool}

-- Fewer rows are counted by a stronger condition, unless no row tells the two apart.
theorem countP_eq_iff_of_imp (h : ∀ row ∈ rows, q row = true → p row = true) :
    rows.countP p = rows.countP q ↔ ∀ row ∈ rows, p row = true → q row = true := by
  induction rows with
  | nil => simp
  | cons row rest ih =>
    have hrest := ih fun other hother => h other (List.mem_cons_of_mem row hother)
    have hle : rest.countP q ≤ rest.countP p :=
      List.countP_mono_left fun other hother => h other (List.mem_cons_of_mem row hother)
    have hhead := h row List.mem_cons_self
    rw [List.forall_mem_cons, ← hrest, List.countP_cons, List.countP_cons]
    cases hp : p row with
    | false =>
      have hq : q row = false := by
        by_contra hq
        simp [hhead (by simpa using hq)] at hp
      simp [hq]
    | true =>
      cases hq : q row with
      | true => simp
      | false =>
        simp only [if_true, Bool.false_eq_true, if_false]
        constructor
        · intro heq
          omega
        · intro hboth
          exact absurd (hboth.1 trivial) (by simp)

theorem countP_disjoint (h : ∀ row ∈ rows, p row = (q row || r row))
    (hdisjoint : ∀ row ∈ rows, ¬(q row = true ∧ r row = true)) :
    rows.countP p = rows.countP q + rows.countP r := by
  induction rows with
  | nil => rfl
  | cons row rest ih =>
    rw [List.forall_mem_cons] at h hdisjoint
    have hrest := ih h.2 hdisjoint.2
    have hhead := hdisjoint.1
    rw [List.countP_cons, List.countP_cons, List.countP_cons, h.1, hrest]
    cases hq : q row with
    | false =>
      cases hr : r row with
      | false => simp
      | true =>
        simp
        omega
    | true =>
      cases hr : r row with
      | false =>
        simp
        omega
      | true => exact absurd ⟨hq, hr⟩ hhead

end Counting

section Agreement

variable {table : Entries} {head row : DeadLetterEntry}

theorem samePartition_candidate {campaignCandidateId : Uuid}
    (hcandidate : head.campaignCandidateId = some campaignCandidateId) :
    samePartition head row ↔ row.taskType = head.taskType ∧
      (row.campaignCandidateId = some campaignCandidateId ∨
        row.campaignCandidateId = none ∧ row.resumeId = some campaignCandidateId) := by
  unfold samePartition dlqChainKey
  rw [hcandidate, Option.some_or, eq_comm]
  cases row.campaignCandidateId with
  | some other => simp [eq_comm]
  | none => simp [eq_comm]

theorem samePartition_resume {resumeId : Uuid} (hcandidate : head.campaignCandidateId = none)
    (hresume : head.resumeId = some resumeId) :
    samePartition head row ↔ row.taskType = head.taskType ∧
      (row.campaignCandidateId = some resumeId ∨
        row.campaignCandidateId = none ∧ row.resumeId = some resumeId) := by
  unfold samePartition dlqChainKey
  rw [hcandidate, hresume, Option.none_or, eq_comm]
  cases row.campaignCandidateId with
  | some other => simp [eq_comm]
  | none => simp [eq_comm]

theorem openFor_candidate (taskType : String) (campaignCandidateId : Uuid)
    (resumeId : Option Uuid) :
    openFor taskType (some campaignCandidateId) resumeId row = true ↔ row.taskType = taskType ∧
      row.resolvedAt = none ∧ row.campaignCandidateId = some campaignCandidateId := by
  simp [openFor, and_assoc]

theorem openFor_resume (taskType : String) (resumeId : Uuid) :
    openFor taskType none (some resumeId) row = true ↔ row.taskType = taskType ∧
      row.resolvedAt = none ∧ row.resumeId = some resumeId ∧ row.campaignCandidateId = none := by
  simp [openFor, and_assoc]

theorem agree_candidate {campaignCandidateId : Uuid}
    (hcandidate : head.campaignCandidateId = some campaignCandidateId) :
    (table.rows.countP (fun row => samePartition head row && row.replayedAt.isSome) =
        table.rows.countP (fun row =>
          inChain head.taskType campaignCandidateId row && row.replayedAt.isSome) ∧
      ∀ row ∈ table.rows, openFor head.taskType (some campaignCandidateId) head.resumeId row ↔
        samePartition head row ∧ row.resolvedAt = none) ↔
    ∀ row ∈ table.rows, row.taskType = head.taskType → row.campaignCandidateId = none →
      row.resumeId = some campaignCandidateId → row.replayedAt = none ∧ row.resolvedAt.isSome := by
  have hchain (row : DeadLetterEntry) : inChain head.taskType campaignCandidateId row = true ↔
      row.taskType = head.taskType ∧ row.campaignCandidateId = some campaignCandidateId := by
    simp [inChain]
  rw [countP_eq_iff_of_imp]
  · constructor
    · intro h row hrow htype hnone hresume
      have hsame := (samePartition_candidate hcandidate).mpr ⟨htype, .inr ⟨hnone, hresume⟩⟩
      constructor
      · by_contra hreplayed
        have hcounted := h.1 row hrow (by simpa [hsame, Option.isSome_iff_ne_none] using hreplayed)
        have hin := (hchain row).mp ((Bool.and_eq_true _ _).mp hcounted).1
        rw [hnone] at hin
        cases hin.2
      · by_contra hopen
        have hunresolved : row.resolvedAt = none := by simpa using hopen
        have hresolved := (h.2 row hrow).mpr ⟨hsame, hunresolved⟩
        rw [openFor_candidate, hnone] at hresolved
        cases hresolved.2.2
    · intro h
      have hown (row : DeadLetterEntry) (hrow : row ∈ table.rows) (hsame : samePartition head row)
          (hlive : row.replayedAt ≠ none ∨ row.resolvedAt = none) :
          row.campaignCandidateId = some campaignCandidateId := by
        obtain ⟨htype, hown | ⟨hnone, hresume⟩⟩ := (samePartition_candidate hcandidate).mp hsame
        · exact hown
        · obtain ⟨hreplayed, hresolved⟩ := h row hrow htype hnone hresume
          obtain hlive | hlive := hlive
          · exact absurd hreplayed hlive
          · rw [hlive] at hresolved
            cases hresolved
      constructor
      · intro row hrow hcounted
        obtain ⟨hsame, hreplayed⟩ := (Bool.and_eq_true _ _).mp hcounted
        have hsame : samePartition head row := of_decide_eq_true hsame
        have htype := ((samePartition_candidate hcandidate).mp hsame).1
        have hcc := hown row hrow hsame (.inl (Option.isSome_iff_ne_none.mp hreplayed))
        exact (Bool.and_eq_true _ _).mpr ⟨(hchain row).mpr ⟨htype, hcc⟩, hreplayed⟩
      · intro row hrow
        rw [openFor_candidate]
        constructor
        · intro hopen
          exact ⟨(samePartition_candidate hcandidate).mpr ⟨hopen.1, .inl hopen.2.2⟩, hopen.2.1⟩
        · intro hshown
          have htype := ((samePartition_candidate hcandidate).mp hshown.1).1
          exact ⟨htype, hshown.2, hown row hrow hshown.1 (.inr hshown.2)⟩
  · intro row hrow hcounted
    obtain ⟨hin, hreplayed⟩ := (Bool.and_eq_true _ _).mp hcounted
    obtain ⟨htype, hcc⟩ := (hchain row).mp hin
    have hsame := (samePartition_candidate hcandidate).mpr ⟨htype, .inl hcc⟩
    exact (Bool.and_eq_true _ _).mpr ⟨decide_eq_true hsame, hreplayed⟩

theorem agree_resume {resumeId : Uuid} (hcandidate : head.campaignCandidateId = none)
    (hresume : head.resumeId = some resumeId) :
    (table.rows.countP (fun row => samePartition head row && row.replayedAt.isSome) =
        table.rows.countP (fun row => row.taskType = head.taskType ∧
          row.resumeId = some resumeId ∧ row.replayedAt.isSome) ∧
      ∀ row ∈ table.rows, openFor head.taskType none (some resumeId) row ↔
        samePartition head row ∧ row.resolvedAt = none) ↔
    (∀ row ∈ table.rows, row.taskType = head.taskType →
        row.campaignCandidateId = some resumeId → row.resolvedAt.isSome) ∧
      table.rows.countP (fun row => row.taskType = head.taskType && row.replayedAt.isSome &&
          row.campaignCandidateId = some resumeId) =
        table.rows.countP fun row => row.taskType = head.taskType && row.replayedAt.isSome &&
          row.resumeId = some resumeId && row.campaignCandidateId.isSome := by
  -- the rows that only carry the resume are counted on both sides
  have hshown : table.rows.countP (fun row => samePartition head row && row.replayedAt.isSome) =
      table.rows.countP (fun row => row.taskType = head.taskType && row.replayedAt.isSome &&
          row.campaignCandidateId = some resumeId) +
        table.rows.countP fun row => row.taskType = head.taskType && row.replayedAt.isSome &&
          row.resumeId = some resumeId && row.campaignCandidateId.isNone := by
    refine countP_disjoint (fun row _ => ?_) fun row _ hboth => ?_
    · rw [Bool.eq_iff_iff]
      simp only [samePartition_resume hcandidate hresume, Bool.and_eq_true, Bool.or_eq_true,
        decide_eq_true_eq, Option.isNone_iff_eq_none]
      tauto
    · simp only [Bool.and_eq_true, decide_eq_true_eq, Option.isNone_iff_eq_none] at hboth
      rw [hboth.2.2] at hboth
      cases hboth.1.2
  have hcounted : table.rows.countP (fun row => row.taskType = head.taskType ∧
          row.resumeId = some resumeId ∧ row.replayedAt.isSome) =
      table.rows.countP (fun row => row.taskType = head.taskType && row.replayedAt.isSome &&
          row.resumeId = some resumeId && row.campaignCandidateId.isSome) +
        table.rows.countP fun row => row.taskType = head.taskType && row.replayedAt.isSome &&
          row.resumeId = some resumeId && row.campaignCandidateId.isNone := by
    refine countP_disjoint (fun row _ => ?_) fun row _ hboth => ?_
    · rw [Bool.eq_iff_iff]
      simp only [Bool.and_eq_true, Bool.or_eq_true, decide_eq_true_eq,
        Option.isNone_iff_eq_none, Option.isSome_iff_ne_none]
      tauto
    · simp only [Bool.and_eq_true, decide_eq_true_eq, Option.isNone_iff_eq_none] at hboth
      rw [hboth.2.2] at hboth
      cases hboth.1.2
  rw [hshown, hcounted, Nat.add_right_cancel_iff, and_comm]
  refine and_congr ?_ Iff.rfl
  constructor
  · intro h row hrow htype hcc
    by_contra hopen
    have hunresolved : row.resolvedAt = none := by simpa using hopen
    have hsame := (samePartition_resume hcandidate hresume).mpr ⟨htype, .inl hcc⟩
    have hresolved := (h row hrow).mpr ⟨hsame, hunresolved⟩
    rw [openFor_resume, hcc] at hresolved
    cases hresolved.2.2.2
  · intro h row hrow
    rw [openFor_resume]
    constructor
    · intro hopen
      obtain ⟨htype, hunresolved, hown, hnone⟩ := hopen
      exact ⟨(samePartition_resume hcandidate hresume).mpr ⟨htype, .inr ⟨hnone, hown⟩⟩,
        hunresolved⟩
    · intro hboth
      obtain ⟨htype, hcc | ⟨hnone, hown⟩⟩ := (samePartition_resume hcandidate hresume).mp hboth.1
      · have hresolved := h row hrow htype hcc
        rw [hboth.2] at hresolved
        cases hresolved
      · exact ⟨htype, hboth.2, hown, hnone⟩

end Agreement

-- The screen, the guard and the resolution agree on a head exactly where no row of
-- another entity is taken for a row of its chain.
theorem shown_sameChain_iff (moved : Moved) (table : Entries) (replayLimit : ℕ)
    (listing : Listing) (head : DeadLetterEntry) (fields : ChainFields)
    (hshown : (head, fields) ∈ getDeadLetterQueueForCampaign moved table replayLimit listing) :
    SameChain table head fields ↔ Alike table head := by
  obtain ⟨other, hhead, hfields⟩ := List.mem_map.mp hshown
  obtain ⟨rfl, rfl⟩ := Prod.mk.inj hfields
  have hstored := page_stored hhead
  rw [sameChain_iff moved replayLimit hhead, countDlqChainReplays_eq, Alike]
  cases hcandidate : other.campaignCandidateId with
  | some campaignCandidateId => exact agree_candidate hcandidate
  | none =>
    cases hresume : other.resumeId with
    | some resumeId => exact agree_resume hcandidate hresume
    | none =>
      have hkey := hstored.2
      rw [dlqChainKey, hcandidate, hresume] at hkey
      cases hkey

def mixedEntries : Entries where
  rows := [⟨0, "EMBED_RESUME", some 3, some 7, some 5, some "recruiter", none⟩,
    ⟨1, "EMBED_RESUME", some 3, none, none, none, none⟩]
  next := 2
  nodup := by decide
  below := by decide

def mixedListing : Listing where
  campaign := ⟨[7], [3], [], "recruiter"⟩
  limit := 50
  offset := 0
  includeResolved := false

def mixedHead : DeadLetterEntry := ⟨1, "EMBED_RESUME", some 3, none, none, none, none⟩

def mixedFields : ChainFields := ⟨.opened, 1, 0, 1, none, []⟩

theorem mixed_shown : (mixedHead, mixedFields) ∈ getDeadLetterQueueForCampaign
    ⟨fun id => id, fun id => id⟩ mixedEntries 1 mixedListing := by
  have hpage : getDeadLetterQueueForCampaign ⟨fun id => id, fun id => id⟩ mixedEntries 1
      mixedListing = [(mixedHead, mixedFields),
        (⟨0, "EMBED_RESUME", some 3, some 7, some 5, some "recruiter", none⟩,
          ⟨.replaying, 1, 1, 1, none, []⟩)] := by
    rfl
  exact hpage ▸ List.mem_cons_self

theorem shown_sameChain_iff_mixed :
    SameChain mixedEntries mixedHead mixedFields ↔ Alike mixedEntries mixedHead :=
  shown_sameChain_iff ⟨fun id => id, fun id => id⟩ mixedEntries 1 mixedListing mixedHead
    mixedFields mixed_shown

-- The head is shown open and the guard refuses it.
theorem mixed_refused :
    (mixedHead, mixedFields) ∈ getDeadLetterQueueForCampaign ⟨fun id => id, fun id => id⟩
      mixedEntries 1 mixedListing ∧
    mixedFields.status = .opened ∧
    mixedFields.replayLimit ≤ countDlqChainReplays mixedEntries mixedHead :=
  ⟨mixed_shown, rfl, by decide⟩

end DeadLetterChains

end AiHiring
