import AiHiring.Library.Listing
import AiHiring.Talent.AddToCampaign

namespace AiHiring

open Library ResumeSelectionService

namespace TalentPoolService

variable {V : Type}

-- What other requests link, by candidate: the rows of different candidates meet in no
-- check and in no constraint.
structure Arrivals (request : PoolRequest V) where
  rows : Uuid → List CampaignCandidate
  own : ∀ candidateId, OwnRows request candidateId (rows candidateId)

-- Before the duplicate check of a candidate's own call, and between it and the insert.
structure Landing (request : PoolRequest V) where
  (before between : Arrivals request)

-- What meets a bulk call: the rows that come between its duplicate check and its insert,
-- and the rows of the calls that follow a rollback, which releases the lock.
structure Interference (request : PoolRequest V) where
  window : Arrivals request
  released : Landing request

inductive BulkStatus where
  | added
  | failed
  deriving DecidableEq, Repr

structure BulkAddCandidateResultItem where
  candidateId : Uuid
  status : BulkStatus
  reason : Option String
  (campaignCandidateId resumeId : Option Uuid)

structure BulkAddCandidatesResponse where
  campaignId : Uuid
  (total added failed : ℕ)
  results : List BulkAddCandidateResultItem

def failureReason : AddError → String
  | .notFound detail => detail
  | .unprocessable error => error.detail
  | .campaign error => error.message

def failedItem (candidateId : Uuid) (reason : String) : BulkAddCandidateResultItem where
  candidateId := candidateId
  status := .failed
  reason := some reason
  campaignCandidateId := none
  resumeId := none

def addedItem (candidateId campaignCandidateId resumeId : Uuid) : BulkAddCandidateResultItem where
  candidateId := candidateId
  status := .added
  reason := none
  campaignCandidateId := some campaignCandidateId
  resumeId := some resumeId

section Service

variable (request : PoolRequest V)

-- A call for each candidate in turn, with what it returns or raises.
def addOneByOne (placed : Landing request) (s : PoolDb) :
    List Uuid → PoolDb × List (Uuid × Except AddError AddCandidateToCampaignResponse)
  | [] => (s, [])
  | candidateId :: rest =>
    let (s, outcome) := addCandidateToCampaign request (s.land (placed.before.rows candidateId))
      candidateId (placed.between.rows candidateId)
    let (s, outcomes) := addOneByOne placed s rest
    (s, (candidateId, outcome) :: outcomes)

def getExistingCandidateIds (s : PoolDb) (candidateIds : List Uuid) : List Uuid :=
  (s.campaignCandidates.filter fun cc =>
    cc.campaignId = request.campaignId ∧ cc.candidateId ∈ candidateIds).map
      CampaignCandidate.candidateId

-- One turn of the loop before the insert: the reason of a failure, or the row to insert.
def examine (campaign : ScoredCampaign) (existingIds : List Uuid) (candidateId : Uuid) :
    Except String NewLink :=
  if candidateId ∈ existingIds then .error alreadyInCampaignMessage
  else
  match request.db.candidates.find? candidateId with
  | none => .error (failureReason (.notFound s!"Candidate {text candidateId} not found."))
  | some _ =>
    match selectResumeForCampaign request.db request.readers request.fresh candidateId
      campaign with
    | .error e => .error (failureReason (.ofSelection e))
    | .ok selection => .ok (newLink request candidateId selection)

def refused (campaign : ScoredCampaign) (existingIds candidateIds : List Uuid) :
    List BulkAddCandidateResultItem :=
  candidateIds.filterMap fun candidateId =>
    match examine request campaign existingIds candidateId with
    | .error reason => some (failedItem candidateId reason)
    | .ok _ => none

def toInsert (campaign : ScoredCampaign) (existingIds candidateIds : List Uuid) :
    List NewLink :=
  candidateIds.filterMap fun candidateId =>
    (examine request campaign existingIds candidateId).toOption

-- `none` is the IntegrityError, after the rollback.
def bulkInsertCampaignCandidates (campaign : ScoredCampaign) (s : PoolDb)
    (links : List NewLink) : Option PoolDb :=
  if links.any fun link =>
      (s.getByIdempotencyKey (PoolDb.idempotencyKey link.campaignCandidate)).isSome then none
  else some
    { s with
      campaignCandidates := s.campaignCandidates ++ links.map NewLink.campaignCandidate
      stageHistory := links.foldl addStageHistory s.stageHistory
      auditLog := s.auditLog ++ links.map (auditEntry request campaign.id) }

def fallbackItem : Uuid × Except AddError AddCandidateToCampaignResponse →
    BulkAddCandidateResultItem
  | (candidateId, .error e) => failedItem candidateId (failureReason e)
  | (candidateId, .ok response) =>
    addedItem candidateId response.campaignCandidateId response.resumeId

def bulkResponse (results : List BulkAddCandidateResultItem) : BulkAddCandidatesResponse where
  campaignId := request.campaignId
  total := results.length
  added := results.countP fun item => item.status = .added
  failed := results.countP fun item => item.status = .failed
  results := results

def bulkAddCandidatesToCampaign (s : PoolDb) (candidateIds : List Uuid)
    (meanwhile : Interference request) :
    PoolDb × Except AddError BulkAddCandidatesResponse :=
  let uniqueCandidateIds := candidateIds.eraseDups
  match lockCampaign request with
  | .error e => (s, .error e)
  | .ok campaign =>
    let existingIds := getExistingCandidateIds request s uniqueCandidateIds
    let results := refused request campaign existingIds uniqueCandidateIds
    let links := toInsert request campaign existingIds uniqueCandidateIds
    let s := s.land (uniqueCandidateIds.flatMap meanwhile.window.rows)
    match bulkInsertCampaignCandidates request campaign s links with
    | none =>
      let (s, outcomes) := addOneByOne request meanwhile.released s
        (links.map NewLink.candidateId)
      (s, .ok (bulkResponse request (results ++ outcomes.map fallbackItem)))
    | some s =>
      let queue := links.foldl
        (fun queue link => (queueEvaluationTasks request campaign queue link).1) s.queue
      ({ s with queue }, .ok (bulkResponse request (results ++ links.map fun link =>
        addedItem link.candidateId link.campaignCandidate.id link.resume.id)))

end Service

section Lists

variable {α β : Type}

theorem flatMap_filter (selected : α → Bool) (rows : α → List β) (ids : List α) :
    (ids.filter selected).flatMap rows =
      ids.flatMap fun id => if selected id then rows id else [] := by
  induction ids with
  | nil => rfl
  | cons id rest ih => by_cases h : selected id <;> simp [h, ih]

theorem not_isEmpty_append (first second : List α) :
    (!(first ++ second).isEmpty) = (!first.isEmpty || !second.isEmpty) := by
  cases first <;> rfl

end Lists

section Grown

-- How one state follows from another by rows of other requests and by new links.
structure Grown (request : PoolRequest V) (campaign : ScoredCampaign) (s : PoolDb)
    (landed : List CampaignCandidate) (links : List NewLink) (t : PoolDb) : Prop where
  rows : t.campaignCandidates.Perm
    (s.campaignCandidates ++ (landed ++ links.map NewLink.campaignCandidate))
  history : t.stageHistory = links.foldl addStageHistory s.stageHistory
  queue : t.queue = links.foldl
    (fun queue link => (queueEvaluationTasks request campaign queue link).1) s.queue

variable {request : PoolRequest V} {campaign : ScoredCampaign} {s t u : PoolDb}
  {landed more : List CampaignCandidate} {links others : List NewLink} {candidateId other : Uuid}

theorem grown_land : Grown request campaign s landed [] (s.land landed) where
  rows := by simp [PoolDb.land]
  history := rfl
  queue := rfl

theorem grown_create {link : NewLink} :
    Grown request campaign s [] [link] (create request campaign s link) where
  rows := List.Perm.refl _
  history := rfl
  queue := rfl

theorem Grown.trans (h : Grown request campaign s landed links t)
    (hmore : Grown request campaign t more others u) :
    Grown request campaign s (landed ++ more) (links ++ others) u where
  rows := by
    refine hmore.rows.trans ((h.rows.append_right _).trans ?_)
    simp only [List.map_append, List.append_assoc]
    refine (List.Perm.refl _).append ((List.Perm.refl _).append ?_)
    rw [← List.append_assoc, ← List.append_assoc]
    exact List.perm_append_comm.append_right _
  history := by rw [hmore.history, h.history, List.foldl_append]
  queue := by rw [hmore.queue, h.queue, List.foldl_append]

theorem isLinked_land : (s.land landed).isLinked request.campaignId candidateId =
    (s.isLinked request.campaignId candidateId || landed.any fun cc =>
      cc.campaignId = request.campaignId ∧ cc.candidateId = candidateId) := List.any_append

theorem any_own (hown : OwnRows request candidateId landed) :
    (landed.any fun cc => cc.campaignId = request.campaignId ∧ cc.candidateId = candidateId) =
      !landed.isEmpty := by
  cases landed with
  | nil => rfl
  | cons row rest =>
    rw [List.any_cons, decide_eq_true (hown row List.mem_cons_self)]
    rfl

theorem any_foreign (hown : OwnRows request other landed) (hne : candidateId ≠ other) :
    (landed.any fun cc => cc.campaignId = request.campaignId ∧ cc.candidateId = candidateId) =
      false := by
  rw [List.any_eq_false]
  intro row hrow hboth
  exact hne ((of_decide_eq_true hboth).2.symm.trans (hown row hrow).2)

def admittedBy (placed : Landing request) (campaign : ScoredCampaign) (s : PoolDb)
    (candidateId : Uuid) : Option NewLink :=
  admitted request campaign
    (s.isLinked request.campaignId candidateId || !(placed.before.rows candidateId).isEmpty)
    (placed.between.rows candidateId) candidateId

def returnsBy (placed : Landing request) (campaign : ScoredCampaign) (s : PoolDb)
    (candidateId : Uuid) : Bool :=
  !(s.isLinked request.campaignId candidateId || !(placed.before.rows candidateId).isEmpty) &&
    (chosen request campaign candidateId).isSome

variable {placed : Landing request}

theorem isLinked_before : (s.land (placed.before.rows candidateId)).isLinked request.campaignId
    candidateId = (s.isLinked request.campaignId candidateId ||
      !(placed.before.rows candidateId).isEmpty) := by
  rw [isLinked_land, any_own (placed.before.own candidateId)]

theorem add_grown (hlock : lockCampaign request = .ok campaign) :
    Grown request campaign s (placed.before.rows candidateId ++ placed.between.rows candidateId)
      (admittedBy placed campaign s candidateId).toList
      (addCandidateToCampaign request (s.land (placed.before.rows candidateId)) candidateId
        (placed.between.rows candidateId)).1 := by
  have hspec := (addCandidateToCampaign_spec (s := s.land (placed.before.rows candidateId)) hlock
    (placed.between.own candidateId)).1
  have hlanded : Grown request campaign s
      (placed.before.rows candidateId ++ placed.between.rows candidateId) []
      ((s.land (placed.before.rows candidateId)).land (placed.between.rows candidateId)) :=
    grown_land.trans grown_land
  rw [isLinked_before] at hspec
  rw [hspec, admittedBy]
  cases admitted request campaign (s.isLinked request.campaignId candidateId ||
      !(placed.before.rows candidateId).isEmpty) (placed.between.rows candidateId)
      candidateId with
  | none => exact hlanded
  | some link => simpa using hlanded.trans grown_create

theorem add_isOk (hlock : lockCampaign request = .ok campaign) :
    (addCandidateToCampaign request (s.land (placed.before.rows candidateId)) candidateId
      (placed.between.rows candidateId)).2.isOk = returnsBy placed campaign s candidateId := by
  rw [(addCandidateToCampaign_spec hlock (placed.between.own candidateId)).2, isLinked_before]
  rfl

theorem add_isLinked (hlock : lockCampaign request = .ok campaign) (hne : other ≠ candidateId) :
    (addCandidateToCampaign request (s.land (placed.before.rows candidateId)) candidateId
      (placed.between.rows candidateId)).1.isLinked request.campaignId other =
        s.isLinked request.campaignId other := by
  have hgrown := @add_grown _ request campaign s candidateId placed hlock
  have hown : OwnRows request candidateId (placed.before.rows candidateId ++
      placed.between.rows candidateId ++
      (admittedBy placed campaign s candidateId).toList.map NewLink.campaignCandidate) := by
    intro row hrow
    obtain hlanded | hlink := List.mem_append.mp hrow
    · obtain hbefore | hbetween := List.mem_append.mp hlanded
      · exact placed.before.own candidateId row hbefore
      · exact placed.between.own candidateId row hbetween
    · obtain ⟨link, hmade, rfl⟩ := List.mem_map.mp hlink
      obtain ⟨-, hchosen, -⟩ := admitted_eq_some.mp (Option.mem_toList.mp hmade)
      obtain ⟨selection, rfl⟩ := chosen_eq_some hchosen
      exact ⟨rfl, rfl⟩
  rw [PoolDb.isLinked, hgrown.rows.any_eq, List.any_append, any_foreign hown hne, Bool.or_false]
  rfl

theorem addOneByOne_spec (hlock : lockCampaign request = .ok campaign) (ids : List Uuid)
    (hnodup : ids.Nodup) :
    Grown request campaign s (ids.flatMap fun c => placed.before.rows c ++ placed.between.rows c)
      (ids.filterMap (admittedBy placed campaign s)) (addOneByOne request placed s ids).1 ∧
    (addOneByOne request placed s ids).2.map (fun outcome => (outcome.1, outcome.2.isOk)) =
      ids.map fun c => (c, returnsBy placed campaign s c) := by
  induction ids generalizing s with
  | nil => exact ⟨⟨by simp [addOneByOne], rfl, rfl⟩, rfl⟩
  | cons candidateId rest ih =>
    obtain ⟨hnot, hrest⟩ := List.nodup_cons.mp hnodup
    obtain ⟨hgrown, houtcomes⟩ := @ih (addCandidateToCampaign request
      (s.land (placed.before.rows candidateId)) candidateId
      (placed.between.rows candidateId)).1 hrest
    have hkept : ∀ c ∈ rest, (addCandidateToCampaign request
        (s.land (placed.before.rows candidateId)) candidateId
        (placed.between.rows candidateId)).1.isLinked request.campaignId c =
          s.isLinked request.campaignId c :=
      fun c hc => add_isLinked hlock fun heq => hnot (heq ▸ hc)
    constructor
    · have hadmitted : rest.filterMap (admittedBy placed campaign (addCandidateToCampaign request
          (s.land (placed.before.rows candidateId)) candidateId
          (placed.between.rows candidateId)).1) = rest.filterMap (admittedBy placed campaign s) :=
        List.filterMap_congr fun c hc => by rw [admittedBy, hkept c hc, admittedBy]
      rw [hadmitted] at hgrown
      have hboth := (add_grown hlock).trans hgrown
      rw [List.flatMap_cons]
      have hcons : (candidateId :: rest).filterMap (admittedBy placed campaign s) =
          (admittedBy placed campaign s candidateId).toList ++
            rest.filterMap (admittedBy placed campaign s) := by
        rw [List.filterMap_cons]
        cases admittedBy placed campaign s candidateId <;> rfl
      rw [hcons]
      exact hboth
    · have hreturns : rest.map (fun c => (c, returnsBy placed campaign
          (addCandidateToCampaign request (s.land (placed.before.rows candidateId)) candidateId
            (placed.between.rows candidateId)).1 c)) =
            rest.map fun c => (c, returnsBy placed campaign s c) :=
        List.map_congr_left fun c hc => by rw [returnsBy, hkept c hc, returnsBy]
      rw [hreturns] at houtcomes
      exact congrArg₂ List.cons (Prod.ext rfl (add_isOk hlock)) houtcomes

theorem addOneByOne_refused {e : AddError} (hlock : lockCampaign request = .error e)
    (ids : List Uuid) : (addOneByOne request placed s ids).1 =
      s.land (ids.flatMap fun c => placed.before.rows c ++ placed.between.rows c) := by
  induction ids generalizing s with
  | nil => simp [addOneByOne, PoolDb.land]
  | cons candidateId rest ih =>
    simp only [addOneByOne, ih, addCandidateToCampaign_error hlock]
    simp [PoolDb.land]

end Grown

section Batch

variable (request : PoolRequest V) (campaign : ScoredCampaign) (s : PoolDb)
  (candidateIds : List Uuid) (meanwhile : Interference request)

-- What the batched check and the selection leave of a candidate.
def pending (candidateId : Uuid) : Option NewLink :=
  admitted request campaign (s.isLinked request.campaignId candidateId) [] candidateId

-- Another request has taken a key of the batch.
def isInterrupted : Bool :=
  candidateIds.any fun c => (pending request campaign s c).any fun link =>
    (meanwhile.window.rows c).any fun row => row.resumeId = link.resume.id

-- The rows that are there when a candidate's own duplicate check comes, if it comes.
def landedBefore (candidateId : Uuid) : List CampaignCandidate :=
  meanwhile.window.rows candidateId ++ meanwhile.released.before.rows candidateId

def bulkAdmitted (candidateId : Uuid) : Option NewLink :=
  if isInterrupted request campaign s candidateIds meanwhile then
    admitted request campaign
      (s.isLinked request.campaignId candidateId || !(landedBefore request meanwhile
        candidateId).isEmpty)
      (meanwhile.released.between.rows candidateId) candidateId
  else pending request campaign s candidateId

def bulkReports (candidateId : Uuid) : Bool :=
  (pending request campaign s candidateId).isSome &&
    (!isInterrupted request campaign s candidateIds meanwhile ||
      (landedBefore request meanwhile candidateId).isEmpty)

def bulkVerdict (candidateId : Uuid) : Uuid × BulkStatus :=
  (candidateId,
    if bulkReports request campaign s candidateIds meanwhile candidateId then .added else .failed)

-- The calls after a rollback are for the candidates of the batch.
def landedBy (candidateId : Uuid) : List CampaignCandidate :=
  meanwhile.window.rows candidateId ++
    if isInterrupted request campaign s candidateIds meanwhile ∧
        (pending request campaign s candidateId).isSome then
      meanwhile.released.before.rows candidateId ++ meanwhile.released.between.rows candidateId
    else []

variable {request campaign s candidateIds meanwhile} {candidateId : Uuid}

theorem pending_eq_some {link : NewLink} : pending request campaign s candidateId = some link ↔
    s.isLinked request.campaignId candidateId = false ∧
      chosen request campaign candidateId = some link := by
  simp [pending, admitted_eq_some]

theorem admitted_eq_none {linked : Bool} {rows : List CampaignCandidate}
    (h : pending request campaign s candidateId = none) :
    admitted request campaign (s.isLinked request.campaignId candidateId || linked) rows
      candidateId = none := by
  rw [Option.eq_none_iff_forall_ne_some] at h ⊢
  intro link hlink
  obtain ⟨hlinked, hchosen, -⟩ := admitted_eq_some.mp hlink
  exact h link (pending_eq_some.mpr ⟨(Bool.or_eq_false_iff.mp hlinked).1, hchosen⟩)

theorem mem_getExistingCandidateIds (hmem : candidateId ∈ candidateIds) :
    candidateId ∈ getExistingCandidateIds request s candidateIds ↔
      s.isLinked request.campaignId candidateId := by
  simp only [getExistingCandidateIds, PoolDb.isLinked, List.mem_map, List.mem_filter,
    decide_eq_true_eq, List.any_eq_true]
  constructor
  · rintro ⟨row, ⟨hrow, hcampaign, -⟩, hcandidate⟩
    exact ⟨row, hrow, hcampaign, hcandidate⟩
  · rintro ⟨row, hrow, hcampaign, hcandidate⟩
    exact ⟨row, ⟨hrow, hcampaign, hcandidate ▸ hmem⟩, hcandidate⟩

theorem examine_toOption (hmem : candidateId ∈ candidateIds) :
    (examine request campaign (getExistingCandidateIds request s candidateIds)
      candidateId).toOption = pending request campaign s candidateId := by
  have hexisting := @mem_getExistingCandidateIds _ request s candidateIds candidateId hmem
  unfold examine
  split_ifs with hlinked
  · rw [pending, hexisting.mp hlinked]
    rfl
  · have hnot : s.isLinked request.campaignId candidateId = false :=
      Bool.eq_false_iff.mpr fun h => hlinked (hexisting.mpr h)
    have hchosen : pending request campaign s candidateId =
        chosen request campaign candidateId := by
      cases h : chosen request campaign candidateId with
      | none =>
        rw [Option.eq_none_iff_forall_ne_some]
        intro link hlink
        exact absurd ((pending_eq_some.mp hlink).2.symm.trans h) (by simp)
      | some link => exact pending_eq_some.mpr ⟨hnot, h⟩
    rw [hchosen, chosen]
    cases request.db.candidates.find? candidateId with
    | none => rfl
    | some candidate =>
      cases selectResumeForCampaign request.db request.readers request.fresh candidateId
          campaign with
      | error e => rfl
      | ok selection => rfl

theorem toInsert_eq : toInsert request campaign
    (getExistingCandidateIds request s candidateIds) candidateIds =
      candidateIds.filterMap (pending request campaign s) :=
  List.filterMap_congr fun _ hc => examine_toOption hc

theorem pending_candidateId {link : NewLink}
    (h : pending request campaign s candidateId = some link) :
    link.candidateId = candidateId := by
  obtain ⟨selection, rfl⟩ := chosen_eq_some (pending_eq_some.mp h).2
  rfl

theorem map_candidateId {made : Uuid → Option NewLink}
    (h : ∀ c link, made c = some link → link.candidateId = c) (ids : List Uuid) :
    (ids.filterMap made).map NewLink.candidateId = ids.filter fun c => (made c).isSome := by
  rw [List.map_filterMap, ← List.filterMap_eq_filter]
  refine List.filterMap_congr fun c _ => ?_
  cases hmade : made c with
  | none => simp [Option.guard, hmade]
  | some link => simp [Option.guard, hmade, h c link hmade]

theorem map_candidateId_toInsert : (candidateIds.filterMap (pending request campaign s)).map
    NewLink.candidateId = candidateIds.filter fun c => (pending request campaign s c).isSome :=
  map_candidateId (fun _ _ => pending_candidateId) candidateIds

theorem mem_flatMap_own {rows : Arrivals request} (ids : List Uuid) {row : CampaignCandidate}
    (hmem : candidateId ∈ ids) (hcandidate : row.candidateId = candidateId) :
    row ∈ ids.flatMap rows.rows ↔ row ∈ rows.rows candidateId := by
  rw [List.mem_flatMap]
  constructor
  · rintro ⟨other, -, hrow⟩
    have hother := (rows.own other row hrow).2
    exact (hother.symm.trans hcandidate) ▸ hrow
  · exact fun hrow => ⟨candidateId, hmem, hrow⟩

theorem bulkInsert_conflict : ((candidateIds.filterMap (pending request campaign s)).any fun link =>
      ((s.land (candidateIds.flatMap meanwhile.window.rows)).getByIdempotencyKey
        (PoolDb.idempotencyKey link.campaignCandidate)).isSome) =
      isInterrupted request campaign s candidateIds meanwhile := by
  rw [isInterrupted, List.any_filterMap, Bool.eq_iff_iff, List.any_eq_true, List.any_eq_true]
  refine exists_congr fun c => and_congr_right fun hc => ?_
  cases h : pending request campaign s c with
  | none => exact Iff.rfl
  | some link =>
    obtain ⟨hlinked, hchosen⟩ := pending_eq_some.mp h
    obtain ⟨selection, rfl⟩ := chosen_eq_some hchosen
    refine (getByIdempotencyKey_land hlinked selection).trans ?_
    simp only [Option.any_some, List.any_eq_true, decide_eq_true_eq]
    constructor
    · rintro ⟨row, hrow, -, hcandidate, hresume⟩
      exact ⟨row, (mem_flatMap_own candidateIds hc hcandidate).mp hrow, hresume⟩
    · rintro ⟨row, hrow, hresume⟩
      obtain ⟨hcampaign, hcandidate⟩ := meanwhile.window.own c row hrow
      exact ⟨row, (mem_flatMap_own candidateIds hc hcandidate).mpr hrow, hcampaign, hcandidate,
        hresume⟩

theorem isLinked_window (hmem : candidateId ∈ candidateIds) :
    (s.land (candidateIds.flatMap meanwhile.window.rows)).isLinked request.campaignId candidateId =
      (s.isLinked request.campaignId candidateId ||
        !(meanwhile.window.rows candidateId).isEmpty) := by
  rw [isLinked_land, ← any_own (meanwhile.window.own candidateId)]
  congr 1
  rw [Bool.eq_iff_iff, List.any_eq_true, List.any_eq_true]
  constructor
  · rintro ⟨row, hrow, hboth⟩
    exact ⟨row, (mem_flatMap_own candidateIds hmem (of_decide_eq_true hboth).2).mp hrow, hboth⟩
  · rintro ⟨row, hrow, hboth⟩
    exact ⟨row, (mem_flatMap_own candidateIds hmem (of_decide_eq_true hboth).2).mpr hrow, hboth⟩

theorem admittedBy_released (hmem : candidateId ∈ candidateIds) :
    admittedBy meanwhile.released campaign
        (s.land (candidateIds.flatMap meanwhile.window.rows)) candidateId =
      admitted request campaign
        (s.isLinked request.campaignId candidateId || !(landedBefore request meanwhile
          candidateId).isEmpty)
        (meanwhile.released.between.rows candidateId) candidateId := by
  rw [admittedBy, isLinked_window hmem, landedBefore, not_isEmpty_append, Bool.or_assoc]

theorem returnsBy_released (hmem : candidateId ∈ candidateIds)
    (hpending : (pending request campaign s candidateId).isSome) :
    returnsBy meanwhile.released campaign
        (s.land (candidateIds.flatMap meanwhile.window.rows)) candidateId =
      (landedBefore request meanwhile candidateId).isEmpty := by
  obtain ⟨link, hlink⟩ := Option.isSome_iff_exists.mp hpending
  obtain ⟨hlinked, hchosen⟩ := pending_eq_some.mp hlink
  rw [returnsBy, isLinked_window hmem, hlinked, hchosen, Bool.false_or, ← not_isEmpty_append,
    Bool.not_not]
  exact Bool.and_true _

theorem fallback_grown (hlock : lockCampaign request = .ok campaign) (hnodup : candidateIds.Nodup)
    (h : isInterrupted request campaign s candidateIds meanwhile = true) :
    Grown request campaign s
      (candidateIds.flatMap (landedBy request campaign s candidateIds meanwhile))
      (candidateIds.filterMap (bulkAdmitted request campaign s candidateIds meanwhile))
      (addOneByOne request meanwhile.released (s.land (candidateIds.flatMap meanwhile.window.rows))
        (candidateIds.filter fun c => (pending request campaign s c).isSome)).1 := by
  have hfallback := grown_land.trans (@addOneByOne_spec _ request campaign
    (s.land (candidateIds.flatMap meanwhile.window.rows)) meanwhile.released hlock _
    (hnodup.filter fun c => (pending request campaign s c).isSome)).1
  have hlinks : (candidateIds.filter fun c => (pending request campaign s c).isSome).filterMap
      (admittedBy meanwhile.released campaign
        (s.land (candidateIds.flatMap meanwhile.window.rows))) =
      candidateIds.filterMap (bulkAdmitted request campaign s candidateIds meanwhile) := by
    rw [List.filterMap_filter]
    refine List.filterMap_congr fun c hc => ?_
    rw [bulkAdmitted, if_pos h, ← admittedBy_released hc]
    split_ifs with hpending
    · rfl
    · rw [admittedBy_released hc]
      exact (admitted_eq_none (Option.not_isSome_iff_eq_none.mp hpending)).symm
  have hlanded : (candidateIds.flatMap meanwhile.window.rows ++
      (candidateIds.filter fun c => (pending request campaign s c).isSome).flatMap fun c =>
        meanwhile.released.before.rows c ++ meanwhile.released.between.rows c).Perm
      (candidateIds.flatMap (landedBy request campaign s candidateIds meanwhile)) := by
    have hfilter : ((candidateIds.filter fun c =>
        (pending request campaign s c).isSome).flatMap fun c =>
          meanwhile.released.before.rows c ++ meanwhile.released.between.rows c) =
        candidateIds.flatMap fun c =>
          if isInterrupted request campaign s candidateIds meanwhile ∧
              (pending request campaign s c).isSome then
            meanwhile.released.before.rows c ++ meanwhile.released.between.rows c
          else [] := by
      rw [flatMap_filter]
      simp only [h, true_and]
    rw [hfilter]
    exact List.flatMap_append_perm _ _ _
  rw [hlinks] at hfallback
  exact ⟨hfallback.rows.trans ((List.Perm.refl _).append (hlanded.append_right _)),
    hfallback.history, hfallback.queue⟩

theorem batch_grown (h : isInterrupted request campaign s candidateIds meanwhile = false)
    (t : PoolDb) (ht : t =
      { campaignCandidates := s.campaignCandidates ++ candidateIds.flatMap meanwhile.window.rows ++
          (candidateIds.filterMap (pending request campaign s)).map NewLink.campaignCandidate
        stageHistory := (candidateIds.filterMap (pending request campaign s)).foldl addStageHistory
          s.stageHistory
        auditLog := t.auditLog
        queue := (candidateIds.filterMap (pending request campaign s)).foldl
          (fun queue link => (queueEvaluationTasks request campaign queue link).1) s.queue }) :
    Grown request campaign s
      (candidateIds.flatMap (landedBy request campaign s candidateIds meanwhile))
      (candidateIds.filterMap (bulkAdmitted request campaign s candidateIds meanwhile)) t := by
  have hlinks : bulkAdmitted request campaign s candidateIds meanwhile =
      pending request campaign s := by
    funext c
    rw [bulkAdmitted, h]
    rfl
  have hlanded : landedBy request campaign s candidateIds meanwhile =
      meanwhile.window.rows := by
    funext c
    simp [landedBy, h]
  rw [hlinks, hlanded, ht]
  exact ⟨by rw [List.append_assoc], rfl, rfl⟩

theorem bulk_grown (hlock : lockCampaign request = .ok campaign) :
    Grown request campaign s (candidateIds.eraseDups.flatMap
        (landedBy request campaign s candidateIds.eraseDups meanwhile))
      (candidateIds.eraseDups.filterMap
        (bulkAdmitted request campaign s candidateIds.eraseDups meanwhile))
      (bulkAddCandidatesToCampaign request s candidateIds meanwhile).1 := by
  unfold bulkAddCandidatesToCampaign
  simp only [hlock, toInsert_eq, bulkInsertCampaignCandidates, bulkInsert_conflict]
  cases h : isInterrupted request campaign s candidateIds.eraseDups meanwhile with
  | true =>
    simp only [if_true, map_candidateId_toInsert]
    exact fallback_grown hlock (nodup_eraseDups candidateIds) h
  | false =>
    simp only [Bool.false_eq_true, if_false]
    exact batch_grown h _ rfl

-- What a result says of whom.
def verdict (item : BulkAddCandidateResultItem) : Uuid × BulkStatus :=
  (item.candidateId, item.status)

theorem verdict_refused : (refused request campaign
    (getExistingCandidateIds request s candidateIds) candidateIds).map verdict =
      (candidateIds.filter fun c => !(pending request campaign s c).isSome).map
        fun c => (c, .failed) := by
  rw [refused, List.map_filterMap, ← List.filterMap_eq_filter, List.map_filterMap]
  refine List.filterMap_congr fun c hc => ?_
  simp only [Option.guard, ← examine_toOption hc]
  cases examine request campaign (getExistingCandidateIds request s candidateIds) c with
  | error reason => rfl
  | ok link => rfl

theorem verdict_fallbackItem (outcome : Uuid × Except AddError AddCandidateToCampaignResponse) :
    verdict (fallbackItem outcome) = (outcome.1, if outcome.2.isOk then .added else .failed) := by
  obtain ⟨candidateId, outcome⟩ := outcome
  cases outcome <;> rfl

theorem verdict_fallback (hlock : lockCampaign request = .ok campaign) (hnodup : candidateIds.Nodup)
    (h : isInterrupted request campaign s candidateIds meanwhile = true) :
    ((addOneByOne request meanwhile.released (s.land (candidateIds.flatMap meanwhile.window.rows))
        (candidateIds.filter fun c => (pending request campaign s c).isSome)).2.map
          fallbackItem).map verdict =
      (candidateIds.filter fun c => (pending request campaign s c).isSome).map
        (bulkVerdict request campaign s candidateIds meanwhile) := by
  have houtcomes := (@addOneByOne_spec _ request campaign
    (s.land (candidateIds.flatMap meanwhile.window.rows)) meanwhile.released hlock _
    (hnodup.filter fun c => (pending request campaign s c).isSome)).2
  have hverdicts := congrArg (List.map fun returned : Uuid × Bool =>
    (returned.1, if returned.2 then BulkStatus.added else .failed)) houtcomes
  rw [List.map_map, List.map_map] at hverdicts
  rw [List.map_map]
  refine (List.map_congr_left fun outcome _ => verdict_fallbackItem outcome).trans
    (hverdicts.trans (List.map_congr_left fun c hc => ?_))
  obtain ⟨hmem, hpending⟩ := List.mem_filter.mp hc
  simp only [Function.comp_apply, returnsBy_released hmem hpending, bulkVerdict, bulkReports,
    hpending, h, Bool.not_true, Bool.false_or, Bool.true_and]

theorem verdict_inserted (h : isInterrupted request campaign s candidateIds meanwhile = false) :
    ((candidateIds.filterMap (pending request campaign s)).map fun link =>
        addedItem link.candidateId link.campaignCandidate.id link.resume.id).map verdict =
      (candidateIds.filter fun c => (pending request campaign s c).isSome).map
        (bulkVerdict request campaign s candidateIds meanwhile) := by
  rw [← map_candidateId_toInsert, List.map_map, List.map_map]
  refine List.map_congr_left fun link hlink => ?_
  obtain ⟨c, -, hpending⟩ := List.mem_filterMap.mp hlink
  simp [verdict, addedItem, bulkVerdict, bulkReports, pending_candidateId hpending, hpending, h]

theorem verdict_results {rest : List (Uuid × BulkStatus)}
    (hrest : rest = (candidateIds.filter fun c => (pending request campaign s c).isSome).map
      (bulkVerdict request campaign s candidateIds meanwhile)) :
    ((refused request campaign (getExistingCandidateIds request s candidateIds)
        candidateIds).map verdict ++ rest).Perm
      (candidateIds.map (bulkVerdict request campaign s candidateIds meanwhile)) := by
  have hrefused : (candidateIds.filter
      fun c => !(pending request campaign s c).isSome).map (fun c => (c, BulkStatus.failed)) =
        (candidateIds.filter fun c => !(pending request campaign s c).isSome).map
          (bulkVerdict request campaign s candidateIds meanwhile) := by
    refine List.map_congr_left fun c hc => ?_
    have hnone : (pending request campaign s c).isSome = false := by
      simpa using (List.mem_filter.mp hc).2
    simp [bulkVerdict, bulkReports, hnone]
  rw [verdict_refused, hrefused, hrest, ← List.map_append]
  exact (List.perm_append_comm.trans (List.filter_append_perm _ _)).map _

theorem bulk_verdicts (hlock : lockCampaign request = .ok campaign)
    {response : BulkAddCandidatesResponse}
    (h : (bulkAddCandidatesToCampaign request s candidateIds meanwhile).2 = .ok response) :
    (response.results.map verdict).Perm (candidateIds.eraseDups.map
      (bulkVerdict request campaign s candidateIds.eraseDups meanwhile)) := by
  unfold bulkAddCandidatesToCampaign at h
  simp only [hlock, toInsert_eq, bulkInsertCampaignCandidates, bulkInsert_conflict] at h
  cases hint : isInterrupted request campaign s candidateIds.eraseDups meanwhile with
  | true =>
    simp only [hint, if_true, map_candidateId_toInsert] at h
    cases h
    rw [bulkResponse, List.map_append]
    exact verdict_results (verdict_fallback hlock (nodup_eraseDups candidateIds) hint)
  | false =>
    simp only [hint, Bool.false_eq_true, if_false] at h
    cases h
    rw [bulkResponse, List.map_append]
    exact verdict_results (verdict_inserted hint)

end Batch

end TalentPoolService

end AiHiring
