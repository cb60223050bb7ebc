import AiHiring.Library.Listing
import AiHiring.Pipeline.Model

namespace AiHiring.AuditRepository

open Library

-- The columns of `audit_log` that are filtered or ordered by.
structure AuditLog where
  id : Uuid
  createdAt : Instant
  actorId : Option String
  (actionType entityType : String)
  entityId : Uuid
  campaignId : Option Uuid
  deriving DecidableEq, Repr

structure SearchFilters where
  entityType : Option String
  entityId : Option Uuid
  actorId : Option String
  campaignId : Option Uuid
  actionType : Option String
  (createdFrom createdTo : Option Instant)

-- `_build_search_filters`; a column that is null equals no value.
def buildSearchFilters (f : SearchFilters) : List (AuditLog → Bool) :=
  (f.entityType.map fun v (row : AuditLog) => decide (row.entityType = v)).toList ++
  (f.entityId.map fun v (row : AuditLog) => decide (row.entityId = v)).toList ++
  (f.actorId.map fun v (row : AuditLog) => decide (row.actorId = some v)).toList ++
  (f.campaignId.map fun v (row : AuditLog) => decide (row.campaignId = some v)).toList ++
  (f.actionType.map fun v (row : AuditLog) => decide (row.actionType = v)).toList ++
  (f.createdFrom.map fun v (row : AuditLog) => decide (v ≤ row.createdAt)).toList ++
  (f.createdTo.map fun v (row : AuditLog) => decide (row.createdAt ≤ v)).toList

def selectWhere (filters : List (AuditLog → Bool)) (rows : List AuditLog) : List AuditLog :=
  rows.filter fun row => filters.all fun filter => filter row

-- `created_at DESC, id DESC`
def orderKey (row : AuditLog) : Instant ×ₗ Uuid := toLex (row.createdAt, row.id)

def search (f : SearchFilters) (rows : List AuditLog) (number size : ℕ) : List AuditLog × ℕ :=
  let found := selectWhere (buildSearchFilters f) rows
  (page number size (descending orderKey found), found.length)

def batchFilters (f : SearchFilters) (cursor : Option (Instant × Uuid)) :
    List (AuditLog → Bool) :=
  match cursor with
  | none => buildSearchFilters f
  | some (lastCreatedAt, lastId) => buildSearchFilters f ++ [fun row =>
    decide (row.createdAt < lastCreatedAt) ||
      decide (row.createdAt = lastCreatedAt) && decide (row.id < lastId)]

-- The loop of `iter_for_export`. The table may be another at each query; the loop
-- runs out of fuel rather than on.
def exportLoop (f : SearchFilters) (batchSize : ℕ) :
    ℕ → (ℕ → List AuditLog) → Option (Instant × Uuid) → Option (List AuditLog)
  | 0, _, _ => none
  | fuel + 1, tables, cursor =>
    let batch := (descending orderKey (selectWhere (batchFilters f cursor) (tables 0))).take
      batchSize
    match batch.getLast? with
    | none => some []
    | some last =>
      if batch.length < batchSize then some batch
      else (exportLoop f batchSize fuel (fun n => tables (n + 1))
        (some (last.createdAt, last.id))).map fun later => batch ++ later

def iterForExport (f : SearchFilters) (batchSize : ℕ) (tables : ℕ → List AuditLog) (fuel : ℕ) :
    Option (List AuditLog) :=
  exportLoop f batchSize fuel tables none

-- It ends, and these are the rows it has yielded.
def Exports (f : SearchFilters) (batchSize : ℕ) (tables : ℕ → List AuditLog)
    (yielded : List AuditLog) : Prop :=
  ∃ enough, ∀ fuel, enough ≤ fuel → iterForExport f batchSize tables fuel = some yielded

-- Rows are only added, each created after all that were there.
def Appended (before after : List AuditLog) : Prop :=
  ∃ added, after = before ++ added ∧ ∀ row ∈ added, ∀ old ∈ before, old.createdAt < row.createdAt

def Later (row other : AuditLog) : Prop :=
  other.createdAt < row.createdAt ∨ other.createdAt = row.createdAt ∧ other.id < row.id

theorem later_iff {row other : AuditLog} : Later row other ↔ orderKey other < orderKey row := by
  rw [orderKey, orderKey, Prod.Lex.toLex_lt_toLex]
  rfl

section Loop

variable {f : SearchFilters} {batchSize : ℕ} {rows : List AuditLog}

def found (f : SearchFilters) (rows : List AuditLog) : List AuditLog :=
  selectWhere (buildSearchFilters f) rows

theorem nodup_orderKey (h : (rows.map AuditLog.id).Nodup) :
    ((found f rows).map orderKey).Nodup := by
  have hfound : ((found f rows).map AuditLog.id).Nodup := h.sublist (List.filter_sublist.map _)
  have hids : (((found f rows).map orderKey).map fun k => (ofLex k).2).Nodup := by
    rw [List.map_map]
    exact hfound
  exact hids.of_map _

theorem selectWhere_batchFilters (cursor : Option (Instant × Uuid)) :
    descending orderKey (selectWhere (batchFilters f cursor) rows) =
      seek orderKey (cursor.map toLex) (found f rows) := by
  cases cursor with
  | none => rw [Option.map_none, seek_none]; rfl
  | some last =>
    obtain ⟨lastCreatedAt, lastId⟩ := last
    have hbehind (row : AuditLog) : behind orderKey (some (toLex (lastCreatedAt, lastId))) row =
        (decide (row.createdAt < lastCreatedAt) ||
          decide (row.createdAt = lastCreatedAt) && decide (row.id < lastId)) := by
      simp [behind, orderKey, Prod.Lex.toLex_lt_toLex]
    rw [Option.map_some, seek, found, selectWhere, selectWhere, List.filter_filter]
    congr 1
    apply List.filter_congr
    intro row _
    rw [hbehind, batchFilters, List.all_append, List.all_cons, List.all_nil, Bool.and_true,
      Bool.and_comm]

theorem seek_appended {after : List AuditLog} (h : Appended rows after) {last : AuditLog}
    (hlast : last ∈ rows) : seek orderKey (some (orderKey last)) (found f after) =
      seek orderKey (some (orderKey last)) (found f rows) := by
  obtain ⟨added, rfl, hadded⟩ := h
  have hfound : found f (rows ++ added) = found f rows ++ found f added := List.filter_append ..
  rw [hfound]
  apply seek_added
  intro row hrow
  have hlater : last.createdAt < row.createdAt :=
    hadded row (List.mem_of_mem_filter hrow) last hlast
  exact (later_iff.mp (.inl hlater)).le

-- By induction on the fuel: what is left behind the cursor gets shorter with each batch.
theorem exportLoop_eq (hbatch : 0 < batchSize) (fuel : ℕ) {tables : ℕ → List AuditLog}
    (hids : ∀ n, ((tables n).map AuditLog.id).Nodup)
    (happended : ∀ n, Appended (tables n) (tables (n + 1))) (cursor : Option (Instant × Uuid))
    (hfuel : (seek orderKey (cursor.map toLex) (found f (tables 0))).length < fuel) :
    exportLoop f batchSize fuel tables cursor =
      some (seek orderKey (cursor.map toLex) (found f (tables 0))) := by
  induction fuel generalizing tables cursor with
  | zero => exact absurd hfuel (Nat.not_lt_zero _)
  | succ fuel ih =>
    unfold exportLoop
    rw [selectWhere_batchFilters]
    generalize hleft : seek orderKey (cursor.map toLex) (found f (tables 0)) = left at hfuel ⊢
    cases hbatchLast : (left.take batchSize).getLast? with
    | none =>
      simp only [hbatchLast]
      have hnil : left.take batchSize = [] := List.getLast?_eq_none_iff.mp hbatchLast
      obtain hzero | hleftNil := List.take_eq_nil_iff.mp hnil
      · omega
      · rw [hleftNil]
    | some last =>
      simp only [hbatchLast]
      obtain ⟨read, hread⟩ := List.getLast?_eq_some_iff.mp hbatchLast
      have hsplit : left = read ++ last :: left.drop batchSize := by
        conv_lhs => rw [← List.take_append_drop batchSize left, hread]
        simp
      by_cases hshort : (left.take batchSize).length < batchSize
      · rw [List.length_take] at hshort
        rw [if_pos (by rwa [List.length_take]), List.take_of_length_le (by omega)]
      · have hlast : last ∈ tables 0 := by
          have hmem : last ∈ seek orderKey (cursor.map toLex) (found f (tables 0)) := by
            rw [hleft, hsplit]
            exact List.mem_append_right _ List.mem_cons_self
          exact List.mem_of_mem_filter (mem_seek.mp hmem).1
        have hnext : seek orderKey (some (orderKey last)) (found f (tables 1)) =
            left.drop batchSize := by
          rw [seek_appended (happended 0) hlast]
          exact seek_append (nodup_orderKey (hids 0)) (hleft.trans hsplit)
        rw [List.length_take] at hshort
        have hless : (seek orderKey ((some (last.createdAt, last.id)).map toLex)
            (found f (tables 1))).length < fuel := by
          show (seek orderKey (some (orderKey last)) (found f (tables 1))).length < fuel
          rw [hnext, List.length_drop]
          omega
        have hloop := ih (fun n => hids (n + 1)) (fun n => happended (n + 1))
          (some (last.createdAt, last.id)) hless
        rw [if_neg (by rwa [List.length_take]), hloop]
        show (some (seek orderKey (some (orderKey last)) (found f (tables 1)))).map _ = _
        rw [hnext, Option.map_some, List.take_append_drop]

theorem exports_descending (hbatch : 0 < batchSize) {tables : ℕ → List AuditLog}
    (hids : ∀ n, ((tables n).map AuditLog.id).Nodup)
    (happended : ∀ n, Appended (tables n) (tables (n + 1))) :
    Exports f batchSize tables (descending orderKey (found f (tables 0))) := by
  refine ⟨(found f (tables 0)).length + 1, fun fuel hfuel => ?_⟩
  have hlength : (descending orderKey (found f (tables 0))).length = (found f (tables 0)).length :=
    (descending_perm orderKey _).length_eq
  rw [iterForExport, exportLoop_eq hbatch fuel hids happended none]
  · rw [Option.map_none, seek_none]
  · rw [Option.map_none, seek_none]
    omega

end Loop

-- What an export of a table has to yield: the filtered rows, each once and the latest
-- first, as the pages of the search show them.
structure Complete (f : SearchFilters) (rows yielded : List AuditLog) : Prop where
  exactly : yielded.Perm (selectWhere (buildSearchFilters f) rows)
  ordered : yielded.Pairwise Later
  searched : ∀ size count, 0 < size → (search f rows 1 size).2 ≤ count * size →
    ((List.range count).flatMap fun i => (search f rows (i + 1) size).1) = yielded

theorem complete_descending {f : SearchFilters} {rows : List AuditLog}
    (hids : (rows.map AuditLog.id).Nodup) :
    Complete f rows (descending orderKey (found f rows)) where
  exactly := descending_perm orderKey _
  ordered := (descending_strict (nodup_orderKey hids)).imp later_iff.mpr
  searched size count _ htotal := by
    apply pages_eq_self
    rw [(descending_perm orderKey _).length_eq]
    exact htotal

theorem export_complete (f : SearchFilters) (batchSize : ℕ) (hbatch : 0 < batchSize) :
    (∀ rows : List AuditLog, (rows.map AuditLog.id).Nodup →
      ∃ yielded, Exports f batchSize (fun _ => rows) yielded ∧ Complete f rows yielded) ∧
    ∀ (start : List AuditLog) (tables : ℕ → List AuditLog),
      (∀ n, ((tables n).map AuditLog.id).Nodup) → Appended start (tables 0) →
      (∀ n, Appended (tables n) (tables (n + 1))) →
      ∃ yielded, Exports f batchSize tables yielded ∧ Complete f (tables 0) yielded ∧
        ∀ row ∈ selectWhere (buildSearchFilters f) start, yielded.count row = 1 := by
  refine ⟨fun rows hids => ⟨descending orderKey (found f rows), ?_, complete_descending hids⟩,
    fun start tables hids hstart happended =>
      ⟨descending orderKey (found f (tables 0)), exports_descending hbatch hids happended,
        complete_descending (hids 0), fun row hrow => ?_⟩⟩
  · have hsame : Appended rows rows := ⟨[], (List.append_nil rows).symm, by simp⟩
    exact exports_descending hbatch (fun _ => hids) fun _ => hsame
  · obtain ⟨added, hadded, -⟩ := hstart
    have hperm := descending_perm orderKey (found f (tables 0))
    have hnodup : (descending orderKey (found f (tables 0))).Nodup :=
      hperm.nodup_iff.mpr ((nodup_orderKey (hids 0)).of_map _)
    apply List.count_eq_one_of_mem hnodup
    rw [hperm.mem_iff, found, hadded, selectWhere, List.filter_append]
    exact List.mem_append_left _ hrow

def exported : SearchFilters := ⟨none, none, none, some 7, none, none, none⟩

def logged (id : Uuid) (createdAt : Instant) : AuditLog :=
  ⟨id, createdAt, none, "RESUME_UPLOADED", "RESUME", id, some 7⟩

theorem export_complete_ties :
    ∃ yielded, Exports exported 2 (fun _ => [logged 3 5, logged 1 5, logged 2 5]) yielded ∧
      Complete exported [logged 3 5, logged 1 5, logged 2 5] yielded :=
  (export_complete exported 2 (by decide)).1 _ (by decide)

example : iterForExport exported 2 (fun _ => [logged 3 5, logged 1 5, logged 2 5, logged 4 6]) 3 =
    some [logged 4 6, logged 3 5, logged 2 5, logged 1 5] := by decide

end AiHiring.AuditRepository
