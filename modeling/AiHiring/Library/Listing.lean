import Mathlib.Data.List.Sort
import Mathlib.Data.Prod.Lex

namespace AiHiring.Library

section Pages

variable {α : Type*}

-- A page of a listing, counted from 1.
def page (number size : ℕ) (listed : List α) : List α :=
  (listed.drop ((number - 1) * size)).take size

def pages (count size : ℕ) (listed : List α) : List α :=
  (List.range count).flatMap fun i => page (i + 1) size listed

theorem pages_succ (count size : ℕ) (listed : List α) :
    pages (count + 1) size listed = pages count size listed ++ page (count + 1) size listed := by
  rw [pages, List.range_succ, List.flatMap_append, List.flatMap_singleton, pages]

theorem pages_eq_take (count size : ℕ) (listed : List α) :
    pages count size listed = listed.take (count * size) := by
  induction count with
  | zero => simp [pages]
  | succ count ih =>
    rw [pages_succ, ih, page, Nat.add_sub_cancel, Nat.succ_mul, List.take_add]

theorem pages_eq_self {count size : ℕ} {listed : List α} (h : listed.length ≤ count * size) :
    pages count size listed = listed := by
  rw [pages_eq_take, List.take_of_length_le h]

end Pages

section Keyset

variable {α κ : Type*} [LinearOrder κ] (key : α → κ)

def descending (rows : List α) : List α := rows.insertionSort fun a b => key b ≤ key a

-- Whether a row comes after the cursor, when there is one.
def behind (cursor : Option κ) (row : α) : Bool := cursor.all fun last => key row < last

def seek (cursor : Option κ) (rows : List α) : List α :=
  descending key (rows.filter (behind key cursor))

instance descending_total : Std.Total fun a b : α => key b ≤ key a := ⟨fun _ _ => le_total _ _⟩

instance descending_trans : IsTrans α fun a b => key b ≤ key a := ⟨fun _ _ _ h h' => h'.trans h⟩

theorem descending_perm (rows : List α) : (descending key rows).Perm rows :=
  List.perm_insertionSort _ rows

theorem descending_pairwise (rows : List α) :
    (descending key rows).Pairwise fun a b => key b ≤ key a :=
  List.pairwise_insertionSort _ rows

variable {key} {rows : List α} {cursor : Option κ}

theorem seek_none : seek key none rows = descending key rows := by
  have hall : rows.filter (behind key none) = rows := List.filter_eq_self.mpr fun _ _ => rfl
  rw [seek, hall]

theorem mem_seek {row : α} : row ∈ seek key cursor rows ↔ row ∈ rows ∧ behind key cursor row := by
  rw [seek, (descending_perm key _).mem_iff, List.mem_filter]

theorem descending_strict (h : (rows.map key).Nodup) :
    (descending key rows).Pairwise fun a b => key b < key a := by
  have hperm := (descending_perm key rows).map key
  have hne : (descending key rows).Pairwise fun a b => key a ≠ key b :=
    List.pairwise_map.mp (hperm.nodup_iff.mpr h)
  exact ((descending_pairwise key rows).and hne).imp fun hab => lt_of_le_of_ne hab.1 hab.2.symm

theorem seek_strict (h : (rows.map key).Nodup) :
    (seek key cursor rows).Pairwise fun a b => key b < key a :=
  descending_strict (h.sublist (List.filter_sublist.map key))

theorem nodup_of_strict {listed : List α} (h : listed.Pairwise fun a b => key b < key a) :
    (listed.map key).Nodup :=
  List.pairwise_map.mpr (h.imp ne_of_gt)

theorem descending_eq_of_perm {listed : List α} (hperm : listed.Perm rows)
    (hstrict : listed.Pairwise fun a b => key b < key a) : descending key rows = listed := by
  have hnodup : (rows.map key).Nodup := (hperm.map key).nodup_iff.mp (nodup_of_strict hstrict)
  have hasym : ∀ a b, a ∈ descending key rows → b ∈ listed → key b < key a → key a < key b →
      a = b := fun a b _ _ hba hab => absurd hba hab.asymm
  exact ((descending_perm key rows).trans hperm.symm).eq_of_pairwise hasym
    (descending_strict hnodup) hstrict

theorem seek_append (h : (rows.map key).Nodup) {read rest : List α} {last : α}
    (hseek : seek key cursor rows = read ++ last :: rest) :
    seek key (some (key last)) rows = rest := by
  have hstrict : (read ++ last :: rest).Pairwise fun a b => key b < key a :=
    hseek ▸ seek_strict h
  obtain ⟨-, htail, hread⟩ := List.pairwise_append.mp hstrict
  obtain ⟨hlast, hrest⟩ := List.pairwise_cons.mp htail
  apply descending_eq_of_perm _ hrest
  have hmem : ∀ row, row ∈ read ++ last :: rest ↔ row ∈ rows ∧ behind key cursor row := by
    intro row
    rw [← hseek, mem_seek]
  have hnodup : rows.Nodup := h.of_map key
  have hrestNodup : rest.Nodup := (nodup_of_strict hrest).of_map key
  rw [List.perm_ext_iff_of_nodup hrestNodup (hnodup.filter _)]
  intro row
  rw [List.mem_filter]
  constructor
  · intro hrow
    have hin : row ∈ read ++ last :: rest :=
      List.mem_append_right _ (List.mem_cons_of_mem _ hrow)
    exact ⟨((hmem row).mp hin).1, decide_eq_true (hlast row hrow)⟩
  · rintro ⟨hrow, hbehind⟩
    have hlt : key row < key last := of_decide_eq_true hbehind
    -- the cursor only moves down
    have hcursor : behind key cursor row := by
      have hin : last ∈ read ++ last :: rest := List.mem_append_right _ List.mem_cons_self
      have hlastBehind := ((hmem last).mp hin).2
      cases cursor with
      | none => rfl
      | some c => exact decide_eq_true (hlt.trans (of_decide_eq_true hlastBehind))
    obtain hin | hin := List.mem_append.mp ((hmem row).mpr ⟨hrow, hcursor⟩)
    · exact absurd (hread row hin last List.mem_cons_self) hlt.asymm
    · obtain rfl | hin := List.mem_cons.mp hin
      · exact absurd hlt (lt_irrefl _)
      · exact hin

theorem seek_added {last : κ} {added : List α} (h : ∀ row ∈ added, last ≤ key row) :
    seek key (some last) (rows ++ added) = seek key (some last) rows := by
  have hnone : added.filter (behind key (some last)) = [] := by
    rw [List.filter_eq_nil_iff]
    intro row hrow hbehind
    exact absurd (of_decide_eq_true hbehind) (not_lt.mpr (h row hrow))
  rw [seek, List.filter_append, hnone, List.append_nil, seek]

end Keyset

section Listing

variable {α κ : Type*} [LinearOrder κ] {key : α → κ} {rows listed : List α}

-- The rows of a query with an ORDER BY: those of one key come in any order.
structure Listing (key : α → κ) (rows listed : List α) : Prop where
  perm : listed.Perm rows
  sorted : listed.Pairwise fun a b => key b ≤ key a

theorem exists_listing (key : α → κ) (rows : List α) : ∃ listed, Listing key rows listed :=
  ⟨descending key rows, descending_perm key rows, descending_pairwise key rows⟩

theorem Listing.mem_iff (h : Listing key rows listed) {a : α} : a ∈ listed ↔ a ∈ rows :=
  h.perm.mem_iff

-- Among rows of one key those that `preferred` picks can come first.
theorem exists_listing_preferring (key : α → κ) (rows : List α) (preferred : α → Bool) :
    ∃ listed, Listing key rows listed ∧
      listed.Pairwise fun a b => key a = key b → preferred b → preferred a := by
  obtain ⟨listed, hperm, hsorted⟩ :=
    exists_listing (fun a => toLex (key a, preferred a)) rows
  refine ⟨listed, ⟨hperm, hsorted.imp ?_⟩, hsorted.imp ?_⟩
  · intro a b hle
    obtain hlt | ⟨heq, -⟩ := Prod.Lex.toLex_le_toLex.mp hle
    · exact le_of_lt hlt
    · exact le_of_eq heq
  · intro a b hle hkey hpreferred
    obtain hlt | ⟨-, himp⟩ := Prod.Lex.toLex_le_toLex.mp hle
    · exact absurd hkey.symm hlt.ne
    · exact himp hpreferred

-- Of two rows of a list one stands before the other.
theorem pair_sublist_or {a b : α} (ha : a ∈ listed) (hb : b ∈ listed) (hne : a ≠ b) :
    [a, b].Sublist listed ∨ [b, a].Sublist listed := by
  induction listed with
  | nil => simp at ha
  | cons head rest ih =>
    obtain rfl | haRest := List.mem_cons.mp ha
    · have hlater := List.singleton_sublist.mpr ((List.mem_cons.mp hb).resolve_left hne.symm)
      exact .inl (hlater.cons_cons a)
    · obtain rfl | hbRest := List.mem_cons.mp hb
      · exact .inr ((List.singleton_sublist.mpr haRest).cons_cons b)
      · exact (ih haRest hbRest).imp (List.Sublist.cons head) (List.Sublist.cons head)

theorem not_pair_sublist {a b : α} (hnodup : listed.Nodup) (h : [a, b].Sublist listed) :
    ¬[b, a].Sublist listed := by
  induction listed with
  | nil => simp at h
  | cons head rest ih =>
    obtain ⟨hhead, hrest⟩ := List.nodup_cons.mp hnodup
    intro h'
    cases h with
    | cons _ h =>
      cases h' with
      | cons _ h' => exact ih hrest h h'
      | cons_cons _ h' => exact hhead (h.mem (List.mem_cons_of_mem _ List.mem_cons_self))
    | cons_cons _ h =>
      cases h' with
      | cons _ h' => exact hhead (h'.mem (List.mem_cons_of_mem _ List.mem_cons_self))
      | cons_cons _ h' => exact hhead (List.singleton_sublist.mp h)

end Listing

section Numbered

variable {α β : Type*} [DecidableEq β] (part : α → β)

-- The rows that ROW_NUMBER() numbers 1, each in its part.
def firstOfEach : List α → List α
  | [] => []
  | row :: rest => row :: (firstOfEach rest).filter fun other => part other ≠ part row

variable {listed : List α} {first row : α}

theorem firstOfEach_sublist : (firstOfEach part listed).Sublist listed := by
  induction listed with
  | nil => exact List.Sublist.refl _
  | cons row rest ih => exact (List.filter_sublist.trans ih).cons_cons row

theorem exists_firstOfEach (h : row ∈ listed) :
    ∃ first ∈ firstOfEach part listed, part first = part row := by
  induction listed with
  | nil => simp at h
  | cons head rest ih =>
    by_cases hpart : part row = part head
    · exact ⟨head, List.mem_cons_self, hpart.symm⟩
    · obtain rfl | hrest := List.mem_cons.mp h
      · exact absurd rfl hpart
      · obtain ⟨first, hfirst, hsame⟩ := ih hrest
        refine ⟨first, List.mem_cons_of_mem _ (List.mem_filter.mpr ⟨hfirst, ?_⟩), hsame⟩
        exact decide_eq_true (hsame ▸ hpart)

variable {part}

theorem firstOfEach_parts : ((firstOfEach part listed).map part).Nodup := by
  induction listed with
  | nil => exact List.nodup_nil
  | cons head rest ih =>
    refine List.nodup_cons.mpr ⟨?_, ih.sublist (List.filter_sublist.map part)⟩
    intro hhead
    obtain ⟨other, hother, hsame⟩ := List.mem_map.mp hhead
    exact of_decide_eq_true (List.mem_filter.mp hother).2 hsame

theorem firstOfEach_before {before : α → α → Prop} (h : listed.Pairwise before)
    (hfirst : first ∈ firstOfEach part listed) (hrow : row ∈ listed)
    (hpart : part row = part first) : row = first ∨ before first row := by
  induction listed with
  | nil => simp at hrow
  | cons head rest ih =>
    obtain ⟨hhead, hrest⟩ := List.pairwise_cons.mp h
    obtain rfl | hfiltered := List.mem_cons.mp hfirst
    · exact (List.mem_cons.mp hrow).imp_right (hhead row)
    · obtain ⟨hmem, hother⟩ := List.mem_filter.mp hfiltered
      obtain rfl | hlater := List.mem_cons.mp hrow
      · exact absurd hpart.symm (of_decide_eq_true hother)
      · exact ih hrest hmem hlater

end Numbered

theorem nodup_eraseDups {α : Type*} [BEq α] [LawfulBEq α] (ids : List α) :
    ids.eraseDups.Nodup := by
  induction hlength : ids.length using Nat.strong_induction_on generalizing ids with
  | _ n ih =>
    cases ids with
    | nil => simp
    | cons id rest =>
      rw [List.eraseDups_cons]
      have hshorter : (rest.filter fun other => !other == id).length < n := by
        have hle := List.length_filter_le (fun other => !other == id) rest
        rw [List.length_cons] at hlength
        omega
      apply List.nodup_cons.mpr ⟨?_, ih _ hshorter _ rfl⟩
      intro hmem
      have hkept := (List.mem_filter.mp (List.mem_eraseDups.mp hmem)).2
      simp at hkept

section Paging

variable {α : Type*}

-- However each query of a paging is answered, enough of its pages give every member
-- once and as many rows as are counted.
def PagesRight (answers : List α → Prop) (counts : ℕ → Prop) (member : α → Prop) : Prop :=
  ∀ size total count (served : ℕ → List α), 1 ≤ size → counts total → total ≤ count * size →
    (∀ number, answers (served number)) →
    let shown := (List.range count).flatMap fun i => page (i + 1) size (served i)
    shown.Nodup ∧ (∀ a, a ∈ shown ↔ member a) ∧ shown.length = total

-- Every query gives the same rows in the same order, each member once.
structure Fixed (answers : List α → Prop) (counts : ℕ → Prop) (member : α → Prop)
    (listed : List α) : Prop where
  answer : ∀ rows, answers rows → rows = listed
  nodup : listed.Nodup
  mem : ∀ a, a ∈ listed ↔ member a
  total : ∀ total, counts total → total = listed.length

variable {answers : List α → Prop} {counts : ℕ → Prop} {member : α → Prop}

theorem page_one (i : ℕ) (listed : List α) : page (i + 1) 1 listed = listed[i]?.toList := by
  rw [page, Nat.add_sub_cancel, Nat.mul_one, List.take_one, List.head?_drop]

theorem Fixed.pagesRight {listed : List α} (h : Fixed answers counts member listed) :
    PagesRight answers counts member := by
  intro size total count served _ htotal hcount hserved
  have hshown : ((List.range count).flatMap fun i => page (i + 1) size (served i)) = listed := by
    simp only [fun i => h.answer _ (hserved i)]
    exact pages_eq_self (h.total total htotal ▸ hcount)
  simp only [hshown]
  exact ⟨h.nodup, h.mem, (h.total total htotal).symm⟩

theorem PagesRight.answer (h : PagesRight answers counts member) {total : ℕ}
    (htotal : counts total) {rows : List α} (hrows : answers rows) :
    rows.Nodup ∧ (∀ a, a ∈ rows ↔ member a) ∧ rows.length = total := by
  have hall := h 1 total (max total rows.length) (fun _ => rows) le_rfl htotal (by omega)
    fun _ => hrows
  have hshown : pages (max total rows.length) 1 rows = rows := pages_eq_self (by omega)
  rw [pages] at hshown
  simpa only [hshown] using hall

theorem PagesRight.answer_eq (h : PagesRight answers counts member) {total : ℕ}
    (htotal : counts total) {rows rows' : List α} (hrows : answers rows)
    (hrows' : answers rows') : rows = rows' := by
  obtain ⟨hnodup, hmem, hlength⟩ := h.answer htotal hrows
  obtain ⟨-, -, hlength'⟩ := h.answer htotal hrows'
  refine List.ext_getElem (hlength.trans hlength'.symm) ?_
  intro i hi hi'
  obtain ⟨-, hall, -⟩ := h 1 total total (fun j => if j = i then rows' else rows) le_rfl htotal
    (by omega) (by intro j; split_ifs <;> assumption)
  have hshown := (hall rows[i]).mpr ((hmem _).mp (List.getElem_mem hi))
  obtain ⟨j, -, hj⟩ := List.mem_flatMap.mp hshown
  rw [page_one, Option.mem_toList] at hj
  by_cases hji : j = i
  · rw [if_pos hji, hji, List.getElem?_eq_getElem hi'] at hj
    exact (Option.some.inj hj).symm
  · rw [if_neg hji] at hj
    obtain ⟨hjlt, hsame⟩ := List.getElem?_eq_some_iff.mp hj
    exact absurd ((List.Nodup.getElem_inj_iff hnodup).mp hsame) hji

theorem pagesRight_iff (hanswer : ∃ rows, answers rows) (hcount : ∃ total, counts total) :
    PagesRight answers counts member ↔ ∃ listed, Fixed answers counts member listed := by
  constructor
  · intro h
    obtain ⟨listed, hlisted⟩ := hanswer
    obtain ⟨total, htotal⟩ := hcount
    obtain ⟨hnodup, hmem, -⟩ := h.answer htotal hlisted
    exact ⟨listed, fun rows hrows => h.answer_eq htotal hrows hlisted, hnodup, hmem,
      fun other hother => (h.answer hother hlisted).2.2.symm⟩
  · rintro ⟨listed, h⟩
    exact h.pagesRight

end Paging

end AiHiring.Library
