import Mathlib.Algebra.BigOperators.Group.List.Basic
import Mathlib.Data.List.Sort

namespace AiHiring.Library

-- Rows in insertion order under a primary key. The table hands out the keys
-- itself, so a row with a key in use cannot be inserted.
@[ext]
structure Table (ρ : Type*) (key : ρ → ℕ) where
  rows : List ρ
  next : ℕ
  nodup : (rows.map key).Nodup
  below : ∀ r ∈ rows, key r < next

namespace Table

variable {ρ : Type*} {key : ρ → ℕ}

def empty : Table ρ key where
  rows := []
  next := 0
  nodup := List.nodup_nil
  below := by simp

def find? (t : Table ρ key) (k : ℕ) : Option ρ :=
  t.rows.find? (fun r => key r = k)

variable (t : Table ρ key) (f : ρ → ρ) (mk : ℕ → ρ) (selected : ρ → Bool) (row : ρ)

def modify (hf : ∀ r, key (f r) = key r) : Table ρ key where
  rows := t.rows.map f
  next := t.next
  nodup := by
    have hk : (t.rows.map f).map key = t.rows.map key := by
      rw [List.map_map]
      exact List.map_congr_left fun r _ => hf r
    exact hk ▸ t.nodup
  below := by
    intro r hr
    obtain ⟨old, hold, rfl⟩ := List.mem_map.mp hr
    rw [hf]
    exact t.below old hold

-- UPDATE of one row by its key; a row the table does not hold changes nothing.
def replace : Table ρ key :=
  t.modify (fun r => if key r = key row then row else r) (by
    intro r
    by_cases h : key r = key row <;> simp [h])

def insert (hmk : ∀ n, key (mk n) = n) : Table ρ key where
  rows := t.rows ++ [mk t.next]
  next := t.next + 1
  nodup := by
    rw [List.map_append, List.nodup_append]
    refine ⟨t.nodup, by simp, ?_⟩
    intro a ha b hb hab
    obtain ⟨r, hr, rfl⟩ := List.mem_map.mp ha
    simp only [List.map_cons, List.map_nil, List.mem_singleton, hmk] at hb
    exact absurd (t.below r hr) (by omega)
  below := by
    intro r hr
    rcases List.mem_append.mp hr with hr | hr
    · exact Nat.lt_succ_of_lt (t.below r hr)
    · rw [List.mem_singleton.mp hr, hmk]
      exact Nat.lt_succ_self _

-- INSERT under a key that the caller brings, which must not be in use.
def add (hkey : key row ∉ t.rows.map key) : Table ρ key where
  rows := t.rows ++ [row]
  next := max t.next (key row + 1)
  nodup := by
    rw [List.map_append, List.nodup_append]
    refine ⟨t.nodup, by simp, ?_⟩
    intro a ha b hb hab
    simp only [List.map_cons, List.map_nil, List.mem_singleton] at hb
    exact hkey (hb ▸ hab ▸ ha)
  below := by
    intro r hr
    rcases List.mem_append.mp hr with hr | hr
    · exact lt_of_lt_of_le (t.below r hr) (Nat.le_max_left _ _)
    · rw [List.mem_singleton.mp hr]
      exact Nat.le_max_right _ _

def delete : Table ρ key where
  rows := t.rows.filter fun r => !selected r
  next := t.next
  nodup := t.nodup.sublist (List.filter_sublist.map key)
  below := fun r hr => t.below r (List.mem_filter.mp hr).1

@[simp] theorem rows_delete :
    (t.delete selected).rows = t.rows.filter fun r => !selected r := rfl

@[simp] theorem rows_modify (hf : ∀ r, key (f r) = key r) :
    (t.modify f hf).rows = t.rows.map f := rfl

@[simp] theorem rows_replace :
    (t.replace row).rows = t.rows.map (fun r => if key r = key row then row else r) := rfl

@[simp] theorem rows_insert (hmk : ∀ n, key (mk n) = n) :
    (t.insert mk hmk).rows = t.rows ++ [mk t.next] := rfl

@[simp] theorem rows_add (hkey : key row ∉ t.rows.map key) :
    (t.add row hkey).rows = t.rows ++ [row] := rfl

theorem eq_of_key_eq {r s : ρ} (hr : r ∈ t.rows) (hs : s ∈ t.rows) (h : key r = key s) : r = s :=
  List.inj_on_of_nodup_map t.nodup hr hs h

theorem filter_key {r : ρ} (hr : r ∈ t.rows) :
    t.rows.filter (fun s => key s = key r) = [r] := by
  have hrows : ∀ rows : List ρ, (rows.map key).Nodup → r ∈ rows →
      rows.filter (fun s => key s = key r) = [r] := by
    intro rows hn hr
    induction rows with
    | nil => simp at hr
    | cons first rest ih =>
      obtain ⟨hnot, hn⟩ := List.nodup_cons.mp hn
      rcases List.mem_cons.mp hr with rfl | hr
      · have hrest : rest.filter (fun s => key s = key r) = [] := by
          rw [List.filter_eq_nil_iff]
          intro s hs hkey
          exact hnot (List.mem_map.mpr ⟨s, hs, of_decide_eq_true hkey⟩)
        rw [List.filter_cons_of_pos (by simp), hrest]
      · have hne : ¬key first = key r := fun he => hnot (he ▸ List.mem_map.mpr ⟨r, hr, rfl⟩)
        rw [List.filter_cons_of_neg (by simpa using hne)]
        exact ih hn hr
  exact hrows t.rows t.nodup hr

theorem find?_eq_some (k : ℕ) (r : ρ) :
    t.find? k = some r ↔ r ∈ t.rows ∧ key r = k := by
  constructor
  · intro h
    exact ⟨List.mem_of_find?_eq_some h, by simpa using List.find?_some h⟩
  · rintro ⟨hr, rfl⟩
    cases hf : t.find? (key r) with
    | none => simpa using List.find?_eq_none.mp hf r hr
    | some s =>
      have hs : key s = key r := by simpa using List.find?_some hf
      rw [t.eq_of_key_eq (List.mem_of_find?_eq_some hf) hr hs]

theorem find?_replace_self (old : ρ) (h : t.find? (key row) = some old) :
    (t.replace row).find? (key row) = some row := by
  obtain ⟨hm, hk⟩ := (t.find?_eq_some _ _).mp h
  refine (find?_eq_some _ _ _).mpr ⟨?_, rfl⟩
  exact List.mem_map.mpr ⟨old, hm, by simp [hk]⟩

theorem find?_replace_ne (k : ℕ) (h : k ≠ key row) :
    (t.replace row).find? k = t.find? k := by
  have hmem (r : ρ) (hk : key r = k) : r ∈ (t.replace row).rows ↔ r ∈ t.rows := by
    rw [rows_replace, List.mem_map]
    constructor
    · rintro ⟨old, hold, he⟩
      by_cases hkey : key old = key row
      · rw [if_pos hkey] at he
        exact absurd (he ▸ hk).symm h
      · rw [if_neg hkey] at he
        exact he ▸ hold
    · intro hr
      exact ⟨r, hr, by simp [hk ▸ h]⟩
  ext r
  simp only [find?_eq_some]
  constructor
  · rintro ⟨hr, hk⟩
    exact ⟨(hmem r hk).mp hr, hk⟩
  · rintro ⟨hr, hk⟩
    exact ⟨(hmem r hk).mpr hr, hk⟩

theorem mem_replace (r : ρ) : r ∈ (t.replace row).rows ↔
      (r ∈ t.rows ∧ key r ≠ key row) ∨ (r = row ∧ ∃ old ∈ t.rows, key old = key row) := by
  rw [rows_replace, List.mem_map]
  constructor
  · rintro ⟨old, hold, he⟩
    by_cases h : key old = key row
    · rw [if_pos h] at he
      exact .inr ⟨he.symm, old, hold, h⟩
    · rw [if_neg h] at he
      exact .inl ⟨he ▸ hold, he ▸ h⟩
  · rintro (⟨hr, h⟩ | ⟨rfl, old, hold, h⟩)
    · exact ⟨r, hr, if_neg h⟩
    · exact ⟨old, hold, if_pos h⟩

theorem find?_modify (hf : ∀ r, key (f r) = key r) (k : ℕ) :
    (t.modify f hf).find? k = (t.find? k).map f := by
  have hkey : (fun r => decide (key r = k)) ∘ f = fun r => decide (key r = k) := by
    funext r
    rw [Function.comp_apply, hf]
  rw [find?, rows_modify, List.find?_map, hkey]
  rfl

theorem find?_next : t.find? t.next = none := by
  rw [find?, List.find?_eq_none]
  intro r hr
  have := t.below r hr
  simp only [decide_eq_true_eq]
  omega

theorem find?_insert (hmk : ∀ n, key (mk n) = n) (k : ℕ) :
    (t.insert mk hmk).find? k = if k = t.next then some (mk t.next) else t.find? k := by
  by_cases h : k = t.next
  · rw [if_pos h]
    exact (find?_eq_some _ _ _).mpr ⟨by simp, by rw [hmk, h]⟩
  · rw [if_neg h]
    have hnew : ¬ key (mk t.next) = k := by rw [hmk]; exact Ne.symm h
    simp [find?, hnew]

theorem find?_add (hkey : key row ∉ t.rows.map key) (k : ℕ) :
    (t.add row hkey).find? k = if k = key row then some row else t.find? k := by
  by_cases h : k = key row
  · rw [if_pos h]
    exact (find?_eq_some _ _ _).mpr ⟨by simp, h.symm⟩
  · rw [if_neg h]
    have hnew : ¬key row = k := Ne.symm h
    simp [find?, hnew]

theorem countP_replace (old : ρ) (p : ρ → Bool) (h : t.find? (key row) = some old) :
    (t.replace row).rows.countP p =
      t.rows.countP (fun r => p r && key r ≠ key row) + if p row then 1 else 0 := by
  obtain ⟨hm, hk⟩ := (t.find?_eq_some _ _).mp h
  have hsplit : ∀ rows : List ρ, (rows.map key).Nodup →
      (rows.map (fun r => if key r = key row then row else r)).countP p =
        rows.countP (fun r => p r && key r ≠ key row) +
          if p row ∧ key row ∈ rows.map key then 1 else 0 := by
    intro rows hn
    induction rows with
    | nil => simp
    | cons r rest ih =>
      obtain ⟨hnot, hn⟩ := List.nodup_cons.mp hn
      have hi := ih hn
      simp only [List.map_cons, List.countP_cons, List.mem_cons, hi]
      by_cases hr : key r = key row
      · have hrest : key row ∉ rest.map key := hr ▸ hnot
        simp [hr, hrest]
      · simp [hr, Ne.symm hr, Nat.add_right_comm]
  have hin : key row ∈ t.rows.map key := List.mem_map.mpr ⟨old, hm, hk⟩
  simpa [hin] using hsplit t.rows t.nodup

theorem replace_found (h : t.find? (key row) = some row) :
    t.replace row = t := by
  obtain ⟨hm, -⟩ := (t.find?_eq_some _ _).mp h
  ext1
  · rw [rows_replace]
    refine (List.map_congr_left fun r hr => ?_).trans (List.map_id _)
    by_cases hk : key r = key row
    · simp [t.eq_of_key_eq hr hm hk]
    · simp [hk]
  · rfl

theorem replace_replace (first second : ρ) (h : key first = key second) :
    (t.replace first).replace second = t.replace second := by
  ext1
  · rw [rows_replace, rows_replace, rows_replace, List.map_map]
    apply List.map_congr_left
    intro r _
    by_cases hr : key r = key second <;> simp [h, hr]
  · rfl

theorem replace_comm (first second : ρ) (h : key first ≠ key second) :
    (t.replace first).replace second = (t.replace second).replace first := by
  ext1
  · rw [rows_replace, rows_replace, rows_replace, rows_replace, List.map_map, List.map_map]
    apply List.map_congr_left
    intro r _
    by_cases hr : key r = key first
    · simp [hr, h]
    · by_cases hs : key r = key second <;> simp [hr, hs, Ne.symm h]
  · rfl

theorem replace_insert (mk' : ℕ → ρ) (hmk : ∀ n, key (mk n) = n) (hmk' : ∀ n, key (mk' n) = n) :
    (t.insert mk hmk).replace (mk' t.next) = t.insert mk' hmk' := by
  ext1
  · have hold : t.rows.map (fun r => if key r = key (mk' t.next) then mk' t.next else r) =
        t.rows := by
      refine (List.map_congr_left fun r hr => ?_).trans (List.map_id _)
      have hlt := t.below r hr
      have hne : key r ≠ key (mk' t.next) := by
        rw [hmk']
        omega
      exact if_neg hne
    rw [rows_replace, rows_insert, rows_insert, List.map_append, hold]
    simp [hmk, hmk']
  · rfl

theorem rows_replace_if (write : ρ → ρ)
    (hw : ∀ r, key (write r) = key r) {row : ρ} (hrow : row ∈ t.rows) :
    (if selected row then t.replace (write row) else t).rows =
      t.rows.map (fun r => if key r = key row ∧ selected r then write r else r) := by
  split_ifs with hs
  · rw [rows_replace]
    apply List.map_congr_left
    intro r hr
    by_cases hk : key r = key row
    · simp [t.eq_of_key_eq hr hrow hk, hs, hw]
    · simp [hk, hw]
  · refine ((List.map_congr_left fun r hr => ?_).trans (List.map_id _)).symm
    by_cases hk : key r = key row
    · simp [t.eq_of_key_eq hr hrow hk, hs]
    · simp [hk]

theorem foldl_replace (write : ρ → ρ)
    (hw : ∀ r, key (write r) = key r) (batch : List ρ) (hn : (batch.map key).Nodup)
    (hsub : ∀ r ∈ batch, r ∈ t.rows) :
    batch.foldl (fun t r => if selected r then t.replace (write r) else t) t =
      t.modify (fun r => if key r ∈ batch.map key ∧ selected r then write r else r) (by
        intro r
        split_ifs
        · exact hw r
        · rfl) := by
  induction batch generalizing t with
  | nil =>
    ext1
    · simp
    · rfl
  | cons first rest ih =>
    obtain ⟨hnot, hn⟩ := List.nodup_cons.mp hn
    have hfirst := hsub first (by simp)
    -- the rows still to be visited are as they were
    have hkeep : ∀ r ∈ rest, r ∈ (if selected first then t.replace (write first) else t).rows := by
      intro r hr
      have hne : key r ≠ key first := fun he => hnot (List.mem_map.mpr ⟨r, hr, he⟩)
      rw [t.rows_replace_if selected write hw hfirst]
      exact List.mem_map.mpr ⟨r, hsub r (by simp [hr]), by simp [hne]⟩
    rw [List.foldl_cons, ih _ hn hkeep]
    ext1
    · rw [rows_modify, rows_modify, t.rows_replace_if selected write hw hfirst, List.map_map]
      apply List.map_congr_left
      intro r hr
      by_cases hk : key r = key first
      · have he := t.eq_of_key_eq hr hfirst hk
        subst he
        have hdone : ¬(key (write r) ∈ rest.map key ∧ selected (write r) = true) :=
          fun h => hnot (hw r ▸ h.1)
        rw [Function.comp_apply]
        by_cases hs : selected r
        · have hnow : (if key r = key r ∧ selected r = true then write r else r) = write r :=
            if_pos ⟨rfl, hs⟩
          rw [hnow, if_neg hdone, if_pos ⟨by simp, hs⟩]
        · simp [hs]
      · simp [hk]
    · split_ifs <;> rfl

theorem foldl_delete (batch : List ρ) :
    (batch.foldl (fun t r => t.delete fun row => key row = key r) t).rows =
      t.rows.filter fun row => key row ∉ batch.map key := by
  induction batch generalizing t with
  | nil => simp
  | cons first rest ih =>
    rw [List.foldl_cons, ih, rows_delete, List.filter_filter]
    apply List.filter_congr
    intro row _
    by_cases hfirst : key row = key first <;> simp [hfirst]

theorem sum_map_update {M : Type*} [AddCommMonoid M] (keys : List ℕ) (hn : keys.Nodup)
    (f : ℕ → M) {k : ℕ} (hk : k ∈ keys) (d : M) :
    (keys.map (Function.update f k (f k + d))).sum = (keys.map f).sum + d := by
  induction keys with
  | nil => simp at hk
  | cons first rest ih =>
    obtain ⟨hnot, hn⟩ := List.nodup_cons.mp hn
    rw [List.map_cons, List.sum_cons, List.map_cons, List.sum_cons]
    rcases List.mem_cons.mp hk with rfl | hk
    · have hrest : rest.map (Function.update f k (f k + d)) = rest.map f := by
        apply List.map_congr_left
        intro j hj
        have hne : j ≠ k := fun he => hnot (by rwa [he] at hj)
        exact Function.update_of_ne hne _ _
      rw [hrest, Function.update_self]
      exact add_right_comm _ _ _
    · have hne : first ≠ k := fun he => hnot (by rwa [he])
      rw [Function.update_of_ne hne, ih hn hk, add_assoc]

end Table

end AiHiring.Library
