import Mathlib.Data.List.Induction
import Mathlib.Data.List.Sort

namespace AiHiring.Library

section Dict

variable {τ ν : Type*} [DecidableEq τ]

-- A dictionary that keeps the order in which its keys were first assigned.
def assign : List (τ × ν) → τ → ν → List (τ × ν)
  | [], k, v => [(k, v)]
  | (key, value) :: rest, k, v =>
    if key = k then (key, v) :: rest else (key, value) :: assign rest k v

theorem lookup_cons_ite (entry : τ × ν) (rest : List (τ × ν)) (k : τ) :
    (entry :: rest).lookup k = if k = entry.1 then some entry.2 else rest.lookup k := by
  rcases entry with ⟨key, value⟩
  rw [List.lookup_cons]
  by_cases h : k = key
  · simp [h]
  · simp [h, beq_eq_false_iff_ne.mpr h]

variable (pairs dict : List (τ × ν)) (k : τ) (v : ν)

theorem lookup_assign_self :
    (assign dict k v).lookup k = some v := by
  induction dict with
  | nil => simp [assign]
  | cons entry rest ih =>
    rcases entry with ⟨key, value⟩
    by_cases h : key = k
    · simp [assign, h]
    · simp [assign, h, lookup_cons_ite, Ne.symm h, ih]

theorem lookup_assign_ne (other : τ) (v : ν) (h : other ≠ k) :
    (assign dict k v).lookup other = dict.lookup other := by
  induction dict with
  | nil => simp [assign, lookup_cons_ite, h]
  | cons entry rest ih =>
    rcases entry with ⟨key, value⟩
    by_cases hk : key = k
    · subst hk
      simp [assign, lookup_cons_ite, h]
    · simp [assign, hk, lookup_cons_ite, ih]

theorem keys_assign : (assign dict k v).map Prod.fst =
      if k ∈ dict.map Prod.fst then dict.map Prod.fst else dict.map Prod.fst ++ [k] := by
  induction dict with
  | nil => simp [assign]
  | cons entry rest ih =>
    rcases entry with ⟨key, value⟩
    by_cases h : key = k
    · simp [assign, h]
    · rw [assign, if_neg h, List.map_cons, ih]
      by_cases hr : k ∈ rest.map Prod.fst
      · simp [hr]
      · simp [hr, Ne.symm h]

theorem assign_of_absent (h : k ∉ dict.map Prod.fst) :
    assign dict k v = dict ++ [(k, v)] := by
  induction dict with
  | nil => rfl
  | cons entry rest ih =>
    rcases entry with ⟨key, value⟩
    obtain ⟨hkey, hrest⟩ := not_or.mp (List.mem_cons.not.mp h)
    rw [assign, if_neg (Ne.symm hkey), ih hrest, List.cons_append]

theorem lookup_of_absent (h : k ∉ dict.map Prod.fst) :
    dict.lookup k = none := by
  induction dict with
  | nil => rfl
  | cons entry rest ih =>
    obtain ⟨hkey, hrest⟩ := not_or.mp (List.mem_cons.not.mp h)
    rw [lookup_cons_ite, if_neg hkey, ih hrest]

theorem nodup_keys_assign
    (h : (dict.map Prod.fst).Nodup) : ((assign dict k v).map Prod.fst).Nodup := by
  rw [keys_assign]
  split_ifs with hk
  · exact h
  · exact List.nodup_append.mpr ⟨h, by simp, by simpa using fun a b hb he => hk (by
      subst he; exact List.mem_map.mpr ⟨_, hb, rfl⟩)⟩

theorem mem_iff_lookup (h : (dict.map Prod.fst).Nodup) (k : τ) (v : ν) :
    (k, v) ∈ dict ↔ dict.lookup k = some v := by
  induction dict with
  | nil => simp
  | cons entry rest ih =>
    rcases entry with ⟨key, value⟩
    obtain ⟨hnot, hn⟩ := List.nodup_cons.mp h
    by_cases hk : k = key
    · subst hk
      have habsent : (k, v) ∉ rest := fun hm => hnot (List.mem_map.mpr ⟨_, hm, rfl⟩)
      simp [lookup_cons_ite, habsent, eq_comm]
    · simp [lookup_cons_ite, hk, ih hn]

-- A dict comprehension: the last pair of a key sets its value.
def ofPairs : List (τ × ν) :=
  pairs.foldl (fun dict pair => assign dict pair.1 pair.2) []

theorem ofPairs_append (pair : τ × ν) :
    ofPairs (pairs ++ [pair]) = assign (ofPairs pairs) pair.1 pair.2 := by
  rw [ofPairs, List.foldl_append]
  rfl

theorem mem_of_lookup_ofPairs (h : (ofPairs pairs).lookup k = some v) : (k, v) ∈ pairs := by
  induction pairs using List.reverseRecOn with
  | nil => simp [ofPairs] at h
  | append_singleton pairs pair ih =>
    rw [ofPairs_append] at h
    by_cases hk : k = pair.1
    · rw [hk, lookup_assign_self] at h
      simp [hk, ← Option.some.inj h]
    · rw [lookup_assign_ne _ _ _ _ hk] at h
      exact List.mem_append_left _ (ih h)

theorem lookup_ofPairs_isSome :
    ((ofPairs pairs).lookup k).isSome ↔ k ∈ pairs.map Prod.fst := by
  induction pairs using List.reverseRecOn with
  | nil => simp [ofPairs]
  | append_singleton pairs pair ih =>
    rw [ofPairs_append]
    by_cases hk : k = pair.1
    · simp [hk, lookup_assign_self]
    · rw [lookup_assign_ne _ _ _ _ hk, ih]
      simp [hk]

theorem lookup_ofPairs_of_nodup (h : (pairs.map Prod.fst).Nodup) (k : τ)
    (v : ν) : (ofPairs pairs).lookup k = some v ↔ (k, v) ∈ pairs := by
  constructor
  · exact mem_of_lookup_ofPairs pairs k v
  · intro hmem
    have hsome := (lookup_ofPairs_isSome pairs k).mpr (List.mem_map_of_mem hmem)
    obtain ⟨found, hfound⟩ := Option.isSome_iff_exists.mp hsome
    have hother := mem_of_lookup_ofPairs pairs k found hfound
    rw [mem_iff_lookup _ h] at hmem hother
    rw [hfound, ← hother, hmem]

end Dict

section Shadow

variable {ρ κ τ : Type*} [DecidableEq κ] [DecidableEq τ]
variable (context : ρ → Option κ) (target : ρ → τ)

def ruleFor (rows : List ρ) (c : Option κ) (k : τ) : Option ρ :=
  rows.find? (fun r => context r = c ∧ target r = k)

-- Rules for a target, some for one context only. The rule for the given
-- context governs; without one, the rule for every context does.
def governing (rows : List ρ) (c : Option κ) (k : τ) : Option ρ :=
  (c.bind fun here => ruleFor context target rows (some here) k).or
    (ruleFor context target rows none k)

-- The same resolution computed for every target in one pass over the rules.
def shadow (rows : List ρ) : List (τ × ρ) :=
  rows.foldl (fun dict row =>
    if (context row).isSome || (dict.lookup (target row)).isNone then
      assign dict (target row) row
    else dict) []

def OneRule (rows : List ρ) : Prop :=
  rows.Pairwise fun r s => ¬(context r = context s ∧ target r = target s)

theorem ruleFor_some (rows : List ρ) (c : Option κ) (k : τ) (row : ρ)
    (h : ruleFor context target rows c k = some row) :
    row ∈ rows ∧ context row = c ∧ target row = k :=
  ⟨List.mem_of_find?_eq_some h, by simpa using List.find?_some h⟩

theorem ruleFor_append (rows : List ρ) (row : ρ) (c : Option κ) (k : τ) :
    ruleFor context target (rows ++ [row]) c k = (ruleFor context target rows c k).or
        (if context row = c ∧ target row = k then some row else none) := by
  rw [ruleFor, ruleFor, List.find?_append]
  by_cases h : context row = c ∧ target row = k <;> simp [h]

theorem governing_some (rows : List ρ) (c : Option κ) (k : τ) (row : ρ)
    (h : governing context target rows c k = some row) :
    row ∈ rows ∧ target row = k ∧ (context row = none ∨ context row = c) := by
  rcases Option.or_eq_some_iff.mp h with h | ⟨_, h⟩
  · obtain ⟨here, rfl, h⟩ := Option.bind_eq_some_iff.mp h
    obtain ⟨hm, hc, hk⟩ := ruleFor_some context target rows _ k row h
    exact ⟨hm, hk, .inr hc⟩
  · obtain ⟨hm, hc, hk⟩ := ruleFor_some context target rows _ k row h
    exact ⟨hm, hk, .inl hc⟩

omit [DecidableEq κ] in
theorem shadow_append (rows : List ρ) (row : ρ) : shadow context target (rows ++ [row]) =
      if (context row).isSome || ((shadow context target rows).lookup (target row)).isNone then
        assign (shadow context target rows) (target row) row
      else shadow context target rows := by
  simp only [shadow, List.foldl_append, List.foldl_cons, List.foldl_nil]
  rfl

omit [DecidableEq κ] in
theorem shadow_keys_nodup (rows : List ρ) : ((shadow context target rows).map Prod.fst).Nodup := by
  induction rows using List.reverseRecOn with
  | nil => exact List.nodup_nil
  | append_singleton rows row ih =>
    rw [shadow_append]
    split_ifs
    · exact nodup_keys_assign _ _ _ ih
    · exact ih

theorem lookup_shadow (rows : List ρ) (c : Option κ) (hone : OneRule context target rows)
    (hctx : ∀ r ∈ rows, context r = none ∨ context r = c) (k : τ) :
    (shadow context target rows).lookup k = governing context target rows c k := by
  induction rows using List.reverseRecOn with
  | nil => cases c <;> rfl
  | append_singleton rows row ih =>
    obtain ⟨hrows, -, hnew⟩ := List.pairwise_append.mp hone
    have hi := ih hrows (fun r hr => hctx r (by simp [hr]))
    have hrow := hctx row (by simp)
    have hfresh : ruleFor context target rows (context row) (target row) = none := by
      rw [ruleFor, List.find?_eq_none]
      intro r hr
      simpa using hnew r hr row (by simp)
    by_cases hk : target row = k
    · subst hk
      rw [shadow_append, hi]
      cases hc : context row with
      | none =>
        -- a rule for every context never displaces one already found
        rw [hc] at hfresh
        have hg : governing context target rows c (target row) =
            c.bind fun here => ruleFor context target rows (some here) (target row) := by
          rw [governing, hfresh, Option.or_none]
        have hg' : governing context target (rows ++ [row]) c (target row) =
            (governing context target rows c (target row)).or (some row) := by
          rw [hg, governing]
          simp [ruleFor_append, hc, hfresh]
        rw [hg']
        cases hx : governing context target rows c (target row) with
        | none => simp [lookup_assign_self]
        | some found => simp [hi, hx]
      | some here =>
        -- a rule for this context always does
        rw [hc] at hfresh hrow
        obtain rfl := hrow.resolve_left (by simp)
        simp [governing, ruleFor_append, hc, hfresh, lookup_assign_self]
    · have hstep : (shadow context target (rows ++ [row])).lookup k =
          (shadow context target rows).lookup k := by
        rw [shadow_append]
        split_ifs
        · exact lookup_assign_ne _ _ _ _ (Ne.symm hk)
        · rfl
      rw [hstep, hi]
      simp [governing, ruleFor_append, hk]

end Shadow

section KeySort

variable {τ ν ω : Type*} [LinearOrder ω] (rank : τ → ω)

-- A dictionary whose entries are put in the order of their keys' ranks.
def sortKeys (dict : List (τ × ν)) : List (τ × ν) :=
  dict.insertionSort fun a b => rank a.1 ≤ rank b.1

def KeysSorted (dict : List (τ × ν)) : Prop := dict.Pairwise fun a b => rank a.1 ≤ rank b.1

instance keyOrder_total : Std.Total fun a b : τ × ν => rank a.1 ≤ rank b.1 := ⟨fun _ _ => le_total _ _⟩

instance keyOrder_trans : IsTrans (τ × ν) fun a b => rank a.1 ≤ rank b.1 := ⟨fun _ _ _ => le_trans⟩

theorem sortKeys_perm (dict : List (τ × ν)) : (sortKeys rank dict).Perm dict :=
  List.perm_insertionSort _ dict

theorem keysSorted_sortKeys (dict : List (τ × ν)) : KeysSorted rank (sortKeys rank dict) :=
  List.pairwise_insertionSort _ dict

theorem sortKeys_of_keysSorted (dict : List (τ × ν)) (h : KeysSorted rank dict) :
    sortKeys rank dict = dict :=
  List.Pairwise.insertionSort_eq h

theorem sortKeys_sortKeys (dict : List (τ × ν)) :
    sortKeys rank (sortKeys rank dict) = sortKeys rank dict :=
  sortKeys_of_keysSorted rank _ (keysSorted_sortKeys rank dict)

theorem mem_sortKeys (dict : List (τ × ν)) (entry : τ × ν) :
    entry ∈ sortKeys rank dict ↔ entry ∈ dict :=
  (sortKeys_perm rank dict).mem_iff

theorem KeysSorted.filter {dict : List (τ × ν)} (h : KeysSorted rank dict) (p : τ × ν → Bool) :
    KeysSorted rank (dict.filter p) :=
  List.Pairwise.filter p h

theorem nodup_keys_sortKeys (dict : List (τ × ν)) :
    ((sortKeys rank dict).map Prod.fst).Nodup ↔ (dict.map Prod.fst).Nodup :=
  ((sortKeys_perm rank dict).map Prod.fst).nodup_iff

variable [DecidableEq τ]

theorem lookup_sortKeys (dict : List (τ × ν)) (h : (dict.map Prod.fst).Nodup) (k : τ) :
    (sortKeys rank dict).lookup k = dict.lookup k := by
  apply Option.ext
  intro v
  have hsorted := (nodup_keys_sortKeys rank dict).mpr h
  rw [← mem_iff_lookup _ hsorted, ← mem_iff_lookup _ h, mem_sortKeys]

end KeySort

end AiHiring.Library
