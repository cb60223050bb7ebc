import Mathlib.Tactic.Common

namespace AiHiring.Library

-- Activities that run side by side. A step replaces one of them by what it has
-- still to do and may start others at the end.
section Crew

variable {α κ : Type*} {crew : List α} {i : ℕ} {a a' x : α}

theorem mem_of_mem_set (hx : x ∈ crew.set i a') : x = a' ∨ x ∈ crew :=
  (List.mem_or_eq_of_mem_set hx).symm

theorem forall_mem_set {P : α → Prop} (h : ∀ x ∈ crew, P x) (ha' : P a') :
    ∀ x ∈ crew.set i a', P x := by
  intro x hx
  obtain rfl | hold := mem_of_mem_set hx
  · exact ha'
  · exact h x hold

theorem forall_mem_hire {P : α → Prop} (h : ∀ x ∈ crew, P x) (ha : P a) :
    ∀ x ∈ crew ++ [a], P x := by
  intro x hx
  obtain hold | hlast := List.mem_append.mp hx
  · exact h x hold
  · rw [List.mem_singleton.mp hlast]
    exact ha

theorem mem_set_other (hx : x ∈ crew.set i a') : x = a' ∨ ∃ j, i ≠ j ∧ crew[j]? = some x := by
  obtain ⟨j, hj⟩ := List.mem_iff_getElem?.mp hx
  by_cases hij : i = j
  · subst hij
    have hlt : i < crew.length := by
      obtain ⟨hlt, -⟩ := List.getElem?_eq_some_iff.mp hj
      simpa using hlt
    rw [List.getElem?_set_self hlt] at hj
    exact .inl (Option.some.inj hj).symm
  · rw [List.getElem?_set_ne hij] at hj
    exact .inr ⟨j, hij, hj⟩

theorem mem_set_self (hi : crew[i]? = some a) : a' ∈ crew.set i a' := by
  obtain ⟨hlt, -⟩ := List.getElem?_eq_some_iff.mp hi
  exact List.mem_set hlt a'

-- Somebody is still in charge when one activity moves on, unless it was the
-- one in charge and no longer is.
theorem exists_mem_set {P : α → Prop} (hi : crew[i]? = some a) (h : ∃ x ∈ crew, P x)
    (hstep : P a → P a') : ∃ x ∈ crew.set i a', P x := by
  obtain ⟨x, hx, hP⟩ := h
  obtain ⟨j, hj⟩ := List.mem_iff_getElem?.mp hx
  by_cases hij : i = j
  · subst hij
    obtain rfl : a = x := Option.some.inj (hi.symm.trans hj)
    exact ⟨a', mem_set_self hi, hstep hP⟩
  · have hset : (crew.set i a')[j]? = some x := by rw [List.getElem?_set_ne hij, hj]
    exact ⟨x, List.mem_of_getElem? hset, hP⟩

-- No two activities own the same thing.
def SoleOwner (owner : α → Option κ) (crew : List α) : Prop :=
  ∀ (i j : ℕ) (a b : α) (k : κ), crew[i]? = some a → crew[j]? = some b →
    owner a = some k → owner b = some k → i = j

variable {owner : α → Option κ}

theorem soleOwner_nil : SoleOwner owner ([] : List α) := by
  intro i j a b k hi
  simp at hi

theorem SoleOwner.set (h : SoleOwner owner crew) (hi : crew[i]? = some a)
    (howner : ∀ k, owner a' = some k → owner a = some k ∨ ∀ x ∈ crew, owner x ≠ some k) :
    SoleOwner owner (crew.set i a') := by
  -- what the new activity owns, no other one does
  have hnew (j : ℕ) (b : α) (k : κ) (hij : i ≠ j) (hj : crew[j]? = some b)
      (ha' : owner a' = some k) (hb : owner b = some k) : False := by
    rcases howner k ha' with ha | hnone
    · exact hij (h i j a b k hi hj ha hb)
    · exact hnone b (List.mem_of_getElem? hj) hb
  intro j l b c k hj hl hb hc
  obtain ⟨hlt, -⟩ := List.getElem?_eq_some_iff.mp hi
  by_cases hij : i = j
  · by_cases hil : i = l
    · omega
    · subst hij
      rw [List.getElem?_set_self hlt] at hj
      rw [List.getElem?_set_ne hil] at hl
      cases hj
      exact (hnew l c k hil hl hb hc).elim
  · rw [List.getElem?_set_ne hij] at hj
    by_cases hil : i = l
    · subst hil
      rw [List.getElem?_set_self hlt] at hl
      cases hl
      exact (hnew j b k hij hj hc hb).elim
    · rw [List.getElem?_set_ne hil] at hl
      exact h j l b c k hj hl hb hc

theorem SoleOwner.hire (h : SoleOwner owner crew)
    (hnone : ∀ k, owner a = some k → ∀ x ∈ crew, owner x ≠ some k) :
    SoleOwner owner (crew ++ [a]) := by
  intro j l b c k hj hl hb hc
  rw [List.getElem?_append] at hj hl
  have hlast (n : ℕ) (x : α) (hn : ¬n < crew.length) (hx : [a][n - crew.length]? = some x) :
      x = a ∧ n = crew.length := by
    obtain ⟨hlt, hget⟩ := List.getElem?_eq_some_iff.mp hx
    have hlength : n - crew.length < 1 := hlt
    have hzero : n - crew.length = 0 := by omega
    exact ⟨by simpa [hzero] using hget.symm, by omega⟩
  by_cases hjlt : j < crew.length
  · rw [if_pos hjlt] at hj
    by_cases hllt : l < crew.length
    · rw [if_pos hllt] at hl
      exact h j l b c k hj hl hb hc
    · rw [if_neg hllt] at hl
      obtain ⟨rfl, -⟩ := hlast l c hllt hl
      exact absurd hb (hnone k hc b (List.mem_of_getElem? hj))
  · rw [if_neg hjlt] at hj
    obtain ⟨rfl, hjlen⟩ := hlast j b hjlt hj
    by_cases hllt : l < crew.length
    · rw [if_pos hllt] at hl
      exact absurd hc (hnone k hb c (List.mem_of_getElem? hl))
    · rw [if_neg hllt] at hl
      obtain ⟨-, hllen⟩ := hlast l c hllt hl
      omega

theorem SoleOwner.released (h : SoleOwner owner crew) (hi : crew[i]? = some a) {k : κ}
    (ha : owner a = some k) (ha' : owner a' ≠ some k) :
    ∀ x ∈ crew.set i a', owner x ≠ some k := by
  intro x hx hk
  obtain ⟨j, hj⟩ := List.mem_iff_getElem?.mp hx
  by_cases hij : i = j
  · subst hij
    obtain ⟨hlt, -⟩ := List.getElem?_eq_some_iff.mp hi
    rw [List.getElem?_set_self hlt] at hj
    cases hj
    exact ha' hk
  · rw [List.getElem?_set_ne hij] at hj
    exact hij (h i j a x k hi hj ha hk)

theorem SoleOwner.tail (h : SoleOwner owner (a :: crew)) : SoleOwner owner crew := by
  intro i j b c k hi hj hb hc
  have hsucc := h (i + 1) (j + 1) b c k hi hj hb hc
  omega

theorem SoleOwner.countP_le_one [DecidableEq κ] (h : SoleOwner owner crew) (k : κ) :
    (crew.countP fun x => owner x = some k) ≤ 1 := by
  induction crew with
  | nil => exact Nat.zero_le 1
  | cons first rest ih =>
    have hrest := ih h.tail
    by_cases hfirst : owner first = some k
    · have hnone : (rest.countP fun x => owner x = some k) = 0 := by
        rw [List.countP_eq_zero]
        intro x hx hk
        obtain ⟨j, hj⟩ := List.mem_iff_getElem?.mp hx
        have hsame := h 0 (j + 1) first x k rfl hj hfirst (of_decide_eq_true hk)
        omega
      rw [List.countP_cons, hnone]
      split_ifs <;> omega
    · rw [List.countP_cons, if_neg (by simpa using hfirst)]
      exact hrest

-- Any two of the activities stand in a relation.
def AllApart (apart : α → α → Prop) (crew : List α) : Prop :=
  ∀ (i j : ℕ) (a b : α), i ≠ j → crew[i]? = some a → crew[j]? = some b → apart a b

variable {apart : α → α → Prop}

theorem allApart_nil : AllApart apart ([] : List α) := by
  intro i j a b _ hi
  simp at hi

theorem AllApart.set (h : AllApart apart crew) (hsymm : ∀ a b, apart a b → apart b a)
    (hnew : ∀ j b, i ≠ j → crew[j]? = some b → apart a' b) : AllApart apart (crew.set i a') := by
  intro j l b c hjl hj hl
  have hmoved (n : ℕ) (x : α) (hn : (crew.set i a')[n]? = some x) :
      (i = n ∧ x = a') ∨ (i ≠ n ∧ crew[n]? = some x) := by
    by_cases hin : i = n
    · subst hin
      have hlt : i < crew.length := by
        obtain ⟨hlt, -⟩ := List.getElem?_eq_some_iff.mp hn
        simpa using hlt
      rw [List.getElem?_set_self hlt] at hn
      exact .inl ⟨rfl, (Option.some.inj hn).symm⟩
    · rw [List.getElem?_set_ne hin] at hn
      exact .inr ⟨hin, hn⟩
  obtain ⟨hij, rfl⟩ | ⟨hij, hjold⟩ := hmoved j b hj
  · obtain ⟨hil, -⟩ | ⟨hil, hlold⟩ := hmoved l c hl
    · omega
    · exact hnew l c hil hlold
  · obtain ⟨hil, rfl⟩ | ⟨-, hlold⟩ := hmoved l c hl
    · exact hsymm _ _ (hnew j b hij hjold)
    · exact h j l b c hjl hjold hlold

theorem AllApart.hire (h : AllApart apart crew) (hsymm : ∀ a b, apart a b → apart b a)
    (hnew : ∀ b ∈ crew, apart a b) : AllApart apart (crew ++ [a]) := by
  intro j l b c hjl hj hl
  have hplace (n : ℕ) (x : α) (hn : (crew ++ [a])[n]? = some x) :
      crew[n]? = some x ∨ (n = crew.length ∧ x = a) := by
    rw [List.getElem?_append] at hn
    by_cases hlt : n < crew.length
    · rw [if_pos hlt] at hn
      exact .inl hn
    · rw [if_neg hlt] at hn
      obtain ⟨hzero, hget⟩ := List.getElem?_eq_some_iff.mp hn
      have hlength : n - crew.length < 1 := hzero
      have hsub : n - crew.length = 0 := by omega
      exact .inr ⟨by omega, by simpa [hsub] using hget.symm⟩
  obtain hjold | ⟨hjlast, rfl⟩ := hplace j b hj
  · obtain hlold | ⟨-, rfl⟩ := hplace l c hl
    · exact h j l b c hjl hjold hlold
    · exact hsymm _ _ (hnew b (List.mem_of_getElem? hjold))
  · obtain hlold | ⟨hllast, -⟩ := hplace l c hl
    · exact hnew c (List.mem_of_getElem? hlold)
    · omega

end Crew

end AiHiring.Library
