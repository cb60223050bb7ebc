import Mathlib.Tactic.Common

namespace AiHiring.Library

-- Searches by two tests, of which the first one should have the say.
section Tiers

variable {α : Type*} (first second : α → Bool)

-- One pass that stops at whatever meets either test.
def scanBoth : List α → Option α
  | [] => none
  | x :: rest => if first x then some x else if second x then some x else scanBoth rest

-- Nothing that meets the second test only stands before what meets the first.
def FirstAhead (xs : List α) : Prop :=
  (∃ x ∈ xs, first x = true) → ∀ y ∈ xs.takeWhile fun x => !first x, second y = false

instance (xs : List α) : Decidable (FirstAhead first second xs) :=
  inferInstanceAs (Decidable ((∃ x ∈ xs, first x = true) → _))

variable {first second} {xs : List α} {x : α}

theorem scanBoth_eq_none : scanBoth first second xs = none ↔
    ∀ x ∈ xs, first x = false ∧ second x = false := by
  induction xs with
  | nil => simp [scanBoth]
  | cons y rest ih =>
    rw [List.forall_mem_cons, ← ih, scanBoth]
    by_cases hfirst : first y = true
    · simp [hfirst]
    · by_cases hsecond : second y = true
      · simp [hfirst, hsecond]
      · simp [hfirst, hsecond]

theorem scanBoth_eq_some (h : scanBoth first second xs = some x) :
    x ∈ xs ∧ (first x = true ∨ second x = true) := by
  induction xs with
  | nil => simp [scanBoth] at h
  | cons y rest ih =>
    rw [scanBoth] at h
    split at h
    · rename_i hfirst
      cases h
      exact ⟨List.mem_cons_self, .inl hfirst⟩
    · split at h
      · rename_i hsecond
        cases h
        exact ⟨List.mem_cons_self, .inr hsecond⟩
      · obtain ⟨hmem, hmeets⟩ := ih h
        exact ⟨List.mem_cons_of_mem y hmem, hmeets⟩

-- The pass finds what the first test alone would ask for exactly when nothing
-- else is ahead of it.
theorem scanBoth_first_iff (hsome : ∃ y ∈ xs, first y = true)
    (h : scanBoth first second xs = some x) :
    first x = true ↔ FirstAhead first second xs := by
  induction xs with
  | nil =>
    obtain ⟨y, hy, -⟩ := hsome
    simp at hy
  | cons y rest ih =>
    rw [scanBoth] at h
    by_cases hfirst : first y = true
    · rw [if_pos hfirst] at h
      obtain rfl := Option.some.inj h
      refine iff_of_true hfirst fun _ z hz => ?_
      rw [List.takeWhile_cons_of_neg (by simp [hfirst])] at hz
      simp at hz
    · rw [if_neg hfirst] at h
      have htake : (y :: rest).takeWhile (fun x => !first x) =
          y :: rest.takeWhile fun x => !first x :=
        List.takeWhile_cons_of_pos (by simp [hfirst])
      by_cases hsecond : second y = true
      · rw [if_pos hsecond] at h
        obtain rfl := Option.some.inj h
        refine iff_of_false hfirst fun hahead => ?_
        have hno := hahead hsome y (htake ▸ List.mem_cons_self)
        simp [hno] at hsecond
      · rw [if_neg hsecond] at h
        have hrest : ∃ z ∈ rest, first z = true := by
          obtain ⟨z, hz, hmeets⟩ := hsome
          rcases List.mem_cons.mp hz with rfl | hz
          · exact absurd hmeets hfirst
          · exact ⟨z, hz, hmeets⟩
        rw [ih hrest h, FirstAhead, FirstAhead, htake]
        simp only [List.forall_mem_cons, Bool.not_eq_true] at hsecond ⊢
        constructor
        · intro hahead _
          exact ⟨hsecond, hahead hrest⟩
        · intro hahead _
          exact (hahead hsome).2

end Tiers

end AiHiring.Library
