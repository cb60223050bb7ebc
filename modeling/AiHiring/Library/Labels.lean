import Mathlib.Data.List.Basic

namespace AiHiring.Library

-- Rows under keys that carry labels. The labels are clear when no two keys share one.
section Labels

variable {ρ κ τ : Type*} {key : ρ → κ} {labels : ρ → List τ} {rows rows' : List ρ} {row : ρ}

def ClearLabels (key : ρ → κ) (labels : ρ → List τ) (rows : List ρ) : Prop :=
  ∀ r ∈ rows, ∀ s ∈ rows, key r ≠ key s → List.Disjoint (labels r) (labels s)

theorem clearLabels_nil : ClearLabels key labels [] := by
  intro r hr
  cases hr

theorem ClearLabels.subset (h : ClearLabels key labels rows) (hsub : rows' ⊆ rows) :
    ClearLabels key labels rows' := by
  intro r hr s hs hne
  exact h r (hsub hr) s (hsub hs) hne

-- One row has been written, whether or not its key was there before.
structure WrittenRow (key : ρ → κ) (rows rows' : List ρ) (row : ρ) : Prop where
  stored : row ∈ rows'
  only : ∀ r ∈ rows', r = row ∨ r ∈ rows ∧ key r ≠ key row
  kept : ∀ r ∈ rows, key r ≠ key row → r ∈ rows'

theorem WrittenRow.clearLabels_iff (h : WrittenRow key rows rows' row)
    (hclear : ClearLabels key labels rows) :
    ClearLabels key labels rows' ↔
      ∀ r ∈ rows, key r ≠ key row → List.Disjoint (labels r) (labels row) := by
  constructor
  · intro hclear' r hr hne
    exact hclear' r (h.kept r hr hne) row h.stored hne
  · intro hfree r hr s hs hne
    obtain rfl | ⟨hrold, hrne⟩ := h.only r hr
    · obtain rfl | ⟨hsold, hsne⟩ := h.only s hs
      · exact absurd rfl hne
      · exact List.disjoint_symm (hfree s hsold hsne)
    · obtain rfl | ⟨hsold, -⟩ := h.only s hs
      · exact hfree r hrold hrne
      · exact hclear r hrold s hsold hne

theorem find?_perm (p : ρ → Bool) (hperm : rows.Perm rows')
    (hone : ∀ r ∈ rows, ∀ s ∈ rows, p r = true → p s = true → r = s) :
    rows.find? p = rows'.find? p := by
  cases hfound : rows.find? p with
  | none =>
    rw [List.find?_eq_none] at hfound
    symm
    rw [List.find?_eq_none]
    intro r hr
    exact hfound r (hperm.mem_iff.mpr hr)
  | some r =>
    have hr := List.mem_of_find?_eq_some hfound
    have hp : p r = true := List.find?_some hfound
    cases hfound' : rows'.find? p with
    | none =>
      rw [List.find?_eq_none] at hfound'
      exact absurd hp (hfound' r (hperm.mem_iff.mp hr))
    | some s =>
      have hs := hperm.mem_iff.mpr (List.mem_of_find?_eq_some hfound')
      rw [hone r hr s hs hp (List.find?_some hfound')]

theorem ClearLabels.find?_perm (h : ClearLabels key labels rows)
    (hkey : ∀ r ∈ rows, ∀ s ∈ rows, key r = key s → r = s) (hperm : rows.Perm rows')
    (label : τ) (p : ρ → Bool) (hp : ∀ r ∈ rows, p r = true → label ∈ labels r) :
    rows.find? p = rows'.find? p := by
  refine Library.find?_perm p hperm fun r hr s hs hpr hps => ?_
  by_cases hsame : key r = key s
  · exact hkey r hr s hs hsame
  · exact (h r hr s hs hsame (hp r hr hpr) (hp s hs hps)).elim

end Labels

end AiHiring.Library
