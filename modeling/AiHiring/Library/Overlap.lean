import Mathlib

namespace AiHiring.Library

-- Half-open stretches of a line, of which several may cover one place.
section Overlap

variable {intervals : List (ℤ × ℤ)} {first last : ℤ} {most : ℕ}

def covers (x : ℤ) (interval : ℤ × ℤ) : Bool := interval.1 ≤ x && x < interval.2

def depth (intervals : List (ℤ × ℤ)) (x : ℤ) : ℕ := intervals.countP (covers x)

def extent (interval : ℤ × ℤ) : ℕ := (interval.2 - interval.1).toNat

theorem sum_covers (interval : ℤ × ℤ) (hfirst : first ≤ interval.1) (hlast : interval.2 ≤ last) :
    ((Finset.Ico first last).sum fun x => if covers x interval then 1 else 0) =
      extent interval := by
  have hfilter : (Finset.Ico first last).filter (fun x => covers x interval = true) =
      Finset.Ico interval.1 interval.2 := by
    ext x
    simp only [covers, Finset.mem_filter, Finset.mem_Ico, Bool.and_eq_true, decide_eq_true_eq]
    omega
  rw [← Finset.sum_filter, hfilter, Finset.sum_const, Int.card_Ico, smul_eq_mul, Nat.mul_one,
    extent]

theorem sum_depth (hwithin : ∀ interval ∈ intervals, first ≤ interval.1 ∧ interval.2 ≤ last) :
    (Finset.Ico first last).sum (depth intervals) = (intervals.map extent).sum := by
  induction intervals with
  | nil => simp [depth]
  | cons interval rest ih =>
    rw [List.forall_mem_cons] at hwithin
    have hdepth (x : ℤ) : depth (interval :: rest) x =
        depth rest x + if covers x interval then 1 else 0 := List.countP_cons
    simp only [hdepth, Finset.sum_add_distrib, List.map_cons, List.sum_cons]
    rw [ih hwithin.2, sum_covers interval hwithin.1.1 hwithin.1.2, Nat.add_comm]

theorem sum_lengths_le (hwithin : ∀ interval ∈ intervals, first ≤ interval.1 ∧ interval.2 ≤ last)
    (hdepth : ∀ x, depth intervals x ≤ most) :
    (intervals.map extent).sum ≤ most * (last - first).toNat := by
  rw [← sum_depth hwithin]
  have hall := Finset.sum_le_card_nsmul (Finset.Ico first last) (depth intervals) most
    fun x _ => hdepth x
  rwa [Int.card_Ico, smul_eq_mul, Nat.mul_comm] at hall

-- Where several stretches overlap they do so at the start of the last of them.
theorem exists_latest {α : Type*} (start : α → ℤ) {xs : List α} (hne : xs ≠ []) :
    ∃ x ∈ xs, ∀ y ∈ xs, start y ≤ start x := by
  induction xs with
  | nil => exact absurd rfl hne
  | cons x rest ih =>
    by_cases hrest : rest = []
    · refine ⟨x, List.mem_cons_self, ?_⟩
      intro y hy
      rw [hrest, List.mem_singleton] at hy
      rw [hy]
    · obtain ⟨latest, hlatest, hmost⟩ := ih hrest
      by_cases hle : start x ≤ start latest
      · exact ⟨latest, List.mem_cons_of_mem x hlatest, List.forall_mem_cons.mpr ⟨hle, hmost⟩⟩
      · refine ⟨x, List.mem_cons_self, List.forall_mem_cons.mpr ⟨le_refl _, ?_⟩⟩
        intro y hy
        have := hmost y hy
        omega

end Overlap

end AiHiring.Library
