import Mathlib.Algebra.Order.BigOperators.Group.List
import Mathlib.Tactic.Linarith

namespace AiHiring.Library

section Blend

variable {K : Type*} [Field K] [LinearOrder K]

def totalWeight (components : List (K × K)) : K := (components.map Prod.snd).sum

def weightedSum (components : List (K × K)) : K := (components.map fun c => c.1 * c.2).sum

-- The mean of scores by their weights, rounded; a fallback where nothing weighs anything.
def blend (round : K → K) (components : List (K × K)) (fallback : K) : K :=
  if 0 < totalWeight components then round (weightedSum components / totalWeight components)
  else fallback

-- Each component weighs what it did and scores no less.
def ScoresRaised (old new : List (K × K)) : Prop :=
  List.Forall₂ (fun c d => c.1 ≤ d.1 ∧ c.2 = d.2 ∧ 0 ≤ c.2) old new

variable {round : K → K} {old new components : List (K × K)} {fallback top weight : K}

theorem ScoresRaised.refl (h : ∀ c ∈ components, 0 ≤ c.2) : ScoresRaised components components := by
  rw [ScoresRaised, List.forall₂_same]
  exact fun c hc => ⟨le_refl _, rfl, h c hc⟩

theorem ScoresRaised.append {old' new' : List (K × K)} (h : ScoresRaised old new)
    (h' : ScoresRaised old' new') :
    ScoresRaised (old ++ old') (new ++ new') :=
  List.rel_append h h'

variable [IsStrictOrderedRing K]

theorem ScoresRaised.totalWeight (h : ScoresRaised old new) :
    totalWeight new = totalWeight old := by
  induction h with
  | nil => rfl
  | cons hc _ ih => simpa [Library.totalWeight, hc.2.1] using ih

theorem ScoresRaised.weightedSum (h : ScoresRaised old new) :
    weightedSum old ≤ weightedSum new := by
  apply List.Forall₂.sum_le_sum
  rw [List.forall₂_map_left_iff, List.forall₂_map_right_iff]
  refine List.Forall₂.imp (fun c d hcd => ?_) h
  obtain ⟨hscore, hweight, hnonneg⟩ := hcd
  rw [← hweight]
  exact mul_le_mul_of_nonneg_right hscore hnonneg

theorem blend_raised (hround : Monotone round) (h : ScoresRaised old new) :
    blend round old fallback ≤ blend round new fallback := by
  unfold blend
  rw [h.totalWeight]
  by_cases hpos : 0 < totalWeight old
  · rw [if_pos hpos, if_pos hpos]
    exact hround (div_le_div_of_nonneg_right h.weightedSum hpos.le)
  · rw [if_neg hpos, if_neg hpos]

theorem totalWeight_nonneg (h : ∀ c ∈ components, 0 ≤ c.2) : 0 ≤ totalWeight components := by
  apply List.sum_nonneg
  intro weight hweight
  obtain ⟨c, hc, rfl⟩ := List.mem_map.mp hweight
  exact h c hc

theorem weightedSum_le (h : ∀ c ∈ components, c.1 ≤ top ∧ 0 ≤ c.2) :
    weightedSum components ≤ top * totalWeight components := by
  induction components with
  | nil => simp [weightedSum, totalWeight]
  | cons c rest ih =>
    have hrest := ih fun d hd => h d (List.mem_cons_of_mem c hd)
    obtain ⟨hscore, hnonneg⟩ := h c List.mem_cons_self
    have hfirst := mul_le_mul_of_nonneg_right hscore hnonneg
    simp only [weightedSum, totalWeight, List.map_cons, List.sum_cons, mul_add] at hrest ⊢
    linarith

theorem weightedSum_of_weightless (h : ∀ c ∈ components, 0 ≤ c.2)
    (hzero : totalWeight components = 0) : weightedSum components = 0 := by
  induction components with
  | nil => rfl
  | cons c rest ih =>
    have hc := h c List.mem_cons_self
    have hrest := fun d hd => h d (List.mem_cons_of_mem c hd)
    have hnonneg := totalWeight_nonneg hrest
    simp only [weightedSum, totalWeight, List.map_cons, List.sum_cons] at hzero hnonneg ih ⊢
    have hweight : c.2 = 0 := by linarith
    rw [hweight, mul_zero, zero_add]
    exact ih hrest (by linarith)

theorem blend_top (hround : Monotone round) (htop : round top = top)
    (h : ∀ c ∈ components, c.1 ≤ top ∧ 0 ≤ c.2) (hfallback : fallback ≤ top)
    (hweight : 0 ≤ weight) :
    blend round components fallback ≤ blend round (components ++ [(top, weight)]) fallback := by
  have hsum : weightedSum (components ++ [(top, weight)]) =
      weightedSum components + top * weight := by
    simp [weightedSum]
  have htotal : totalWeight (components ++ [(top, weight)]) = totalWeight components + weight := by
    simp [totalWeight]
  have hnonneg := totalWeight_nonneg fun c hc => (h c hc).2
  have hle := weightedSum_le h
  unfold blend
  rw [hsum, htotal]
  by_cases hpos : 0 < totalWeight components
  · rw [if_pos hpos, if_pos (add_pos_of_pos_of_nonneg hpos hweight)]
    apply hround
    rw [div_le_div_iff₀ hpos (add_pos_of_pos_of_nonneg hpos hweight)]
    have hscaled := mul_le_mul_of_nonneg_right hle hweight
    linarith
  · rw [if_neg hpos]
    have hzero : totalWeight components = 0 := le_antisymm (not_lt.mp hpos) hnonneg
    by_cases hadded : 0 < weight
    · -- nothing else weighs anything, so neither does it add anything
      have hsumZero := weightedSum_of_weightless (fun c hc => (h c hc).2) hzero
      rw [hzero, hsumZero, zero_add, zero_add, if_pos hadded,
        mul_div_cancel_right₀ _ hadded.ne', htop]
      exact hfallback
    · rw [hzero, zero_add, if_neg hadded]

end Blend

end AiHiring.Library
