import Mathlib.Data.Rat.Floor

namespace AiHiring.Library

-- Rounding to a number of decimals: monotone, with values of that many decimals,
-- which it leaves as they are.
structure Rounding where
  round : ℕ → ℚ → ℚ
  mono (n : ℕ) : Monotone (round n)
  decimal (n : ℕ) (q : ℚ) : ∃ m : ℤ, round n q = m / 10 ^ n
  fixes (n : ℕ) (m : ℤ) : round n (m / 10 ^ n) = m / 10 ^ n

namespace Rounding

variable (r : Rounding) (n : ℕ) {p q : ℚ}

theorem round_round (q : ℚ) : r.round n (r.round n q) = r.round n q := by
  obtain ⟨m, hm⟩ := r.decimal n q
  rw [hm, r.fixes]

theorem round_int (k : ℤ) : r.round n k = k := by
  have hpow : (10 : ℚ) ^ n ≠ 0 := by positivity
  have hk : ((k * 10 ^ n : ℤ) : ℚ) / 10 ^ n = k := by
    push_cast
    exact mul_div_cancel_right₀ (k : ℚ) hpow
  rw [← hk, r.fixes]

theorem round_nonneg (h : 0 ≤ q) : 0 ≤ r.round n q := by
  have h0 : r.round n (0 : ℤ) = (0 : ℤ) := r.round_int n 0
  rw [Int.cast_zero] at h0
  exact h0 ▸ r.mono n h

theorem round_le_int {k : ℤ} (h : q ≤ k) : r.round n q ≤ k :=
  r.round_int n k ▸ r.mono n h

theorem round_le_round (h : p ≤ r.round n q) : r.round n p ≤ r.round n q :=
  r.round_round n q ▸ r.mono n h

-- Ties go away from zero.
def awayFromZero (n : ℕ) (q : ℚ) : ℚ :=
  if 0 ≤ q then (⌊q * 10 ^ n + 1 / 2⌋ : ℚ) / 10 ^ n else (⌈q * 10 ^ n - 1 / 2⌉ : ℚ) / 10 ^ n

theorem awayFromZero_mono (n : ℕ) : Monotone (awayFromZero n) := by
  intro p q hpq
  have hpow : (0 : ℚ) < 10 ^ n := by positivity
  have hscaled : p * 10 ^ n ≤ q * 10 ^ n := mul_le_mul_of_nonneg_right hpq hpow.le
  unfold awayFromZero
  by_cases hp : 0 ≤ p
  · rw [if_pos hp, if_pos (hp.trans hpq)]
    have hfloor : ⌊p * 10 ^ n + 1 / 2⌋ ≤ ⌊q * 10 ^ n + 1 / 2⌋ := Int.floor_mono (by linarith)
    exact div_le_div_of_nonneg_right (by exact_mod_cast hfloor) hpow.le
  · rw [if_neg hp]
    by_cases hq : 0 ≤ q
    · -- the one is at most zero, the other at least
      rw [if_pos hq]
      have hceil : ⌈p * 10 ^ n - 1 / 2⌉ ≤ 0 := by
        rw [Int.ceil_le, Int.cast_zero]
        have hneg : p * 10 ^ n ≤ 0 := mul_nonpos_of_nonpos_of_nonneg (not_le.mp hp).le hpow.le
        linarith
      have hfloor : 0 ≤ ⌊q * 10 ^ n + 1 / 2⌋ := Int.floor_nonneg.mpr (by positivity)
      have hle : ⌈p * 10 ^ n - 1 / 2⌉ ≤ ⌊q * 10 ^ n + 1 / 2⌋ := hceil.trans hfloor
      exact div_le_div_of_nonneg_right (by exact_mod_cast hle) hpow.le
    · rw [if_neg hq]
      have hceil : ⌈p * 10 ^ n - 1 / 2⌉ ≤ ⌈q * 10 ^ n - 1 / 2⌉ := Int.ceil_mono (by linarith)
      exact div_le_div_of_nonneg_right (by exact_mod_cast hceil) hpow.le

theorem awayFromZero_fixes (n : ℕ) (m : ℤ) : awayFromZero n (m / 10 ^ n) = m / 10 ^ n := by
  have hpow : (10 : ℚ) ^ n ≠ 0 := by positivity
  have hfloor : ⌊(m : ℚ) + 1 / 2⌋ = m := by
    rw [Int.floor_eq_iff]
    constructor <;> linarith
  have hceil : ⌈(m : ℚ) - 1 / 2⌉ = m := by
    rw [Int.ceil_eq_iff]
    constructor <;> linarith
  unfold awayFromZero
  rw [div_mul_cancel₀ (m : ℚ) hpow, hfloor, hceil]
  split_ifs <;> rfl

theorem awayFromZero_decimal (n : ℕ) (q : ℚ) : ∃ m : ℤ, awayFromZero n q = m / 10 ^ n := by
  unfold awayFromZero
  split_ifs
  · exact ⟨_, rfl⟩
  · exact ⟨_, rfl⟩

def halfUp : Rounding where
  round := awayFromZero
  mono := awayFromZero_mono
  decimal := awayFromZero_decimal
  fixes := awayFromZero_fixes

-- A rounding to the nearest decimal, whatever it does with ties.
def Nearest (r : Rounding) : Prop := ∀ n q, |r.round n q - q| ≤ 1 / 2 / 10 ^ n

theorem halfUp_nearest : Nearest halfUp := by
  intro n q
  have hpow : (0 : ℚ) < 10 ^ n := by positivity
  have hscaled (k : ℤ) (hlow : q * 10 ^ n - 1 / 2 ≤ k) (hhigh : k ≤ q * 10 ^ n + 1 / 2) :
      |(k : ℚ) / 10 ^ n - q| ≤ 1 / 2 / 10 ^ n := by
    have hdistance : (k : ℚ) / 10 ^ n - q = (k - q * 10 ^ n) / 10 ^ n := by field_simp
    rw [hdistance, abs_div, abs_of_pos hpow]
    exact div_le_div_of_nonneg_right (abs_le.mpr ⟨by linarith, by linarith⟩) hpow.le
  change |awayFromZero n q - q| ≤ _
  unfold awayFromZero
  split_ifs
  · have hlt := Int.lt_floor_add_one (q * 10 ^ n + 1 / 2)
    exact hscaled _ (by linarith) (Int.floor_le _)
  · have hlt := Int.ceil_lt_add_one (q * 10 ^ n - 1 / 2)
    exact hscaled _ (Int.le_ceil _) (by linarith)

-- Two of them differ at ties only.
theorem Nearest.eq_or_tie {r r' : Rounding} (h : Nearest r) (h' : Nearest r') (n : ℕ) (q : ℚ) :
    r.round n q = r'.round n q ∨ |r.round n q - q| = |r'.round n q - q| := by
  have hpow : (0 : ℚ) < 10 ^ n := by positivity
  obtain ⟨m, hm⟩ := r.decimal n q
  obtain ⟨m', hm'⟩ := r'.decimal n q
  by_cases hsame : m = m'
  · exact .inl (by rw [hm, hm', hsame])
  · right
    have hapart : (1 : ℚ) ≤ |(m : ℚ) - m'| := by
      exact_mod_cast Int.one_le_abs (sub_ne_zero.mpr hsame)
    have hunit : 1 / 10 ^ n ≤ |r.round n q - r'.round n q| := by
      rw [hm, hm', ← sub_div, abs_div, abs_of_pos hpow]
      exact div_le_div_of_nonneg_right hapart hpow.le
    have htriangle := abs_sub_le (r.round n q) q (r'.round n q)
    rw [abs_sub_comm q] at htriangle
    have hhalves : (1 : ℚ) / 2 / 10 ^ n + 1 / 2 / 10 ^ n = 1 / 10 ^ n := by ring
    have hfirst := h n q
    have hsecond := h' n q
    linarith

end Rounding

end AiHiring.Library
