import Mathlib.Tactic.Positivity

namespace AiHiring.Library

-- Dates with a time of day, and whole months between them.
-- Months are counted through: 12 times the year, plus the month less one.
def isLeapYear (year : ℤ) : Bool := (4 ∣ year ∧ ¬100 ∣ year) ∨ 400 ∣ year

def daysInMonth (month : ℤ) : ℕ :=
  if month % 12 = 1 then (if isLeapYear (month / 12) then 29 else 28)
  else if month % 12 ∈ [3, 5, 8, 10] then 30
  else 31

theorem le_daysInMonth (month : ℤ) : 28 ≤ daysInMonth month := by
  unfold daysInMonth
  split_ifs <;> omega

theorem daysInMonth_le (month : ℤ) : daysInMonth month ≤ 31 := by
  unfold daysInMonth
  split_ifs <;> omega

-- Microseconds.
@[irreducible] def dayLength : ℕ := 24 * 60 * 60 * 1000000

@[ext]
structure DateTime where
  month : ℤ
  (day clock : ℕ)
  day_pos : 1 ≤ day
  day_le : day ≤ daysInMonth month
  clock_lt : clock < dayLength
  deriving DecidableEq

namespace DateTime

def sinceMonth (t : DateTime) : ℕ := t.day * dayLength + t.clock

-- The order of the calendar: by month, then by day, then by time of day.
def key (t : DateTime) : ℤ := t.month * (32 * dayLength : ℕ) + t.sinceMonth

instance : LE DateTime := ⟨fun t u => t.key ≤ u.key⟩

instance : LT DateTime := ⟨fun t u => t.key < u.key⟩

instance (t u : DateTime) : Decidable (t ≤ u) := inferInstanceAs (Decidable (t.key ≤ u.key))

instance (t u : DateTime) : Decidable (t < u) := inferInstanceAs (Decidable (t.key < u.key))

-- The same day of another month, or the last day if the month is too short.
def addMonths (t : DateTime) (months : ℤ) : DateTime where
  month := t.month + months
  day := min t.day (daysInMonth (t.month + months))
  clock := t.clock
  day_pos := by
    have := t.day_pos
    have := le_daysInMonth (t.month + months)
    omega
  day_le := Nat.min_le_right _ _
  clock_lt := t.clock_lt

-- The years and months of the difference: a month is taken back where they
-- overshoot the target, and it is at most one.
def monthsBetween (stop start : DateTime) : ℤ :=
  let months := stop.month - start.month
  if stop < start then
    if start.addMonths months < stop then months + 1 else months
  else
    if stop < start.addMonths months then months - 1 else months

-- A measure of the calendar in which every month has the same length: the days
-- after the 28th take no time.
def monthLength : ℕ := 28 * dayLength

def counted (t : DateTime) : ℕ := min ((t.day - 1) * dayLength + t.clock) (27 * dayLength)

def position (t : DateTime) : ℤ := t.month * (monthLength : ℕ) + t.counted

variable {t u start stop : DateTime}

theorem sinceMonth_lt (t : DateTime) : t.sinceMonth < 32 * dayLength := by
  have hday := t.day_le.trans (daysInMonth_le t.month)
  have hclock := t.clock_lt
  have hmul : t.day * dayLength ≤ 31 * dayLength := Nat.mul_le_mul_right dayLength hday
  unfold sinceMonth
  omega

theorem lt_of_month_lt {length a b : ℕ} (h : t.month < u.month) (ha : a < length) :
    t.month * (length : ℤ) + a < u.month * (length : ℤ) + b := by
  have hmonth : (t.month + 1) * (length : ℤ) ≤ u.month * length :=
    mul_le_mul_of_nonneg_right (by omega) (by omega)
  rw [add_mul, one_mul] at hmonth
  omega

theorem key_lt_of_month_lt (h : t.month < u.month) : t.key < u.key :=
  lt_of_month_lt h t.sinceMonth_lt

theorem month_le_of_key_le (h : t.key ≤ u.key) : t.month ≤ u.month := by
  by_contra hlt
  have := key_lt_of_month_lt (not_le.mp hlt)
  omega

theorem le_iff : t ≤ u ↔ t.key ≤ u.key := Iff.rfl

theorem lt_iff : t < u ↔ t.key < u.key := Iff.rfl

theorem counted_lt (t : DateTime) : t.counted < monthLength := by
  have hclock := t.clock_lt
  have hle : t.counted ≤ 27 * dayLength := Nat.min_le_right _ _
  unfold monthLength
  omega

theorem sinceMonth_eq (t : DateTime) :
    t.sinceMonth = (t.day - 1) * dayLength + t.clock + dayLength := by
  obtain ⟨n, hn⟩ : ∃ n, t.day = n + 1 := ⟨t.day - 1, by have := t.day_pos; omega⟩
  rw [sinceMonth, hn, Nat.add_sub_cancel, Nat.add_mul, Nat.one_mul]
  omega

theorem position_mono (h : t ≤ u) : t.position ≤ u.position := by
  have hkey : t.key ≤ u.key := h
  by_cases hmonth : t.month = u.month
  · -- the rest decides
    unfold key at hkey
    rw [hmonth, sinceMonth_eq, sinceMonth_eq] at hkey
    have hcounted : t.counted ≤ u.counted := by
      unfold counted
      omega
    unfold position
    rw [hmonth]
    omega
  · have hlt : t.month < u.month := by
      have := month_le_of_key_le hkey
      omega
    exact le_of_lt (lt_of_month_lt hlt t.counted_lt)

theorem counted_addMonths (t : DateTime) (months : ℤ) :
    (t.addMonths months).counted = t.counted := by
  have hlong := le_daysInMonth (t.month + months)
  show min ((min t.day (daysInMonth (t.month + months)) - 1) * dayLength + t.clock)
    (27 * dayLength) = min ((t.day - 1) * dayLength + t.clock) (27 * dayLength)
  by_cases hday : t.day ≤ 28
  · have hkeep : min t.day (daysInMonth (t.month + months)) = t.day := Nat.min_eq_left (by omega)
    rw [hkeep]
  · -- both are past the 28th
    have hpast (d : ℕ) (hd : 27 ≤ d) : 27 * dayLength ≤ d * dayLength + t.clock := by
      have hmul : 27 * dayLength ≤ d * dayLength := Nat.mul_le_mul_right dayLength hd
      omega
    rw [Nat.min_eq_right (hpast _ (by omega)), Nat.min_eq_right (hpast _ (by omega))]

theorem position_addMonths (t : DateTime) (months : ℤ) :
    (t.addMonths months).position = t.position + months * monthLength := by
  unfold position
  rw [counted_addMonths]
  show (t.month + months) * (monthLength : ℤ) + t.counted = _
  rw [add_mul]
  omega

-- The whole months end in time, and one more would not.
theorem monthsBetween_spec (h : start ≤ stop) : start.addMonths (monthsBetween stop start) ≤ stop ∧
      stop < start.addMonths (monthsBetween stop start + 1) := by
  have hnot : ¬stop < start := by
    have hle : start.key ≤ stop.key := h
    rw [lt_iff]
    omega
  rw [monthsBetween]
  rw [if_neg hnot]
  by_cases hover : stop < start.addMonths (stop.month - start.month)
  · rw [if_pos hover]
    constructor
    · refine le_of_lt (key_lt_of_month_lt ?_)
      show start.month + (stop.month - start.month - 1) < stop.month
      omega
    · rwa [Int.sub_add_cancel]
  · rw [if_neg hover]
    constructor
    · rw [lt_iff] at hover
      rw [le_iff]
      omega
    · refine key_lt_of_month_lt ?_
      show stop.month < start.month + (stop.month - start.month + 1)
      omega

theorem monthsBetween_nonpos (h : stop < start) : monthsBetween stop start ≤ 0 := by
  have hmonth : stop.month ≤ start.month := month_le_of_key_le (le_of_lt h)
  rw [monthsBetween]
  rw [if_pos h]
  split
  · rename_i hover
    have hmonth' : stop.month ≠ start.month := by
      intro heq
      have hsame : start.addMonths (stop.month - start.month) = start := by
        have hmonths : start.month + (stop.month - start.month) = start.month := by omega
        have hday : min start.day (daysInMonth (start.month + (stop.month - start.month))) =
            start.day := by
          rw [hmonths]
          exact Nat.min_eq_left start.day_le
        ext
        · exact hmonths
        · exact hday
        · rfl
      rw [hsame, lt_iff] at hover
      rw [lt_iff] at h
      omega
    omega
  · omega

theorem months_le_length (start stop : DateTime) :
    (monthsBetween stop start).toNat * monthLength ≤ (stop.position - start.position).toNat := by
  by_cases h : start ≤ stop
  · have hmove := position_mono (monthsBetween_spec h).1
    rw [position_addMonths] at hmove
    by_cases hpos : 0 ≤ monthsBetween stop start
    · have hcast : (((monthsBetween stop start).toNat * monthLength : ℕ) : ℤ) =
          monthsBetween stop start * monthLength := by
        push_cast
        rw [Int.toNat_of_nonneg hpos]
      omega
    · rw [Int.toNat_of_nonpos (by omega), Nat.zero_mul]
      exact Nat.zero_le _
  · have hlt : stop < start := by
      rw [le_iff] at h
      rw [lt_iff]
      omega
    rw [Int.toNat_of_nonpos (monthsBetween_nonpos hlt), Nat.zero_mul]
    exact Nat.zero_le _

theorem length_le_months (h : start ≤ stop) :
    stop.position - start.position ≤ (monthsBetween stop start + 1) * monthLength := by
  have hle : stop ≤ start.addMonths (monthsBetween stop start + 1) :=
    le_of_lt (a := stop.key) (monthsBetween_spec h).2
  have hmove := position_mono hle
  rw [position_addMonths] at hmove
  omega

theorem counted_lt_counted (h : t.sinceMonth < u.sinceMonth) (hday : u.day < 28) :
    t.counted < u.counted := by
  rw [sinceMonth_eq, sinceMonth_eq] at h
  have hmul : (u.day - 1) * dayLength ≤ 26 * dayLength :=
    Nat.mul_le_mul_right dayLength (by omega)
  have hclock := u.clock_lt
  unfold counted
  omega

theorem position_lt (h : t < u) (hday : u.day < 28) : t.position < u.position := by
  have hkey : t.key < u.key := h
  have hle := month_le_of_key_le (le_of_lt hkey)
  unfold position
  by_cases hmonth : t.month = u.month
  · have hsince : t.sinceMonth < u.sinceMonth := by
      unfold key at hkey
      rw [hmonth] at hkey
      omega
    have hcounted := counted_lt_counted hsince hday
    rw [hmonth]
    omega
  · exact lt_of_month_lt (by omega) t.counted_lt

theorem length_lt_months (h : start ≤ stop) (hday : start.day < 28) :
    stop.position - start.position < (monthsBetween stop start + 1) * monthLength := by
  have hday' : (start.addMonths (monthsBetween stop start + 1)).day < 28 :=
    lt_of_le_of_lt (Nat.min_le_left _ _) hday
  have hmove := position_lt (monthsBetween_spec h).2 hday'
  rw [position_addMonths] at hmove
  omega

end DateTime

end AiHiring.Library
