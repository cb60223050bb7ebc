import Mathlib.Algebra.Order.Group.Int

namespace AiHiring.Library

-- Clocks that run ahead of an exact time by an offset, which changes at given instants.
structure OffsetChange where
  (instant offset : ℤ)

-- The clock time from which the change counts: the end of the times that it skips
-- or that it shows twice.
def OffsetChange.wall (before : ℤ) (change : OffsetChange) : ℤ :=
  change.instant + max before change.offset

-- By how much each change sets the clocks forward, and from which clock time on.
def shifts (before : ℤ) : List OffsetChange → List (ℤ × ℤ)
  | [] => []
  | change :: rest => (change.wall before, change.offset - before) :: shifts change.offset rest

structure Zone where
  initial : ℤ
  changes : List OffsetChange
  instants : changes.Pairwise fun a b => a.instant < b.instant
  walls : (shifts initial changes).Pairwise fun a b => a.1 < b.1

-- The offset in force at an instant.
def offsetAt (before : ℤ) : List OffsetChange → ℤ → ℤ
  | [], _ => before
  | change :: rest, instant =>
    if instant < change.instant then before else offsetAt change.offset rest instant

-- The offset that a clock time is read with.
def offsetOfWall (before : ℤ) : List OffsetChange → ℤ → ℤ
  | [], _ => before
  | change :: rest, wall =>
    if wall < change.wall before then before else offsetOfWall change.offset rest wall

-- A clock time that is skipped by a change, and the offset before that change.
def InGap (before : ℤ) : List OffsetChange → ℤ → ℤ → Prop
  | [], _, _ => False
  | change :: rest, wall, offset =>
    (offset = before ∧ change.instant + before ≤ wall ∧ wall < change.instant + change.offset) ∨
      InGap change.offset rest wall offset

-- How much further the clocks are set between two clock times.
def shiftBetween : List (ℤ × ℤ) → ℤ → ℤ → ℤ
  | [], _, _ => 0
  | shift :: rest, start, stop =>
    (if start < shift.1 ∧ shift.1 ≤ stop then shift.2 else 0) + shiftBetween rest start stop

namespace Zone

variable (zone : Zone)

def shown (instant : ℤ) : ℤ := instant + offsetAt zone.initial zone.changes instant

def toUtc (wall : ℤ) : ℤ := wall - offsetOfWall zone.initial zone.changes wall

-- By how much the clocks are set forward from one clock time to another.
def setForward (start stop : ℤ) : ℤ :=
  shiftBetween (shifts zone.initial zone.changes) start stop -
    shiftBetween (shifts zone.initial zone.changes) stop start

end Zone

section Walls

variable {before : ℤ} {changes : List OffsetChange} {wall a b : ℤ}

theorem shiftBetween_nil : shiftBetween [] a b = 0 := rfl

theorem shiftBetween_cons (shift : ℤ × ℤ) (rest : List (ℤ × ℤ)) : shiftBetween (shift :: rest) a b =
      (if a < shift.1 ∧ shift.1 ≤ b then shift.2 else 0) + shiftBetween rest a b := rfl

theorem shiftBetween_of_lt {shifts : List (ℤ × ℤ)} (h : ∀ shift ∈ shifts, b < shift.1) :
    shiftBetween shifts a b = 0 := by
  induction shifts with
  | nil => rfl
  | cons shift rest ih =>
    have hlt := h shift List.mem_cons_self
    rw [shiftBetween_cons, ih fun s hs => h s (List.mem_cons_of_mem _ hs), if_neg (by omega)]
    rfl

theorem shiftBetween_of_le (shifts : List (ℤ × ℤ)) (h : b ≤ a) : shiftBetween shifts a b = 0 := by
  induction shifts with
  | nil => rfl
  | cons shift rest ih =>
    rw [shiftBetween_cons, ih, if_neg (by omega)]
    rfl

theorem offsetOfWall_first (h : ∀ shift ∈ shifts before changes, wall < shift.1) :
    offsetOfWall before changes wall = before := by
  cases changes with
  | nil => rfl
  | cons change rest => exact if_pos (h _ List.mem_cons_self)

theorem offsetOfWall_later (hwalls : (shifts before changes).Pairwise fun s t => s.1 < t.1)
    (hab : a ≤ b) :
    offsetOfWall before changes b =
      offsetOfWall before changes a + shiftBetween (shifts before changes) a b := by
  induction changes generalizing before with
  | nil => simp [offsetOfWall, shifts, shiftBetween_nil]
  | cons change rest ih =>
    obtain ⟨hfirst, hrest⟩ := List.pairwise_cons.mp hwalls
    have hih := ih hrest
    rw [shifts, shiftBetween_cons]
    simp only [offsetOfWall]
    by_cases hb : b < change.wall before
    · have hnone : shiftBetween (shifts change.offset rest) a b = 0 :=
        shiftBetween_of_lt fun s hs => hb.trans (hfirst s hs)
      rw [if_pos hb, if_pos (by omega), if_neg (by omega), hnone]
      omega
    · by_cases ha : a < change.wall before
      · -- the earlier time is before all later changes, so it is read with `before`
        have hfrom (s : ℤ × ℤ) (hs : s ∈ shifts change.offset rest) : a < s.1 :=
          ha.trans (hfirst s hs)
        rw [if_neg hb, if_pos ha, if_pos (by omega)]
        rw [hih, offsetOfWall_first hfrom]
        omega
      · rw [if_neg hb, if_neg ha, if_neg (by omega), hih]
        omega

theorem offsetOfWall_mem : offsetOfWall before changes wall = before ∨
    ∃ change ∈ changes, offsetOfWall before changes wall = change.offset := by
  induction changes generalizing before with
  | nil => exact .inl rfl
  | cons change rest ih =>
    by_cases h : wall < change.wall before
    · exact .inl (if_pos h)
    · have hread : offsetOfWall before (change :: rest) wall =
          offsetOfWall change.offset rest wall := if_neg h
      rw [hread]
      obtain hfirst | ⟨later, hlater, heq⟩ := @ih change.offset
      · exact .inr ⟨change, List.mem_cons_self, hfirst⟩
      · exact .inr ⟨later, List.mem_cons_of_mem _ hlater, heq⟩

end Walls

namespace Zone

variable (zone : Zone) (start stop wall : ℤ)

theorem toUtc_sub : zone.toUtc stop - zone.toUtc start =
    stop - start - zone.setForward start stop := by
  unfold toUtc setForward
  rcases Int.le_total start stop with hle | hle
  · have hnone := shiftBetween_of_le (shifts zone.initial zone.changes) hle
    have hlater := offsetOfWall_later zone.walls hle
    omega
  · have hnone := shiftBetween_of_le (shifts zone.initial zone.changes) hle
    have hlater := offsetOfWall_later zone.walls hle
    omega

end Zone

end AiHiring.Library
