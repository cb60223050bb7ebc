import AiHiring.Library.Calendar
import AiHiring.Library.Overlap
import AiHiring.Library.Rounding
import AiHiring.Library.Text

namespace AiHiring

open Library DateTime

structure WorkExperienceEntry where
  (startDate endDate : Option String)
  (isCurrent isInternship isVolunteer : Bool)
  deriving DecidableEq, Repr

-- The part of `parsed_json` that the durations are computed from.
structure ParsedExperience where
  workExperience : List WorkExperienceEntry
  totalExperienceYears : Option ℚ

structure AnnotatedExperience where
  workExperience : List (WorkExperienceEntry × Option String)
  totalExperienceYears : Option ℚ

-- `dateutil` on a stripped text, `str.lower`, and the clock.
structure DateReader where
  parse : String → Option DateTime
  lower : String → String
  now : DateTime

namespace DateReader

variable (reader : DateReader)

def currentMarkers : List String :=
  ["present", "current", "till date", "ongoing", "now", "till now"]

def parseMonth : Option String → Option DateTime
  | none => none
  | some dateStr => if NonBlank dateStr then reader.parse (strip dateStr) else none

def entryDates (entry : WorkExperienceEntry) : Option (DateTime × DateTime) :=
  match reader.parseMonth entry.startDate with
  | none => none
  | some start =>
    let endDateRaw := reader.lower (strip (entry.endDate.getD ""))
    if entry.isCurrent ∨ endDateRaw ∈ currentMarkers ∨ endDateRaw = "" then
      some (start, reader.now)
    else (reader.parseMonth entry.endDate).map fun stop => (start, stop)

def wholeMonths (dates : DateTime × DateTime) : Option ℕ :=
  let totalMonths := monthsBetween dates.2 dates.1
  if totalMonths < 0 then none else some totalMonths.toNat

def computeEntryMonths (entry : WorkExperienceEntry) : Option ℕ :=
  (reader.entryDates entry).bind wholeMonths

end DateReader

def plural (count : ℕ) (unit : String) : String :=
  toString count ++ " " ++ unit ++ if count = 1 then "" else "s"

def formatDuration (months : ℕ) : String :=
  let years := months / 12
  let remMonths := months % 12
  let parts := (if years = 0 then [] else [plural years "yr"]) ++
    if remMonths ≠ 0 ∨ years = 0 then [plural remMonths "mo"] else []
  " ".intercalate parts

def countable (entry : WorkExperienceEntry) : Bool := !entry.isInternship && !entry.isVolunteer

section Annotate

variable (reader : DateReader) (r : Rounding)

def countableMonths (entries : List WorkExperienceEntry) : List ℕ :=
  (entries.filter countable).filterMap reader.computeEntryMonths

def recomputedYears (entries : List WorkExperienceEntry) : Option ℚ :=
  if countableMonths reader entries = [] then none
  else some (r.round 1 ((countableMonths reader entries).sum / 12))

def annotateWorkExperienceDurations (parsed : ParsedExperience) : AnnotatedExperience where
  workExperience := parsed.workExperience.map fun entry =>
    (entry, (reader.computeEntryMonths entry).map formatDuration)
  totalExperienceYears :=
    (recomputedYears reader r parsed.workExperience).or parsed.totalExperienceYears

end Annotate

namespace ExperienceBound

variable (reader : DateReader) (r : Rounding)

def countedDates (entries : List WorkExperienceEntry) : List (DateTime × DateTime) :=
  ((entries.filter countable).filterMap reader.entryDates).filter fun dates =>
    0 ≤ monthsBetween dates.2 dates.1

-- All of them lie between two dates.
def Within (first last : DateTime) (stretches : List (DateTime × DateTime)) : Prop :=
  ∀ dates ∈ stretches, first ≤ dates.1 ∧ dates.2 ≤ last

-- No more than so many of them run at the same time.
def AtMostAtOnce (most : ℕ) (stretches : List (DateTime × DateTime)) : Prop :=
  ∀ dates ∈ stretches, (stretches.countP fun other => other.1 ≤ dates.1 ∧ dates.1 < other.2) ≤ most

-- The years are no more than the time from the earliest start to the latest end, to
-- the decimal they are rounded to and to a month begun.
def CountedOnce (parsed : ParsedExperience) : Prop :=
  ∀ years ∈ recomputedYears reader r parsed.workExperience, ∀ first last : DateTime, first ≤ last →
    Within first last (countedDates reader parsed.workExperience) →
      years ≤ r.round 1 ((monthsBetween last first + 1 : ℤ) / 12)

section Sums

variable {reader r} {entries : List WorkExperienceEntry} {stretches : List (DateTime × DateTime)}
  {first last : DateTime} {most : ℕ}

def measured (dates : DateTime × DateTime) : ℤ × ℤ := (dates.1.position, dates.2.position)

theorem countableMonths_eq : countableMonths reader entries =
    (countedDates reader entries).map fun dates => (monthsBetween dates.2 dates.1).toNat := by
  rw [countableMonths, countedDates]
  induction entries.filter countable with
  | nil => rfl
  | cons entry rest ih =>
    rw [List.filterMap_cons, List.filterMap_cons, DateReader.computeEntryMonths]
    cases hdates : reader.entryDates entry with
    | none => exact ih
    | some dates =>
      by_cases hneg : monthsBetween dates.2 dates.1 < 0
      · have hnone : DateReader.wholeMonths dates = none := if_pos hneg
        rw [Option.bind_some, hnone, List.filter_cons_of_neg (by simpa using hneg)]
        exact ih
      · have hsome : DateReader.wholeMonths dates =
            some (monthsBetween dates.2 dates.1).toNat := if_neg hneg
        rw [Option.bind_some, hsome, List.filter_cons_of_pos (by simpa using hneg),
          List.map_cons, ← ih]

theorem depth_le (h : AtMostAtOnce most stretches) (x : ℤ) :
    depth (stretches.map measured) x ≤ most := by
  rw [depth, List.countP_map]
  obtain ⟨running, hrunning⟩ : ∃ running, running =
    stretches.filter (covers x ∘ measured) := ⟨_, rfl⟩
  rw [List.countP_eq_length_filter, ← hrunning]
  by_cases hne : running = []
  · rw [hne]
    exact Nat.zero_le most
  · obtain ⟨latest, hlatest, hmost⟩ := exists_latest (fun dates => dates.1.key) hne
    have hcovers (dates : DateTime × DateTime) (hdates : dates ∈ running) :
        dates ∈ stretches ∧ dates.1.position ≤ x ∧ x < dates.2.position := by
      rw [hrunning] at hdates
      obtain ⟨hmem, hcover⟩ := List.mem_filter.mp hdates
      simp only [Function.comp_apply, covers, Bool.and_eq_true, decide_eq_true_eq] at hcover
      exact ⟨hmem, hcover⟩
    refine (Nat.le_trans ?_ (h latest (hcovers latest hlatest).1))
    rw [List.countP_eq_length_filter]
    refine List.Sublist.length_le ?_
    have hself : running.filter (fun other => other.1 ≤ latest.1 ∧ latest.1 < other.2) =
        running := by
      rw [List.filter_eq_self]
      intro other hother
      obtain ⟨-, -, hstop⟩ := hcovers other hother
      obtain ⟨-, hstart, -⟩ := hcovers latest hlatest
      have hlt : latest.1 < other.2 := by
        by_contra hnot
        have hle : other.2 ≤ latest.1 := by
          rw [lt_iff] at hnot
          rw [le_iff]
          omega
        have := position_mono hle
        omega
      exact decide_eq_true ⟨hmost other hother, hlt⟩
    rw [← hself, hrunning]
    exact List.filter_sublist.filter _

theorem sum_months_le_extents (stretches : List (DateTime × DateTime)) :
    (stretches.map fun dates => (monthsBetween dates.2 dates.1).toNat).sum * monthLength ≤
      ((stretches.map measured).map extent).sum := by
  induction stretches with
  | nil => simp
  | cons dates rest ih =>
    have hfirst := months_le_length dates.1 dates.2
    simp only [List.map_cons, List.sum_cons, Nat.add_mul]
    exact Nat.add_le_add hfirst ih

theorem sum_months_le (hwithin : Within first last stretches)
    (hmost : AtMostAtOnce most stretches) :
    (stretches.map fun dates => (monthsBetween dates.2 dates.1).toNat).sum * monthLength ≤
      most * (last.position - first.position).toNat := by
  refine Nat.le_trans (sum_months_le_extents stretches) (sum_lengths_le ?_ (depth_le hmost))
  intro interval hinterval
  obtain ⟨dates, hdates, rfl⟩ := List.mem_map.mp hinterval
  obtain ⟨hfirst, hlast⟩ := hwithin dates hdates
  exact ⟨position_mono hfirst, position_mono hlast⟩

theorem monthLength_pos (t : DateTime) : 0 < monthLength := by
  have hclock := t.clock_lt
  unfold monthLength
  omega

theorem sum_months_le_begun (hle : first ≤ last) (hwithin : Within first last stretches)
    (hmost : AtMostAtOnce most stretches) :
    ((stretches.map fun dates => (monthsBetween dates.2 dates.1).toNat).sum : ℤ) ≤
      most * (monthsBetween last first + 1) := by
  have hlength := length_le_months hle
  have hpositions := position_mono hle
  have hsum := sum_months_le hwithin hmost
  have hpos := monthLength_pos first
  by_contra hlt
  have hmore : most * (monthsBetween last first + 1) * (monthLength : ℤ) <
      ((stretches.map fun dates => (monthsBetween dates.2 dates.1).toNat).sum : ℤ) *
        monthLength :=
    mul_lt_mul_of_pos_right (not_le.mp hlt) (by exact_mod_cast hpos)
  have hcast : (((stretches.map fun dates => (monthsBetween dates.2 dates.1).toNat).sum : ℤ) *
      monthLength) ≤ most * (last.position - first.position) := by
    have hnonneg : ((last.position - first.position).toNat : ℤ) =
        last.position - first.position := Int.toNat_of_nonneg (by omega)
    rw [← hnonneg]
    exact_mod_cast hsum
  have hall : (most : ℤ) * (last.position - first.position) ≤
      most * ((monthsBetween last first + 1) * monthLength) :=
    mul_le_mul_of_nonneg_left hlength (by omega)
  rw [mul_assoc] at hmore
  omega

-- Not even that month where one runs at a time and the first starts before the 28th.
theorem sum_months_le_whole (hle : first ≤ last) (hwithin : Within first last stretches)
    (hone : AtMostAtOnce 1 stretches) (hday : first.day < 28) :
    ((stretches.map fun dates => (monthsBetween dates.2 dates.1).toNat).sum : ℤ) ≤
      monthsBetween last first := by
  have hlength := length_lt_months hle hday
  have hpositions := position_mono hle
  have hsum := sum_months_le hwithin hone
  rw [Nat.one_mul] at hsum
  by_contra hlt
  have hmore : (monthsBetween last first + 1) * (monthLength : ℤ) ≤
      ((stretches.map fun dates => (monthsBetween dates.2 dates.1).toNat).sum : ℤ) *
        monthLength :=
    mul_le_mul_of_nonneg_right (by omega) (by omega)
  have hcast : (((stretches.map fun dates => (monthsBetween dates.2 dates.1).toNat).sum : ℤ) *
      monthLength) ≤ last.position - first.position := by
    have hnonneg : ((last.position - first.position).toNat : ℤ) =
        last.position - first.position := Int.toNat_of_nonneg (by omega)
    rw [← hnonneg]
    exact_mod_cast hsum
  omega

end Sums

-- The years are the whole months of the counted entries added up. With no more than
-- `most` entries at a time they stay below that many times the time from the earliest
-- start to the latest end.
theorem experience_bounded (parsed : ParsedExperience) (years : ℚ)
    (hyears : years ∈ recomputedYears reader r parsed.workExperience) :
    (annotateWorkExperienceDurations reader r parsed).totalExperienceYears = some years ∧
      years = r.round 1 (((countedDates reader parsed.workExperience).map fun dates =>
        (monthsBetween dates.2 dates.1).toNat).sum / 12) ∧
      ∀ first last : DateTime, first ≤ last →
        Within first last (countedDates reader parsed.workExperience) →
        (∀ most, AtMostAtOnce most (countedDates reader parsed.workExperience) →
          years ≤ r.round 1 ((most * (monthsBetween last first + 1) : ℤ) / 12)) ∧
        (AtMostAtOnce 1 (countedDates reader parsed.workExperience) → first.day < 28 →
          years ≤ r.round 1 (monthsBetween last first / 12)) := by
  have hsome : recomputedYears reader r parsed.workExperience = some years := hyears
  have hsum : years = r.round 1 (((countedDates reader parsed.workExperience).map fun dates =>
      (monthsBetween dates.2 dates.1).toNat).sum / 12) := by
    unfold recomputedYears at hsome
    split at hsome
    · simp at hsome
    · rw [← countableMonths_eq]
      exact (Option.some.inj hsome).symm
  have htwelve {a : ℕ} {b : ℤ} (h : (a : ℤ) ≤ b) : (a : ℚ) / 12 ≤ (b : ℚ) / 12 :=
    div_le_div_of_nonneg_right (by exact_mod_cast h) (by norm_num)
  refine ⟨?_, hsum, ?_⟩
  · rw [annotateWorkExperienceDurations, hsome]
    rfl
  · intro first last hle hwithin
    constructor
    · intro most hmost
      rw [hsum]
      exact r.mono 1 (htwelve (sum_months_le_begun hle hwithin hmost))
    · intro hone hday
      rw [hsum]
      exact r.mono 1 (htwelve (sum_months_le_whole hle hwithin hone hday))

def january (year : ℕ) : DateTime where
  month := year * 12
  day := 1
  clock := 0
  day_pos := Nat.le_refl 1
  day_le := Nat.le_trans (by decide) (le_daysInMonth _)
  clock_lt := by
    unfold dayLength
    decide

def yearReader : DateReader where
  parse text := [("2020", january 2020), ("2022", january 2022), ("2024", january 2024)].lookup text
  lower := id
  now := january 2030

def job (startDate endDate : String) : WorkExperienceEntry :=
  ⟨some startDate, some endDate, false, false, false⟩

def consecutive : ParsedExperience := ⟨[job "2020" "2022", job "2022" "2024"], none⟩

def concurrent : ParsedExperience := ⟨[job "2020" "2022", job "2020" "2022"], none⟩

theorem fourYears {entries : List WorkExperienceEntry}
    (hmonths : countableMonths yearReader entries = [24, 24]) :
    recomputedYears yearReader Rounding.halfUp entries = some 4 := by
  rw [recomputedYears, hmonths, if_neg (by decide)]
  have hfour := Rounding.halfUp.round_int 1 4
  norm_num at hfour ⊢
  exact hfour

theorem experience_bounded_consecutive :
    recomputedYears yearReader Rounding.halfUp consecutive.workExperience = some 4 ∧
      (4 : ℚ) ≤ Rounding.halfUp.round 1 (monthsBetween (january 2024) (january 2020) / 12) := by
  have hmonths : countableMonths yearReader consecutive.workExperience = [24, 24] := by
    decide +kernel
  have hdates : countedDates yearReader consecutive.workExperience =
      [(january 2020, january 2022), (january 2022, january 2024)] := by decide +kernel
  have hyears := fourYears hmonths
  refine ⟨hyears, ?_⟩
  obtain ⟨-, -, hbounds⟩ := experience_bounded yearReader Rounding.halfUp consecutive 4 hyears
  refine (hbounds (january 2020) (january 2024) (by decide +kernel) ?_).2 ?_ (by decide)
  · rw [hdates]
    unfold Within
    decide +kernel
  · rw [hdates]
    unfold AtMostAtOnce
    decide +kernel

-- Two jobs at the same time count as four years where two have passed.
theorem concurrent_counted_twice : ¬∀ (reader : DateReader) (r : Rounding)
    (parsed : ParsedExperience), CountedOnce reader r parsed := by
  intro h
  have hmonths : countableMonths yearReader concurrent.workExperience = [24, 24] := by
    decide +kernel
  have hdates : countedDates yearReader concurrent.workExperience =
      [(january 2020, january 2022), (january 2020, january 2022)] := by decide +kernel
  have hyears := fourYears hmonths
  have hwithin : Within (january 2020) (january 2022)
      (countedDates yearReader concurrent.workExperience) := by
    rw [hdates]
    unfold Within
    decide +kernel
  have hspan : monthsBetween (january 2022) (january 2020) = 24 := by decide +kernel
  have hle := h yearReader Rounding.halfUp concurrent 4 hyears (january 2020) (january 2022)
    (by decide +kernel) hwithin
  rw [hspan] at hle
  have hthree : Rounding.halfUp.round 1 (((24 + 1 : ℤ) : ℚ) / 12) ≤ (3 : ℤ) :=
    Rounding.round_le_int _ _ (by norm_num)
  have hfour : (4 : ℚ) ≤ (3 : ℤ) := le_trans hle hthree
  norm_num at hfour

end ExperienceBound

end AiHiring
