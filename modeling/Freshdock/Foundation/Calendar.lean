import Mathlib.Data.Int.Init
import Mathlib.Tactic.IntervalCases

/-!
# The proleptic Gregorian calendar

Years, months and days, and the number of a date: its distance in days from 1970-01-01. Every
integer is the number of a date (`exists_date`), and numbers go up with the years
(`Date.number_lt_of_year_lt`). A month with a given day, other than the leap day, comes every
year, and each weekday comes in every month (`exists_date_of_day`, `exists_date_of_weekday`).
-/

set_option autoImplicit false

namespace Freshdock.Calendar

/-- Every fourth year, without the centuries that four does not divide. -/
def IsLeap (year : Int) : Prop := year % 4 = 0 ∧ (year % 100 = 0 → year % 400 = 0)

instance (year : Int) : Decidable (IsLeap year) :=
  inferInstanceAs (Decidable (year % 4 = 0 ∧ (year % 100 = 0 → year % 400 = 0)))

def yearLength (year : Int) : Nat := if IsLeap year then 366 else 365

def monthLength (year : Int) : Nat → Nat
  | 2 => if IsLeap year then 29 else 28
  | 4 => 30
  | 6 => 30
  | 9 => 30
  | 11 => 30
  | _ => 31

/-- A day of a month of a year. -/
structure Date where
  year : Int
  month : Nat
  day : Nat
  month_le : 1 ≤ month ∧ month ≤ 12
  day_le : 1 ≤ day ∧ day ≤ monthLength year month

/-- The days from the start of the year 0 to the start of a year. -/
def yearStart (year : Int) : Int :=
  365 * year + (year + 3) / 4 - (year + 99) / 100 + (year + 399) / 400

/-- The days of a year before a month. -/
def monthStart (year : Int) : Nat → Nat
  | 0 => 0
  | 1 => 0
  | month + 2 => monthStart year (month + 1) + monthLength year (month + 1)

/-- Days since 1970-01-01. -/
def Date.number (d : Date) : Int :=
  yearStart d.year - 719528 + monthStart d.year d.month + (d.day - 1 : Int)

example : (Date.mk 1970 1 1 (by decide) (by decide)).number = 0 := by decide
example : (Date.mk 2000 3 1 (by decide) (by decide)).number = 11017 := by decide

/-! ## Years and months -/

theorem yearStart_succ (year : Int) : yearStart (year + 1) = yearStart year + yearLength year := by
  unfold yearStart yearLength
  by_cases hleap : IsLeap year
  · rw [if_pos hleap]
    unfold IsLeap at hleap
    omega
  · rw [if_neg hleap]
    unfold IsLeap at hleap
    omega

theorem yearLength_le (year : Int) : 365 ≤ yearLength year ∧ yearLength year ≤ 366 := by
  unfold yearLength
  split <;> omega

theorem monthLength_le (year : Int) (month : Nat) :
    28 ≤ monthLength year month ∧ monthLength year month ≤ 31 := by
  unfold monthLength
  split <;> (try split) <;> omega

theorem monthStart_add_le (year : Int) {month : Nat} (h : 1 ≤ month ∧ month ≤ 12) :
    monthStart year month + monthLength year month ≤ yearLength year := by
  obtain ⟨hpos, hle⟩ := h
  unfold yearLength
  interval_cases month <;> simp only [monthStart, monthLength] <;> split <;> omega

theorem monthStart_december (year : Int) :
    monthStart year 12 + monthLength year 12 = yearLength year := by
  simp only [monthStart, monthLength, yearLength]
  split <;> rfl

theorem yearStart_add_le (year : Int) (n : Nat) :
    yearStart year + 365 * n ≤ yearStart (year + n) ∧
      yearStart (year + n) ≤ yearStart year + 366 * n := by
  induction n with
  | zero => simp
  | succ n ih =>
      have hsucc := yearStart_succ (year + n)
      have hlength := yearLength_le (year + n)
      have hcast : year + ((n + 1 : Nat) : Int) = year + n + 1 := by push_cast; omega
      rw [hcast]
      push_cast
      omega

/-- A date lies in its year. -/
theorem Date.number_mem (d : Date) :
    yearStart d.year ≤ d.number + 719528 ∧ d.number + 719528 < yearStart (d.year + 1) := by
  have hmonth := monthStart_add_le d.year d.month_le
  have hday := d.day_le
  have hsucc := yearStart_succ d.year
  unfold Date.number
  omega

theorem Date.number_lt_of_year_lt {d d' : Date} (h : d.year < d'.year) : d.number < d'.number := by
  obtain ⟨n, hn⟩ : ∃ n : Nat, d'.year = d.year + 1 + n := ⟨(d'.year - d.year - 1).toNat, by omega⟩
  have hle := (yearStart_add_le (d.year + 1) n).1
  have hd := d.number_mem.2
  have hd' := d'.number_mem.1
  rw [hn] at hd'
  omega

/-! ## Days after days -/

theorem exists_next (d : Date) : ∃ d' : Date, d'.number = d.number + 1 := by
  obtain ⟨year, month, day, hmonth, hday⟩ := d
  by_cases hlast : day < monthLength year month
  · exact ⟨⟨year, month, day + 1, hmonth, by omega, hlast⟩, by simp only [Date.number]; omega⟩
  have hend : day = monthLength year month := by omega
  subst hend
  by_cases hdecember : month = 12
  · subst hdecember
    have hyear := monthStart_december year
    have hsucc := yearStart_succ year
    have hfirst := (monthLength_le (year + 1) 1).1
    refine ⟨⟨year + 1, 1, 1, by decide, le_rfl, by omega⟩, ?_⟩
    have hjanuary : monthStart (year + 1) 1 = 0 := rfl
    simp only [Date.number, hjanuary]
    omega
  · obtain ⟨before, rfl⟩ : ∃ before, month = before + 1 := ⟨month - 1, by omega⟩
    have hfirst := (monthLength_le year (before + 2)).1
    refine ⟨⟨year, before + 2, 1, by omega, le_rfl, by omega⟩, ?_⟩
    simp only [Date.number, monthStart]
    omega

theorem exists_previous (d : Date) : ∃ d' : Date, d'.number = d.number - 1 := by
  obtain ⟨year, month, day, hmonth, hday⟩ := d
  by_cases hfirst : 1 < day
  · exact ⟨⟨year, month, day - 1, hmonth, by omega, by omega⟩, by simp only [Date.number]; omega⟩
  have hstart : day = 1 := by omega
  subst hstart
  by_cases hjanuary : month = 1
  · subst hjanuary
    have hyear := monthStart_december (year - 1)
    have hsucc := yearStart_succ (year - 1)
    rw [Int.sub_add_cancel] at hsucc
    refine ⟨⟨year - 1, 12, 31, by decide, by decide, le_rfl⟩, ?_⟩
    have hlength : monthLength (year - 1) 12 = 31 := rfl
    have hzero : monthStart year 1 = 0 := rfl
    simp only [Date.number, hzero]
    omega
  · obtain ⟨before, rfl⟩ : ∃ before, month = before + 2 := ⟨month - 2, by omega⟩
    have hlength := (monthLength_le year (before + 1)).1
    refine ⟨⟨year, before + 1, monthLength year (before + 1), by omega, by omega, le_rfl⟩, ?_⟩
    simp only [Date.number, monthStart]
    omega

/-- **Every integer is the number of a date.** -/
theorem exists_date (n : Int) : ∃ d : Date, d.number = n := by
  induction n using Int.induction_on with
  | zero => exact ⟨⟨1970, 1, 1, by decide, by decide⟩, by decide⟩
  | succ n ih =>
      obtain ⟨d, hd⟩ := ih
      obtain ⟨d', hd'⟩ := exists_next d
      exact ⟨d', by omega⟩
  | pred n ih =>
      obtain ⟨d, hd⟩ := ih
      obtain ⟨d', hd'⟩ := exists_previous d
      exact ⟨d', by omega⟩

/-! ## Days that come back -/

/-- The 29 February. -/
def Date.IsLeapDay (d : Date) : Prop := d.month = 2 ∧ d.day = 29

instance (d : Date) : Decidable d.IsLeapDay :=
  inferInstanceAs (Decidable (d.month = 2 ∧ d.day = 29))

/-- **Every day but the 29 February comes every year.** -/
theorem exists_date_of_day {d : Date} (h : ¬ d.IsLeapDay) (year : Int) :
    ∃ d' : Date, d'.year = year ∧ d'.month = d.month ∧ d'.day = d.day := by
  obtain ⟨year', month, day, hmonth, hpos, hle⟩ := d
  refine ⟨⟨year, month, day, hmonth, hpos, ?_⟩, rfl, rfl, rfl⟩
  by_cases hfebruary : month = 2
  · subst hfebruary
    have hday : day ≠ 29 := fun hday => h ⟨rfl, hday⟩
    simp only [monthLength] at hle ⊢
    split at hle <;> split <;> omega
  · have hsame : monthLength year month = monthLength year' month := by
      unfold monthLength
      split <;> first | rfl | exact absurd rfl hfebruary
    rwa [hsame]

/-- **Every weekday comes in every month**, in its first seven days. -/
theorem exists_date_of_weekday (year : Int) {month : Nat} (hmonth : 1 ≤ month ∧ month ≤ 12)
    (weekday : Int) :
    ∃ d : Date, d.year = year ∧ d.month = month ∧ (d.number - weekday) % 7 = 0 ∧ d.day ≤ 7 := by
  have hlength := (monthLength_le year month).1
  obtain ⟨first, hfirst⟩ : ∃ first, first = yearStart year - 719528 + monthStart year month :=
    ⟨_, rfl⟩
  obtain ⟨later, hlater⟩ : ∃ later : Nat, later = ((weekday - first) % 7).toNat := ⟨_, rfl⟩
  refine ⟨⟨year, month, later + 1, hmonth, by omega, by omega⟩, rfl, rfl, ?_, ?_⟩
  · simp only [Date.number]
    omega
  · simp only
    omega

/-- The 29 February of a leap year. -/
def leapDay (year : Int) (leap : IsLeap year) : Date where
  year := year
  month := 2
  day := 29
  month_le := by decide
  day_le := by simp [monthLength, leap]

theorem leapDay_isLeapDay (year : Int) (leap : IsLeap year) :
    (leapDay year leap).IsLeapDay := ⟨rfl, rfl⟩

/-- From one 29 February to the next, four years later. -/
theorem yearStart_add_four {year : Int} (leap : IsLeap year) :
    yearStart (year + 4) = yearStart year + 1461 := by
  unfold IsLeap at leap
  unfold yearStart
  omega

theorem Date.IsLeapDay.number {d : Date} (h : d.IsLeapDay) :
    d.number = yearStart d.year - 719528 + 59 := by
  obtain ⟨year, month, day, hmonth, hday⟩ := d
  obtain ⟨rfl, rfl⟩ : month = 2 ∧ day = 29 := h
  simp only [Date.number, monthStart, monthLength]
  omega

/-- Only leap years have a 29 February. -/
theorem Date.IsLeapDay.isLeap {d : Date} (h : d.IsLeapDay) : IsLeap d.year := by
  obtain ⟨year, month, day, hmonth, hpos, hle⟩ := d
  obtain ⟨rfl, rfl⟩ : month = 2 ∧ day = 29 := h
  by_contra hleap
  simp only [monthLength, hleap, if_false] at hle
  omega

end Freshdock.Calendar
