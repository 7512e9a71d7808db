import Freshdock.Cron.Matches
import Freshdock.Foundation.Calendar

/-!
# The earliest match

A local minute is a date, an hour and a minute. The fields that the code computes from a local
time are those of its date (`monthAndDay_number`), so an expression fires at the minutes the
documented rule names, and in a zone with a fixed offset the next match is the earliest of them
within the horizon (`nextAfter_earliest`).
-/

set_option autoImplicit false

namespace Freshdock.Cron

open Calendar

/-! ## The date of a day -/

/-- The days from the first March of the year 0 to the first March of a year. -/
def marchStart (year : Int) : Int := 365 * year + year / 4 - year / 100 + year / 400

/-- From March on, the months have lengths that a linear function gives. -/
theorem monthStart_march (year : Int) {index : Nat} (h : index ≤ 9) :
    monthStart year (index + 3) = 31 + monthLength year 2 + (153 * index + 2) / 5 ∧
      (monthLength year (index + 3) : Int) =
        (153 * (index + 1) + 2) / 5 - (153 * index + 2) / 5 := by
  interval_cases index <;> simp [monthStart, monthLength]

/-- The linear function gives the month back. -/
theorem index_of_dayOfYear {index : Nat} (h : index ≤ 11) {later : Int} (hpos : 0 ≤ later)
    (hlt : later < (153 * (index + 1) + 2) / 5 - (153 * index + 2) / 5) :
    (5 * ((153 * index + 2) / 5 + later) + 2) / 153 = index := by
  interval_cases index <;> omega

theorem february_length (year : Int) : ∃ leapDays,
    (leapDays = 1 ∧ IsLeap year ∨ leapDays = 0 ∧ ¬ IsLeap year) ∧
      monthLength year 2 = 28 + leapDays := by
  by_cases hleap : IsLeap year
  · exact ⟨1, .inl ⟨rfl, hleap⟩, by simp [monthLength, hleap]⟩
  · exact ⟨0, .inr ⟨rfl, hleap⟩, by simp [monthLength, hleap]⟩

/-- A date in a year that starts in March: the leap day is the last of its year. -/
theorem exists_march (d : Date) : ∃ year dayOfYear : Int,
    d.number + 719468 = marchStart year + dayOfYear ∧ 0 ≤ dayOfYear ∧
      (dayOfYear ≤ 364 ∨ dayOfYear = 365 ∧ IsLeap (year + 1)) ∧
      (d.month : Int) = (if (5 * dayOfYear + 2) / 153 < 10 then (5 * dayOfYear + 2) / 153 + 3
        else (5 * dayOfYear + 2) / 153 - 9) ∧
      (d.day : Int) = dayOfYear - (153 * ((5 * dayOfYear + 2) / 153) + 2) / 5 + 1 := by
  obtain ⟨year, month, day, ⟨hmonth, hmonth'⟩, hday, hday'⟩ := d
  obtain ⟨leapDays, hleap, hfebruary⟩ := february_length year
  have hyear := hleap
  unfold IsLeap at hyear
  simp only [Date.number, yearStart, marchStart]
  by_cases hmarch : 3 ≤ month
  · obtain ⟨index, rfl⟩ : ∃ index, month = index + 3 := ⟨month - 3, by omega⟩
    obtain ⟨hstart, hlength⟩ := @monthStart_march year index (by omega)
    rw [hstart, hfebruary]
    have hindex := @index_of_dayOfYear index (by omega) (day - 1) (by omega) (by omega)
    refine ⟨year, (153 * index + 2) / 5 + (day - 1), by omega, by omega, ?_, ?_, ?_⟩
    · exact .inl (by omega)
    · rw [hindex]
      omega
    · rw [hindex]
      omega
  · rcases (by omega : month = 1 ∨ month = 2) with rfl | rfl
    · have hlength : monthLength year 1 = 31 := rfl
      have hstart : monthStart year 1 = 0 := rfl
      rw [hlength] at hday'
      rw [hstart]
      exact ⟨year - 1, 306 + (day - 1), by omega, by omega, by omega, by omega, by omega⟩
    · have hstart : monthStart year 2 = 31 := rfl
      rw [hfebruary] at hday'
      rw [hstart]
      refine ⟨year - 1, 337 + (day - 1), by omega, by omega, ?_, by omega, by omega⟩
      rw [Int.sub_add_cancel]
      rcases hleap with ⟨rfl, hleap⟩ | ⟨rfl, -⟩
      · by_cases hlast : day = 29
        · exact .inr ⟨by omega, hleap⟩
        · exact .inl (by omega)
      · exact .inl (by omega)

/-- The year and the day of the year in an era of 400 years. -/
theorem march_of_era {year dayOfYear : Int} (hday : 0 ≤ dayOfYear)
    (hleap : dayOfYear ≤ 364 ∨ dayOfYear = 365 ∧ IsLeap (year + 1)) :
    let dayOfEra := (marchStart year + dayOfYear) % 146097
    (dayOfEra - dayOfEra / 1460 + dayOfEra / 36524 - dayOfEra / 146096) / 365 = year % 400 ∧
      dayOfEra - (365 * (year % 400) + year % 400 / 4 - year % 400 / 100) = dayOfYear := by
  obtain ⟨era, hera⟩ : ∃ era, era = year / 400 := ⟨_, rfl⟩
  obtain ⟨yearOfEra, hyear⟩ : ∃ yearOfEra, yearOfEra = year % 400 := ⟨_, rfl⟩
  obtain ⟨dayOfEra, hdayOfEra⟩ : ∃ dayOfEra,
      dayOfEra = 365 * yearOfEra + yearOfEra / 4 - yearOfEra / 100 + dayOfYear := ⟨_, rfl⟩
  have hlast : dayOfYear ≤ 364 ∨ dayOfYear = 365 ∧ (yearOfEra + 1) % 4 = 0 ∧
      ((yearOfEra + 1) % 100 = 0 → yearOfEra = 399) := by
    unfold IsLeap at hleap
    omega
  have hstart : marchStart year = 146097 * era + (dayOfEra - dayOfYear) := by
    unfold marchStart
    omega
  have hcentury : 36524 * (yearOfEra / 100) ≤ dayOfEra ∧ (dayOfEra = 146096 ∨
      dayOfEra < 36524 * (yearOfEra / 100 + 1) ∧ dayOfEra < 146096) := by
    omega
  have hmod : (marchStart year + dayOfYear) % 146097 = dayOfEra := by
    omega
  have hcenturies : dayOfEra / 36524 - dayOfEra / 146096 = yearOfEra / 100 := by
    omega
  have hfour : dayOfEra / 1460 = yearOfEra / 4 +
      (365 * (yearOfEra % 4) + yearOfEra / 4 - yearOfEra / 100 + dayOfYear) / 1460 := by
    omega
  simp only [hmod, ← hyear]
  constructor
  · omega
  · omega

/-- **The code finds the month and the day of a date from its number.** -/
theorem monthAndDay_number (d : Date) : monthAndDay d.number = (d.month, d.day) := by
  obtain ⟨year, dayOfYear, hnumber, hday, hleap, hmonth, hdayOfMonth⟩ := exists_march d
  obtain ⟨hyear, hdays⟩ := march_of_era hday hleap
  unfold monthAndDay
  simp only [hnumber, hyear, hdays]
  rw [← hmonth, ← hdayOfMonth]
  simp

/-! ## Local minutes -/

/-- A minute that a clock can show. -/
structure LocalMinute where
  date : Date
  hour : Nat
  minute : Nat
  hour_lt : hour < 24
  minute_lt : minute < 60

/-- What the clock shows when the minute starts. -/
def LocalMinute.shown (m : LocalMinute) : Int :=
  m.date.number * nanosPerDay + m.hour * nanosPerHour + m.minute * nanosPerMinute

/-- Every whole minute is a minute of a date. -/
theorem exists_localMinute {shown : Int} (h : shown % nanosPerMinute = 0) :
    ∃ m : LocalMinute, m.shown = shown := by
  obtain ⟨d, hd⟩ := exists_date (shown / nanosPerDay)
  refine ⟨⟨d, (shown / nanosPerHour % 24).toNat, (shown / nanosPerMinute % 60).toNat, by omega,
    by omega⟩, ?_⟩
  simp only [LocalMinute.shown, hd, nanosPerDay, nanosPerHour, nanosPerMinute, nanosPerSecond]
    at h ⊢
  omega

theorem LocalMinute.shown_mod (m : LocalMinute) : m.shown % nanosPerMinute = 0 := by
  simp only [LocalMinute.shown, nanosPerDay, nanosPerHour, nanosPerMinute, nanosPerSecond]
  omega

/-- A day fires when its day of month or its day of week does, if both are restricted, and
otherwise when both do. -/
def CronExpr.FiresOn (e : CronExpr) (d : Date) : Prop :=
  if e.dom.star = false ∧ e.dow.star = false then
    e.dom.contains d.day = true ∨ e.dow.contains (daysFromSunday d.number) = true
  else e.dom.contains d.day = true ∧ e.dow.contains (daysFromSunday d.number) = true

/-- **The documented rule**, for a local minute. -/
structure CronExpr.Fires (e : CronExpr) (m : LocalMinute) : Prop where
  minute : e.minute.contains m.minute = true
  hour : e.hour.contains m.hour = true
  month : e.month.contains m.date.month = true
  day : e.FiresOn m.date

variable {e : CronExpr} {zone : Zone}

theorem matchesLocal_shown {m : LocalMinute} : e.matchesLocal m.shown = true ↔ e.Fires m := by
  have hhour := m.hour_lt
  have hminute := m.minute_lt
  have hfields : m.shown / nanosPerDay = m.date.number ∧
      (m.shown / nanosPerHour % 24).toNat = m.hour ∧
      (m.shown / nanosPerMinute % 60).toNat = m.minute := by
    simp only [LocalMinute.shown, nanosPerDay, nanosPerHour, nanosPerMinute, nanosPerSecond]
    omega
  obtain ⟨hday, hshownHour, hshownMinute⟩ := hfields
  have hdays : (if (!e.dom.star) = true ∧ (!e.dow.star) = true then e.dom.contains m.date.day ||
      e.dow.contains (daysFromSunday m.date.number) else e.dom.contains m.date.day &&
      e.dow.contains (daysFromSunday m.date.number)) = true ↔ e.FiresOn m.date := by
    unfold CronExpr.FiresOn
    simp only [Bool.not_eq_true']
    split
    · exact Bool.or_eq_true_iff
    · exact Bool.and_eq_true_iff
  rw [CronExpr.matchesLocal, hday, hshownHour, hshownMinute, monthAndDay_number]
  simp only [CronExpr.matches, Bool.and_eq_true, and_assoc]
  constructor
  · rintro ⟨hm, hh, hmonth, hd⟩
    exact ⟨hm, hh, hmonth, hdays.mp hd⟩
  · intro h
    exact ⟨h.minute, h.hour, h.month, hdays.mpr h.day⟩

/-! ## The earliest match -/

/-- The instants after `after`, within as many minutes as the search steps through, at which a
minute starts that fires. -/
def upcoming (e : CronExpr) (zone : Zone) (after : Int) : Set Int :=
  {t | after < t ∧ t ≤ after + maxStepMinutes * nanosPerMinute ∧
    ∃ m : LocalMinute, zone.local t = m.shown ∧ e.Fires m}

/-- The whole minutes within the horizon are the ones the search steps through. -/
theorem mem_upcoming_iff (fixed : zone.Fixed) {after t : Int} : t ∈ upcoming e zone after ↔
    ∃ k : Nat, k < maxStepMinutes ∧ t = minuteStart zone after + nanosPerMinute +
      k * nanosPerMinute ∧ e.matchesLocal (zone.local t) = true := by
  have hoffset := fixed t after
  have hstart := @Int.emod_add_mul_ediv (zone.local after) nanosPerMinute
  have hminute : 0 ≤ zone.local after % nanosPerMinute ∧
      zone.local after % nanosPerMinute < nanosPerMinute := by
    simp only [nanosPerMinute, nanosPerSecond]
    omega
  have hlocal : zone.local t = zone.local after + (t - after) := by
    simp only [Zone.local, hoffset]
    omega
  constructor
  · rintro ⟨hafter, hhorizon, m, hm, hfires⟩
    have hmod := m.shown_mod
    rw [← hm, hlocal] at hmod
    refine ⟨((t - minuteStart zone after) / nanosPerMinute - 1).toNat, ?_, ?_, ?_⟩
    · simp only [minuteStart, nanosPerMinute, nanosPerSecond] at *
      omega
    · simp only [minuteStart, nanosPerMinute, nanosPerSecond] at *
      omega
    · rw [hm]
      exact matchesLocal_shown.mpr hfires
  · rintro ⟨k, hk, rfl, hmatches⟩
    have hmod : zone.local (minuteStart zone after + nanosPerMinute + k * nanosPerMinute) %
        nanosPerMinute = 0 := by
      rw [hlocal]
      simp only [minuteStart, nanosPerMinute, nanosPerSecond] at *
      omega
    obtain ⟨m, hm⟩ := exists_localMinute hmod
    refine ⟨?_, ?_, m, hm.symm, matchesLocal_shown.mp (hm ▸ hmatches)⟩
    · simp only [minuteStart, nanosPerMinute, nanosPerSecond] at *
      omega
    · simp only [minuteStart, nanosPerMinute, nanosPerSecond] at *
      omega

/-- **With a fixed offset, the next match is the earliest minute in the horizon that fires.** -/
theorem nextAfter_earliest (e : CronExpr) (fixed : zone.Fixed) (after : Instant) :
    (∀ t, e.nextAfter zone after = some t ↔ IsLeast (upcoming e zone after) t) ∧
      (e.nextAfter zone after = none ↔ upcoming e zone after = ∅) := by
  have hfloor := floorToMinute_eq_some.mpr (floorsTo_of_fixed fixed after)
  have hpos : 0 < nanosPerMinute := by decide
  rw [CronExpr.nextAfter, hfloor]
  refine ⟨fun t => ?_, ?_⟩
  · rw [search_eq_some]
    constructor
    · rintro ⟨k, hk, rfl, hmatches, hfirst⟩
      refine ⟨(mem_upcoming_iff fixed).mpr ⟨k, hk, rfl, hmatches⟩, fun t ht => ?_⟩
      obtain ⟨j, -, rfl, hmatch⟩ := (mem_upcoming_iff fixed).mp ht
      have hle : k ≤ j := by
        by_contra hlt
        rw [hfirst j (not_le.mp hlt)] at hmatch
        cases hmatch
      have hmul := mul_le_mul_of_nonneg_right (Int.ofNat_le.mpr hle) hpos.le
      exact add_le_add_right hmul _
    · rintro ⟨ht, hleast⟩
      obtain ⟨k, hk, rfl, hmatches⟩ := (mem_upcoming_iff fixed).mp ht
      refine ⟨k, hk, rfl, hmatches, fun j hj => ?_⟩
      by_contra hmatch
      have hle := hleast ((mem_upcoming_iff fixed).mpr
        ⟨j, by omega, rfl, by simpa using hmatch⟩)
      have hlt := mul_lt_mul_of_pos_right (Int.ofNat_lt.mpr hj) hpos
      omega
  · rw [← Option.not_isSome_iff_eq_none, search_isSome_iff, Set.eq_empty_iff_forall_notMem]
    simp only [mem_upcoming_iff fixed]
    constructor
    · rintro hnone t ⟨k, hk, rfl, hmatches⟩
      exact hnone ⟨k, hk, hmatches⟩
    · rintro hnone ⟨k, hk, hmatches⟩
      exact hnone _ ⟨k, hk, rfl, hmatches⟩

theorem nextAfter_earliest_minute : ∃ e, CronExpr.parse "1 * * * *" = .ok e ∧
    IsLeast (upcoming e Zone.utc 0) nanosPerMinute :=
  ⟨_, rfl, ((nextAfter_earliest _ (fun _ _ => rfl) 0).1 nanosPerMinute).mp (by decide)⟩

end Freshdock.Cron
