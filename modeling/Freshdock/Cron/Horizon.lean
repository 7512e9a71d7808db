import Freshdock.Cron.Earliest
import Freshdock.Cron.Grammar

/-!
# How far the search looks

A day that fires comes back: with its day of month in every year, or with its weekday in every
month (`fires_again`). So an expression that can fire on another day than the 29 February fires
within two years. One that fires on that day only does so again after four years, or after eight
when a century without a leap day lies between, and the search looks no further than 1464 days
(`nextAfter_isSome_iff_not_skipped`).
-/

set_option autoImplicit false

namespace Freshdock.Cron

open Calendar

variable {e : CronExpr} {zone : Zone} {text : String}

/-! ## Days that fire again -/

/-- All days of the month that have this number fire. -/
def CronExpr.FiresByDay (e : CronExpr) (d : Date) : Prop :=
  ∀ d' : Date, d'.month = d.month → d'.day = d.day → e.FiresOn d'

/-- All days of the month that are this weekday fire. -/
def CronExpr.FiresByWeekday (e : CronExpr) (d : Date) : Prop :=
  ∀ d' : Date, d'.month = d.month → (d'.number - d.number) % 7 = 0 → e.FiresOn d'

theorem daysFromSunday_congr {n n' : Int} (h : (n' - n) % 7 = 0) :
    daysFromSunday n' = daysFromSunday n := by
  unfold daysFromSunday
  omega

/-- **A day fires for its number in the month or for its weekday.** -/
theorem fires_again (parsed : CronExpr.parse text = .ok e) {d : Date} (h : e.FiresOn d) :
    e.FiresByDay d ∨ e.FiresByWeekday d := by
  obtain ⟨-, -, dom, -, dow, -, -, -, hdom, -, hdow⟩ := exprParse_eq_ok_iff.mp parsed
  have hanyDay (hstar : e.dom.star = true) (d' : Date) : e.dom.contains d'.day = true := by
    have hlength := (monthLength_le d'.year d'.month).2
    have hday := d'.day_le
    exact contains_of_star (by decide) (by decide) hdom hstar ⟨by omega, by omega⟩
  have hanyWeekday (hstar : e.dow.star = true) (d' : Date) :
      e.dow.contains (daysFromSunday d'.number) = true := by
    refine contains_of_star (by decide) (by decide) hdow hstar ⟨by omega, ?_⟩
    unfold daysFromSunday
    omega
  unfold CronExpr.FiresOn at h
  by_cases hrestricted : e.dom.star = false ∧ e.dow.star = false
  · rw [if_pos hrestricted] at h
    rcases h with hday | hweekday
    · refine .inl fun d' _ hsame => ?_
      rw [CronExpr.FiresOn, if_pos hrestricted, hsame]
      exact .inl hday
    · refine .inr fun d' _ hsame => ?_
      rw [CronExpr.FiresOn, if_pos hrestricted, daysFromSunday_congr hsame]
      exact .inr hweekday
  · rw [if_neg hrestricted] at h
    obtain ⟨hday, hweekday⟩ := h
    cases hstar : e.dow.star with
    | true =>
        refine .inl fun d' _ hsame => ?_
        rw [CronExpr.FiresOn, if_neg hrestricted, hsame]
        exact ⟨hday, hanyWeekday hstar d'⟩
    | false =>
        have hdomStar : e.dom.star = true := by
          cases hdomStar : e.dom.star with
          | true => rfl
          | false => exact absurd ⟨hdomStar, hstar⟩ hrestricted
        refine .inr fun d' _ hsame => ?_
        rw [CronExpr.FiresOn, if_neg hrestricted, daysFromSunday_congr hsame]
        exact ⟨hanyDay hdomStar d', hweekday⟩

/-- A minute at the same time of another day. -/
def LocalMinute.on (m : LocalMinute) (d : Date) : LocalMinute :=
  ⟨d, m.hour, m.minute, m.hour_lt, m.minute_lt⟩

theorem CronExpr.Fires.on {m : LocalMinute} (h : e.Fires m) {d : Date}
    (hmonth : d.month = m.date.month) (hday : e.FiresOn d) : e.Fires (m.on d) :=
  ⟨h.minute, h.hour, hmonth ▸ h.month, hday⟩

/-- **What fires on a day other than the 29 February fires in every year.** -/
theorem fires_in_year (parsed : CronExpr.parse text = .ok e) {m : LocalMinute} (h : e.Fires m)
    (hother : ¬ m.date.IsLeapDay) (year : Int) :
    ∃ m' : LocalMinute, e.Fires m' ∧ m'.date.year = year := by
  rcases fires_again parsed h.day with hday | hweekday
  · obtain ⟨d, hyear, hmonth, hnumber⟩ := exists_date_of_day hother year
    exact ⟨m.on d, h.on hmonth (hday d hmonth hnumber), hyear⟩
  · obtain ⟨d, hyear, hmonth, hsame, -⟩ :=
      exists_date_of_weekday year m.date.month_le m.date.number
    exact ⟨m.on d, h.on hmonth (hweekday d hmonth hsame), hyear⟩

/-! ## The horizon -/

/-- A minute fires within the horizon after the local time. -/
def FiresWithin (e : CronExpr) (shown : Int) : Prop :=
  ∃ m : LocalMinute, e.Fires m ∧ shown < m.shown ∧
    m.shown ≤ shown + maxStepMinutes * nanosPerMinute

theorem nextAfter_isSome_iff_firesWithin (fixed : zone.Fixed) {after : Int} :
    (e.nextAfter zone after).isSome ↔ FiresWithin e (zone.local after) := by
  have hnone := (nextAfter_earliest e fixed after).2
  rw [Option.isSome_iff_ne_none, ne_eq, hnone, ← ne_eq, ← Set.nonempty_iff_ne_empty]
  constructor
  · rintro ⟨t, hafter, hhorizon, m, hm, hfires⟩
    have hoffset := fixed t after
    refine ⟨m, hfires, ?_, ?_⟩ <;> simp only [← hm, Zone.local, hoffset] <;> omega
  · rintro ⟨m, hfires, hafter, hhorizon⟩
    have hoffset := fixed (m.shown - zone.offset after) after
    refine ⟨m.shown - zone.offset after, ?_, ?_, m, ?_, hfires⟩ <;>
      simp only [Zone.local, hoffset] at * <;> omega

theorem LocalMinute.shown_mem (m : LocalMinute) : m.date.number * nanosPerDay ≤ m.shown ∧
    m.shown < (m.date.number + 1) * nanosPerDay := by
  have hhour := m.hour_lt
  have hminute := m.minute_lt
  simp only [LocalMinute.shown, nanosPerDay, nanosPerHour, nanosPerMinute, nanosPerSecond]
  omega

/-- What fires in the year after the local time fires within the horizon. -/
theorem firesWithin_of_year {shown : Int} {d : Date} (hd : d.number = shown / nanosPerDay)
    {m : LocalMinute} (h : e.Fires m) (hyear : m.date.year = d.year + 1) :
    FiresWithin e shown := by
  have hlt : d.number < m.date.number := Date.number_lt_of_year_lt (by omega)
  have hstart := d.number_mem.1
  have hend := m.date.number_mem.2
  rw [hyear] at hend
  have htwo := (yearStart_add_le d.year 2).2
  have hsame : d.year + ((2 : Nat) : Int) = d.year + 1 + 1 := by omega
  rw [hsame] at htwo
  have hmem := m.shown_mem
  refine ⟨m, h, ?_, ?_⟩
  · simp only [nanosPerDay, nanosPerHour, nanosPerMinute, nanosPerSecond] at *
    omega
  · simp only [maxStepMinutes, nanosPerDay, nanosPerHour, nanosPerMinute, nanosPerSecond] at *
    omega

/-! ## Leap days -/

/-- The expression fires on no day but the 29 February. -/
def CronExpr.LeapDayOnly (e : CronExpr) : Prop := ∀ m : LocalMinute, e.Fires m → m.date.IsLeapDay

/-- The local time lies in the eight years around a century without a leap day: after all that
fires on the last 29 February, and more than the horizon before what fires on the next one. -/
def InSkippedLeapYear (e : CronExpr) (shown : Int) : Prop :=
  ∃ century : Int, century % 100 = 0 ∧ century % 400 ≠ 0 ∧
    (∀ m : LocalMinute, e.Fires m → m.date.year = century - 4 → m.shown ≤ shown) ∧
    ∀ m : LocalMinute, e.Fires m → m.date.year = century + 4 →
      shown + maxStepMinutes * nanosPerMinute < m.shown

/-- What fires on the 29 February only, fires on that of each leap year at the same time. -/
theorem CronExpr.LeapDayOnly.fires (only : e.LeapDayOnly) (parsed : CronExpr.parse text = .ok e)
    {m : LocalMinute} (h : e.Fires m) {year : Int} (leap : IsLeap year) :
    e.Fires (m.on (leapDay year leap)) := by
  obtain ⟨hmonth, hday⟩ := only m h
  rcases fires_again parsed h.day with hsame | hweekday
  · exact h.on hmonth.symm (hsame _ hmonth.symm hday.symm)
  · -- a weekday would also fire at the start of the month
    obtain ⟨d, -, hfebruary, hsame, hfirst⟩ :=
      exists_date_of_weekday year m.date.month_le m.date.number
    have hfires := only _ (h.on hfebruary (hweekday d hfebruary hsame))
    have hnot : d.day = 29 := hfires.2
    omega

theorem LocalMinute.shown_on (m : LocalMinute) (d : Date) :
    (m.on d).shown = m.shown + (d.number - m.date.number) * nanosPerDay := by
  simp only [LocalMinute.shown, LocalMinute.on, nanosPerDay, nanosPerHour, nanosPerMinute,
    nanosPerSecond]
  omega

/-- Minutes of leap days come in the order of their years. -/
theorem shown_on_leapDay_le {m : LocalMinute} (h : m.date.IsLeapDay) {year : Int}
    (leap : IsLeap year) : (m.date.year ≤ year → m.shown ≤ (m.on (leapDay year leap)).shown) ∧
      (year ≤ m.date.year → (m.on (leapDay year leap)).shown ≤ m.shown) := by
  have hnumber := h.number
  have hleap := (leapDay_isLeapDay year leap).number
  have hyear : (leapDay year leap).year = year := rfl
  rw [hyear] at hleap
  rw [m.shown_on]
  rcases lt_trichotomy m.date.year year with hlt | heq | hgt
  · have hnumbers : m.date.number < (leapDay year leap).number := Date.number_lt_of_year_lt hlt
    simp only [nanosPerDay, nanosPerHour, nanosPerMinute, nanosPerSecond]
    omega
  · rw [heq] at hnumber
    simp only [nanosPerDay, nanosPerHour, nanosPerMinute, nanosPerSecond]
    omega
  · have hnumbers : (leapDay year leap).number < m.date.number := Date.number_lt_of_year_lt hgt
    simp only [nanosPerDay, nanosPerHour, nanosPerMinute, nanosPerSecond]
    omega

/-- **Around a skipped leap year nothing fires within the horizon.** -/
theorem not_firesWithin_of_skipped (parsed : CronExpr.parse text = .ok e) (only : e.LeapDayOnly)
    {shown : Int} (skipped : InSkippedLeapYear e shown) : ¬ FiresWithin e shown := by
  obtain ⟨century, hcentury, hnot, hbefore, hlater⟩ := skipped
  rintro ⟨m, hfires, hafter, hhorizon⟩
  have hleap := (only m hfires).isLeap
  have hfour : m.date.year % 4 = 0 := hleap.1
  have hlast : IsLeap (century - 4) := ⟨by omega, by omega⟩
  have hnext : IsLeap (century + 4) := ⟨by omega, by omega⟩
  by_cases hearly : m.date.year ≤ century - 4
  · have hle := (shown_on_leapDay_le (only m hfires) hlast).1 hearly
    have hshown := hbefore _ (only.fires parsed hfires hlast) rfl
    omega
  by_cases hlate : century + 4 ≤ m.date.year
  · have hle := (shown_on_leapDay_le (only m hfires) hnext).2 hlate
    have hshown := hlater _ (only.fires parsed hfires hnext) rfl
    omega
  -- the only multiple of four in between is the century itself
  obtain rfl : m.date.year = century := by omega
  exact hnot (hleap.2 hcentury)

/-- Some leap year after any year. -/
theorem exists_leapYear_after (year : Int) : ∃ k : Nat, IsLeap (year + k) ∧ year < year + k := by
  by_cases h : IsLeap (year + (4 - (year % 4).toNat : Nat))
  · exact ⟨4 - (year % 4).toNat, h, by omega⟩
  · refine ⟨8 - (year % 4).toNat, ?_, by omega⟩
    unfold IsLeap at h ⊢
    omega

/-- The first leap year on whose 29 February the minute comes after the local time. -/
theorem exists_next_leapDay (m : LocalMinute) (shown : Int) :
    ∃ year, ∃ leap : IsLeap year, shown < (m.on (leapDay year leap)).shown ∧
      ∀ year' < year, ∀ leap' : IsLeap year', (m.on (leapDay year' leap')).shown ≤ shown := by
  obtain ⟨d, hd⟩ := exists_date (shown / nanosPerDay)
  have hcompare (year : Int) (leap : IsLeap year) :
      (year < d.year → (m.on (leapDay year leap)).shown ≤ shown) ∧
        (d.year < year → shown < (m.on (leapDay year leap)).shown) := by
    have hmem := (m.on (leapDay year leap)).shown_mem
    have hdate : (m.on (leapDay year leap)).date = leapDay year leap := rfl
    rw [hdate] at hmem
    constructor
    · intro hyear
      have hnumber : (leapDay year leap).number < d.number := Date.number_lt_of_year_lt hyear
      simp only [nanosPerDay, nanosPerHour, nanosPerMinute, nanosPerSecond] at *
      omega
    · intro hyear
      have hnumber : d.number < (leapDay year leap).number := Date.number_lt_of_year_lt hyear
      simp only [nanosPerDay, nanosPerHour, nanosPerMinute, nanosPerSecond] at *
      omega
  have hexists : ∃ k : Nat, ∃ leap : IsLeap (d.year + k),
      shown < (m.on (leapDay (d.year + k) leap)).shown := by
    obtain ⟨k, leap, hlt⟩ := exists_leapYear_after d.year
    exact ⟨k, leap, (hcompare _ leap).2 hlt⟩
  obtain ⟨leap, hnext⟩ := Nat.find_spec hexists
  refine ⟨d.year + Nat.find hexists, leap, hnext, fun year' hyear' leap' => ?_⟩
  by_cases hearly : year' < d.year
  · exact (hcompare year' leap').1 hearly
  · obtain ⟨k, rfl⟩ : ∃ k : Nat, year' = d.year + k := ⟨(year' - d.year).toNat, by omega⟩
    by_contra hshown
    exact Nat.find_min hexists (m := k) (by omega) ⟨leap', not_le.mp hshown⟩

/-- One 29 February to the one four years later. -/
theorem shown_on_leapDay_add_four (m : LocalMinute) {year : Int} (leap : IsLeap year)
    (last : IsLeap (year - 4)) : (m.on (leapDay year leap)).shown =
      (m.on (leapDay (year - 4) last)).shown + 1461 * nanosPerDay := by
  have hstart := yearStart_add_four last
  have hnumber := (leapDay_isLeapDay year leap).number
  have hnumber' := (leapDay_isLeapDay (year - 4) last).number
  have hyear : (leapDay year leap).year = year := rfl
  have hyear' : (leapDay (year - 4) last).year = year - 4 := rfl
  rw [Int.sub_add_cancel] at hstart
  rw [hyear] at hnumber
  rw [hyear'] at hnumber'
  rw [m.shown_on, m.shown_on]
  simp only [nanosPerDay, nanosPerHour, nanosPerMinute, nanosPerSecond]
  omega

/-- Two minutes of one 29 February. -/
theorem shown_le_of_isLeapDay {m m' : LocalMinute} (h : m.date.IsLeapDay) (h' : m'.date.IsLeapDay)
    (hyears : m.date.year = m'.date.year) : m.shown ≤ m'.shown + nanosPerDay := by
  have hmem := m.shown_mem
  have hmem' := m'.shown_mem
  have hnumber := h.number
  have hnumber' := h'.number
  rw [hyears] at hnumber
  simp only [nanosPerDay, nanosPerHour, nanosPerMinute, nanosPerSecond] at *
  omega

/-- **Away from skipped leap years, what fires on the 29 February does so within the horizon.** -/
theorem firesWithin_of_not_skipped (parsed : CronExpr.parse text = .ok e) (only : e.LeapDayOnly)
    {m : LocalMinute} (h : e.Fires m) {shown : Int} (hskipped : ¬ InSkippedLeapYear e shown) :
    FiresWithin e shown := by
  obtain ⟨year, leap, hnext, hfirst⟩ := exists_next_leapDay m shown
  have hfires := only.fires parsed h leap
  have hday : nanosPerDay ≤ maxStepMinutes * nanosPerMinute := by decide
  by_cases hlast : IsLeap (year - 4)
  · -- the last 29 February was four years ago
    have hbefore := hfirst (year - 4) (by omega) hlast
    have hyears : 1461 * nanosPerDay ≤ maxStepMinutes * nanosPerMinute := by decide
    refine ⟨_, hfires, hnext, ?_⟩
    rw [shown_on_leapDay_add_four m leap hlast]
    omega
  · -- four years ago was a century without a leap day
    have hfour : year % 4 = 0 := leap.1
    have hleap := leap
    unfold IsLeap at hlast hleap
    have hprevious : IsLeap (year - 4 - 4) := ⟨by omega, by omega⟩
    have hbefore := hfirst (year - 4 - 4) (by omega) hprevious
    by_contra hnone
    refine hskipped ⟨year - 4, by omega, by omega, fun m' hfires' hyear' => ?_,
      fun m' hfires' hyear' => ?_⟩
    · by_contra hafter
      have hle := @shown_le_of_isLeapDay m' (m.on (leapDay _ hprevious)) (only m' hfires')
        (leapDay_isLeapDay _ hprevious) hyear'
      exact hnone ⟨m', hfires', not_le.mp hafter, by omega⟩
    · by_contra hhorizon
      by_cases hafter : shown < m'.shown
      · exact hnone ⟨m', hfires', hafter, not_lt.mp hhorizon⟩
      · have hle := shown_le_of_isLeapDay (only _ hfires) (only m' hfires') (by
          rw [hyear']
          exact (Int.sub_add_cancel year 4).symm)
        exact hnone ⟨_, hfires, hnext, by omega⟩

/-- **An expression that can fire has a next match, except that one which fires on the 29 February
only has none around a skipped leap year.** -/
theorem nextAfter_isSome_iff_not_skipped (parsed : CronExpr.parse text = .ok e)
    (fixed : zone.Fixed) (possible : ∃ m, e.Fires m) (after : Instant) :
    (e.nextAfter zone after).isSome = true ↔
      ¬ (e.LeapDayOnly ∧ InSkippedLeapYear e (zone.local after)) := by
  rw [nextAfter_isSome_iff_firesWithin fixed]
  constructor
  · rintro hwithin ⟨only, skipped⟩
    exact not_firesWithin_of_skipped parsed only skipped hwithin
  · intro hnot
    by_cases only : e.LeapDayOnly
    · obtain ⟨m, hm⟩ := possible
      exact firesWithin_of_not_skipped parsed only hm fun skipped => hnot ⟨only, skipped⟩
    · obtain ⟨m, hm, hother⟩ : ∃ m, e.Fires m ∧ ¬ m.date.IsLeapDay := by
        simpa [CronExpr.LeapDayOnly] using only
      obtain ⟨d, hd⟩ := exists_date (zone.local after / nanosPerDay)
      obtain ⟨m', hm', hyear⟩ := fires_in_year parsed hm hother (d.year + 1)
      exact firesWithin_of_year hd hm' hyear

/-! ## Midnight of the 29 February -/

/-- What `0 0 29 2 *` parses to. -/
def leapMidnight : CronExpr :=
  ⟨⟨1#64, false⟩, ⟨1#64, false⟩, ⟨0x20000000#64, false⟩, ⟨4#64, false⟩, ⟨0x7f#64, true⟩⟩

theorem parse_leapMidnight : CronExpr.parse "0 0 29 2 *" = .ok leapMidnight := rfl

theorem fires_leapMidnight_iff {m : LocalMinute} :
    leapMidnight.Fires m ↔ m.hour = 0 ∧ m.minute = 0 ∧ m.date.IsLeapDay := by
  have hmidnight : ∀ v < 64, FieldSet.contains ⟨1#64, false⟩ v = true → v = 0 := by decide
  have hday : ∀ v < 64, FieldSet.contains ⟨0x20000000#64, false⟩ v = true → v = 29 := by decide
  have hmonth : ∀ v < 64, FieldSet.contains ⟨4#64, false⟩ v = true → v = 2 := by decide
  have hweekday : ∀ v < 7, FieldSet.contains ⟨0x7f#64, true⟩ v = true := by decide
  have hhour := m.hour_lt
  have hminute := m.minute_lt
  have hle := m.date.month_le
  have hlength := (monthLength_le m.date.year m.date.month).2
  have hbound := m.date.day_le
  constructor
  · intro h
    have hdom := h.day
    rw [CronExpr.FiresOn, if_neg (by simp [leapMidnight])] at hdom
    exact ⟨hmidnight _ (by omega) h.hour, hmidnight _ (by omega) h.minute,
      hmonth _ (by omega) h.month, hday _ (by omega) hdom.1⟩
  · rintro ⟨hhour, hminute, hmonth, hday⟩
    refine ⟨?_, ?_, ?_, ?_⟩
    · rw [hminute]
      decide
    · rw [hhour]
      decide
    · rw [hmonth]
      decide
    · rw [CronExpr.FiresOn, if_neg (by simp [leapMidnight]), hday]
      refine ⟨by decide, hweekday _ ?_⟩
      unfold daysFromSunday
      omega

theorem leapMidnight_leapDayOnly : leapMidnight.LeapDayOnly := fun _ h =>
  (fires_leapMidnight_iff.mp h).2.2

theorem shown_of_leapMidnight {m : LocalMinute} (h : leapMidnight.Fires m) :
    m.shown = (yearStart m.date.year - 719528 + 59) * nanosPerDay := by
  obtain ⟨hhour, hminute, hleap⟩ := fires_leapMidnight_iff.mp h
  simp only [LocalMinute.shown, hhour, hminute, hleap.number]
  omega

/-- It fires at the midnight that starts the 29 February of any leap year. -/
theorem exists_leapMidnight {year : Int} (leap : IsLeap year) :
    ∃ m, leapMidnight.Fires m ∧ m.date.year = year :=
  ⟨⟨leapDay year leap, 0, 0, by decide, by decide⟩,
    fires_leapMidnight_iff.mpr ⟨rfl, rfl, leapDay_isLeapDay year leap⟩, rfl⟩

/-- The day after the 29 February 2024 lies in no gap of eight years. -/
theorem not_inSkippedLeapYear_2024 : ¬ InSkippedLeapYear leapMidnight
    (((leapDay 2024 (by decide)).number + 1) * nanosPerDay) := by
  have hnumber := (leapDay_isLeapDay 2024 (by decide)).number
  have hyear : (leapDay 2024 (by decide)).year = 2024 := rfl
  rintro ⟨century, hcentury, hnot, hbefore, hlater⟩
  have hlast : IsLeap (century - 4) := ⟨by omega, by omega⟩
  have hnext : IsLeap (century + 4) := ⟨by omega, by omega⟩
  obtain ⟨m, hm, hmyear⟩ := exists_leapMidnight hlast
  obtain ⟨m', hm', hmyear'⟩ := exists_leapMidnight hnext
  have hle := hbefore m hm hmyear
  have hlt := hlater m' hm' hmyear'
  rw [shown_of_leapMidnight hm, hmyear, hnumber, hyear] at hle
  rw [shown_of_leapMidnight hm', hmyear', hnumber, hyear] at hlt
  simp only [yearStart, maxStepMinutes, nanosPerDay, nanosPerHour, nanosPerMinute,
    nanosPerSecond] at hle hlt
  omega

/-- After the 29 February 2024 the next one is found. -/
theorem leapMidnight_found_after_2024 : (leapMidnight.nextAfter Zone.utc
    (((leapDay 2024 (by decide)).number + 1) * nanosPerDay)).isSome = true := by
  obtain ⟨m, hm, -⟩ := @exists_leapMidnight 2024 (by decide)
  have hskipped := nextAfter_isSome_iff_not_skipped parse_leapMidnight
    (fun _ _ => rfl : Zone.utc.Fixed) ⟨m, hm⟩ (((leapDay 2024 (by decide)).number + 1) * nanosPerDay)
  refine hskipped.mpr fun ⟨_, skipped⟩ => not_inSkippedLeapYear_2024 ?_
  rwa [Zone.local, show Zone.utc.offset _ = 0 from rfl, Int.add_zero] at skipped

/-- From March 2096 on there is no next midnight of a 29 February within the horizon. -/
theorem no_next_midnight_of_leapDay : ∃ e, CronExpr.parse "0 0 29 2 *" = .ok e ∧
    (∃ m, e.Fires m) ∧
    e.nextAfter Zone.utc (((leapDay 2096 (by decide)).number + 1) * nanosPerDay) = none := by
  obtain ⟨m, hm, -⟩ := @exists_leapMidnight 2096 (by decide)
  refine ⟨leapMidnight, parse_leapMidnight, ⟨m, hm⟩, ?_⟩
  have fixed : Zone.utc.Fixed := fun _ _ => rfl
  rw [← Option.not_isSome_iff_eq_none, nextAfter_isSome_iff_firesWithin fixed]
  refine not_firesWithin_of_skipped parse_leapMidnight leapMidnight_leapDayOnly
    ⟨2100, by decide, by decide, fun m hm hyear => ?_, fun m hm hyear => ?_⟩
  · rw [shown_of_leapMidnight hm, hyear]
    decide
  · rw [shown_of_leapMidnight hm, hyear]
    decide

end Freshdock.Cron
