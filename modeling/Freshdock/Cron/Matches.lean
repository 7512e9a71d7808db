import Freshdock.Cron
import Mathlib.Algebra.Order.Ring.Int
import Mathlib.Tactic.Ring

/-!
# The matches of an expression

What the search for the next match finds, without the search: the first whole minute after an
instant whose local fields match (`search_eq_some`). The search starts from
the instant with its local seconds and nanoseconds set to zero, which exists when these local times
resolve (`floorToMinute_eq_some`). In a zone with a fixed offset it always
does, and the next match is the least match after the instant (`nextAfter_isLeast`).
-/

set_option autoImplicit false

namespace Freshdock.Cron

variable {zone : Zone} {e : CronExpr}

/-! ## Searching -/

/-- **The search finds the first matching minute.** -/
theorem search_eq_some {steps : Nat} {t f : Instant} : e.search zone steps t = some f ↔
    ∃ k < steps, f = t + k * nanosPerMinute ∧ e.matchesLocal (zone.local f) = true ∧
      ∀ j < k, e.matchesLocal (zone.local (t + j * nanosPerMinute)) = false := by
  induction steps generalizing t with
  | zero => simp [CronExpr.search]
  | succ steps ih =>
      rw [CronExpr.search]
      cases hmatch : e.matchesLocal (zone.local t) with
      | true =>
          simp only [ite_true, Option.some.injEq]
          constructor
          · rintro rfl
            exact ⟨0, by omega, by simp, hmatch, by omega⟩
          · rintro ⟨k, -, rfl, -, hfirst⟩
            cases k with
            | zero => simp
            | succ k =>
                have hzero := hfirst 0 (by omega)
                simp [hmatch] at hzero
      | false =>
          simp only [Bool.false_eq_true, if_false, ih]
          have shift (j : Nat) : t + nanosPerMinute + j * nanosPerMinute =
              t + ((j + 1 : Nat) : Int) * nanosPerMinute := by
            push_cast
            ring
          constructor
          · rintro ⟨k, hk, rfl, hmatches, hfirst⟩
            refine ⟨k + 1, by omega, shift k, hmatches, fun j hj => ?_⟩
            cases j with
            | zero => simpa using hmatch
            | succ j =>
                rw [← shift j]
                exact hfirst j (by omega)
          · rintro ⟨k, hk, rfl, hmatches, hfirst⟩
            cases k with
            | zero =>
                rw [Nat.cast_zero, zero_mul, add_zero, hmatch] at hmatches
                cases hmatches
            | succ k =>
                refine ⟨k, by omega, (shift k).symm, hmatches, fun j hj => ?_⟩
                rw [shift j]
                exact hfirst (j + 1) (by omega)

/-- Some minute among the next ones matches. -/
theorem search_isSome_iff {steps : Nat} {t : Instant} : (e.search zone steps t).isSome ↔
    ∃ k < steps, e.matchesLocal (zone.local (t + (k : Nat) * nanosPerMinute)) = true := by
  constructor
  · intro h
    obtain ⟨f, hf⟩ := Option.isSome_iff_exists.mp h
    obtain ⟨k, hk, rfl, hmatches, -⟩ := search_eq_some.mp hf
    exact ⟨k, hk, hmatches⟩
  · rintro ⟨k, hk, hmatches⟩
    -- the least matching minute is the one that is found
    have hexists : ∃ k : Nat, e.matchesLocal (zone.local (t + k * nanosPerMinute)) = true :=
      ⟨k, hmatches⟩
    have hle : Nat.find hexists ≤ k := Nat.find_le hmatches
    refine Option.isSome_iff_exists.mpr ⟨_, search_eq_some.mpr
      ⟨Nat.find hexists, by omega, rfl, Nat.find_spec hexists, fun j hj => ?_⟩⟩
    exact Bool.eq_false_iff.mpr (Nat.find_min hexists hj)

/-! ## The start of the minute -/

/-- A local time with its seconds set to zero. -/
def zeroSeconds (shown : Int) : Int := shown - shown / nanosPerSecond % 60 * nanosPerSecond

/-- A local time with its nanoseconds set to zero. -/
def zeroNanos (shown : Int) : Int := shown - shown % nanosPerSecond

/-- The instant is what is left when the local seconds and then the nanoseconds of `after` are set
to zero, where both of these local times resolve. -/
def FloorsTo (zone : Zone) (after t : Instant) : Prop :=
  ∃ t', zone.fromLocal (zeroSeconds (zone.local after)) = some t' ∧
    zone.fromLocal (zeroNanos (zone.local t')) = some t

theorem floorToMinute_eq_some {after t : Instant} :
    floorToMinute zone after = some t ↔ FloorsTo zone after t := by
  unfold floorToMinute FloorsTo zeroSeconds zeroNanos
  dsimp only
  cases zone.fromLocal (zone.local after -
      zone.local after / nanosPerSecond % 60 * nanosPerSecond) with
  | none => simp
  | some t' => simp

/-- A match among the minutes that follow the minute that starts at `start`. -/
def MatchFrom (e : CronExpr) (zone : Zone) (start : Instant) : Prop :=
  ∃ k < maxStepMinutes,
    e.matchesLocal (zone.local (start + ((k : Nat) + 1 : Nat) * nanosPerMinute)) = true

/-- The start of the minute of the instant is found, and a match follows it. -/
def Findable (e : CronExpr) (zone : Zone) (after : Int) : Prop :=
  ∃ t, FloorsTo zone after t ∧ MatchFrom e zone t

theorem nextAfter_isSome_iff {after : Instant} : (e.nextAfter zone after).isSome ↔
    Findable e zone after := by
  have shift (t : Instant) (k : Nat) :
      t + nanosPerMinute + k * nanosPerMinute = t + ((k + 1 : Nat) : Int) * nanosPerMinute := by
    push_cast
    ring
  unfold CronExpr.nextAfter Findable
  cases hfloor : floorToMinute zone after with
  | none =>
      refine ⟨nofun, ?_⟩
      rintro ⟨t, ht, -⟩
      rw [← floorToMinute_eq_some] at ht
      exact absurd (hfloor.symm.trans ht) (by simp)
  | some t =>
      simp only [search_isSome_iff, shift]
      constructor
      · intro h
        exact ⟨t, floorToMinute_eq_some.mp hfloor, h⟩
      · rintro ⟨t', ht', h⟩
        rw [← floorToMinute_eq_some] at ht'
        obtain rfl : t = t' := Option.some.inj (hfloor.symm.trans ht')
        exact h

/-- A next match is a match. -/
theorem matches_of_nextAfter {after f : Instant} (h : e.nextAfter zone after = some f) :
    e.matchesLocal (zone.local f) = true := by
  unfold CronExpr.nextAfter at h
  split at h
  · cases h
  · obtain ⟨k, -, -, hmatches, -⟩ := search_eq_some.mp h
    exact hmatches

/-- The start of the minute that the local clock shows at `t`, by subtraction. -/
def minuteStart (zone : Zone) (t : Int) : Int := t - zone.local t % nanosPerMinute

/-- The offset does not change from the start of the minute to `t`. -/
def SteadyMinute (zone : Zone) (t : Int) : Prop :=
  ∀ t' : Int, minuteStart zone t ≤ t' → t' ≤ t → zone.offset t' = zone.offset t

/-- The local times of an instant with its seconds, and with its nanoseconds too, set to zero
resolve. -/
def StartResolves (zone : Zone) (after : Int) : Prop :=
  (zone.fromLocal (zeroSeconds (zone.local after))).isSome ∧
    (zone.fromLocal (zeroNanos (zeroSeconds (zone.local after)))).isSome

/-- **In a steady minute the start is found when the two local times that lead to it resolve.** -/
theorem floorsTo_iff_of_steady {after t : Int} (steady : SteadyMinute zone after) :
    FloorsTo zone after t ↔ t = minuteStart zone after ∧ StartResolves zone after := by
  have hbounds : 0 ≤ zone.local after % nanosPerSecond ∧
      zone.local after % nanosPerSecond ≤ zone.local after % nanosPerMinute := by
    simp only [nanosPerMinute, nanosPerSecond]
    omega
  have hsecond : zone.local (minuteStart zone after + zone.local after % nanosPerSecond) =
      zeroSeconds (zone.local after) := by
    have hoffset := steady (minuteStart zone after + zone.local after % nanosPerSecond)
      (by omega) (by unfold minuteStart; omega)
    rw [Zone.local, hoffset]
    simp only [minuteStart, zeroSeconds, Zone.local, nanosPerMinute, nanosPerSecond]
    omega
  have hstart : zone.local (minuteStart zone after) =
      zeroNanos (zeroSeconds (zone.local after)) := by
    have hoffset := steady (minuteStart zone after) le_rfl (by unfold minuteStart; omega)
    rw [Zone.local, hoffset]
    simp only [minuteStart, zeroSeconds, zeroNanos, Zone.local, nanosPerMinute, nanosPerSecond]
    omega
  -- the answers are the instants of the minute that show these times
  have answer {shown t t' : Int} (h : zone.fromLocal shown = some t) (ht' : zone.local t' = shown) :
      t = t' := (zone.fromLocal_only shown t h t' ht').symm
  constructor
  · rintro ⟨t', hzero, hfloor⟩
    obtain rfl := answer hzero hsecond
    rw [hsecond] at hfloor
    exact ⟨answer hfloor hstart, by rw [hzero]; rfl, by rw [hfloor]; rfl⟩
  · rintro ⟨rfl, hzero, hfloor⟩
    obtain ⟨t', ht'⟩ := Option.isSome_iff_exists.mp hzero
    obtain ⟨t, ht⟩ := Option.isSome_iff_exists.mp hfloor
    obtain rfl := answer ht' hsecond
    obtain rfl := answer ht hstart
    refine ⟨_, ht', ?_⟩
    rwa [hsecond]

/-- Some minute within the horizon after the instant matches. -/
def HasMatch (e : CronExpr) (zone : Zone) (after : Int) : Prop :=
  MatchFrom e zone (minuteStart zone after)

/-- **In a steady minute with a match after it, the match is found when the two local times that
lead to the start of the minute resolve.** -/
theorem findable_iff_of_steady {after : Int} (steady : SteadyMinute zone after)
    (hmatch : HasMatch e zone after) : Findable e zone after ↔ StartResolves zone after := by
  constructor
  · rintro ⟨t, floors, -⟩
    exact ((floorsTo_iff_of_steady steady).mp floors).2
  · intro resolves
    exact ⟨_, (floorsTo_iff_of_steady steady).mpr ⟨rfl, resolves⟩, hmatch⟩

/-! ## Fixed offsets -/

/-- The instant is the start of a local minute that matches. -/
def IsMatch (e : CronExpr) (zone : Zone) (t : Int) : Prop :=
  zone.local t % nanosPerMinute = 0 ∧ e.matchesLocal (zone.local t) = true

/-- The offset is the same at all instants. -/
def Zone.Fixed (zone : Zone) : Prop := ∀ t t' : Int, zone.offset t = zone.offset t'

theorem floorsTo_of_fixed (fixed : zone.Fixed) (after : Int) :
    FloorsTo zone after (minuteStart zone after) := by
  -- a local time is that of the instant as far from `after` as it is from the time of `after`
  have resolves (shown : Int) : (zone.fromLocal shown).isSome := by
    have hshown : shown - zone.offset after + zone.offset (shown - zone.offset after) = shown := by
      have hoffset := fixed (shown - zone.offset after) after
      omega
    rw [← hshown, zone.fromLocal_fixed fixed]
    rfl
  exact (floorsTo_iff_of_steady fun t' _ _ => fixed t' after).mpr ⟨rfl, resolves _, resolves _⟩

/-- **With a fixed offset, the next match is the least match after the instant.** -/
theorem nextAfter_isLeast (fixed : zone.Fixed) {after f : Int}
    (h : e.nextAfter zone after = some f) : IsLeast {m | IsMatch e zone m ∧ after < m} f := by
  unfold CronExpr.nextAfter at h
  rw [floorToMinute_eq_some.mpr (floorsTo_of_fixed fixed after)] at h
  obtain ⟨k, -, rfl, hmatches, hfirst⟩ := search_eq_some.mp h
  -- all minutes of the search, and all matches, are whole minutes away from the start
  have start : zone.local (minuteStart zone after) % nanosPerMinute = 0 := by
    have hoffset := fixed (minuteStart zone after) after
    rw [Zone.local, hoffset]
    simp only [minuteStart, Zone.local, nanosPerMinute, nanosPerSecond]
    omega
  have hafter : after < minuteStart zone after + nanosPerMinute := by
    simp only [minuteStart, nanosPerMinute, nanosPerSecond]
    omega
  have hpos : 0 < nanosPerMinute := by decide
  have shown (t : Int) : zone.local t = zone.local (minuteStart zone after) +
      (t - minuteStart zone after) := by
    have hoffset := fixed t (minuteStart zone after)
    simp only [Zone.local, hoffset]
    omega
  refine ⟨⟨⟨?_, hmatches⟩, ?_⟩, ?_⟩
  · rw [shown]
    have hmul : minuteStart zone after + nanosPerMinute + k * nanosPerMinute -
        minuteStart zone after = (k + 1) * nanosPerMinute := by ring
    rw [hmul, Int.add_mul_emod_self_right, start]
  · have hk : 0 ≤ (k : Int) * nanosPerMinute := mul_nonneg (Int.natCast_nonneg k) hpos.le
    omega
  · rintro m ⟨⟨hminute, hmatch⟩, hm⟩
    have hdvd : nanosPerMinute ∣ m - minuteStart zone after := by
      rw [shown m] at hminute
      have hstart := Int.dvd_of_emod_eq_zero start
      exact (Int.dvd_add_right hstart).mp (Int.dvd_of_emod_eq_zero hminute)
    obtain ⟨j, hj⟩ := hdvd
    have hstartLe : minuteStart zone after ≤ after := by
      simp only [minuteStart, nanosPerMinute, nanosPerSecond]
      omega
    have hjpos : 0 < j := by
      by_contra hneg
      have := mul_nonpos_of_nonneg_of_nonpos hpos.le (not_lt.mp hneg)
      omega
    obtain ⟨n, rfl⟩ : ∃ n : Nat, j = n + 1 := ⟨(j - 1).toNat, by omega⟩
    by_contra hlt
    have hn : n < k := by
      by_contra hge
      have hmul : (k : Int) * nanosPerMinute ≤ n * nanosPerMinute :=
        mul_le_mul_of_nonneg_right (by exact_mod_cast not_lt.mp hge) hpos.le
      have : nanosPerMinute * ((n : Int) + 1) = n * nanosPerMinute + nanosPerMinute := by ring
      omega
    have hm' : m = minuteStart zone after + nanosPerMinute + n * nanosPerMinute := by
      have : nanosPerMinute * ((n : Int) + 1) = n * nanosPerMinute + nanosPerMinute := by ring
      omega
    rw [hm', hfirst n hn] at hmatch
    cases hmatch

end Freshdock.Cron
