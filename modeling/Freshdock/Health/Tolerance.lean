import Freshdock.Health.Verdicts

/-!
# Isolated probe errors

A probe that fails is retried, unless the deadline of the path seen last has passed. For a
container without a healthcheck that deadline is the grace period, which is also what the next
good report would accept the container on. So an isolated error rolls the update back exactly
where it falls on the first probe at or past the grace period.
-/

set_option autoImplicit false

namespace Freshdock.Health

open Interaction Docker

/-- The container is up whenever it can be asked, and a probe that fails is followed by one that
finds it up without a healthcheck. -/
structure IsolatedErrors (script : Nat → Report) : Prop where
  up : ∀ k state, stateOf (script k) = .ok state →
    state = .healthHealthy ∨ state = .runningNoHealthcheck
  isolated : ∀ k e, stateOf (script k) = .error e →
    stateOf (script (k + 1)) = .ok .runningNoHealthcheck

/-- The gate tolerates the errors of the script: no run of it times out, and with a poll interval
and fuel for its deadlines it accepts the container. -/
structure Tolerates (cfg : HealthConfig) (script : Nat → Report) : Prop where
  noTimeout : ∀ (docker : Docker) (id : String) (start : Nat) (v : HealthOutcome) (s : Watch),
    Returns (scripted script) (waitForHealth docker id cfg) ⟨start, 0⟩ v s → v ≠ .timeout
  accepts : ∀ (docker : Docker) (id : String) (start : Nat), 0 < cfg.pollInterval →
    max cfg.healthTimeout cfg.gracePeriod < docker.polls →
      ∃ s, Returns (scripted script) (waitForHealth docker id cfg) ⟨start, 0⟩ .healthy s

/-- A probe fails on a deadline: the first probe where the health timeout is zero, or the first
probe at or past the grace period, with no healthy report before it. -/
def FailsOnDeadline (cfg : HealthConfig) (script : Nat → Report) : Prop :=
  (cfg.healthTimeout = 0 ∧ ∃ e, stateOf (script 0) = .error e) ∨
    ∃ k e, stateOf (script (k + 1)) = .error e ∧ elapsed cfg k < cfg.gracePeriod ∧
      cfg.gracePeriod ≤ elapsed cfg (k + 1) ∧ ∀ j ≤ k, stateOf (script j) ≠ .ok .healthHealthy

variable {cfg : HealthConfig} {script : Nat → Report}

/-- A report before an error is one of the container without a healthcheck, or healthy. -/
theorem IsolatedErrors.before (isolated : IsolatedErrors script) {k : Nat} {e : DockerError}
    (failed : stateOf (script (k + 1)) = .error e)
    (unhealthy : stateOf (script k) ≠ .ok .healthHealthy) :
    stateOf (script k) = .ok .runningNoHealthcheck := by
  cases report : stateOf (script k) with
  | error e' =>
      have next := isolated.isolated k e' report
      rw [failed] at next
      cases next
  | ok state =>
      rcases isolated.up k state report with rfl | rfl
      · exact absurd report unhealthy
      · rfl

theorem elapsed_mono (cfg : HealthConfig) {j k : Nat} (h : j ≤ k) : elapsed cfg j ≤ elapsed cfg k :=
  Nat.mul_le_mul_right _ h

/-- A gate that times out on isolated errors does so on a deadline. -/
theorem failsOnDeadline_of_timeout (isolated : IsolatedErrors script) {last : Nat}
    (ends : EndsAt cfg script last .timeout) : FailsOnDeadline cfg script := by
  cases ends.verdict with
  | unready report _ =>
      rcases report with report | report
      · rcases isolated.up last _ report with h | h <;> cases h
      · rcases isolated.up last _ report with h | h <;> cases h
  | @failing e deadline report path late =>
      cases last with
      | zero =>
          rw [path.unique deadlineAt_zero, elapsed, Nat.zero_mul] at late
          exact .inl ⟨Nat.le_zero.mp late, e, report⟩
      | succ k =>
          have unhealthy (j : Nat) (hj : j ≤ k) : stateOf (script j) ≠ .ok .healthHealthy :=
            fun report => ends.undecided j (Nat.lt_succ_of_le hj) _ (.healthy report)
          have up := isolated.before report (unhealthy k le_rfl)
          have early : ¬ cfg.gracePeriod ≤ elapsed cfg k :=
            fun late => ends.undecided k (Nat.lt_succ_self k) _ (.grace up late)
          have path' : DeadlineAt cfg script (k + 1) cfg.gracePeriod :=
            deadlineAt_succ (by simp [pathOf, up])
          rw [path.unique path'] at late
          exact .inr ⟨k, e, report, not_le.mp early, late, unhealthy⟩

/-- **A failure on a deadline times the gate out.** -/
theorem exists_timeout_of_failsOnDeadline (isolated : IsolatedErrors script)
    (fails : FailsOnDeadline cfg script) : ∃ last, EndsAt cfg script last .timeout := by
  by_cases first : cfg.healthTimeout = 0 ∧ ∃ e, stateOf (script 0) = .error e
  · obtain ⟨hzero, e, report⟩ := first
    refine ⟨0, .failing report deadlineAt_zero (by simp [hzero]), fun j hj => ?_⟩
    exact absurd hj (Nat.not_lt_zero j)
  · obtain ⟨k, e, report, early, late, unhealthy⟩ := fails.resolve_left first
    have up := isolated.before report (unhealthy k le_rfl)
    refine ⟨k + 1, .failing report (deadlineAt_succ (by simp [pathOf, up])) late, ?_⟩
    intro j hj w verdict
    have hj := Nat.le_of_lt_succ hj
    have earlier : elapsed cfg j < cfg.gracePeriod := lt_of_le_of_lt (elapsed_mono cfg hj) early
    cases verdict with
    | healthy report => exact unhealthy j hj report
    | exited report => rcases isolated.up j _ report with h | h <;> cases h
    | unready report _ =>
        rcases report with report | report
        · rcases isolated.up j _ report with h | h <;> cases h
        · rcases isolated.up j _ report with h | h <;> cases h
    | grace _ late => exact absurd late (not_le.mpr earlier)
    | @failing e deadline report path late =>
        cases j with
        | zero =>
            rw [path.unique deadlineAt_zero, elapsed, Nat.zero_mul] at late
            exact first ⟨Nat.le_zero.mp late, e, report⟩
        | succ i =>
            have up := isolated.before report (unhealthy i (by omega))
            have path' : DeadlineAt cfg script (i + 1) cfg.gracePeriod :=
              deadlineAt_succ (by simp [pathOf, up])
            rw [path.unique path'] at late
            exact absurd late (not_le.mpr earlier)

/-- The gate tolerates what it does not time out on. -/
theorem tolerates_of_noTimeout (isolated : IsolatedErrors script)
    (never : ∀ last, ¬ EndsAt cfg script last .timeout) : Tolerates cfg script where
  noTimeout docker id start v s returns := by
    rintro rfl
    obtain ⟨last, -, ends, -⟩ := returns_waitForHealth_iff.mp returns
    exact never last ends
  accepts docker id start hpoll fuel := by
    obtain ⟨last, v, ends, hlast, -⟩ := exists_endsAt hpoll script
    have hhealthy : v = .healthy := by
      cases v with
      | healthy => rfl
      | timeout => exact absurd ends (never last)
      | crashed =>
          obtain ⟨code, report⟩ := ends.sound.crashed.mp rfl
          rcases isolated.up last _ report with h | h <;> cases h
    subst hhealthy
    exact ⟨_, returns_waitForHealth_iff.mpr ⟨last, lt_of_le_of_lt hlast fuel, ends, rfl⟩⟩

/-- **Isolated errors are tolerated exactly where none falls on a deadline.** -/
theorem tolerates_iff (isolated : IsolatedErrors script) :
    Tolerates cfg script ↔ ¬ FailsOnDeadline cfg script := by
  constructor
  · intro tolerates fails
    obtain ⟨last, ends⟩ := exists_timeout_of_failsOnDeadline isolated fails
    have returns := (@returns_waitForHealth_iff cfg script ⟨"1.44", none, last + 1⟩ "new" 0 .timeout
      _).mpr ⟨last, Nat.lt_succ_self last, ends, rfl⟩
    exact tolerates.noTimeout _ _ _ _ _ returns rfl
  · intro inTime
    exact tolerates_of_noTimeout isolated fun last ends =>
      inTime (failsOnDeadline_of_timeout isolated ends)

/-- The probe `n` fails, and every other finds the container up. -/
def blinkAt (n k : Nat) : Report :=
  if k = n then .error (.bollard ⟨.other, "request timed out"⟩) else steadyReport

theorem isolatedErrors_blinkAt (n : Nat) : IsolatedErrors (blinkAt n) where
  up k state h := by
    unfold blinkAt at h
    split at h
    · cases h
    · cases h
      exact .inr rfl
  isolated k e h := by
    unfold blinkAt at h ⊢
    split at h
    · next hk =>
      subst hk
      rw [if_neg (Nat.succ_ne_self k)]
      rfl
    · cases h

theorem blinkAt_eq_error {n k : Nat} {e : DockerError} (failed : stateOf (blinkAt n k) = .error e) :
    k = n := by
  unfold blinkAt at failed
  split at failed
  · assumption
  · cases failed

/-- A probe that fails three seconds after the start is tolerated. -/
theorem tolerates_early_blink : Tolerates .default (blinkAt 3) := by
  refine (tolerates_iff (isolatedErrors_blinkAt 3)).mpr ?_
  rintro (⟨hzero, -⟩ | ⟨k, e, failed, -, late, -⟩)
  · exact absurd hzero (by decide)
  · -- the probe that fails is the third, long before the end of the grace period
    have hk := blinkAt_eq_error failed
    rw [hk] at late
    exact absurd late (by decide)

/-- One failing probe in an otherwise steady run rolls the default gate back. -/
theorem blinkAtGrace_times_out :
    IsolatedErrors (blinkAt 10) ∧ ¬ Tolerates .default (blinkAt 10) := by
  refine ⟨isolatedErrors_blinkAt 10, fun tolerates => ?_⟩
  have hout : (play (scripted (blinkAt 10)) (waitForHealth ⟨"1.44", none, 11⟩ "new" .default)
      ⟨0, 0⟩).out = some .timeout := by decide +kernel
  exact tolerates.noTimeout _ _ _ _ _ ⟨hout, rfl⟩ rfl

end Freshdock.Health
