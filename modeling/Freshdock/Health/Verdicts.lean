import Freshdock.Health.OneShotExit

/-!
# The verdicts of the health gate

Against a clock that advances by its sleeps, the `k`th probe is made `k` poll intervals after the
start. So the sequence of the probes' reports alone decides which probe is the last and which
verdict it gives: `VerdictAt` says what the report of a probe decides at its time, and the gate
ends at the first probe that decides (`returns_waitForHealth`).

**Which deadline.** A failing probe is given up on at the deadline of the path that was seen last,
the healthcheck's before any was seen. `DeadlineAt` says so of the reports before a probe.
-/

set_option autoImplicit false

namespace Freshdock.Health

open Interaction Docker

/-! ## What a probe decides -/

/-- The deadline of the path that a report shows. -/
def pathOf (cfg : HealthConfig) (r : Report) : Option Duration :=
  match stateOf r with
  | .ok .healthStarting | .ok .healthUnhealthy => some cfg.healthTimeout
  | .ok .runningNoHealthcheck => some cfg.gracePeriod
  | _ => none

/-- The path seen last before the `k`th probe has this deadline. -/
def DeadlineAt (cfg : HealthConfig) (script : Nat → Report) (k : Nat) (deadline : Duration) :
    Prop :=
  (deadline = cfg.healthTimeout ∧ ∀ j < k, pathOf cfg (script j) = none) ∨
    ∃ i < k, pathOf cfg (script i) = some deadline ∧
      ∀ j, i < j → j < k → pathOf cfg (script j) = none

/-- The time of the `k`th probe, since the start. -/
def elapsed (cfg : HealthConfig) (k : Nat) : Duration := k * cfg.pollInterval

/-- The `k`th probe decides the gate. -/
inductive VerdictAt (cfg : HealthConfig) (script : Nat → Report) (k : Nat) : HealthOutcome → Prop
    where
  | healthy (report : stateOf (script k) = .ok .healthHealthy) : VerdictAt cfg script k .healthy
  | exited {code : Int} (report : stateOf (script k) = .ok (.exited code)) :
      VerdictAt cfg script k .crashed
  | unready (report : stateOf (script k) = .ok .healthStarting ∨
        stateOf (script k) = .ok .healthUnhealthy)
      (late : cfg.healthTimeout ≤ elapsed cfg k) : VerdictAt cfg script k .timeout
  | grace (report : stateOf (script k) = .ok .runningNoHealthcheck)
      (late : cfg.gracePeriod ≤ elapsed cfg k) : VerdictAt cfg script k .healthy
  | failing {e : DockerError} {deadline : Duration} (report : stateOf (script k) = .error e)
      (path : DeadlineAt cfg script k deadline) (late : deadline ≤ elapsed cfg k) :
      VerdictAt cfg script k .timeout

/-- The gate ends at the `k`th probe, the first that decides. -/
structure EndsAt (cfg : HealthConfig) (script : Nat → Report) (k : Nat) (v : HealthOutcome) :
    Prop where
  verdict : VerdictAt cfg script k v
  undecided : ∀ j < k, ∀ w, ¬ VerdictAt cfg script j w

variable {cfg : HealthConfig} {script : Nat → Report}

theorem deadlineAt_zero : DeadlineAt cfg script 0 cfg.healthTimeout :=
  .inl ⟨rfl, fun _ hj => absurd hj (Nat.not_lt_zero _)⟩

/-- A report of a path sets its deadline. -/
theorem deadlineAt_succ {k : Nat} {deadline : Duration}
    (h : pathOf cfg (script k) = some deadline) : DeadlineAt cfg script (k + 1) deadline :=
  .inr ⟨k, Nat.lt_succ_self k, h, fun j hkj hj => by omega⟩

/-- Any other report keeps the deadline. -/
theorem DeadlineAt.keep {k : Nat} {deadline : Duration} (h : DeadlineAt cfg script k deadline)
    (hnone : pathOf cfg (script k) = none) : DeadlineAt cfg script (k + 1) deadline := by
  rcases h with ⟨rfl, hall⟩ | ⟨i, hi, hpath, hrest⟩
  · refine .inl ⟨rfl, fun j hj => ?_⟩
    rcases Nat.lt_succ_iff_lt_or_eq.mp hj with hj | rfl
    · exact hall j hj
    · exact hnone
  · refine .inr ⟨i, by omega, hpath, fun j hij hj => ?_⟩
    rcases Nat.lt_succ_iff_lt_or_eq.mp hj with hj | rfl
    · exact hrest j hij hj
    · exact hnone

/-- One path is seen last. -/
theorem DeadlineAt.unique {k : Nat} {deadline deadline' : Duration}
    (h : DeadlineAt cfg script k deadline) (h' : DeadlineAt cfg script k deadline') :
    deadline = deadline' := by
  rcases h with ⟨rfl, hall⟩ | ⟨i, hi, hpath, hrest⟩
  · rcases h' with ⟨rfl, -⟩ | ⟨i', hi', hpath', -⟩
    · rfl
    · simp [hall i' hi'] at hpath'
  · rcases h' with ⟨-, hall'⟩ | ⟨i', hi', hpath', hrest'⟩
    · simp [hall' i hi] at hpath
    · rcases Nat.lt_trichotomy i i' with hlt | rfl | hgt
      · simp [hrest i' hlt hi'] at hpath'
      · exact Option.some.inj (hpath.symm.trans hpath')
      · simp [hrest' i hgt hi] at hpath

theorem DeadlineAt.le_max {k : Nat} {deadline : Duration} (h : DeadlineAt cfg script k deadline) :
    deadline ≤ max cfg.healthTimeout cfg.gracePeriod := by
  rcases h with ⟨rfl, -⟩ | ⟨i, -, hpath, -⟩
  · exact Nat.le_max_left ..
  · unfold pathOf at hpath
    split at hpath
    · cases hpath
      exact Nat.le_max_left ..
    · cases hpath
      exact Nat.le_max_left ..
    · cases hpath
      exact Nat.le_max_right ..
    · cases hpath

/-- A probe gives one verdict. -/
theorem VerdictAt.unique {k : Nat} {v w : HealthOutcome} (h : VerdictAt cfg script k v)
    (h' : VerdictAt cfg script k w) : v = w := by
  cases h <;> cases h' <;> first | rfl | (exfalso; simp_all)

theorem EndsAt.unique {k l : Nat} {v w : HealthOutcome} (h : EndsAt cfg script k v)
    (h' : EndsAt cfg script l w) : k = l ∧ v = w := by
  rcases Nat.lt_trichotomy k l with hlt | rfl | hgt
  · exact absurd h.verdict (h'.undecided k hlt v)
  · exact ⟨rfl, h.verdict.unique h'.verdict⟩
  · exact absurd h'.verdict (h.undecided l hgt w)

/-! ## The loop -/

/-- The watch at the `k`th probe of a gate that started at `start`. -/
def watchAt (cfg : HealthConfig) (start k : Nat) : Watch := ⟨start + elapsed cfg k, k⟩

section Loop

variable {id : String} {start k polls : Nat} {errorDeadline : Duration}

theorem returns_orPollAgain_late {limit : Duration} {verdict : HealthOutcome}
    {again : Prog HealthOutcome} (late : limit ≤ elapsed cfg k) :
    Returns (scripted script) (orPollAgain start limit cfg.pollInterval verdict again)
      ⟨start + elapsed cfg k, k + 1⟩ verdict ⟨start + elapsed cfg k, k + 1⟩ := by
  refine returns_bind (returns_request rfl) ?_
  have htime : start + elapsed cfg k - start = elapsed cfg k := Nat.add_sub_cancel_left ..
  rw [htime, if_pos late]
  exact returns_done _

/-- Before the limit the loop makes the next probe, one poll interval later. -/
theorem returns_orPollAgain_early {limit : Duration} {verdict v : HealthOutcome}
    {again : Prog HealthOutcome} {s : Watch} (early : ¬ limit ≤ elapsed cfg k) :
    Returns (scripted script) (orPollAgain start limit cfg.pollInterval verdict again)
        ⟨start + elapsed cfg k, k + 1⟩ v s ↔
      Returns (scripted script) again (watchAt cfg start (k + 1)) v s := by
  refine (returns_bind_iff (returns_request rfl)).trans ?_
  have htime : start + elapsed cfg k - start = elapsed cfg k := Nat.add_sub_cancel_left ..
  have hnext : watchAt cfg start (k + 1) =
      ⟨start + elapsed cfg k + cfg.pollInterval, k + 1⟩ := by
    rw [watchAt, elapsed, elapsed, Nat.succ_mul, Nat.add_assoc]
  rw [htime, if_neg early, hnext]
  exact returns_bind_iff (returns_request rfl)

theorem returns_probeAt :
    Returns (scripted script) (probeState id).run (watchAt cfg start k) (stateOf (script k))
      ⟨start + elapsed cfg k, k + 1⟩ :=
  returns_probe_scripted script id (watchAt cfg start k)

/-- A probe that decides ends the loop. -/
theorem returns_pollHealth_of_verdict {v : HealthOutcome}
    (path : DeadlineAt cfg script k errorDeadline) (h : VerdictAt cfg script k v) :
    Returns (scripted script) (pollHealth id cfg start (polls + 1) errorDeadline)
      (watchAt cfg start k) v ⟨start + elapsed cfg k, k + 1⟩ := by
  refine returns_bind returns_probeAt ?_
  cases h with
  | healthy report =>
      rw [report]
      exact returns_done _
  | exited report =>
      rw [report]
      exact returns_done _
  | unready report late =>
      rcases report with report | report
      · rw [report]
        exact returns_orPollAgain_late late
      · rw [report]
        exact returns_orPollAgain_late late
  | grace report late =>
      rw [report]
      exact returns_orPollAgain_late late
  | failing report path' late =>
      rw [report, path.unique path']
      exact returns_orPollAgain_late late

/-- A probe that does not decide is followed by the next, with the deadline of its path. -/
theorem returns_pollHealth_of_undecided (path : DeadlineAt cfg script k errorDeadline)
    (undecided : ∀ w, ¬ VerdictAt cfg script k w) :
    ∃ deadline, DeadlineAt cfg script (k + 1) deadline ∧ ∀ v s,
      Returns (scripted script) (pollHealth id cfg start (polls + 1) errorDeadline)
          (watchAt cfg start k) v s ↔
        Returns (scripted script) (pollHealth id cfg start polls deadline)
          (watchAt cfg start (k + 1)) v s := by
  cases report : stateOf (script k) with
  | error e =>
      have early : ¬ errorDeadline ≤ elapsed cfg k :=
        fun late => undecided _ (.failing report path late)
      refine ⟨errorDeadline, path.keep (by simp [pathOf, report]), fun v s => ?_⟩
      refine (returns_bind_iff returns_probeAt).trans ?_
      rw [report]
      exact returns_orPollAgain_early early
  | ok state =>
      cases state with
      | healthHealthy => exact absurd (.healthy report) (undecided _)
      | exited code => exact absurd (.exited report) (undecided _)
      | healthStarting =>
          have early : ¬ cfg.healthTimeout ≤ elapsed cfg k :=
            fun late => undecided _ (.unready (.inl report) late)
          refine ⟨cfg.healthTimeout, deadlineAt_succ (by simp [pathOf, report]), fun v s => ?_⟩
          refine (returns_bind_iff returns_probeAt).trans ?_
          rw [report]
          exact returns_orPollAgain_early early
      | healthUnhealthy =>
          have early : ¬ cfg.healthTimeout ≤ elapsed cfg k :=
            fun late => undecided _ (.unready (.inr report) late)
          refine ⟨cfg.healthTimeout, deadlineAt_succ (by simp [pathOf, report]), fun v s => ?_⟩
          refine (returns_bind_iff returns_probeAt).trans ?_
          rw [report]
          exact returns_orPollAgain_early early
      | runningNoHealthcheck =>
          have early : ¬ cfg.gracePeriod ≤ elapsed cfg k :=
            fun late => undecided _ (.grace report late)
          refine ⟨cfg.gracePeriod, deadlineAt_succ (by simp [pathOf, report]), fun v s => ?_⟩
          refine (returns_bind_iff returns_probeAt).trans ?_
          rw [report]
          exact returns_orPollAgain_early early

/-- **The loop returns exactly at the first probe that decides**, where it has fuel for it. -/
theorem returns_pollHealth_iff {v : HealthOutcome} {s : Watch}
    (path : DeadlineAt cfg script k errorDeadline)
    (before : ∀ j < k, ∀ w, ¬ VerdictAt cfg script j w) :
    Returns (scripted script) (pollHealth id cfg start polls errorDeadline)
        (watchAt cfg start k) v s ↔
      ∃ last, last < k + polls ∧ EndsAt cfg script last v ∧
        s = ⟨start + elapsed cfg last, last + 1⟩ := by
  induction polls generalizing k errorDeadline with
  | zero =>
      constructor
      · rintro ⟨hout, -⟩
        cases hout
      · rintro ⟨last, hlast, ends, -⟩
        exact absurd ends.verdict (before last (by omega) v)
  | succ polls ih =>
      by_cases decided : ∃ w, VerdictAt cfg script k w
      · obtain ⟨w, hw⟩ := decided
        have hreturns := @returns_pollHealth_of_verdict cfg script id start k polls _ w path hw
        constructor
        · intro h
          obtain ⟨rfl, rfl⟩ := h.unique hreturns
          exact ⟨k, by omega, ⟨hw, before⟩, rfl⟩
        · rintro ⟨last, -, ends, rfl⟩
          obtain ⟨rfl, rfl⟩ := ends.unique ⟨hw, before⟩
          exact hreturns
      · rw [not_exists] at decided
        obtain ⟨deadline, path', goesOn⟩ :=
          @returns_pollHealth_of_undecided cfg script id start k polls _ path decided
        have before' : ∀ j < k + 1, ∀ w, ¬ VerdictAt cfg script j w := by
          intro j hj
          rcases Nat.lt_succ_iff_lt_or_eq.mp hj with hj | rfl
          · exact before j hj
          · exact decided
        rw [goesOn, ih path' before', Nat.add_right_comm]
        rfl

end Loop

/-- **The gate returns exactly at the first probe that decides**, where it has fuel for it. -/
theorem returns_waitForHealth_iff {docker : Docker} {id : String} {start : Nat}
    {v : HealthOutcome} {s : Watch} :
    Returns (scripted script) (waitForHealth docker id cfg) ⟨start, 0⟩ v s ↔
      ∃ last, last < docker.polls ∧ EndsAt cfg script last v ∧
        s = ⟨start + elapsed cfg last, last + 1⟩ := by
  have hfirst : (⟨start, 0⟩ : Watch) = watchAt cfg start 0 := by
    simp [watchAt, elapsed]
  have loop := @returns_pollHealth_iff cfg script id start 0 docker.polls _ v s deadlineAt_zero
    fun j hj => absurd hj (Nat.not_lt_zero j)
  rw [← hfirst, Nat.zero_add] at loop
  exact (returns_bind_iff (returns_request rfl)).trans loop

/-! ## Termination -/

theorem exists_deadlineAt (cfg : HealthConfig) (script : Nat → Report) (k : Nat) :
    ∃ deadline, DeadlineAt cfg script k deadline := by
  induction k with
  | zero => exact ⟨_, deadlineAt_zero⟩
  | succ k ih =>
      obtain ⟨deadline, path⟩ := ih
      cases hpath : pathOf cfg (script k) with
      | none => exact ⟨deadline, path.keep hpath⟩
      | some deadline' => exact ⟨deadline', deadlineAt_succ hpath⟩

/-- Past both deadlines every report decides. -/
theorem exists_verdict_of_late {k : Nat}
    (late : max cfg.healthTimeout cfg.gracePeriod ≤ elapsed cfg k) :
    ∃ v, VerdictAt cfg script k v := by
  have lateHealth : cfg.healthTimeout ≤ elapsed cfg k := le_trans (le_max_left ..) late
  cases report : stateOf (script k) with
  | error e =>
      obtain ⟨deadline, path⟩ := exists_deadlineAt cfg script k
      exact ⟨_, .failing report path (path.le_max.trans late)⟩
  | ok state =>
      cases state with
      | healthHealthy => exact ⟨_, .healthy report⟩
      | exited code => exact ⟨_, .exited report⟩
      | healthStarting => exact ⟨_, .unready (.inl report) lateHealth⟩
      | healthUnhealthy => exact ⟨_, .unready (.inr report) lateHealth⟩
      | runningNoHealthcheck => exact ⟨_, .grace report (le_trans (le_max_right ..) late)⟩

theorem elapsed_succ (cfg : HealthConfig) (k : Nat) :
    elapsed cfg (k + 1) = elapsed cfg k + cfg.pollInterval := Nat.succ_mul ..

/-- **Some probe decides, at most one poll interval after both deadlines.** -/
theorem exists_endsAt (hpoll : 0 < cfg.pollInterval) (script : Nat → Report) :
    ∃ last v, EndsAt cfg script last v ∧ last ≤ max cfg.healthTimeout cfg.gracePeriod ∧
      elapsed cfg last ≤ max cfg.healthTimeout cfg.gracePeriod + cfg.pollInterval := by
  classical
  have late : max cfg.healthTimeout cfg.gracePeriod ≤
      elapsed cfg (max cfg.healthTimeout cfg.gracePeriod) := Nat.le_mul_of_pos_right _ hpoll
  have some_decides : ∃ k, ∃ v, VerdictAt cfg script k v := ⟨_, exists_verdict_of_late late⟩
  obtain ⟨v, hv⟩ := Nat.find_spec some_decides
  refine ⟨Nat.find some_decides, v, ⟨hv, fun j hj w hw => Nat.find_min some_decides hj ⟨w, hw⟩⟩,
    Nat.find_min' some_decides (exists_verdict_of_late late), ?_⟩
  cases hlast : Nat.find some_decides with
  | zero => simp [elapsed]
  | succ k =>
      have early : ¬ max cfg.healthTimeout cfg.gracePeriod ≤ elapsed cfg k := fun hlate =>
        Nat.find_min some_decides (hlast ▸ Nat.lt_succ_self k) (exists_verdict_of_late hlate)
      rw [elapsed_succ]
      exact Nat.add_le_add_right (Nat.le_of_lt (not_le.mp early)) _

/-- What the verdict of a gate that ended with the probe `last` says of the reports. -/
structure SoundVerdict (cfg : HealthConfig) (script : Nat → Report) (last : Nat)
    (v : HealthOutcome) : Prop where
  crashed : v = .crashed ↔ ∃ code, stateOf (script last) = .ok (.exited code)
  /-- No probe follows an exit or a healthy report. -/
  before : ∀ j < last, stateOf (script j) ≠ .ok .healthHealthy ∧
    ∀ code, stateOf (script j) ≠ .ok (.exited code)
  healthy : v = .healthy → stateOf (script last) = .ok .healthHealthy ∨
    stateOf (script last) = .ok .runningNoHealthcheck ∧ cfg.gracePeriod ≤ elapsed cfg last
  timeout : v = .timeout →
    ((stateOf (script last) = .ok .healthStarting ∨ stateOf (script last) = .ok .healthUnhealthy) ∧
        cfg.healthTimeout ≤ elapsed cfg last) ∨
      ∃ e deadline, stateOf (script last) = .error e ∧ DeadlineAt cfg script last deadline ∧
        deadline ≤ elapsed cfg last

theorem EndsAt.sound {last : Nat} {v : HealthOutcome} (ends : EndsAt cfg script last v) :
    SoundVerdict cfg script last v where
  crashed := by
    constructor
    · rintro rfl
      cases ends.verdict with
      | exited report => exact ⟨_, report⟩
    · rintro ⟨code, report⟩
      exact ends.verdict.unique (.exited report)
  before j hj :=
    ⟨fun report => ends.undecided j hj _ (.healthy report),
      fun code report => ends.undecided j hj _ (.exited report)⟩
  healthy := by
    rintro rfl
    cases ends.verdict with
    | healthy report => exact .inl report
    | grace report late => exact .inr ⟨report, late⟩
  timeout := by
    rintro rfl
    cases ends.verdict with
    | unready report late => exact .inl ⟨report, late⟩
    | failing report path late => exact .inr ⟨_, _, report, path, late⟩

/-- **The health gate ends with a sound verdict**, at most one poll interval after both of its
deadlines, for every sequence of reports and a clock that advances by its sleeps. -/
theorem waitForHealth_sound {docker : Docker} (hpoll : 0 < cfg.pollInterval)
    (fuel : max cfg.healthTimeout cfg.gracePeriod < docker.polls) (id : String)
    (script : Nat → Report) (start : Nat) :
    ∃ last v, Returns (scripted script) (waitForHealth docker id cfg) ⟨start, 0⟩ v
        ⟨start + elapsed cfg last, last + 1⟩ ∧
      elapsed cfg last ≤ max cfg.healthTimeout cfg.gracePeriod + cfg.pollInterval ∧
      SoundVerdict cfg script last v := by
  obtain ⟨last, v, ends, hlast, htime⟩ := exists_endsAt hpoll script
  have returns := (@returns_waitForHealth_iff cfg script docker id start v _).mpr
    ⟨last, lt_of_le_of_lt hlast fuel, ends, rfl⟩
  exact ⟨last, v, returns, htime, ends.sound⟩

/-- Up, without a healthcheck. -/
def steadyReport : Report :=
  .ok ⟨none, none, none, some ⟨some .running, some true, none, none, none⟩, none, none, none⟩

/-- The default gate on a container that is up from the start. -/
theorem waitForHealth_sound_steady :
    ∃ last v, Returns (scripted fun _ => steadyReport)
        (waitForHealth ⟨"1.44", none, 120000000001⟩ "new" .default) ⟨0, 0⟩ v
        ⟨0 + elapsed .default last, last + 1⟩ ∧
      elapsed .default last ≤ max HealthConfig.default.healthTimeout
        HealthConfig.default.gracePeriod + HealthConfig.default.pollInterval ∧
      SoundVerdict .default (fun _ => steadyReport) last v :=
  waitForHealth_sound (by decide) (by decide) "new" (fun _ => steadyReport) 0

end Freshdock.Health
