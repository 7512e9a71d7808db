import Freshdock.Health.Reports

/-!
# What the health gate accepts

The gate sees a container through the reports of its probes. This file says which reports a
run of the gate has seen when it accepts, and from it when the grace path (no healthcheck
declared, the container up for the whole grace period) accepts a container that was reported
as not steadily up.

A restart loop is reported with the status `restarting` and the running flag set, so that the
gate counts it as running.
-/

set_option autoImplicit false

namespace Freshdock.Health

open Interaction Docker

/-! ## Reports of the grace path -/

/-- Up, with no healthcheck declared. -/
def NoHealthcheck (r : Report) : Prop :=
  ∃ resp s, r = .ok resp ∧ resp.state = some s ∧ Up s ∧ s.health ≠ some .healthy ∧
    s.health ≠ some .unhealthy ∧ s.health ≠ some .starting

/-- A report that ends the gate: not up, or healthy. -/
def Decides (r : Report) : Prop :=
  ∃ resp, r = .ok resp ∧
    (resp.state = none ∨ ∃ s, resp.state = some s ∧ (¬ Up s ∨ s.health = some .healthy))

/-- The statuses of a container that is not steadily up. -/
def unsteady : List ContainerStatus := [.restarting, .exited, .dead, .removing, .created]

/-- A report that says the container is not steadily up. -/
def Unsteady (r : Report) : Prop :=
  ∃ resp s, r = .ok resp ∧ resp.state = some s ∧ ∃ status ∈ unsteady, s.status = some status

theorem noHealthcheck_iff (r : Report) :
    NoHealthcheck r ↔ stateOf r = .ok .runningNoHealthcheck := by
  cases r with
  | error e => simp [NoHealthcheck, stateOf, Except.map]
  | ok resp =>
      cases hstate : resp.state with
      | none => simp [NoHealthcheck, stateOf, Except.map, classifyRuntimeState, hstate]
      | some s =>
          simp only [NoHealthcheck, stateOf, Except.map, classifyRuntimeState, hstate,
            Except.ok.injEq, Option.some.injEq, exists_and_left, exists_eq_left', ← isRunning_iff]
          cases isRunning s with
          | false => simp
          | true =>
              rcases s.health with _ | (_ | _ | _ | _ | _) <;> simp

theorem decides_iff (r : Report) :
    Decides r ↔ stateOf r = .ok .healthHealthy ∨ ∃ code, stateOf r = .ok (.exited code) := by
  cases r with
  | error e => simp [Decides, stateOf, Except.map]
  | ok resp =>
      cases hstate : resp.state with
      | none => simp [Decides, stateOf, Except.map, classifyRuntimeState, hstate]
      | some s =>
          simp only [Decides, stateOf, Except.map, classifyRuntimeState, hstate,
            Except.ok.injEq, Option.some.injEq, exists_eq_left', ← isRunning_iff, reduceCtorEq,
            false_or]
          cases isRunning s with
          | false => simp
          | true =>
              rcases s.health with _ | (_ | _ | _ | _ | _) <;> simp

/-! ## Runs of the gate -/

/-- **A run of the gate that ends has seen no report that decides, except the last.** -/
theorem reports_of_verdict {id : String} {cfg : HealthConfig} {start : Duration} {polls : Nat}
    {errorDeadline : Duration} {events : List CallEvent} {v : HealthOutcome}
    (h : Produces (pollHealth id cfg start polls errorDeadline) events (some v)) :
    ∃ front last, reports id events = front ++ [last] ∧ ∀ r ∈ front, ¬ Decides r := by
  induction polls generalizing events errorDeadline with
  | zero => cases h
  | succ polls ih =>
      rcases h.of_bind with ⟨hnone, -⟩ | ⟨first, probed, rest, rfl, hfirst, hrest⟩
      · cases hnone
      obtain ⟨report, rfl, rfl⟩ := produces_probeState hfirst
      rw [List.singleton_append, reports_probed]
      -- the report ends the loop, or it does not decide and the loop goes on
      have goesOn {limit : Duration} {verdict : HealthOutcome} {deadline : Duration}
          (undecided : ¬ Decides report)
          (hloop : Produces (orPollAgain start limit cfg.pollInterval verdict
            (pollHealth id cfg start polls deadline)) rest (some v)) :
          ∃ front last, report :: reports id rest = front ++ [last] ∧
            ∀ r ∈ front, ¬ Decides r := by
        rcases @produces_orPollAgain _ id _ _ _ _ _ _ _ hloop with ⟨-, hnil⟩ | ⟨events, hmore, heq⟩
        · exact ⟨[], report, by rw [hnil]; rfl, fun r hr => absurd hr List.not_mem_nil⟩
        · obtain ⟨front, last, hfront, hall⟩ := ih hmore
          refine ⟨report :: front, last, by rw [heq, hfront]; rfl, fun r hr => ?_⟩
          rcases List.mem_cons.mp hr with rfl | hr
          · exact undecided
          · exact hall r hr
      have undecided (hstate : ∀ code, stateOf report ≠ .ok (.exited code))
          (hhealthy : stateOf report ≠ .ok .healthHealthy) : ¬ Decides report := by
        rw [decides_iff]
        rintro (h | ⟨code, h⟩)
        · exact hhealthy h
        · exact hstate code h
      cases hstate : stateOf report with
      | error e =>
          rw [hstate] at hrest
          exact goesOn (undecided (by simp [hstate]) (by simp [hstate])) hrest
      | ok state =>
          rw [hstate] at hrest
          cases state with
          | healthHealthy =>
              obtain ⟨rfl, -⟩ := produces_done_iff.mp hrest
              exact ⟨[], report, rfl, fun r hr => absurd hr List.not_mem_nil⟩
          | exited code =>
              obtain ⟨rfl, -⟩ := produces_done_iff.mp hrest
              exact ⟨[], report, rfl, fun r hr => absurd hr List.not_mem_nil⟩
          | healthStarting => exact goesOn (undecided (by simp [hstate]) (by simp [hstate])) hrest
          | healthUnhealthy => exact goesOn (undecided (by simp [hstate]) (by simp [hstate])) hrest
          | runningNoHealthcheck =>
              exact goesOn (undecided (by simp [hstate]) (by simp [hstate])) hrest

/-! ## The grace path -/

/-- **The grace path is steady, for one sequence of reports**: when the gate accepts on a
report without a healthcheck, no report it was told says the container was not steadily up. -/
def GracePathSteady (script : Nat → Report) : Prop :=
  ∀ (docker : Docker) (id : String) (cfg : HealthConfig) (events : List CallEvent) (n : Nat),
    Produces (waitForHealth docker id cfg) events (some .healthy) →
    reports id events = told script (n + 1) → NoHealthcheck (script n) →
    ∀ r ∈ reports id events, ¬ Unsteady r

/-- A sequence of reports in which every report without a healthcheck that comes with or after
an unsteady one comes after a report that decides. -/
def SteadyUntilDecided (script : Nat → Report) : Prop :=
  ∀ i j, i ≤ j → Unsteady (script i) → NoHealthcheck (script j) → ∃ k < j, Decides (script k)

/-- A gate whose limits are one tick of the clock. -/
def tickConfig : HealthConfig := ⟨1, 1, 0⟩

/-- A run of the gate that accepts on the first report without a healthcheck after `n`
undecided ones. -/
theorem exists_gracePath {script : Nat → Report} {n : Nat} (id : String)
    (undecided : ∀ k < n, ¬ Decides (script k)) (grace : NoHealthcheck (script n)) :
    ∃ events, Produces (pollHealth id tickConfig 0 (n + 1) 1) events (some .healthy) ∧
      reports id events = told script (n + 1) := by
  induction n generalizing script with
  | zero =>
      refine ⟨[probed id (script 0)] ++ [⟨.now, some (1 : Nat)⟩],
        (produces_probe id (script 0)).bind ?_, ?_⟩
      · rw [(noHealthcheck_iff _).mp grace]
        exact (produces_reply .now (1 : Nat)).bind (.done _)
      · rw [List.singleton_append, reports_probed]
        rfl
  | succ n ih =>
      obtain ⟨events, hrun, hreports⟩ := @ih (fun k => script (k + 1))
        (fun k hk => undecided (k + 1) (by omega)) grace
      refine ⟨[probed id (script 0)] ++ ⟨.now, some (0 : Nat)⟩ :: ⟨.sleep 0, some ()⟩ :: events,
        (produces_probe id (script 0)).bind ?_, ?_⟩
      · have hfirst := undecided 0 (by omega)
        rw [decides_iff, not_or, not_exists] at hfirst
        cases hstate : stateOf (script 0) with
        | error e => exact produces_again hrun
        | ok state =>
            cases state with
            | healthHealthy => exact absurd hstate hfirst.1
            | exited code => exact absurd hstate (hfirst.2 code)
            | healthStarting => exact produces_again hrun
            | healthUnhealthy => exact produces_again hrun
            | runningNoHealthcheck => exact produces_again hrun
      · have hskip : reports id (⟨.now, some (0 : Nat)⟩ :: ⟨.sleep 0, some ()⟩ :: events) =
            reports id events := rfl
        rw [List.singleton_append, reports_probed, hskip, hreports, told_succ script (n + 1)]

/-- **The grace path accepts only steady containers exactly for the sequences of reports that
stay steady until they decide.** -/
theorem gracePathSteady_iff (script : Nat → Report) :
    GracePathSteady script ↔ SteadyUntilDecided script := by
  constructor
  · intro steady i j hij hunsteady hgrace
    by_contra hnone
    simp only [not_exists, not_and] at hnone
    obtain ⟨events, hrun, hreports⟩ := exists_gracePath "new" hnone hgrace
    have hgate : Produces (waitForHealth ⟨"1.44", none, j + 1⟩ "new" tickConfig)
        (⟨.now, some (0 : Nat)⟩ :: events) (some .healthy) :=
      (produces_reply .now (0 : Nat)).bind hrun
    have htold : reports "new" (⟨.now, some (0 : Nat)⟩ :: events) = told script (j + 1) := hreports
    refine steady _ _ _ _ j hgate htold hgrace (script i) ?_ hunsteady
    rw [htold]
    exact List.mem_map.mpr ⟨i, List.mem_range.mpr (by omega), rfl⟩
  · intro steady docker id cfg events n hrun htold hgrace r hr hunsteady
    rw [htold] at hr
    obtain ⟨i, hi, rfl⟩ := List.mem_map.mp hr
    obtain ⟨k, hk, hdecides⟩ := steady i n (by simpa using Nat.lt_succ_iff.mp (by simpa using hi))
      hunsteady hgrace
    cases hrun with
    | answered _ _ start hrun =>
        obtain ⟨front, last, hfront, hall⟩ := reports_of_verdict hrun
        have hsame : told script (n + 1) = front ++ [last] := htold.symm.trans hfront
        rw [told, List.range_succ, List.map_append] at hsame
        obtain ⟨rfl, -⟩ := List.append_inj' hsame rfl
        exact hall (script k) (List.mem_map.mpr ⟨k, List.mem_range.mpr hk, rfl⟩) hdecides

/-- A restart loop as the daemon reports it. -/
def restartLoop : Report :=
  .ok (⟨none, none, none, some ⟨some .restarting, some true, some true, some 1, none⟩, none, none,
    none⟩)

/-- The gate accepts a container that every report says is restarting. -/
theorem restartLoop_accepted : ¬ GracePathSteady fun _ => restartLoop := by
  intro steady
  have hgrace : NoHealthcheck restartLoop :=
    ⟨_, _, rfl, rfl, .inr rfl, by decide, by decide, by decide⟩
  obtain ⟨events, hrun, hreports⟩ := @exists_gracePath (fun _ => restartLoop) 0 "new"
    (fun k hk => absurd hk (Nat.not_lt_zero k)) hgrace
  refine steady ⟨"1.44", none, 1⟩ "new" tickConfig (⟨.now, some (0 : Nat)⟩ :: events) 0
    ((produces_reply .now (0 : Nat)).bind hrun) hreports hgrace restartLoop ?_ ?_
  · change restartLoop ∈ reports "new" events
    rw [hreports]
    exact List.mem_cons_self
  · exact ⟨_, _, rfl, rfl, .restarting, by decide, rfl⟩

end Freshdock.Health
