import Freshdock.Docker.Cycle
import Freshdock.Docker.Obliging
import Freshdock.Health.Reports

/-!
# What the one-shot gate accepts

A re-run of a one-shot completes when its gate reads the exit code 0. The gate reads it from
the first report that the container is not up, whatever its status, and it reads an absent
state and an absent exit code as 0.

**Termination.** A clock that advances by the gate's sleeps brings the gate to its timeout, one
poll interval late at most.
-/

set_option autoImplicit false

namespace Freshdock.Health

open Interaction Docker
open Labels (LifecycleHooks)

/-! ## Reports of an exit -/

/-- Not up. -/
def NotUp (r : Report) : Prop :=
  ∃ resp, r = .ok resp ∧ ∀ s, resp.state = some s → ¬ Up s

/-- Not up, and without an exit code other than 0. -/
def NotUpNorFailed (r : Report) : Prop :=
  ∃ resp, r = .ok resp ∧
    ∀ s, resp.state = some s → ¬ Up s ∧ (s.exitCode = none ∨ s.exitCode = some 0)

/-- Exited, with the exit code 0. -/
def ExitedZero (r : Report) : Prop :=
  ∃ resp s, r = .ok resp ∧ resp.state = some s ∧ s.status = some .exited ∧ s.exitCode = some 0

theorem notUp_iff (r : Report) : NotUp r ↔ ∃ code, stateOf r = .ok (.exited code) := by
  cases r with
  | error e => simp [NotUp, stateOf, Except.map]
  | ok resp =>
      cases hstate : resp.state with
      | none => simp [NotUp, stateOf, Except.map, classifyRuntimeState, hstate]
      | some s =>
          simp only [NotUp, stateOf, Except.map, classifyRuntimeState, hstate, Except.ok.injEq,
            Option.some.injEq, exists_eq_left', forall_eq', ← isRunning_iff]
          cases isRunning s with
          | false => simp
          | true =>
              rcases s.health with _ | (_ | _ | _ | _ | _) <;> simp

theorem notUpNorFailed_iff (r : Report) : NotUpNorFailed r ↔ stateOf r = .ok (.exited 0) := by
  cases r with
  | error e => simp [NotUpNorFailed, stateOf, Except.map]
  | ok resp =>
      cases hstate : resp.state with
      | none => simp [NotUpNorFailed, stateOf, Except.map, classifyRuntimeState, hstate]
      | some s =>
          simp only [NotUpNorFailed, stateOf, Except.map, classifyRuntimeState, hstate,
            Except.ok.injEq, Option.some.injEq, exists_eq_left', forall_eq', ← isRunning_iff]
          cases isRunning s with
          | false =>
              cases s.exitCode with
              | none => simp
              | some code => simp
          | true =>
              rcases s.health with _ | (_ | _ | _ | _ | _) <;> simp

/-! ## Runs of the gate -/

/-- **A gate that read an exit read it from the first report that the container is not up.** -/
theorem reports_of_exit {id : String} {timeout pollInterval start : Duration} {polls : Nat}
    {events : List CallEvent} {code : Int}
    (h : Produces (pollExit id timeout pollInterval start polls) events (some (.exited code))) :
    ∃ front last, reports id events = front ++ [last] ∧ (∀ r ∈ front, ¬ NotUp r) ∧
      stateOf last = .ok (.exited code) := by
  induction polls generalizing events with
  | zero => cases h
  | succ polls ih =>
      obtain ⟨first, probed, rest, rfl, hfirst, hrest⟩ := h.of_bind_some
      obtain ⟨report, rfl, rfl⟩ := produces_probeState hfirst
      rw [List.singleton_append, reports_probed]
      cases hexit : exitReported (stateOf report) with
      | some code' =>
          rw [hexit] at hrest
          obtain ⟨rfl, hcode⟩ := hrest.of_done
          cases hcode
          refine ⟨[], report, rfl, fun r hr => absurd hr List.not_mem_nil, ?_⟩
          exact state_of_exitReported hexit
      | none =>
          rw [hexit] at hrest
          rcases @produces_orPollAgain _ id _ _ _ _ _ _ _ hrest with ⟨hnone, -⟩ | ⟨more, hmore, heq⟩
          · cases hnone
          · obtain ⟨front, last, hfront, hall, hlast⟩ := ih hmore
            refine ⟨report :: front, last, by rw [heq, hfront]; rfl, fun r hr => ?_, hlast⟩
            rcases List.mem_cons.mp hr with rfl | hr
            · rw [notUp_iff]
              rintro ⟨code', hcode⟩
              simp [hcode, exitReported] at hexit
            · exact hall r hr

/-- A run of the gate that reads the exit reported after `n` reports that the container may
still be up. -/
theorem exists_exitGate {script : Nat → Report} {n : Nat} {code : Int} (id : String)
    (up : ∀ k < n, ¬ NotUp (script k)) (hover : stateOf (script n) = .ok (.exited code)) :
    ∃ events, Produces (pollExit id 1 0 0 (n + 1)) events (some (.exited code)) ∧
      reports id events = told script (n + 1) := by
  induction n generalizing script with
  | zero =>
      refine ⟨[probed id (script 0)] ++ [], (produces_probe id (script 0)).bind ?_, ?_⟩
      · rw [hover]
        exact .done _
      · rw [List.singleton_append, reports_probed]
        rfl
  | succ n ih =>
      obtain ⟨events, hrun, hreports⟩ := @ih (fun k => script (k + 1))
        (fun k hk => up (k + 1) (by omega)) hover
      refine ⟨[probed id (script 0)] ++ ⟨.now, some (0 : Nat)⟩ :: ⟨.sleep 0, some ()⟩ :: events,
        (produces_probe id (script 0)).bind ?_, ?_⟩
      · have hexit : exitReported (stateOf (script 0)) = none := by
          cases hexit : exitReported (stateOf (script 0)) with
          | none => rfl
          | some code' =>
              exact absurd ((notUp_iff _).mpr ⟨code', state_of_exitReported hexit⟩) (up 0 (by omega))
        rw [hexit]
        exact produces_again hrun
      · have hskip : reports id (⟨.now, some (0 : Nat)⟩ :: ⟨.sleep 0, some ()⟩ :: events) =
            reports id events := rfl
        rw [List.singleton_append, reports_probed, hskip, hreports, told_succ script (n + 1)]

/-! ## Completion -/

/-- What the probes of the container that an update created were told. -/
def newReports : List CallEvent → List Report
  | [] => []
  | ⟨.createContainer .update _ _, some (.ok id)⟩ :: rest => reports id rest
  | _ :: rest => newReports rest

theorem newReports_append {first : List CallEvent} (still : ∀ e ∈ first, NotCreate e)
    (rest : List CallEvent) : newReports (first ++ rest) = newReports rest := by
  induction first with
  | nil => rfl
  | cons e first ih =>
      have hfirst := ih fun e he => still e (List.mem_cons_of_mem _ he)
      have he : NotCreate e := still e List.mem_cons_self
      obtain ⟨call, reply⟩ := e
      cases call <;> first | exact hfirst | cases he

/-- **A one-shot completes on exit 0 only, for one sequence of reports**: a run that completes
after these reports of the new container was told by one of them that it exited with 0. -/
def CompletedOnlyOnZero (script : Nat → Report) : Prop :=
  ∀ (docker : Docker) (name : String) (timeout pollInterval : Duration) (cleanup : Cleanup)
    (hooks : LifecycleHooks) (ts : TsProvider) (events : List CallEvent) (n : Nat),
    Produces (recreateOneShot docker name timeout pollInterval cleanup hooks ts).run events
      (some (.ok .completed)) →
    newReports events = told script n → ∃ r ∈ newReports events, ExitedZero r

/-- A sequence of reports in which the first one that the container is not up, when no exit
code other than 0 comes with it, is or comes after one of an exit with 0. -/
def ZeroIsExplicit (script : Nat → Report) : Prop :=
  ∀ k, (∀ j < k, ¬ NotUp (script j)) → NotUpNorFailed (script k) →
    ∃ j ≤ k, ExitedZero (script j)

/-- A gate that ended in completion was told an exit that reads as 0, and no exit before. -/
theorem reports_of_completedGate {docker : Docker} {timeout pollInterval : Duration}
    {cleanup : Cleanup} {ts : TsProvider} {cycle : CycleResult} {events : List CallEvent}
    (h : Produces (gateOneShot docker timeout pollInterval cleanup ts (.completed cycle)) events
      (some .completed)) :
    ∃ front last more, reports cycle.newId events = front ++ last :: more ∧
      (∀ r ∈ front, ¬ NotUp r) ∧ stateOf last = .ok (.exited 0) := by
  obtain ⟨gate, exit, settled, rfl, hgate, hsettle⟩ := h.of_bind_some
  obtain ⟨now, start, polling, rfl, hnow, hpolling⟩ := hgate.of_bind_some
  obtain rfl := hnow.of_request
  cases exit with
  | timedOut =>
      obtain ⟨-, hout⟩ := hsettle.of_done
      cases hout
  | exited code =>
      obtain ⟨front, last, hfront, hall, hlast⟩ := reports_of_exit hpolling
      have hzero : code = 0 := by
        by_contra hcode
        rw [concludeOneShot, if_neg hcode] at hsettle
        obtain ⟨-, hout⟩ := hsettle.of_done
        cases hout
      subst hzero
      refine ⟨front, last, reports cycle.newId settled, ?_, hall, hlast⟩
      change reports cycle.newId (polling ++ settled) = _
      rw [reports_append, hfront, List.append_assoc, List.singleton_append]

/-- A run that completed reads the new container's reports up to the one of its exit. -/
theorem newReports_of_completed {docker : Docker} {name : String}
    {timeout pollInterval : Duration} {cleanup : Cleanup} {hooks : LifecycleHooks}
    {ts : TsProvider} {events : List CallEvent}
    (h : Produces (recreateOneShot docker name timeout pollInterval cleanup hooks ts).run events
      (some (.ok .completed))) :
    ∃ front last more, newReports events = front ++ last :: more ∧ (∀ r ∈ front, ¬ NotUp r) ∧
      stateOf last = .ok (.exited 0) := by
  obtain ⟨first, outcome, rest, rfl, hfirst, hrest⟩ := h.of_except_bind_ok
  have hgated := hrest.of_lift_ok
  cases outcome with
  | skipped reason =>
      obtain ⟨-, hout⟩ := hgated.of_done
      cases hout
  | completed cycle =>
      obtain ⟨resp, spec, before, -, rfl, still, -⟩ := produces_recreateOne hfirst
      obtain ⟨front, last, more, hreports, hall, hlast⟩ := reports_of_completedGate hgated
      refine ⟨front, last, more, ?_, hall, hlast⟩
      rw [List.cons_append, List.cons_append, List.append_assoc]
      change newReports (before ++ _) = _
      rw [newReports_append still]
      exact hreports

theorem completedOnlyOnZero_of_explicit {script : Nat → Report} (explicit : ZeroIsExplicit script) :
    CompletedOnlyOnZero script := by
  intro docker name timeout pollInterval cleanup hooks ts events n hrun htold
  obtain ⟨front, last, more, hreports, hall, hlast⟩ := newReports_of_completed hrun
  rw [htold] at hreports ⊢
  obtain ⟨hfront, rfl, hlength⟩ := told_split hreports
  obtain ⟨j, hj, hzero⟩ := explicit front.length
    (fun j hj => hall _ (hfront ▸ mem_told.mpr ⟨j, hj, rfl⟩)) ((notUpNorFailed_iff _).mpr hlast)
  exact ⟨script j, mem_told.mpr ⟨j, by omega, rfl⟩, hzero⟩

/-- After any sequence of reports whose first exit reads as 0 some re-run completes. -/
theorem exists_completed {script : Nat → Report} {k : Nat} (up : ∀ j < k, ¬ NotUp (script j))
    (zero : stateOf (script k) = .ok (.exited 0)) :
    ∃ events, Produces (recreateOneShot ⟨"1.44", none, k + 1⟩ "migrate" 1 0 ⟨false, false⟩
        .default (.fixed 0)).run events (some (.ok .completed)) ∧
      newReports events = told script (k + 1) := by
  obtain ⟨cycle, ⟨hout, -⟩, hid, hdependents⟩ := @Obliging.returns_recreateOne exitingDaemon 0
    ⟨"1.44", none, k + 1⟩ "migrate" "new" (.fixed 0) _ _ rfl rfl rfl rfl rfl (fun _ _ => rfl) .default
  have hfirst := play_produces exitingDaemon.answer
    (recreateOne ⟨"1.44", none, k + 1⟩ "migrate" .default (.fixed 0)).run 0
  rw [hout] at hfirst
  obtain ⟨resp, spec, before, -, hevents, still, -⟩ := produces_recreateOne hfirst
  rw [hevents] at hfirst
  obtain ⟨polling, hpolling, hreports⟩ := exists_exitGate cycle.newId up zero
  have hgate : Produces (waitForExit ⟨"1.44", none, k + 1⟩ cycle.newId 1 0)
      (⟨.now, some (0 : Nat)⟩ :: polling) (some (.exited 0)) :=
    (produces_reply .now (0 : Nat)).bind hpolling
  have hsettle : Produces (concludeOneShot cycle ⟨false, false⟩ (.fixed 0) (.exited 0))
      [⟨.removeContainer .update cycle.oldName false, some (.ok ())⟩] (some .completed) := by
    rw [concludeOneShot, if_pos rfl, settleOneShot, hdependents]
    exact (produces_reply (.removeContainer .update cycle.oldName false) (.ok ())).bind (.done _)
  refine ⟨_, hfirst.except_bind (hgate.bind hsettle).lift, ?_⟩
  rw [List.cons_append, List.cons_append, List.append_assoc]
  change newReports (before ++ _) = _
  rw [newReports_append still]
  change reports cycle.newId (polling ++ [_]) = _
  rw [reports_append, hreports]
  exact List.append_nil _

theorem explicit_of_completedOnlyOnZero {script : Nat → Report}
    (only : CompletedOnlyOnZero script) : ZeroIsExplicit script := by
  intro k up zero
  obtain ⟨events, hrun, hreports⟩ := exists_completed up ((notUpNorFailed_iff _).mp zero)
  obtain ⟨r, hr, hzero⟩ := only _ _ _ _ _ _ _ events (k + 1) hrun hreports
  rw [hreports] at hr
  obtain ⟨j, hj, rfl⟩ := mem_told.mp hr
  exact ⟨j, by omega, hzero⟩

/-! ## Termination -/

/-- The clock of a scripted environment, and how many reports it has given. -/
structure Watch where
  time : Nat
  given : Nat

/-- Probes are answered from the script in order, and the clock advances by its sleeps. -/
def scripted (script : Nat → Report) : Handler Call Call.Reply Watch
  | .inspectContainer _, s => (some (script s.given), { s with given := s.given + 1 })
  | .now, s => (some s.time, s)
  | .sleep d, s => (some (), { s with time := s.time + d })
  | _, s => (none, s)

/-- **The one-shot gate ends, for one sequence of reports**: with fuel for the
timeout, the gate returns, at most one poll interval after the timeout. -/
def ExitGateReturns (script : Nat → Report) : Prop :=
  ∀ (docker : Docker) (id : String) (timeout pollInterval : Duration) (s : Watch),
    0 < pollInterval → timeout < docker.polls →
    ∃ outcome s', Returns (scripted script) (waitForExit docker id timeout pollInterval) s outcome
      s' ∧ s'.time ≤ s.time + timeout + pollInterval

theorem returns_probe_scripted (script : Nat → Report) (id : String) (s : Watch) :
    Returns (scripted script) (probeState id).run s (stateOf (script s.given))
      { s with given := s.given + 1 } := by
  rw [probeState, ExceptT.run_bind]
  refine returns_bind (returns_request rfl) ?_
  cases script s.given with
  | error e => exact returns_done _
  | ok resp => exact returns_done _

/-- The loop stays within one poll interval of the timeout, and has fuel for what is left. -/
theorem exists_returns_pollExit (script : Nat → Report) (id : String)
    {timeout pollInterval start : Nat} (hpoll : 0 < pollInterval) {polls : Nat} {s : Watch}
    (fuel : 0 < polls) (enough : start + timeout < s.time + polls)
    (inTime : s.time ≤ start + timeout + pollInterval) :
    ∃ outcome s', Returns (scripted script) (pollExit id timeout pollInterval start polls) s
      outcome s' ∧ s'.time ≤ start + timeout + pollInterval := by
  induction polls generalizing s with
  | zero => omega
  | succ polls ih =>
      have hprobe := returns_probe_scripted script id s
      cases hexit : exitReported (stateOf (script s.given)) with
      | some code =>
          refine ⟨.exited code, { s with given := s.given + 1 }, returns_bind hprobe ?_, inTime⟩
          rw [hexit]
          exact returns_done _
      | none =>
          by_cases hlimit : timeout ≤ s.time - start
          · refine ⟨.timedOut, { s with given := s.given + 1 }, returns_bind hprobe ?_, inTime⟩
            rw [hexit]
            refine returns_bind (returns_request rfl) ?_
            rw [if_pos hlimit]
            exact returns_done _
          · obtain ⟨outcome, s', hreturns, htime⟩ :=
              @ih { time := s.time + pollInterval, given := s.given + 1 } (by omega)
                (by change _ < s.time + pollInterval + polls; omega)
                (by change s.time + pollInterval ≤ _; omega)
            refine ⟨outcome, s', returns_bind hprobe ?_, htime⟩
            rw [hexit]
            refine returns_bind (returns_request rfl) ?_
            rw [if_neg hlimit]
            exact returns_bind (returns_request rfl) hreturns

theorem exitGate_returns (script : Nat → Report) : ExitGateReturns script := by
  intro docker id (timeout : Nat) (pollInterval : Nat) s (hpoll : 0 < pollInterval)
    (fuel : timeout < docker.polls)
  obtain ⟨outcome, s', hreturns, htime⟩ := @exists_returns_pollExit script id timeout pollInterval
    s.time hpoll docker.polls s (by omega) (by omega) (by omega)
  exact ⟨outcome, s', returns_bind (returns_request rfl) hreturns, htime⟩

/-! ## The statement -/

/-- **A one-shot's success is read from an explicit exit, by a gate that ends, exactly for the
sequences of reports whose first exit without a failure is explicit.** -/
theorem completedOnlyOnZero_iff (script : Nat → Report) :
    (CompletedOnlyOnZero script ∧ ExitGateReturns script) ↔ ZeroIsExplicit script :=
  ⟨fun h => explicit_of_completedOnlyOnZero h.1,
    fun explicit => ⟨completedOnlyOnZero_of_explicit explicit, exitGate_returns script⟩⟩

/-- A report without a state. -/
def stateless : Report := .ok ⟨none, none, none, none, none, none, none⟩

/-- A one-shot completes on reports that say nothing about it. -/
theorem stateless_completed :
    ¬ (CompletedOnlyOnZero (fun _ => stateless) ∧ ExitGateReturns fun _ => stateless) := by
  rintro ⟨only, -⟩
  obtain ⟨j, -, resp, s, hresp, hstate, -⟩ := explicit_of_completedOnlyOnZero only 0
    (fun j hj => absurd hj (Nat.not_lt_zero j)) ⟨_, rfl, fun s hs => by cases hs⟩
  cases hresp
  cases hstate

end Freshdock.Health
