import Freshdock.Docker.Cycle
import Freshdock.Docker.Obliging
import Freshdock.Rollout.Moves

/-!
# Runs of a rollout

A rollout that was not aborted updated every target, one after the other, and then restarted
the dependents. The results of this file find the run of one target, and the restart of one
dependent, in the run of the rollout.
-/

set_option autoImplicit false

namespace Freshdock.Rollout

open Interaction Docker Registry

/-! ## Parts of a run -/

/-- A part of a run. -/
def Within (part whole : List CallEvent) : Prop :=
  ∃ before after, whole = before ++ part ++ after

theorem Within.mem {part whole : List CallEvent} (h : Within part whole) {e : CallEvent}
    (he : e ∈ part) : e ∈ whole := by
  obtain ⟨before, after, rfl⟩ := h
  exact List.mem_append_left _ (List.mem_append_right _ he)

theorem Within.append_left {part whole : List CallEvent} (h : Within part whole)
    (front : List CallEvent) : Within part (front ++ whole) := by
  obtain ⟨before, after, rfl⟩ := h
  exact ⟨front ++ before, after, by simp⟩

theorem Within.append_right {part whole : List CallEvent} (h : Within part whole)
    (back : List CallEvent) : Within part (whole ++ back) := by
  obtain ⟨before, after, rfl⟩ := h
  exact ⟨before, after ++ back, by simp⟩

/-- A cycle inside a recreate that succeeded, where a skipped cycle does not. -/
theorem exists_cycle_of_recreateOne {α : Type} {docker : Docker} {name : String}
    {hooks : Labels.LifecycleHooks} {ts : TsProvider} {gate : CycleOutcome → Op α}
    {events : List CallEvent} {a : α}
    (h : Produces (recreateOne docker name hooks ts >>= gate).run events (some (.ok a)))
    (skips : ∀ reason rest, ¬ Produces (gate (.skipped reason)).run rest (some (.ok a))) :
    ∃ first rest cycle, events = first ++ rest ∧
      Produces (recreateOne docker name hooks ts).run first (some (.ok (.completed cycle))) := by
  obtain ⟨first, cycled, rest, rfl, hfirst, hrest⟩ := h.of_except_bind_ok
  cases cycled with
  | completed cycle => exact ⟨first, rest, cycle, rfl, hfirst⟩
  | skipped reason => exact absurd hrest (skips reason rest)

/-- A cycle inside the run of a target that succeeded. -/
theorem exists_cycle_of_runTarget {docker : Docker} {cfg : RolloutConfig} {ts : TsProvider}
    {target : PlannedTarget} {events : List CallEvent} {step : RolloutStep}
    (h : Produces (runTarget docker cfg ts target) events (some (.ok step))) :
    ∃ hooks first rest cycle, events = first ++ rest ∧
      Produces (recreateOne docker target.container hooks ts).run first
        (some (.ok (.completed cycle))) := by
  unfold runTarget at h
  cases hkind : target.kind with
  | oneShot =>
      rw [hkind] at h
      obtain ⟨outcome, hstep, hrun⟩ := Produces.of_map h
      cases outcome with
      | error e => cases hstep
      | ok outcome =>
          refine ⟨_, exists_cycle_of_recreateOne hrun fun reason rest hrest => ?_⟩
          obtain ⟨-, rfl⟩ := hrest.of_lift_ok.of_done
          cases hstep
  | service =>
      rw [hkind] at h
      obtain ⟨outcome, hstep, hrun⟩ := Produces.of_map h
      cases outcome with
      | error e => cases hstep
      | ok outcome =>
          refine ⟨_, exists_cycle_of_recreateOne hrun fun reason rest hrest => ?_⟩
          obtain ⟨-, hout⟩ := Produces.of_done hrest
          cases hout
          cases hstep

/-- **A rollout that was not aborted ran every target to its success.** -/
theorem exists_run_of_target {docker : Docker} {cfg : RolloutConfig} {ts : TsProvider}
    {targets : List PlannedTarget} {progress done : Progress} {events : List CallEvent}
    (h : Produces (runTargets docker cfg ts targets progress) events (some done))
    (completed : done.aborted = none) {target : PlannedTarget} (ht : target ∈ targets) :
    ∃ run step, Within run events ∧
      Produces (runTarget docker cfg ts target) run (some (.ok step)) := by
  induction targets generalizing progress events with
  | nil => cases ht
  | cons head targets ih =>
      obtain ⟨first, step, rest, rfl, hfirst, hrest⟩ := h.of_bind_some
      cases step with
      | error reason =>
          obtain ⟨-, rfl⟩ := hrest.of_done
          cases completed
      | ok step =>
          rcases List.mem_cons.mp ht with rfl | ht
          · exact ⟨first, step, ⟨[], rest, rfl⟩, hfirst⟩
          · obtain ⟨run, step, within, hrun⟩ := ih hrest ht
            exact ⟨run, step, within.append_left first, hrun⟩

/-- **An event of a rollout's targets stands in the run of one of them, after the successful
runs of all before it.** -/
theorem exists_target_of_event {docker : Docker} {cfg : RolloutConfig} {ts : TsProvider}
    {targets : List PlannedTarget} {progress : Progress} {before after : List CallEvent}
    {e : CallEvent} {out : Option Progress}
    (h : Produces (runTargets docker cfg ts targets progress) (before ++ e :: after) out) :
    ∃ done target todo run verdict, targets = done ++ target :: todo ∧
      Produces (runTarget docker cfg ts target) run verdict ∧ e ∈ run ∧
      Within run (before ++ e :: after) ∧
      ∀ earlier ∈ done, ∃ run step, Within run before ∧
        Produces (runTarget docker cfg ts earlier) run (some (.ok step)) := by
  induction targets generalizing progress before with
  | nil =>
      obtain ⟨hnil, -⟩ := produces_done_iff.mp h
      exact absurd hnil (by simp)
  | cons head targets ih =>
      have here {run : List CallEvent} {verdict : Option (Except AbortReason RolloutStep)}
          (hrun : Produces (runTarget docker cfg ts head) run verdict) (he : e ∈ run)
          (within : Within run (before ++ e :: after)) :
          ∃ done target todo run verdict, head :: targets = done ++ target :: todo ∧
            Produces (runTarget docker cfg ts target) run verdict ∧ e ∈ run ∧
            Within run (before ++ e :: after) ∧
            ∀ earlier ∈ done, ∃ run step, Within run before ∧
              Produces (runTarget docker cfg ts earlier) run (some (.ok step)) :=
        ⟨[], head, targets, run, verdict, rfl, hrun, he, within, by simp⟩
      rcases h.of_bind with ⟨-, hcut⟩ | ⟨first, step, rest, hsplit, hfirst, hrest⟩
      · exact here hcut (by simp) ⟨[], [], by simp⟩
      rcases place_of_append hsplit.symm with ⟨after', rfl⟩ | ⟨before', rfl, rfl⟩
      · exact here hfirst (by simp) ⟨[], rest, hsplit⟩
      cases step with
      | error reason =>
          obtain ⟨hnil, -⟩ := produces_done_iff.mp hrest
          exact absurd hnil (by simp)
      | ok step =>
          obtain ⟨done, target, todo, run, verdict, rfl, hrun, he, within, hdone⟩ := ih hrest
          refine ⟨head :: done, target, todo, run, verdict, rfl, hrun, he, ?_, ?_⟩
          · rw [List.append_assoc]
            exact within.append_left first
          intro earlier hearlier
          rcases List.mem_cons.mp hearlier with rfl | hearlier
          · exact ⟨first, step, ⟨[], before', rfl⟩, hfirst⟩
          · obtain ⟨run', step', within', hrun'⟩ := hdone earlier hearlier
            exact ⟨run', step', within'.append_left first, hrun'⟩

/-- Every restart begins with a stop. -/
theorem stop_of_runRestarts {containers : List String} {steps : List RolloutStep}
    {events : List CallEvent} (h : Produces (runRestarts containers) events (some steps))
    {container : String} (hc : container ∈ containers) :
    ∃ signal timeout reply, ⟨.stopContainer .restart container signal timeout, reply⟩ ∈ events := by
  induction containers generalizing events steps with
  | nil => cases hc
  | cons head containers ih =>
      obtain ⟨first, restarted, rest, rfl, hfirst, hrest⟩ := h.of_bind_some
      rcases List.mem_cons.mp hc with rfl | hc
      · obtain ⟨read, options, called, rfl, hread, hcalled⟩ := hfirst.of_lift_bind_some
        rw [ExceptT.run_bind] at hcalled
        obtain ⟨stopped, reply, started, rfl, hstopped, -⟩ := hcalled.of_bind_some
        obtain rfl := (of_call hstopped).of_request
        exact ⟨_, _, some reply, List.mem_append_left _ (List.mem_append_right _
          (List.mem_append_left _ (List.mem_singleton.mpr rfl)))⟩
      · obtain ⟨more, steps', -, rfl, hmore, -⟩ := hrest.of_bind_some
        obtain ⟨signal, timeout, reply, hmem⟩ := ih hmore hc
        exact ⟨signal, timeout, reply, by simp [hmem]⟩

/-- A rollout that was not aborted ran its targets and then the restarts of all their
services. -/
theorem exists_restarts_of_execute {docker : Docker} {p : RolloutPlan} {cfg : RolloutConfig}
    {ts : TsProvider} {events : List CallEvent} {report : RolloutReport}
    (h : Produces (execute docker p cfg ts) events (some report))
    (completed : report.aborted = none) :
    ∃ first rest progress steps, events = first ++ rest ∧
      Produces (runTargets docker cfg ts p.targets .start) first (some progress) ∧
      progress.aborted = none ∧
      Produces (runRestarts (p.restartsFor p.allTargetServices)) rest (some steps) := by
  obtain ⟨first, progress, rest, rfl, hfirst, hrest⟩ := h.of_bind_some
  have free (container : String) :
      Updatable (fun _ => True) (fun _ _ => True) docker container :=
    ⟨fun _ _ => trivial, fun _ _ _ _ => trivial, fun _ _ _ _ => trivial,
      fun _ _ => ⟨trivial, fun _ _ => trivial, fun _ _ _ _ _ _ _ => trivial⟩⟩
  have hservices := (emits_runTargets (fun t _ => free t.container) cfg ts .start first _ hfirst
    fun _ _ => trivial).2 progress rfl
  cases haborted : progress.aborted with
  | some reason =>
      rw [concludeRollout, haborted] at hrest
      obtain ⟨-, rfl⟩ := hrest.of_done
      cases completed
  | none =>
      rw [concludeRollout, haborted, hservices haborted] at hrest
      obtain ⟨restarts, steps, last, rfl, hrestarts, hlast⟩ := hrest.of_bind_some
      obtain ⟨rfl, -⟩ := hlast.of_done
      exact ⟨first, restarts, progress, steps, by rw [List.append_nil], hfirst, haborted, hrestarts⟩

/-! ## Rollouts in an obliging environment -/

section Obliging

variable {env : Obliging} {docker : Docker} {cfg : RolloutConfig} {ts : TsProvider} {t : Nat}

/-- Targets that all succeed are all run. -/
theorem returns_runTargets {targets : List PlannedTarget} {progress : Progress}
    (each : ∀ target ∈ targets, ∃ step,
      Returns env.answer (runTarget docker cfg ts target) t (.ok step) t)
    (hstart : progress.aborted = none) :
    ∃ done, Returns env.answer (runTargets docker cfg ts targets progress) t done t ∧
      done.aborted = none := by
  induction targets generalizing progress with
  | nil => exact ⟨progress, returns_done _, hstart⟩
  | cons target targets ih =>
      obtain ⟨step, hstep⟩ := each target List.mem_cons_self
      obtain ⟨done, hdone, haborted⟩ := @ih (progress.complete target step)
        (fun target' h => each target' (List.mem_cons_of_mem _ h)) hstart
      exact ⟨done, returns_bind hstep hdone, haborted⟩

theorem returns_runRestarts (containers : List String) :
    ∃ steps, Returns env.answer (runRestarts containers) t steps t := by
  induction containers with
  | nil => exact ⟨[], returns_done _⟩
  | cons container containers ih =>
      obtain ⟨steps, hsteps⟩ := ih
      obtain ⟨options, hoptions⟩ : ∃ options,
          Returns env.answer (stopOptions container) t options t := by
        have hinspect := @Obliging.returns_inspectContainer env t container
        cases hresp : env.inspect container with
        | error e =>
            rw [hresp] at hinspect
            exact ⟨_, returns_bind (returns_bind hinspect (returns_done _)) (returns_done _)⟩
        | ok resp =>
            rw [hresp] at hinspect
            exact ⟨_, returns_bind (returns_except_bind hinspect (returns_done _)) (returns_done _)⟩
      have hstop : Returns env.answer (stop .restart container options.1 options.2).run t (.ok ())
          t := returns_request rfl
      have hstart : Returns env.answer (start .restart container).run t (.ok ()) t :=
        returns_request rfl
      have hrestart : Returns env.answer (restartDependent container).run t (.ok ()) t :=
        returns_lift_bind hoptions (returns_except_bind hstop hstart)
      exact ⟨_, returns_bind hrestart (returns_bind hsteps (returns_done _))⟩

/-- **A rollout of targets that all succeed is not aborted.** -/
theorem returns_execute {p : RolloutPlan}
    (each : ∀ target ∈ p.targets, ∃ step,
      Returns env.answer (runTarget docker cfg ts target) t (.ok step) t) :
    ∃ report, Returns env.answer (execute docker p cfg ts) t report t ∧
      report.aborted = none := by
  obtain ⟨progress, hprogress, haborted⟩ := returns_runTargets each (rfl : Progress.start.aborted = none)
  obtain ⟨steps, hsteps⟩ := @returns_runRestarts env t (p.restartsFor progress.updatedServices)
  have hconclude : Returns env.answer (concludeRollout p progress) t
      { project := p.project, steps := progress.steps ++ steps, aborted := none,
        notCompleted := [], skipped := p.skipped } t := by
    rw [concludeRollout, haborted]
    exact returns_bind hsteps (returns_done _)
  exact ⟨_, returns_bind hprogress hconclude, rfl⟩

end Obliging

end Freshdock.Rollout
