import Freshdock.Docker.Accounts
import Freshdock.Docker.Faults
import Freshdock.Rollout.FailStop
import Freshdock.Scheduler.Fleet
import Freshdock.Scheduler.Footprint

/-!
# What a notification says

A notification says what happened before it was sent: that a digest was served, that a container was
remade and found well by its gate, that one was remade, rejected by its gate and put back, or that a
rollout did some steps and then stopped for a reason. `Shown` is the meaning of a notification, in
the order in which it says that things happened.

**Operations.** Only the functions that report notify (`Operates`), and each of them is given what
the operations before it returned. What an operation returns is what its own calls say
(`cameOut_of_recreateWithHealth`, `ended_of_recreateOneShot`, `shown_of_execute`).
-/

set_option autoImplicit false

namespace Freshdock.Scheduler

open Interaction Docker Health
open Labels (Policy LifecycleHooks)
open Rollout (RolloutReport RolloutStep AbortReason RolloutPlan PlannedTarget)

/-! ## What is said -/

/-- It can be told from some part of the log. -/
def Within (fact : List CallEvent → Prop) (log : List CallEvent) : Prop :=
  ∃ part, part.IsInfix log ∧ fact part

section Facts

/-- The container was remade, and this is the last report of the new one. -/
def JudgedBy (name archive newId : String) (spec : ContainerSpec) (report : Report)
    (part : List CallEvent) : Prop :=
  ∃ before after, part = before ++ probed newId report :: after ∧
    RemadeIn before name archive newId spec ∧ reports newId after = []

/-- The container was remade, and the new one reported well. -/
def ReportedWell (name newId : String) (part : List CallEvent) : Prop :=
  ∃ archive spec report, JudgedBy name archive newId spec report part ∧ Well report

/-- The one-shot was remade, and the new one reported an exit. -/
def ReportedExit (name : String) (code : Int) (part : List CallEvent) : Prop :=
  ∃ archive newId spec report, JudgedBy name archive newId spec report part ∧
    stateOf report = .ok (.exited code)

/-- The container was remade, and the new one was not well by its last report. So it was removed,
and the one before it was given its name again and started. -/
def PutBack (name : String) (event : RollbackEvent) (part : List CallEvent) : Prop :=
  ∃ gated newId spec report,
    part = gated ++ [⟨.removeContainer .update newId true, some (.ok ())⟩,
      ⟨.renameContainer .update event.restoredFrom event.container, some (.ok ())⟩,
      ⟨.startContainer .update event.container, some (.ok ())⟩] ∧
    JudgedBy name event.restoredFrom newId spec report gated ∧ ¬ Well report ∧
    (event.reason = .crashed → ∃ code, stateOf report = .ok (.exited code)) ∧
    event.container = spec.name ∧ event.oldImageRef = spec.imageRef ∧
    event.newImageRef = spec.imageRef

/-- The one-shot was remade, and no exit of the new one was reported before its timeout. -/
def TimedOut (timeout : Duration) (name : String) (part : List CallEvent) : Prop :=
  ∃ remade gate archive newId spec, part = remade ++ gate ∧
    RemadeIn remade name archive newId spec ∧ WaitedFor newId timeout gate

/-- The container was read, and then its hook refused the update. -/
def Deferred (name : String) (reason : HookSkipReason) (part : List CallEvent) : Prop :=
  ∃ resp spec command timeout status, ContainerSpec.fromInspect resp = .ok spec ∧
    hookVerdict status = some reason ∧
    [⟨.inspectContainer name, some (.ok resp)⟩,
      ⟨.exec name command timeout, some status⟩].Sublist part

/-- The events begin with a look at the container, or at the containers of its project. -/
def Undertaken (container : String) : List CallEvent → Prop
  | ⟨.inspectContainer ref, _⟩ :: _ => ref = container
  | ⟨.listProjectContainers _, _⟩ :: _ => True
  | _ => False

/-- The work on the container ended with this error, which comes from its last call. -/
def Failed (docker : Docker) (container error : String) (part : List CallEvent) : Prop :=
  Undertaken container part ∧ ∃ e, Cause docker part e ∧ error = e.message

/-- The dependent was stopped and started. -/
def Restarted (container : String) (part : List CallEvent) : Prop :=
  ∃ signal timeout, part = [⟨.stopContainer .restart container signal timeout, some (.ok ())⟩,
    ⟨.startContainer .restart container, some (.ok ())⟩]

/-- The step was done. -/
def Done : RolloutStep → List CallEvent → Prop
  | .updated container newId _ => ReportedWell container newId
  | .oneShotCompleted container => ReportedExit container 0
  | .restarted container => Restarted container

variable (docker : Docker) (timeout : Duration)

/-- What stopped the rollout happened. -/
def Happened : AbortReason → List CallEvent → Prop
  | .rolledBack container => fun part => ∃ event, PutBack container event part
  | .oneShotFailed container code => fun part => code ≠ 0 ∧ ReportedExit container code part
  | .oneShotTimedOut container => TimedOut timeout container
  | .deferred container reason => Deferred container reason
  | .stepFailed container error => Failed docker container error

/-- What a notification says. -/
def Shown (log : List CallEvent) : NotifyEvent → Prop
  | .updateAvailable _ image digest =>
      ⟨.fetchDigest (Registry.ImageRef.parse image), some (.ok digest)⟩ ∈ log
  | .updateSucceeded container _ newId => Within (ReportedWell container newId) log
  | .updateFailed container reason oldImageRef newImageRef restoredFrom =>
      ∃ name, Within (PutBack name ⟨container, reason, oldImageRef, newImageRef, restoredFrom⟩) log
  | .rolloutAborted _ message completed _ =>
      (∃ steps : List RolloutStep, completed = steps.map RolloutStep.container ∧
        ∀ step ∈ steps, Within (Done step) log) ∧
      ∃ reason : AbortReason, message = reason.message ∧ Within (Happened docker timeout reason) log

end Facts

theorem Within.mono {fact : List CallEvent → Prop} {log log' : List CallEvent}
    (more : log.IsInfix log') (h : Within fact log) : Within fact log' := by
  obtain ⟨part, hpart, hfact⟩ := h
  exact ⟨part, hpart.trans more, hfact⟩

theorem within_self {fact : List CallEvent → Prop} {part : List CallEvent} (h : fact part) :
    Within fact part :=
  ⟨part, List.infix_rfl, h⟩

/-- What a first part tells. -/
theorem within_append {fact : List CallEvent → Prop} {first rest : List CallEvent}
    (h : fact first) : Within fact (first ++ rest) :=
  ⟨first, (List.prefix_append _ _).isInfix, h⟩

/-- What was put back had been inspected. -/
theorem PutBack.inspected {name : String} {event : RollbackEvent} {part : List CallEvent}
    (h : PutBack name event part) :
    ∃ spec, Inspected (· ∈ part) name spec ∧ event.container = spec.name := by
  obtain ⟨gated, newId, spec, report, rfl, ⟨before, after, rfl, remade, -⟩, -, -, howner, -⟩ := h
  obtain ⟨resp, hresp, hread⟩ := remade.inspected
  exact ⟨spec, ⟨resp, by simp [hresp], hread⟩, howner⟩

/-! ## Updates -/

section Updates

variable {docker : Docker} {name : String} {hooks : LifecycleHooks} {ts : TsProvider}
  {events : List CallEvent}

/-- The gate of a remade container is judged by its last report. -/
theorem judgedBy_of_cycledIn {cycle : CycleResult} {spec : ContainerSpec}
    {first gate : List CallEvent} {report : Report} (cycled : CycledIn first name cycle spec)
    (last : LastReport gate cycle.newId report) :
    JudgedBy name cycle.oldName cycle.newId spec report (first ++ gate) := by
  obtain ⟨before, after, rfl, hafter⟩ := last
  exact ⟨first ++ before, after, by simp, cycled.remade.mono (List.sublist_append_left _ _), hafter⟩

/-- An update that its hook refused. -/
theorem deferred_of_recreateOne {reason : HookSkipReason}
    (h : Produces (recreateOne docker name hooks ts).run events (some (.ok (.skipped reason)))) :
    Deferred name reason events := by
  obtain ⟨cleared, ⟨spec, skip⟩, rest, rfl, hclear, hrest⟩ := h.of_except_bind_ok
  cases skip with
  | none =>
      obtain ⟨listed, dependents, rest, rfl, -, hcomplete⟩ := hrest.of_lift_bind_some
      obtain ⟨swapped, _, rest, rfl, -, hdone⟩ := hcomplete.of_except_bind_ok
      obtain ⟨-, hresult⟩ := Produces.of_done hdone
      cases hresult
  | some reason' =>
      obtain ⟨rfl, hresult⟩ := Produces.of_done hrest
      cases hresult
      obtain ⟨first, spec', rest, rfl, hfirst, hrest⟩ := hclear.of_except_bind_ok
      obtain ⟨resp, rfl, hread⟩ := produces_inspect hfirst
      obtain ⟨preflight, _, pulling, rfl, -, hpulling⟩ := hrest.of_except_bind_ok
      obtain ⟨pulled, _, hooked, rfl, -, hhooked⟩ := hpulling.of_except_bind_ok
      obtain ⟨ran, skip, last, rfl, hran, hlast⟩ := hhooked.of_lift_bind_some
      obtain ⟨rfl, hresult⟩ := Produces.of_done hlast
      cases hresult
      cases hhook : hooks.preUpdate with
      | none =>
          rw [hhook] at hran
          obtain ⟨-, hnone⟩ := Produces.of_done hran
          cases hnone
      | some hook =>
          rw [hhook] at hran
          obtain ⟨called, status, done, rfl, hcalled, hdone⟩ := hran.of_bind_some
          obtain ⟨rfl, hverdict⟩ := hdone.of_done
          obtain rfl := (of_call hcalled).of_request
          refine ⟨resp, spec, hook.command, hook.timeout, status, hread, hverdict.symm, ?_⟩
          refine List.Sublist.cons_cons _ (List.singleton_sublist.mpr ?_)
          simp

/-- What a finished rollback did, after a best-effort stop. -/
theorem calls_of_rollback {owner newId archive : String} {images : String × String}
    {reason : RollbackReason} {event : RollbackEvent}
    (h : Produces (rollback owner newId archive images reason).run events (some (.ok event))) :
    event = ⟨owner, reason, images.1, images.2, archive⟩ ∧
      ∃ stopped, reports newId stopped = [] ∧
        events = stopped ++ [⟨.removeContainer .update newId true, some (.ok ())⟩,
          ⟨.renameContainer .update archive owner, some (.ok ())⟩,
          ⟨.startContainer .update owner, some (.ok ())⟩] := by
  obtain ⟨stopped, _, rest, rfl, hstop, h⟩ := h.of_lift_bind_some
  obtain ⟨removed, _, rest, rfl, hremove, h⟩ := h.of_except_bind_ok
  obtain ⟨renamed, _, rest, rfl, hrename, h⟩ := h.of_except_bind_ok
  obtain ⟨started, _, rest, rfl, hstart, h⟩ := h.of_except_bind_ok
  obtain ⟨rfl, hresult⟩ := Produces.of_done h
  obtain rfl := (of_call hstop).of_request
  obtain rfl := (of_call hremove).of_request
  obtain rfl := (of_call hrename).of_request
  obtain rfl := (of_call hstart).of_request
  cases hresult
  exact ⟨rfl, _, rfl, rfl⟩

/-- The update came out so. -/
def CameOut (name : String) : RecreateOutcome → List CallEvent → Prop
  | .recreated _ newId => Within (ReportedWell name newId)
  | .rolledBack event => Within (PutBack name event)
  | .skippedByHook reason => Within (Deferred name reason)

theorem CameOut.mono {outcome : RecreateOutcome} {log log' : List CallEvent}
    (more : log.IsInfix log') (h : CameOut name outcome log) : CameOut name outcome log' := by
  cases outcome with
  | recreated old newId => exact Within.mono more h
  | rolledBack event => exact Within.mono more h
  | skippedByHook reason => exact Within.mono more h

/-- **What the outcome of an update says happened.** -/
theorem cameOut_of_recreateWithHealth {cfg : HealthConfig} {cleanup : Cleanup}
    {outcome : RecreateOutcome}
    (h : Produces (recreateWithHealth docker name cfg cleanup hooks ts).run events
      (some (.ok outcome))) : CameOut name outcome events := by
  obtain ⟨first, cycled, rest, rfl, hfirst, hrest⟩ := h.of_except_bind_ok
  cases cycled with
  | skipped reason =>
      obtain ⟨rfl, hresult⟩ := Produces.of_done hrest
      cases hresult
      exact within_append (deferred_of_recreateOne hfirst)
  | completed cycle =>
      obtain ⟨spec, cycled⟩ := cycledIn_of_recreateOne hfirst
      obtain ⟨gate, verdict, more, rfl, hgate, hmore⟩ := hrest.of_lift_bind_some
      obtain ⟨report, last, suits⟩ := verdict_of_waitForHealth hgate
      have judged := judgedBy_of_cycledIn cycled last
      rw [← List.append_assoc]
      have undone {reason : RollbackReason} (gated : ¬ Well report)
          (crashed : reason = .crashed → ∃ code, stateOf report = .ok (.exited code))
          (h : Produces (undoUpdate cycle reason ts).run more (some (.ok outcome))) :
          CameOut name outcome (first ++ gate ++ more) := by
        obtain ⟨back, event, last, rfl, hback, hlast⟩ := h.of_except_bind_ok
        obtain ⟨_, _, done, rfl, -, hdone⟩ := hlast.of_lift_bind_some
        obtain ⟨rfl, hresult⟩ := Produces.of_done hdone
        cases hresult
        obtain ⟨rfl, stopped, hstopped, rfl⟩ := calls_of_rollback hback
        rw [← List.append_assoc]
        refine within_append ⟨first ++ gate ++ stopped, cycle.newId, spec, report, by simp, ?_, gated,
          crashed, cycled.ownerName, cycled.oldImageRef, cycled.newImageRef⟩
        obtain ⟨before, after, heq, remade, hafter⟩ := judged
        refine ⟨before, after ++ stopped, by rw [heq, List.append_assoc, List.cons_append], remade, ?_⟩
        rw [reports_append, hafter, hstopped]
        rfl
      have settled (hwell : Well report)
          (h : Produces (Op.lift (settleUpdate cycle cleanup hooks.postUpdate ts)).run more
            (some (.ok outcome))) : CameOut name outcome (first ++ gate ++ more) := by
        obtain ⟨_, _, more₁, -, -, h⟩ := h.of_lift_ok.of_bind_some
        obtain ⟨_, _, more₂, -, -, h⟩ := h.of_bind_some
        obtain ⟨_, _, more₃, -, -, h⟩ := h.of_bind_some
        obtain ⟨_, _, more₄, -, -, h⟩ := h.of_bind_some
        obtain ⟨-, rfl⟩ := h.of_done
        exact within_append ⟨cycle.oldName, spec, report, judged, hwell⟩
      cases suits with
      | healthy hwell => exact settled hwell hmore
      | crashed hstate => exact undone (by simp [Well, hstate]) (fun _ => ⟨_, hstate⟩) hmore
      | timeout hwell => exact undone hwell (fun h => by cases h) hmore

/-- The one-shot came out so. -/
def Ended (timeout : Duration) (name : String) : OneShotOutcome → List CallEvent → Prop
  | .completed => Within (ReportedExit name 0)
  | .failed code => Within fun part => code ≠ 0 ∧ ReportedExit name code part
  | .timedOut => Within (TimedOut timeout name)
  | .skippedByHook reason => Within (Deferred name reason)

/-- **What the outcome of a one-shot says happened.** -/
theorem ended_of_recreateOneShot {timeout pollInterval : Duration} {cleanup : Cleanup}
    {outcome : OneShotOutcome}
    (h : Produces (recreateOneShot docker name timeout pollInterval cleanup hooks ts).run events
      (some (.ok outcome))) : Ended timeout name outcome events := by
  obtain ⟨first, cycled, rest, rfl, hfirst, hrest⟩ := h.of_except_bind_ok
  have hgated := hrest.of_lift_ok
  cases cycled with
  | skipped reason =>
      obtain ⟨rfl, rfl⟩ := hgated.of_done
      exact within_append (deferred_of_recreateOne hfirst)
  | completed cycle =>
      obtain ⟨spec, cycled⟩ := cycledIn_of_recreateOne hfirst
      obtain ⟨gate, exit, more, rfl, hgate, hmore⟩ := hgated.of_bind_some
      have suits := verdict_of_waitForExit hgate
      rw [← List.append_assoc]
      cases exit with
      | timedOut =>
          obtain ⟨-, rfl⟩ := hmore.of_done
          exact within_append ⟨first, gate, cycle.oldName, cycle.newId, spec, rfl, cycled.remade, suits⟩
      | exited code =>
          obtain ⟨report, last, hstate⟩ := suits
          have judged := judgedBy_of_cycledIn cycled last
          by_cases hzero : code = 0
          · subst hzero
            obtain ⟨_, _, more₁, -, -, h⟩ := hmore.of_bind_some
            obtain ⟨_, _, more₂, -, -, h⟩ := h.of_bind_some
            obtain ⟨_, _, more₃, -, -, h⟩ := h.of_bind_some
            obtain ⟨-, rfl⟩ := h.of_done
            exact within_append ⟨cycle.oldName, cycle.newId, spec, report, judged, hstate⟩
          · rw [concludeOneShot, if_neg hzero] at hmore
            obtain ⟨-, rfl⟩ := hmore.of_done
            exact within_append ⟨hzero, cycle.oldName, cycle.newId, spec, report, judged, hstate⟩

/-- An update that failed. -/
theorem failed_of_recreateWithHealth {cfg : HealthConfig} {cleanup : Cleanup} {e : DockerError}
    (h : Produces (recreateWithHealth docker name cfg cleanup hooks ts).run events
      (some (.error e))) : Failed docker name e.message events := by
  refine ⟨?_, e, (@explained_recreateWithHealth docker [] name hooks ts cfg cleanup _ _ h).2 _ rfl e
    rfl, rfl⟩
  change Produces (Program.ask (Call.inspectContainer name) _) _ _ at h
  cases h with
  | answered _ _ resp _ => rfl

/-- A re-run that failed. -/
theorem failed_of_recreateOneShot {timeout pollInterval : Duration} {cleanup : Cleanup}
    {e : DockerError}
    (h : Produces (recreateOneShot docker name timeout pollInterval cleanup hooks ts).run events
      (some (.error e))) : Failed docker name e.message events := by
  refine ⟨?_, e, (@explained_recreateOneShot docker [] name hooks ts timeout pollInterval cleanup _ _
    h).2 _ rfl e rfl, rfl⟩
  change Produces (Program.ask (Call.inspectContainer name) _) _ _ at h
  cases h with
  | answered _ _ resp _ => rfl

end Updates

/-! ## Rollouts -/

section Rollouts

variable {docker : Docker} {cfg : Rollout.RolloutConfig} {ts : TsProvider} {events : List CallEvent}

/-- What the verdict of a target says happened. -/
theorem shown_of_runTarget {target : PlannedTarget} {verdict : Except AbortReason RolloutStep}
    (h : Produces (Rollout.runTarget docker cfg ts target) events (some verdict)) :
    match verdict with
    | .ok step => Within (Done step) events
    | .error reason => Within (Happened docker cfg.oneShotTimeout reason) events := by
  unfold Rollout.runTarget at h
  cases hkind : target.kind with
  | oneShot =>
      rw [hkind] at h
      obtain ⟨outcome, rfl, hrun⟩ := h.of_map
      cases outcome with
      | error e => exact within_self (failed_of_recreateOneShot hrun)
      | ok outcome =>
          have ended := ended_of_recreateOneShot hrun
          cases outcome with
          | completed => exact ended
          | failed code => exact ended
          | timedOut => exact ended
          | skippedByHook reason => exact ended
  | service =>
      rw [hkind] at h
      obtain ⟨outcome, rfl, hrun⟩ := h.of_map
      cases outcome with
      | error e => exact within_self (failed_of_recreateWithHealth hrun)
      | ok outcome =>
          have came := cameOut_of_recreateWithHealth hrun
          cases outcome with
          | recreated old newId => exact came
          | rolledBack event =>
              obtain ⟨part, hpart, back⟩ := came
              exact ⟨part, hpart, event, back⟩
          | skippedByHook reason => exact came

theorem done_of_ran {targets : List PlannedTarget} {steps : List RolloutStep}
    (ran : Rollout.Ran docker cfg ts targets events steps) :
    ∀ step ∈ steps, Within (Done step) events := by
  induction ran with
  | nil => simp
  | cons run _ ih =>
      intro step hstep
      rcases List.mem_cons.mp hstep with rfl | hstep
      · exact (shown_of_runTarget run).mono (List.prefix_append _ _).isInfix
      · exact (ih step hstep).mono (List.suffix_append _ _).isInfix

theorem done_of_runRestarts {containers : List String} {steps : List RolloutStep}
    (h : Produces (Rollout.runRestarts containers) events (some steps)) :
    ∀ step ∈ steps, Within (Done step) events := by
  induction containers generalizing events steps with
  | nil =>
      obtain ⟨-, rfl⟩ := h.of_done
      simp
  | cons container containers ih =>
      obtain ⟨first, restarted, rest, rfl, hfirst, hrest⟩ := h.of_bind_some
      obtain ⟨more, steps', last, rfl, hmore, hlast⟩ := hrest.of_bind_some
      obtain ⟨rfl, rfl⟩ := hlast.of_done
      have later : ∀ step ∈ steps', Within (Done step) (first ++ (more ++ [])) := fun step hstep =>
        (ih hmore step hstep).mono ⟨first, [], by simp⟩
      cases restarted with
      | error e => exact later
      | ok _ =>
          intro step hstep
          rcases List.mem_cons.mp hstep with rfl | hstep
          · obtain ⟨read, options, called, rfl, -, hcalled⟩ := hfirst.of_lift_bind_some
            obtain ⟨stopped, _, started, rfl, hstopped, hstarted⟩ := hcalled.of_except_bind_ok
            obtain rfl := (of_call hstopped).of_request
            obtain rfl := (of_call hstarted).of_request
            exact ⟨_, ⟨read, more ++ [], rfl⟩, _, _, rfl⟩
          · exact later step hstep

/-- What a report says happened. -/
structure Reported (docker : Docker) (timeout : Duration) (report : RolloutReport)
    (log : List CallEvent) : Prop where
  done : ∀ step ∈ report.steps, Within (Done step) log
  happened : ∀ reason, report.aborted = some reason →
    Within (Happened docker timeout reason) log

theorem Reported.mono {timeout : Duration} {report : RolloutReport} {log log' : List CallEvent}
    (more : log.IsInfix log') (h : Reported docker timeout report log) :
    Reported docker timeout report log' where
  done step hstep := (h.done step hstep).mono more
  happened reason hreason := (h.happened reason hreason).mono more

/-- **What the report of a rollout says happened.** -/
theorem shown_of_execute {p : RolloutPlan} {report : RolloutReport}
    (h : Produces (Rollout.execute docker p cfg ts) events (some report)) :
    Reported docker cfg.oneShotTimeout report events := by
  obtain ⟨first, progress, rest, rfl, hfirst, hrest⟩ := h.of_bind_some
  rcases Rollout.produces_runTargets hfirst rfl with ⟨steps, ran, rfl⟩ |
      ⟨finished, target, todo, before, run, steps, reason, -, rfl, ran, failed, rfl⟩
  · obtain ⟨restarts, restarted, last, rfl, hrestarts, hlast⟩ := hrest.of_bind_some
    obtain ⟨rfl, rfl⟩ := hlast.of_done
    refine ⟨fun step hstep => ?_, fun reason hreason => by cases hreason⟩
    rcases List.mem_append.mp hstep with hstep | hstep
    · exact (done_of_ran ran step hstep).mono (List.prefix_append _ _).isInfix
    · exact (done_of_runRestarts hrestarts step hstep).mono ⟨first, [], by simp⟩
  · obtain ⟨rfl, rfl⟩ := hrest.of_done
    refine ⟨fun step hstep => ?_, fun reason' hreason => ?_⟩
    · exact (done_of_ran ran step hstep).mono ⟨[], run ++ [], by simp⟩
    · obtain rfl : reason = reason' := Option.some.inj hreason
      exact (shown_of_runTarget failed).mono ⟨before, [], by simp⟩

/-- A plan that failed. -/
theorem failed_of_planFor {project trigger : String} {tag own : Option String}
    {defaults : Labels.PolicyDefaults} {e : DockerError}
    (h : Produces (Rollout.planFor project trigger tag defaults own).run events
      (some (.error e))) : Failed docker trigger e.message events := by
  refine ⟨?_, e, (@explained_planFor docker [] project trigger tag own defaults _ _ h).2 _ rfl e rfl,
    rfl⟩
  change Produces (Program.ask (Call.listProjectContainers project) _) _ _ at h
  cases h with
  | answered _ _ listed _ => trivial

/-- What the report of a container's rollout says happened. -/
theorem shown_of_rolloutFor {cfg : SchedulerConfig} {settings : ResolvedSettings} {name : String}
    {labels : LabelMap} {tag : Option String} {report : RolloutReport}
    (h : Produces (rolloutFor docker cfg ts name labels tag settings) events (some (some report))) :
    Reported docker settings.oneShotTimeout report events := by
  have untouched (project container : String) (aborted : Option AbortReason)
      (skipped : List Rollout.SkippedMember)
      (happened : ∀ reason, aborted = some reason →
        Within (Happened docker settings.oneShotTimeout reason) events) :
      Reported docker settings.oneShotTimeout
        (Rollout.untouchedReport project container aborted skipped) events :=
    ⟨fun _ hstep => absurd hstep List.not_mem_nil, happened⟩
  unfold rolloutFor at h
  split at h
  case isFalse =>
    obtain ⟨-, hout⟩ := h.of_done
    cases hout
  unfold Rollout.forContainer at h
  split at h
  case h_1 =>
    obtain ⟨-, hout⟩ := h.of_done
    cases hout
  case h_2 info _ =>
    obtain ⟨listing, planned, run, rfl, hlisting, hrun⟩ := h.of_bind_some
    cases planned with
    | error e =>
        obtain ⟨-, hout⟩ := hrun.of_done
        cases hout
        exact untouched _ _ _ _ fun reason hreason => by
          cases hreason
          exact within_append (failed_of_planFor hlisting)
    | ok p =>
        simp only [Rollout.rolloutOrPlain] at hrun
        split at hrun
        · split at hrun
          · obtain ⟨-, hout⟩ := hrun.of_done
            cases hout
            exact untouched _ _ _ _ fun reason hreason => by cases hreason
          · obtain ⟨-, hout⟩ := hrun.of_done
            cases hout
        · split at hrun
          · obtain ⟨-, hout⟩ := hrun.of_done
            cases hout
          · obtain ⟨executed, hout, hexecute⟩ := hrun.of_map
            cases hout
            exact (shown_of_execute hexecute).mono (List.suffix_append _ _).isInfix

end Rollouts

/-- `api`, whose operator wants to be notified. -/
def notifyingRow : ContainerSummary where
  id := some "id-api"
  names := some ["api"]
  image := some "app"
  imageId := some "old-image"
  labels := some (LabelMap.ofPairs [("com.docker.compose.project", "stack"),
    ("com.docker.compose.service", "api"), ("freshdock.enable", "true"), ("freshdock.mode", "live"),
    ("freshdock.notify", "true")])
  state := some .running
  networkMode := none

/-- The stack, whose first container exits at once when it is updated. -/
def crashingTick : Run Call Call.Reply Nat Memory :=
  (stackFleet [notifyingRow, memberRow "web" "live"] 0).tick stackDocker stackConfig .default .empty

end Freshdock.Scheduler
