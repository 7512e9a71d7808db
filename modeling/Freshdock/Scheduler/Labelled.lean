import Freshdock.Rollout.Moves
import Freshdock.Rollout.Permitted
import Freshdock.Scheduler.Outcomes

/-!
# A tick updates labelled containers

Everything that a tick does to containers is an update of one container or a restart, and every
update is made for a container that was listed, under the policy of that container's own labels as
they were listed (`Labelled`). So a guarantee of the updates of labelled containers, of the restarts
and of the notifications is a guarantee of ticks (`TickKeeps`, `TickKeeps.runTick`).

**Whose labels.** A rollout that was set off by one container updates others, each under its own
policy (`labelled_of_target`), and what its report says of them carries their own notify flag
(`StepAsked`). Only the message about the rollout as a whole goes by the labels of the container
that set it off.
-/

set_option autoImplicit false

namespace Freshdock.Scheduler

open Interaction Docker Health
open Labels (Hook LifecycleHooks Policy)
open Rollout (RolloutReport RolloutStep AbortReason RolloutPlan PlannedTarget ListedProject Refilled)
open Compose (ProjectMember)

/-! ## Labelled containers -/

section Facts

variable (seen : CallEvent → Prop) (settings : ResolvedSettings)

/-- The row was listed, among the running containers or among those of a project. -/
def OnList (row : ContainerSummary) : Prop :=
  (∃ rows, seen ⟨.listRunning, some (.ok rows)⟩ ∧ row ∈ rows) ∨
    ∃ project rows, seen ⟨.listProjectContainers project, some (.ok rows)⟩ ∧ row ∈ rows

/-- The policy of a container by its own labels, as they were listed. -/
structure Labelled (row : ContainerSummary) (policy : Policy) : Prop where
  listed : OnList seen row
  parsed : Labels.parsePolicy (row.labels.getD fun _ => none) settings.policyDefaults = .ok policy

/-- The notification is about the container, or about the project that its labels name. -/
def About (row : ContainerSummary) : NotifyEvent → Prop
  | .updateAvailable container _ _ => container = containerName row
  | .updateSucceeded container _ _ => container = containerName row
  | .updateFailed container _ _ _ _ =>
      ∃ spec, Inspected seen (containerName row) spec ∧ container = spec.name
  | .rolloutAborted project _ _ _ =>
      ∃ info, Compose.parse (row.labels.getD fun _ => none) = some info ∧ info.project = project

/-- A container that is to be notified of, and whose own labels ask for it. -/
def StepAsked (step : RolloutStep) : Prop :=
  ∀ container newId, step = .updated container newId true →
    ∃ row policy, Labelled seen settings row policy ∧ policy.notify = true ∧
      container = containerName row

/-- The target is a listed container, under the policy of its own labels. -/
def TargetLabelled (target : PlannedTarget) : Prop :=
  ∃ row, Labelled seen settings row target.policy ∧ target.container = containerName row

/-- What a report is of, and whom it notifies of. -/
structure ReportAsked (project : String) (report : RolloutReport) : Prop where
  project : report.project = project
  steps : ∀ step ∈ report.steps, StepAsked seen settings step

variable (guar : CallEvent → Prop) (docker : Docker)

/-- What is guaranteed of the parts of a tick. -/
structure TickKeeps : Prop where
  reads : Reads guar
  stops : ∀ name signal timeout reply, guar ⟨.stopContainer .restart name signal timeout, reply⟩
  starts : ∀ name reply, guar ⟨.startContainer .restart name, reply⟩
  notifies : ∀ row policy event reply, Labelled seen settings row policy → policy.notify = true →
    About seen row event → guar ⟨.dispatch event, reply⟩
  updates : ∀ row policy (cfg : HealthConfig) (ts : TsProvider), Labelled seen settings row policy →
    Emits seen guar (recreateWithHealth docker (containerName row) cfg
      ⟨policy.cleanup, settings.pruneDangling⟩ policy.hooks ts).run fun _ => True
  reruns : ∀ row policy (timeout pollInterval : Duration) (ts : TsProvider),
    Labelled seen settings row policy →
    Emits seen guar (recreateOneShot docker (containerName row) timeout pollInterval
      ⟨policy.cleanup, settings.pruneDangling⟩ policy.hooks ts).run fun _ => True

end Facts

variable {seen guar : CallEvent → Prop} {settings : ResolvedSettings} {docker : Docker}

/-- A reported rollout that touched nothing notifies of nobody. -/
theorem reportAsked_untouched (project container : String) (aborted : Option AbortReason)
    (skipped : List Rollout.SkippedMember) :
    ReportAsked seen settings project (Rollout.untouchedReport project container aborted skipped) :=
  ⟨rfl, fun _ h => by cases h⟩

/-! ## Plans -/

section Plans

theorem project_of_plan {project trigger : String} {members : List ProjectMember}
    {tag own : Option String} {defaults : Labels.PolicyDefaults} :
    (Rollout.plan project members trigger tag defaults own).project = project := by
  cases horigin : Rollout.originOf members trigger with
  | none =>
      rw [Rollout.plan_eq_empty horigin]
      rfl
  | some origin =>
      rw [Rollout.plan_eq_assemble horigin]
      rfl

/-- A target of the plan of a listing goes by the labels of its row. -/
theorem labelled_of_target {project trigger : String} {members : List ProjectMember}
    {tag own : Option String} {target : PlannedTarget} (listed : ListedProject seen project members)
    (ht : target ∈ (Rollout.plan project members trigger tag settings.policyDefaults own).targets) :
    TargetLabelled seen settings target := by
  obtain ⟨rows, hrows, refilled⟩ := listed
  obtain ⟨origin, -, m, hm, htarget⟩ := Rollout.mem_targets_plan.mp ht
  obtain ⟨info, -, -, hadmit, hname, -, -⟩ := Rollout.targetOf_eq_some.mp htarget
  obtain ⟨row, hrow, read⟩ :=
    Rollout.exists_row_of_refilled refilled (Rollout.mem_of_live hm)
  refine ⟨row, ⟨.inr ⟨project, rows, hrows, hrow⟩, ?_⟩, hname.trans read.name⟩
  rw [← read.labels]
  exact (Rollout.admission_iff.mp hadmit).2.2.1

end Plans

section Mono

variable {seen' : CallEvent → Prop} (more : ∀ e, e.call.elective = false → seen e → seen' e)

include more

theorem Labelled.mono {row : ContainerSummary} {policy : Policy}
    (h : Labelled seen settings row policy) : Labelled seen' settings row policy where
  listed := by
    rcases h.listed with ⟨rows, hrows, hrow⟩ | ⟨project, rows, hrows, hrow⟩
    · exact .inl ⟨rows, more _ rfl hrows, hrow⟩
    · exact .inr ⟨project, rows, more _ rfl hrows, hrow⟩
  parsed := h.parsed

theorem About.mono {row : ContainerSummary} {event : NotifyEvent} (h : About seen row event) :
    About seen' row event := by
  cases event with
  | updateFailed container reason oldImageRef newImageRef restoredFrom =>
      obtain ⟨spec, ⟨resp, hresp, hread⟩, howner⟩ := h
      exact ⟨spec, ⟨resp, more _ rfl hresp, hread⟩, howner⟩
  | _ => exact h

end Mono

/-! ## Reading -/

/-- Where the reference of a container is read from, nothing is done. -/
theorem emits_resolveTarget {free : CallEvent → Prop} (quiet : Quiet free) (c : ContainerSummary) :
    Emits seen free (Probe.resolveTarget c).run fun _ => True := by
  unfold Probe.resolveTarget
  split
  · exact emits_done trivial
  · split
    · split
      · exact emits_done trivial
      · exact emits_try_bind (fun _ => True)
          ((emits_inspect quiet.hushed _).weaken fun r _ => by cases r <;> trivial)
          fun _ _ => emits_done trivial
    · exact emits_done trivial

section Keeps

variable (keeps : TickKeeps seen settings guar docker)

include keeps

/-- A call that moves no container, and that nobody has to ask for. -/
theorem TickKeeps.call {c : Call} (still : c.moves = none) (free : c.elective = false) :
    Emits seen guar (request c) fun reply => seen ⟨c, some reply⟩ :=
  emits_request (fun reply => keeps.reads c reply still free) fun _ hr => hr

theorem TickKeeps.reading {α : Type} {p : Prog α} {post : α → Prop} (works : Works p)
    (h : ∀ free : CallEvent → Prop, Quiet free → Emits seen free p post) : Emits seen guar p post :=
  emits_reading keeps.reads works h

/-- A notification that the labels of a container ask for. -/
theorem TickKeeps.notify {row : ContainerSummary} {policy : Policy} {event : NotifyEvent}
    (labelled : Labelled seen settings row policy) (hnotify : policy.notify = true)
    (about : About seen row event) : Emits seen guar (request (.dispatch event)) fun _ => True :=
  emits_request (fun reply => keeps.notifies row policy event reply labelled hnotify about)
    fun _ _ => trivial

/-! ## Rollouts -/

section Rollouts

variable {cfg : Rollout.RolloutConfig} {ts : TsProvider}

theorem TickKeeps.runTarget (hprune : cfg.pruneDangling = settings.pruneDangling)
    {target : PlannedTarget} (labelled : TargetLabelled seen settings target) :
    Emits seen guar (Rollout.runTarget docker cfg ts target)
      fun verdict => ∀ step, verdict = .ok step → StepAsked seen settings step := by
  obtain ⟨row, hrow, hname⟩ := labelled
  have emits : Emits seen guar (Rollout.runTarget docker cfg ts target)
      fun _ => True := by
    unfold Rollout.runTarget Rollout.targetCleanup
    rw [hprune, hname]
    cases target.kind with
    | oneShot => exact emits_map (keeps.reruns row target.policy _ _ ts hrow)
    | service => exact emits_map (keeps.updates row target.policy _ ts hrow)
  refine emits.knowing fun events verdict h _ step hstep container newId hupdated => ?_
  subst hstep hupdated
  have reports := (Rollout.verdict_of_runTarget h).1 _ rfl
  unfold Rollout.Reports at reports
  cases hkind : target.kind with
  | oneShot =>
      rw [hkind] at reports
      cases reports
  | service =>
      rw [hkind] at reports
      obtain ⟨id, hsame⟩ := reports
      obtain ⟨rfl, rfl, hnotify⟩ := RolloutStep.updated.inj hsame
      exact ⟨row, target.policy, hrow, hnotify.symm, hname⟩

theorem TickKeeps.runTargets (hprune : cfg.pruneDangling = settings.pruneDangling)
    {targets : List PlannedTarget} {progress : Rollout.Progress}
    (labelled : ∀ t ∈ targets, TargetLabelled seen settings t)
    (asked : ∀ step ∈ progress.steps, StepAsked seen settings step) :
    Emits seen guar (Rollout.runTargets docker cfg ts targets progress)
      fun done => ∀ step ∈ done.steps, StepAsked seen settings step := by
  induction targets generalizing progress with
  | nil => exact emits_done asked
  | cons target targets ih =>
      refine emits_bind (keeps.runTarget hprune (labelled target List.mem_cons_self))
        fun verdict hverdict => ?_
      cases verdict with
      | error reason => exact emits_done asked
      | ok step =>
          refine ih (fun t ht => labelled t (List.mem_cons_of_mem _ ht)) fun step' hstep => ?_
          rcases List.mem_append.mp hstep with hstep | hstep
          · exact asked step' hstep
          · obtain rfl := List.mem_singleton.mp hstep
            exact hverdict step' rfl

theorem TickKeeps.restartDependent {container : String} :
    Emits seen guar (Rollout.restartDependent container).run fun _ => True := by
  have options : Emits seen guar (Rollout.stopOptions container) fun _ => True :=
    keeps.reading ((works_inspect container).bind fun _ => trivial) fun free quiet =>
      emits_bind (emits_inspect quiet.hushed container) fun _ _ => emits_done trivial
  refine emits_lift_bind options fun options _ => ?_
  refine emits_try_bind (fun _ => True)
    (emits_request (fun reply => keeps.stops container _ _ reply) fun r _ => by
      cases r <;> exact trivial) fun _ _ => ?_
  exact emits_request (fun reply => keeps.starts container reply) fun _ _ => trivial

theorem TickKeeps.runRestarts {containers : List String} :
    Emits seen guar (Rollout.runRestarts containers) fun _ => True := by
  induction containers with
  | nil => exact emits_done trivial
  | cons container containers ih =>
      exact emits_bind keeps.restartDependent fun _ _ => emits_bind ih fun _ _ => emits_done trivial

/-- **Executing a plan works on its targets by their own labels.** -/
theorem TickKeeps.execute (hprune : cfg.pruneDangling = settings.pruneDangling) {p : RolloutPlan}
    (labelled : ∀ t ∈ p.targets, TargetLabelled seen settings t) :
    Emits seen guar (Rollout.execute docker p cfg ts)
      (ReportAsked seen settings p.project) := by
  refine emits_bind (keeps.runTargets hprune labelled fun _ h => by cases h)
    fun progress asked => ?_
  unfold Rollout.concludeRollout
  split
  · exact emits_done ⟨rfl, asked⟩
  · refine emits_bind (keeps.runRestarts.knowing fun _ _ h _ => Rollout.steps_of_runRestarts h)
      fun steps hsteps => ?_
    obtain ⟨restarted, rfl, -⟩ := hsteps
    refine emits_done ⟨rfl, fun step hstep => ?_⟩
    rcases List.mem_append.mp hstep with hstep | hstep
    · exact asked step hstep
    · obtain ⟨container, -, rfl⟩ := List.mem_map.mp hstep
      intro container' newId hupdated
      cases hupdated

/-- **A rollout works on the containers of its project by their own labels.** -/
theorem TickKeeps.forContainer (hprune : cfg.pruneDangling = settings.pruneDangling)
    {container : String} {labels : LabelMap} {own : Option String} :
    Emits seen guar
      (Rollout.forContainer docker container labels cfg settings.policyDefaults own ts)
      fun r => ∀ report, r = some report →
        ∃ info, Compose.parse labels = some info ∧ ReportAsked seen settings info.project report := by
  unfold Rollout.forContainer
  cases hinfo : Compose.parse labels with
  | none => exact emits_done fun report h => by cases h
  | some info =>
      refine emits_bind (keeps.reading ((works_listProject info.project).except_bind
        fun _ => trivial) fun free quiet => Rollout.emits_planFor quiet _ _ _ _ _)
        fun planned hplanned => ?_
      cases planned with
      | error e =>
          exact emits_done fun report h => by
            cases h
            exact ⟨info, rfl, reportAsked_untouched _ _ _ _⟩
      | ok p =>
          obtain ⟨members, hmembers, rfl⟩ := hplanned p rfl
          simp only [Rollout.rolloutOrPlain]
          split
          · split
            · exact emits_done fun report h => by
                cases h
                exact ⟨info, rfl, reportAsked_untouched _ _ _ _⟩
            · exact emits_done fun report h => by cases h
          · split
            · exact emits_done fun report h => by cases h
            · refine emits_map ((keeps.execute hprune fun t ht =>
                labelled_of_target hmembers ht).weaken fun executed hasked report h => ?_)
              cases h
              rw [project_of_plan] at hasked
              exact ⟨info, rfl, hasked⟩

end Rollouts

/-! ## Notifications -/

section Ticks

variable {cfg : SchedulerConfig} {now : Cron.Instant}

/-- Updated containers are notified of when their own labels ask for it. -/
theorem TickKeeps.notifySteps {image : String} {steps : List RolloutStep}
    (asked : ∀ step ∈ steps, StepAsked seen settings step) :
    Emits seen guar (notifySteps image steps) fun _ => True := by
  induction steps with
  | nil => exact emits_done trivial
  | cons step steps ih =>
      have later := ih fun step hstep => asked step (List.mem_cons_of_mem _ hstep)
      match step, asked step List.mem_cons_self with
      | .updated container newId true, hasked =>
          obtain ⟨row, policy, labelled, hnotify, hname⟩ := hasked container newId rfl
          exact emits_bind (keeps.notify labelled hnotify hname) fun _ _ => later
      | .updated _ _ false, _ => exact later
      | .oneShotCompleted _, _ => exact later
      | .restarted _, _ => exact later

section Container

variable {row : ContainerSummary} {policy : Policy} (labelled : Labelled seen settings row policy)

include labelled

theorem TickKeeps.reportRollout {image project : String} {report : RolloutReport}
    {info : Compose.ComposeInfo}
    (hinfo : Compose.parse (row.labels.getD fun _ => none) = some info)
    (hproject : info.project = project) (asked : ReportAsked seen settings project report) :
    Emits seen guar (reportRollout report policy image) fun _ => True := by
  have abort : Emits seen guar (notifyAbort report policy) fun _ => True := by
    unfold notifyAbort
    cases report.aborted with
    | none => exact emits_done trivial
    | some reason =>
        cases hnotify : policy.notify with
        | false => exact emits_done trivial
        | true =>
            refine keeps.notify labelled hnotify ⟨info, hinfo, ?_⟩
            rw [hproject, asked.project]
  exact emits_bind (keeps.notifySteps asked.steps) fun _ _ =>
    emits_bind abort fun _ _ => emits_done trivial

theorem TickKeeps.notifyPlain {image : String} {outcome : Except DockerError RecreateOutcome}
    (back : ∀ event, outcome = .ok (.rolledBack event) →
      ∃ spec, Inspected seen (containerName row) spec ∧ event.container = spec.name) :
    Emits seen guar (notifyPlain (containerName row) image policy outcome)
      fun _ => True := by
  have told (event : NotifyEvent) (about : About seen row event) :
      Emits seen guar
        (if policy.notify then request (.dispatch event) else pure () : Prog Unit)
        fun _ => True := by
    cases hnotify : policy.notify with
    | true => exact keeps.notify labelled hnotify about
    | false => exact emits_done trivial
  match outcome, back with
  | .ok (.recreated _ newId), _ => exact told (.updateSucceeded _ _ _) rfl
  | .ok (.rolledBack event), back => exact told (.updateFailed _ _ _ _ _) (back event rfl)
  | .ok (.skippedByHook _), _ => exact emits_done trivial
  | .error _, _ => exact emits_done trivial

/-- **An update is applied as the labels of the containers that it works on ask.** -/
theorem TickKeeps.applyUpdate {image latest : String} {tag : Option String} :
    Emits seen guar
      (applyUpdate docker cfg now (containerName row) policy (row.labels.getD fun _ => none) image
        latest tag settings) fun _ => True := by
  have rollout (ts : TsProvider) : Emits seen guar
      (rolloutFor docker cfg ts (containerName row) (row.labels.getD fun _ => none) tag settings)
      fun r => ∀ report, r = some report → ∃ info,
        Compose.parse (row.labels.getD fun _ => none) = some info ∧
          ReportAsked seen settings info.project report := by
    unfold rolloutFor
    split
    · exact keeps.forContainer rfl
    · exact emits_done fun report h => by cases h
  refine emits_bind (rollout _) fun r asked => ?_
  cases r with
  | some report =>
      obtain ⟨info, hinfo, hasked⟩ := asked report rfl
      exact emits_bind (keeps.reportRollout labelled hinfo rfl hasked) fun _ _ =>
        emits_done trivial
  | none =>
      refine emits_bind ((keeps.updates row policy _ _ labelled).knowing
        fun events r h hseen event hr => ?_) fun outcome back =>
          emits_bind (keeps.notifyPlain labelled back) fun _ _ => emits_done trivial
      subst hr
      obtain ⟨part, ⟨before, after, rfl⟩, back⟩ := cameOut_of_recreateWithHealth h
      obtain ⟨spec, ⟨resp, hresp, hread⟩, howner⟩ := back.inspected
      exact ⟨spec, ⟨resp, hseen _ (by simp [hresp]), hread⟩, howner⟩

theorem TickKeeps.processContainer {target : Probe.ProbeTarget}
    {lastFailed lastNotified : Option String} :
    Emits seen guar
      (processContainer docker cfg now (containerName row) policy (row.labels.getD fun _ => none)
        target lastFailed lastNotified settings) fun _ => True := by
  have probe : Emits seen guar (Probe.probeImage target.image)
      fun _ => True := by
    unfold Probe.probeImage
    split
    · exact emits_done trivial
    · exact emits_bind (keeps.call rfl rfl) fun _ _ =>
        emits_bind (keeps.call rfl rfl) fun _ _ => emits_done trivial
  refine emits_bind probe fun outcome _ => ?_
  unfold actOnProbe
  split
  · next digests latest tag =>
    split
    · exact emits_done trivial
    · exact emits_done trivial
    · unfold actOnUpdate
      split
      · unfold reportAvailable
        split
        · next hnotify =>
          have about : About seen row (.updateAvailable (containerName row) target.image latest) := rfl
          exact emits_bind (keeps.notify labelled (Bool.and_eq_true_iff.mp hnotify).1 about)
            fun _ _ => emits_done trivial
        · exact emits_done trivial
      · exact emits_done trivial
      all_goals
        split
        · exact emits_done trivial
        · exact emits_bind (keeps.applyUpdate labelled) fun _ _ => emits_done trivial
  all_goals exact emits_done trivial

end Container

/-! ## Ticks -/

theorem TickKeeps.visit {c : ContainerSummary} {sweep : Sweep} (listed : OnList seen c) :
    Emits seen guar (visit docker cfg now settings c sweep)
      fun _ => True := by
  unfold Scheduler.visit
  dsimp only
  split
  · exact emits_done trivial
  split
  · exact emits_done trivial
  split
  · exact emits_done trivial
  · next policy hpolicy =>
    split
    · exact emits_done trivial
    split
    · exact emits_done trivial
    unfold visitEnabled
    dsimp only
    split
    · refine emits_bind (keeps.reading (works_resolveTarget c) fun free quiet =>
        emits_resolveTarget quiet c) fun target _ => ?_
      cases target with
      | error e => exact emits_done trivial
      | ok target =>
          exact emits_bind (keeps.processContainer ⟨listed, hpolicy⟩) fun _ _ =>
            emits_done trivial
    · exact emits_done trivial

theorem TickKeeps.sweepContainers {rows : List ContainerSummary} {sweep : Sweep}
    (listed : ∀ row ∈ rows, OnList seen row) :
    Emits seen guar (sweepContainers docker cfg now settings rows sweep)
      fun _ => True := by
  induction rows generalizing sweep with
  | nil => exact emits_done trivial
  | cons c rows ih =>
      refine emits_bind (keeps.call rfl rfl) fun stopping _ => ?_
      cases stopping with
      | true => exact emits_done trivial
      | false =>
          exact emits_bind (keeps.visit (listed c List.mem_cons_self)) fun _ _ =>
            ih fun row hrow => listed row (List.mem_cons_of_mem _ hrow)

/-- **What its updates, restarts and notifications keep, a tick keeps.** -/
theorem TickKeeps.runTick {memory : Memory} :
    Emits seen guar (runTick docker cfg settings memory) fun _ => True := by
  refine emits_bind (keeps.call (c := Call.listRunning) rfl rfl) fun listed hlisted => ?_
  cases listed with
  | error e => exact emits_done trivial
  | ok rows =>
      refine emits_bind (keeps.call rfl rfl) fun now _ => ?_
      exact emits_bind (keeps.sweepContainers fun row hrow => .inl ⟨rows, hlisted, hrow⟩)
        fun _ _ => emits_done trivial

end Ticks

end Keeps

end Freshdock.Scheduler
