import Freshdock.Scheduler.Labelled
import Freshdock.Scheduler.Removals

/-!
# A tick accounts for what it does

Two of the calls of a tick need an account: a notification has to be true, and the removal of a
container has to be warranted. Both are accounted for by what went before in the tick
(`after_runTick`), so at whatever point an observation of the tick ends, what it shows up to a
notification is what the notification says (`notices_true`), and what it shows up to a removal is
why the container may be removed (`removals_warranted`).
-/

set_option autoImplicit false

namespace Freshdock.Scheduler

open Interaction Docker
open Labels (Policy)
open Rollout (RolloutReport RolloutStep RolloutPlan PlannedTarget)

variable {docker : Docker} {timeout : Duration} {prior : List CallEvent}

/-! ## Rollouts -/

section Rollouts

variable {ts : TsProvider}

theorem after_runTargets {cfg : Rollout.RolloutConfig} {targets : List PlannedTarget}
    {progress : Rollout.Progress} :
    After prior (Accounted docker timeout) (Rollout.runTargets docker cfg ts targets progress)
      fun _ _ => True := by
  induction targets generalizing progress prior with
  | nil => exact after_done trivial
  | cons target targets ih =>
      refine after_seq ?_ fun verdict log => ?_
      · unfold Rollout.runTarget
        cases target.kind with
        | oneShot => exact after_map after_recreateOneShot
        | service => exact after_map after_recreateWithHealth
      · cases verdict with
        | error reason => exact after_done trivial
        | ok step => exact ih

theorem after_runRestarts {containers : List String} :
    After prior (Accounted docker timeout) (Rollout.runRestarts containers) fun _ _ => True := by
  induction containers generalizing prior with
  | nil => exact after_done trivial
  | cons container containers ih =>
      refine after_seq ?_ fun _ _ => after_seq ih fun _ _ => after_done trivial
      refine after_lift_seq (after_working
        (operates_of_works ((works_inspect container).bind fun _ => trivial))
        (@emits_bind _ _ _ _ _ _ _ _ _ (fun _ => True)
          (emits_inspect quiet_notRemoval.hushed container) fun _ _ => emits_done trivial)
        fun _ _ _ => trivial) fun options _ => ?_
      exact after_except_seq (after_call rfl (fun _ _ _ h => by cases h) fun _ => trivial)
        (fun _ _ => trivial) fun _ _ =>
          after_call rfl (fun _ _ _ h => by cases h) fun _ => trivial

theorem after_execute {p : RolloutPlan} {cfg : Rollout.RolloutConfig} :
    After prior (Accounted docker timeout) (Rollout.execute docker p cfg ts) fun _ _ => True := by
  refine after_seq after_runTargets fun progress _ => ?_
  unfold Rollout.concludeRollout
  split
  · exact after_done trivial
  · exact after_seq after_runRestarts fun _ _ => after_done trivial

/-- **What a rollout reports can be told from the log.** -/
theorem after_rolloutFor {cfg : SchedulerConfig} {settings : ResolvedSettings} {name : String}
    {labels : LabelMap} {tag : Option String} :
    After prior (Accounted docker timeout) (rolloutFor docker cfg ts name labels tag settings)
      fun r log => ∀ report, r = some report →
        Reported docker settings.oneShotTimeout report log := by
  have accounted : After prior (Accounted docker timeout)
      (rolloutFor docker cfg ts name labels tag settings) fun _ _ => True := by
    unfold rolloutFor
    split
    case isFalse => exact after_done trivial
    unfold Rollout.forContainer
    split
    · exact after_done trivial
    · next info _ =>
      refine after_seq (after_working (operates_of_works
        ((works_listProject info.project).except_bind fun _ => trivial))
        (Rollout.emits_planFor quiet_notRemoval _ _ _ _ _) fun _ _ _ => trivial) fun planned _ => ?_
      unfold Rollout.rolloutOrPlain
      split
      · exact after_done trivial
      · split
        · split <;> exact after_done trivial
        · split
          · exact after_done trivial
          · exact after_map after_execute
  refine accounted.knowing fun events r h report hr => ?_
  subst hr
  exact (shown_of_rolloutFor h).mono (List.suffix_append _ _).isInfix

end Rollouts

/-! ## Notifying -/

/-- A notification that the log shows. -/
theorem after_notify {event : NotifyEvent} (shown : Shown docker timeout prior event) :
    After prior (Accounted docker timeout) (request (.dispatch event)) fun _ _ => True :=
  after_request (fun _ => shown) fun _ => trivial

theorem after_notifySteps {image : String} {steps : List RolloutStep}
    (done : ∀ step ∈ steps, Within (Done step) prior) :
    After prior (Accounted docker timeout) (notifySteps image steps) fun _ _ => True := by
  induction steps generalizing prior with
  | nil => exact after_done trivial
  | cons step steps ih =>
      have laterDone : ∀ step ∈ steps, Within (Done step) prior := fun step hstep =>
        done step (List.mem_cons_of_mem _ hstep)
      match step, done step List.mem_cons_self with
      | .updated container newId true, hdone =>
          have told : After prior (Accounted docker timeout)
              (request (.dispatch (.updateSucceeded container image newId))) fun _ _ => True :=
            after_notify hdone
          exact after_bind (told.frame laterDone fun log more h step hstep =>
            (h step hstep).mono (List.prefix_append _ _).isInfix) fun _ _ kept => ih kept.1
      | .updated _ _ false, _ => exact ih laterDone
      | .oneShotCompleted _, _ => exact ih laterDone
      | .restarted _, _ => exact ih laterDone

theorem after_reportRollout {report : RolloutReport} (reported : Reported docker timeout report prior)
    (policy : Policy) (image : String) :
    After prior (Accounted docker timeout) (reportRollout report policy image) fun _ _ => True := by
  have abort (log : List CallEvent) (reported : Reported docker timeout report log) :
      After log (Accounted docker timeout) (notifyAbort report policy) fun _ _ => True := by
    unfold notifyAbort
    cases haborted : report.aborted with
    | none => exact after_done trivial
    | some reason =>
        cases policy.notify with
        | true =>
            exact after_notify ⟨⟨report.steps, rfl, reported.done⟩, reason, rfl,
              reported.happened reason haborted⟩
        | false => exact after_done trivial
  refine after_bind ((after_notifySteps reported.done).frame reported fun log more h =>
    h.mono (List.prefix_append _ _).isInfix) fun _ log kept => ?_
  exact after_seq (abort log kept.1) fun _ _ => after_done trivial

theorem after_notifyPlain {name image : String} {policy : Policy}
    {outcome : Except DockerError RecreateOutcome}
    (came : ∀ o, outcome = .ok o → CameOut name o prior) :
    After prior (Accounted docker timeout) (notifyPlain name image policy outcome)
      fun _ _ => True := by
  have asked (event : NotifyEvent) (shown : Shown docker timeout prior event) (asked : Bool) :
      After prior (Accounted docker timeout)
        (if asked then request (.dispatch event) else pure () : Prog Unit) fun _ _ => True := by
    cases asked with
    | true => exact after_notify shown
    | false => exact after_done trivial
  match outcome, came with
  | .ok (.recreated _ newId), came => exact asked (.updateSucceeded _ _ _) (came _ rfl) _
  | .ok (.rolledBack event), came =>
      exact asked (.updateFailed _ _ _ _ _) ⟨name, came _ rfl⟩ _
  | .ok (.skippedByHook _), _ => exact after_done trivial
  | .error _, _ => exact after_done trivial

/-! ## Ticks -/

section Ticks

variable {cfg : SchedulerConfig} {now : Cron.Instant} {settings : ResolvedSettings}

/-- A plain update, and what is said of its outcome. -/
theorem after_plainUpdate {ts : TsProvider} {name : String} {policy : Policy}
    {image latest : String} :
    After prior (Accounted docker settings.oneShotTimeout)
      (plainUpdate docker cfg ts name policy image latest settings) fun _ _ => True := by
  refine after_bind (after_recreateWithHealth.knowing fun events r h =>
    (?_ : ∀ o, r = .ok o → CameOut name o (prior ++ events))) fun outcome log came =>
      after_seq (after_notifyPlain came) fun _ _ => after_done trivial
  intro o hr
  subst hr
  exact CameOut.mono (List.suffix_append _ _).isInfix (cameOut_of_recreateWithHealth h)

theorem after_applyUpdate {name : String} {policy : Policy} {labels : LabelMap}
    {image latest : String} {tag : Option String} :
    After prior (Accounted docker settings.oneShotTimeout)
      (applyUpdate docker cfg now name policy labels image latest tag settings)
      fun _ _ => True := by
  refine after_bind after_rolloutFor fun rollout log reported => ?_
  cases rollout with
  | some report =>
      exact after_seq (after_reportRollout (reported report rfl) policy image) fun _ _ =>
        after_done trivial
  | none => exact after_plainUpdate

theorem after_processContainer {name : String} {policy : Policy} {labels : LabelMap}
    {target : Probe.ProbeTarget} {lastFailed lastNotified : Option String} :
    After prior (Accounted docker settings.oneShotTimeout)
      (processContainer docker cfg now name policy labels target lastFailed lastNotified settings)
      fun _ _ => True := by
  have probe : After prior (Accounted docker settings.oneShotTimeout) (Probe.probeImage target.image)
      fun outcome log => ∀ digests latest tag, outcome = .fetched digests latest tag →
        ⟨.fetchDigest (Registry.ImageRef.parse target.image), some (.ok latest)⟩ ∈ log := by
    unfold Probe.probeImage
    split
    · exact after_done fun _ _ _ h => by cases h
    · refine after_seq (after_call rfl (fun _ _ _ h => by cases h) fun _ => trivial)
        fun inspected _ => ?_
      refine @after_bind _ _ _ _ _ _ _ _
        (fun fetched log => ⟨.fetchDigest (Registry.ImageRef.parse target.image), some fetched⟩ ∈ log) _
        (after_request (fun _ => trivial) fun fetched =>
          List.mem_append_right _ (List.mem_singleton_self _)) fun fetched log hfetched =>
            after_done fun digests latest tag houtcome => ?_
      match fetched, hfetched, houtcome with
      | .ok latest', hfetched, houtcome =>
          cases houtcome
          exact hfetched
  refine after_bind probe fun outcome log served => ?_
  unfold actOnProbe
  split
  · next digests latest tag =>
    split
    · exact after_done trivial
    · exact after_done trivial
    · unfold actOnUpdate
      split
      · unfold reportAvailable
        split
        · exact after_seq (after_notify (served _ _ _ rfl)) fun _ _ => after_done trivial
        · exact after_done trivial
      · exact after_done trivial
      all_goals
        split
        · exact after_done trivial
        · exact after_seq after_applyUpdate fun _ _ => after_done trivial
  all_goals exact after_done trivial

theorem after_visit {c : ContainerSummary} {sweep : Sweep} :
    After prior (Accounted docker settings.oneShotTimeout) (visit docker cfg now settings c sweep)
      fun _ _ => True := by
  unfold visit
  dsimp only
  split
  · exact after_done trivial
  split
  · exact after_done trivial
  split
  · exact after_done trivial
  split
  · exact after_done trivial
  split
  · exact after_done trivial
  unfold visitEnabled
  dsimp only
  split
  · refine after_seq (after_working (operates_of_works (works_resolveTarget c))
      (emits_resolveTarget quiet_notRemoval c) fun _ _ _ => trivial) fun target _ => ?_
    cases target with
    | error e => exact after_done trivial
    | ok target => exact after_seq after_processContainer fun _ _ => after_done trivial
  · exact after_done trivial

theorem after_sweepContainers {rows : List ContainerSummary} {sweep : Sweep} :
    After prior (Accounted docker settings.oneShotTimeout)
      (sweepContainers docker cfg now settings rows sweep) fun _ _ => True := by
  induction rows generalizing sweep prior with
  | nil => exact after_done trivial
  | cons c rows ih =>
      refine after_seq (after_request (fun _ => trivial) fun _ => trivial) fun stopping _ => ?_
      cases stopping with
      | true => exact after_done trivial
      | false => exact after_seq after_visit fun _ _ => ih

/-- **A tick accounts for its notifications and removals.** -/
theorem after_runTick {memory : Memory} :
    After prior (Accounted docker settings.oneShotTimeout) (runTick docker cfg settings memory)
      fun _ _ => True := by
  refine after_seq (after_call rfl (fun _ _ _ h => by cases h) fun _ => trivial) fun listed _ => ?_
  cases listed with
  | error e => exact after_done trivial
  | ok rows =>
      refine after_seq (after_request (fun _ => trivial) fun _ => trivial) fun now _ => ?_
      exact after_seq after_sweepContainers fun _ _ => after_done trivial

/-- What needs an account in an observation of a tick is accounted for by what went before. -/
theorem accounted_at_place {memory : Memory} {events before after : List CallEvent}
    {out : Option Memory} {e : CallEvent}
    (h : Produces (runTick docker cfg settings memory) events out)
    (place : events = before ++ e :: after) :
    Accounted docker settings.oneShotTimeout before e := by
  have heeded := (@after_runTick docker [] cfg settings memory _ _ h).1
  rw [place] at heeded
  exact heeded.place

/-- **Only what was replaced is removed.** A container that a tick removes was created by the tick
and rejected by its gate, or was archived by it before its replacement was created, started and
found well. -/
theorem removals_warranted {memory : Memory} {events before after : List CallEvent}
    {out : Option Memory} {role : Role} {id : String} {force : Bool}
    {reply : Option (Except DockerError Unit)}
    (h : Produces (runTick docker cfg settings memory) events out)
    (place : events = before ++ ⟨.removeContainer role id force, reply⟩ :: after) :
    Warrant before role id force :=
  accounted_at_place h place

/-- The new `api`, which crashes, is removed because its gate rejected it. -/
theorem removals_warranted_crashing :
    ∃ before, before.length = 18 ∧ before <+: crashingTick.trace ∧
      Warrant before .update "new-api" true := by
  have place := place_of_getElem? (show crashingTick.trace[18]? =
    some ⟨.removeContainer .update "new-api" true, some (.ok ())⟩ from rfl)
  have run : Produces (runTick stackDocker stackConfig .default .empty) crashingTick.trace
      crashingTick.out := Fleet.produces_tick _ _ _ _ _
  exact ⟨_, rfl, List.take_prefix 18 _, removals_warranted run place⟩

end Ticks

end Freshdock.Scheduler
