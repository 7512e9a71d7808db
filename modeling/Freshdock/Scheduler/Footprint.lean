import Freshdock.Interaction.Only
import Freshdock.Scheduler

/-!
# Who asks whom

The functions that work on containers are given a daemon and the clock of a wait, and nothing
else: no operation, gate, update or rollout asks a registry, notifies, reads the wall clock of
a tick or looks whether a shutdown was requested (`operates_forContainer`,
`operates_recreateWithHealth`). These four belong to the scheduler alone, and it notifies of what
becomes of an update when it applies one (`updates_applyUpdate`).
-/

set_option autoImplicit false

namespace Freshdock

/-- A call to the daemon, or to the clock of a wait. -/
def Call.operates : Call → Bool
  | .fetchDigest _ | .localTime | .shutdownRequested | .dispatch _ => false
  | _ => true

/-- A call that is made when it is asked for only: a hook, the removal of images, a notification. -/
def Call.elective : Call → Bool
  | .exec .. | .removeImage .. | .pruneImages | .dispatch _ => true
  | _ => false

/-- A call whose answer shows what became of a container. -/
def Call.shows : Call → Bool
  | .inspectContainer _ | .renameContainer .. | .createContainer .. | .startContainer .. => true
  | _ => false

theorem Call.free_of_shows {c : Call} (h : c.shows = true) : c.elective = false := by
  cases c <;> first | rfl | cases h

/-- A call that works on containers: one of the operations, unless it has to be asked for. -/
def Call.works (c : Call) : Bool := c.operates && !c.elective

/-- A notification of what became of an update, not of one that is to be had. -/
def NotifyEvent.concludes : NotifyEvent → Bool
  | .updateAvailable .. => false
  | _ => true

/-- A call of an update that is applied and reported. -/
def Call.updates : Call → Bool
  | .dispatch event => event.concludes
  | c => c.operates

namespace Scheduler

open Interaction Docker Registry
open Labels (Hook LifecycleHooks Policy PolicyDefaults)

/-- The program asks the daemon and the clock of a wait only. -/
abbrev Operates {α : Type} (p : Prog α) : Prop := p.Only fun c => c.operates = true

/-- The program works on containers only. -/
abbrev Works {α : Type} (p : Prog α) : Prop := p.Only fun c => c.works = true

theorem operates_of_works {α : Type} {p : Prog α} (h : Works p) : Operates p :=
  h.mono fun c hc => by
    cases c <;> first | rfl | cases hc

open Program (only_request only_done only_stalled)

/-! ## Operations -/

/-- One call of an operation. -/
theorem works_call {c : Call} (h : c.works = true) : Works (request c) := only_request h

theorem operates_call {c : Call} (h : c.operates = true) : Operates (request c) := only_request h

theorem works_inspect (name : String) : Works (inspect name).run :=
  Program.Only.except_bind (works_call rfl) fun _ => trivial

theorem works_localImageId (reference : String) : Works (localImageId reference).run :=
  Program.Only.except_bind (works_call rfl) fun _ => trivial

theorem works_retryRateLimited {pull : Prog (Except DockerError Unit)} (once : Works pull)
    (delays : List Duration) : Works (retryRateLimited pull delays) := by
  induction delays with
  | nil => exact once
  | cons delay delays ih =>
      refine once.bind fun result => ?_
      cases result with
      | ok _ => trivial
      | error e =>
          dsimp only
          split
          · exact (works_call rfl).bind fun _ => ih
          · trivial

theorem works_pull (image : ImageRef) : Works (pull image).run :=
  works_retryRateLimited (works_call rfl) _

theorem works_ts (ts : TsProvider) : Works ts.read := by
  cases ts with
  | fixed timestamp => trivial
  | system => exact works_call rfl

theorem works_probeState (id : String) : Works (probeState id).run :=
  Program.Only.except_bind (works_call rfl) fun _ => trivial

theorem works_dependentsOf (docker : Docker) (name : String) :
    Works (dependentsOf docker name) := by
  refine Program.Only.bind ?_ fun _ => trivial
  refine Program.Only.except_bind (works_call rfl) fun _ => ?_
  exact Program.Only.except_bind (works_call rfl) fun _ => trivial

theorem works_resolveMemberImages (members : List Compose.ProjectMember) :
    Works (resolveMemberImages members).run := by
  induction members with
  | nil => trivial
  | cons member members ih =>
      refine Program.Only.except_bind ?_ fun _ => Program.Only.except_bind ih fun _ => trivial
      unfold resolveMemberImage
      split
      · exact Program.Only.except_bind (works_inspect _) fun _ => trivial
      · trivial

theorem works_listProject (project : String) : Works (listProject project).run :=
  Program.Only.except_bind (works_call rfl) fun _ => works_resolveMemberImages _

theorem works_resolveTarget (c : ContainerSummary) : Works (Probe.resolveTarget c).run := by
  unfold Probe.resolveTarget
  split
  · trivial
  · split
    · split
      · trivial
      · exact Program.Only.except_bind (works_inspect _) fun _ => trivial
    · trivial

/-! ## Gates -/

theorem works_orPollAgain {α : Type} {again : Prog α} (start limit pollInterval : Duration)
    (verdict : α) (goesOn : Works again) :
    Works (orPollAgain start limit pollInterval verdict again) := by
  refine (works_call rfl).bind fun now => ?_
  split
  · trivial
  · exact (works_call rfl).bind fun _ => goesOn

theorem works_pollHealth (id : String) (cfg : HealthConfig) (start : Duration) (polls : Nat)
    (errorDeadline : Duration) : Works (pollHealth id cfg start polls errorDeadline) := by
  induction polls generalizing errorDeadline with
  | zero => trivial
  | succ polls ih =>
      refine (works_probeState id).bind fun probed => ?_
      match probed with
      | .ok .healthHealthy => trivial
      | .ok (.exited _) => trivial
      | .ok .healthStarting => exact works_orPollAgain _ _ _ _ (ih _)
      | .ok .healthUnhealthy => exact works_orPollAgain _ _ _ _ (ih _)
      | .ok .runningNoHealthcheck => exact works_orPollAgain _ _ _ _ (ih _)
      | .error _ => exact works_orPollAgain _ _ _ _ (ih _)

theorem works_waitForHealth (docker : Docker) (id : String) (cfg : HealthConfig) :
    Works (waitForHealth docker id cfg) :=
  (works_call rfl).bind fun _ => works_pollHealth _ _ _ _ _

theorem works_pollExit (id : String) (timeout pollInterval start : Duration) (polls : Nat) :
    Works (pollExit id timeout pollInterval start polls) := by
  induction polls with
  | zero => trivial
  | succ polls ih =>
      refine (works_probeState id).bind fun probed => ?_
      split
      · trivial
      · exact works_orPollAgain _ _ _ _ ih

theorem works_waitForExit (docker : Docker) (id : String) (timeout pollInterval : Duration) :
    Works (waitForExit docker id timeout pollInterval) :=
  (works_call rfl).bind fun _ => works_pollExit _ _ _ _ _

/-! ## Swaps and repairs -/

theorem works_nextAvailableOldName (original : String) (ts : Int) :
    Works (nextAvailableOldNameAsync original ts) := by
  have asked (name : String) : Works (nameTaken name) :=
    (works_call rfl).bind fun _ => trivial
  have searched (base : String) (numbers : List Nat) :
      Works (firstAvailable base nameTaken numbers) := by
    induction numbers with
    | nil => trivial
    | cons n rest ih =>
        refine (asked _).bind fun taken => ?_
        cases taken with
        | true => exact ih
        | false => trivial
  refine (asked _).bind fun taken => ?_
  cases taken with
  | true => exact searched _ _
  | false => trivial

theorem works_renameToOld (role : Role) (name : String) (ts : Int) :
    Works (renameToOld role name ts).run :=
  (works_nextAvailableOldName name ts).lift_bind fun _ =>
    Program.Only.except_bind (works_call rfl) fun _ => trivial

theorem works_swapStep {α : Type} {onError : DockerError → SwapError} {op : Op α}
    (h : Works op.run) : Works (swapStep onError op).run :=
  h.map

theorem works_swapContainer (role : Role) (name : String) (spec : ContainerSpec)
    (image : String) (ts : TsProvider) : Works (swapContainer role name spec image ts).run := by
  refine Program.Only.except_bind (works_swapStep (works_call rfl)) fun _ => ?_
  refine (works_ts ts).lift_bind fun tsUnix => ?_
  refine Program.Only.except_bind (works_swapStep (works_renameToOld _ _ _)) fun archive => ?_
  refine Program.Only.except_bind (works_swapStep (works_call rfl)) fun id => ?_
  exact Program.Only.except_bind (works_swapStep (works_call rfl)) fun _ => trivial

theorem works_repairImage (spec : ContainerSpec) : Works (repairImage spec) := by
  unfold repairImage
  split
  · trivial
  · split
    · trivial
    · refine (works_localImageId _).bind fun resolved => ?_
      split
      · split <;> trivial
      · trivial

theorem works_finishReattach (dependent : String)
    (swapped : Except SwapError (String × String)) :
    Works (finishReattach dependent swapped).run := by
  match swapped with
  | .ok (archive, _) => exact Program.Only.lift_bind (works_call rfl) fun _ => trivial
  | .error (.stop error) => trivial
  | .error (.afterStop error none) => trivial
  | .error (.afterStop error (some archive)) =>
      refine Program.Only.lift_bind ?_ fun _ => trivial
      refine Program.Only.bind (works_call rfl) fun renamed => ?_
      cases renamed with
      | error e => trivial
      | ok _ => exact Program.Only.bind (works_call rfl) fun _ => trivial

/-- **A repair asks the daemon only.** -/
theorem works_reattachDependents (owner : String) (newOwnerId : Option String) (ts : TsProvider)
    (dependents : List String) : Works (reattachDependents owner newOwnerId ts dependents) := by
  induction dependents with
  | nil => trivial
  | cons dependent dependents ih =>
      refine Program.Only.bind ?_ fun _ => ih
      refine Program.Only.except_bind (works_inspect _) fun inspected => ?_
      refine (works_repairImage _).lift_bind fun image => ?_
      exact (works_swapContainer _ _ _ _ ts).lift_bind fun swapped =>
        works_finishReattach dependent swapped

theorem works_undoUpdate (cycle : CycleResult) (reason : RollbackReason) (ts : TsProvider) :
    Works (undoUpdate cycle reason ts).run := by
  refine Program.Only.except_bind ?_ fun event =>
    (works_reattachDependents _ _ ts _).lift_bind fun _ => trivial
  refine Program.Only.lift_bind (works_call rfl) fun _ => ?_
  refine Program.Only.except_bind (works_call rfl) fun _ => ?_
  refine Program.Only.except_bind (works_call rfl) fun _ => ?_
  exact Program.Only.except_bind (works_call rfl) fun _ => trivial

/-! ## Updates -/

theorem operates_preUpdateHook (name : String) (hook : Option Hook) :
    Operates (runPreUpdateHook name hook) := by
  cases hook with
  | none => trivial
  | some hook => exact Program.Only.bind (operates_call rfl) fun _ => trivial

theorem operates_postUpdateHook (newId : String) (hook : Option Hook) :
    Operates (runPostUpdateHook newId hook) := by
  cases hook with
  | none => trivial
  | some hook => exact Program.Only.bind (operates_call rfl) fun _ => trivial

theorem operates_runCleanup (cleanup : Cleanup) (oldImageId : Option String) :
    Operates (runCleanup cleanup oldImageId) := by
  refine Program.Only.bind ?_ fun _ => ?_
  · unfold removeReplacedImage
    split
    · exact Program.Only.bind (operates_call rfl) fun _ => trivial
    · trivial
  · split
    · exact Program.Only.bind (operates_call rfl) fun _ => trivial
    · trivial

theorem operates_recreateOne (docker : Docker) (name : String) (hooks : LifecycleHooks)
    (ts : TsProvider) : Operates (recreateOne docker name hooks ts).run := by
  refine Program.Only.except_bind ?_ fun cleared => ?_
  · refine Program.Only.except_bind (operates_of_works (works_inspect name)) fun spec => ?_
    refine Program.Only.except_bind trivial fun _ => ?_
    refine Program.Only.except_bind (operates_of_works (works_pull _)) fun _ => ?_
    exact (operates_preUpdateHook _ _).lift_bind fun _ => trivial
  · obtain ⟨spec, _ | reason⟩ := cleared
    · refine (operates_of_works (works_dependentsOf docker name)).lift_bind fun dependents => ?_
      exact Program.Only.except_bind (operates_of_works (works_swapContainer _ _ _ _ ts)).map fun _ => trivial
    · trivial

theorem operates_settleUpdate (cycle : CycleResult) (cleanup : Cleanup) (hook : Option Hook)
    (ts : TsProvider) : Operates (settleUpdate cycle cleanup hook ts) := by
  refine (operates_of_works (works_reattachDependents _ _ ts _)).bind fun _ => ?_
  refine Program.Only.bind (operates_call rfl) fun _ => ?_
  refine (operates_postUpdateHook _ _).bind fun _ => ?_
  exact (operates_runCleanup _ _).bind fun _ => trivial

/-- **A health-gated update asks the daemon and the clock only.** -/
theorem operates_recreateWithHealth (docker : Docker) (name : String) (cfg : HealthConfig)
    (cleanup : Cleanup) (hooks : LifecycleHooks) (ts : TsProvider) :
    Operates (recreateWithHealth docker name cfg cleanup hooks ts).run := by
  refine Program.Only.except_bind (operates_recreateOne docker name hooks ts) fun outcome => ?_
  cases outcome with
  | skipped reason => trivial
  | completed cycle =>
      refine (operates_of_works (works_waitForHealth docker _ cfg)).lift_bind fun verdict => ?_
      cases verdict with
      | healthy => exact (operates_settleUpdate cycle cleanup _ ts).lift
      | timeout => exact operates_of_works (works_undoUpdate cycle _ ts)
      | crashed => exact operates_of_works (works_undoUpdate cycle _ ts)

/-- **The re-run of a one-shot asks the daemon and the clock only.** -/
theorem operates_recreateOneShot (docker : Docker) (name : String)
    (timeout pollInterval : Duration) (cleanup : Cleanup) (hooks : LifecycleHooks)
    (ts : TsProvider) :
    Operates (recreateOneShot docker name timeout pollInterval cleanup hooks ts).run := by
  refine Program.Only.except_bind (operates_recreateOne docker name _ ts) fun outcome =>
    Program.Only.lift ?_
  cases outcome with
  | skipped reason => trivial
  | completed cycle =>
      refine (operates_of_works (works_waitForExit docker _ timeout pollInterval)).bind fun exit => ?_
      cases exit with
      | timedOut => trivial
      | exited code =>
          change Operates (if code = 0 then settleOneShot cycle cleanup ts else pure (.failed code))
          split
          · refine (operates_of_works (works_reattachDependents _ _ ts _)).bind fun _ => ?_
            refine Program.Only.bind (operates_call rfl) fun _ => ?_
            exact (operates_runCleanup _ _).bind fun _ => trivial
          · trivial

/-! ## Rollouts -/

open Rollout (RolloutConfig RolloutPlan PlannedTarget Progress)

theorem operates_runTargets (docker : Docker) (cfg : RolloutConfig) (ts : TsProvider)
    (targets : List PlannedTarget) (progress : Progress) :
    Operates (Rollout.runTargets docker cfg ts targets progress) := by
  induction targets generalizing progress with
  | nil => trivial
  | cons target targets ih =>
      refine Program.Only.bind ?_ fun step => ?_
      · unfold Rollout.runTarget
        split
        · exact (operates_recreateOneShot _ _ _ _ _ _ ts).map
        · exact (operates_recreateWithHealth _ _ _ _ _ ts).map
      · cases step with
        | error reason => trivial
        | ok step => exact ih _

theorem works_runRestarts (containers : List String) :
    Works (Rollout.runRestarts containers) := by
  induction containers with
  | nil => trivial
  | cons container containers ih =>
      refine Program.Only.bind ?_ fun _ => ih.bind fun _ => trivial
      refine Program.Only.lift_bind ((works_inspect _).bind fun _ => trivial) fun options => ?_
      exact Program.Only.except_bind (works_call rfl) fun _ => works_call rfl

theorem operates_execute (docker : Docker) (p : RolloutPlan) (cfg : RolloutConfig)
    (ts : TsProvider) : Operates (Rollout.execute docker p cfg ts) := by
  refine (operates_runTargets docker cfg ts _ _).bind fun progress => ?_
  unfold Rollout.concludeRollout
  split
  · trivial
  · exact (operates_of_works (works_runRestarts _)).bind fun _ => trivial

/-- **A rollout asks the daemon and the clock only.** -/
theorem operates_forContainer (docker : Docker) (container : String) (labels : LabelMap)
    (cfg : RolloutConfig) (defaults : PolicyDefaults) (own : Option String) (ts : TsProvider) :
    Operates (Rollout.forContainer docker container labels cfg defaults own ts) := by
  unfold Rollout.forContainer
  split
  · trivial
  · refine Program.Only.bind ((operates_of_works (works_listProject _)).except_bind fun _ => trivial) fun planned => ?_
    unfold Rollout.rolloutOrPlain
    split
    · trivial
    · split
      · split <;> trivial
      · split
        · trivial
        · exact (operates_execute docker _ cfg ts).map

theorem operates_rolloutFor (docker : Docker) (cfg : SchedulerConfig) (ts : TsProvider)
    (name : String) (labels : LabelMap) (tag : Option String) (settings : ResolvedSettings) :
    Operates (rolloutFor docker cfg ts name labels tag settings) := by
  unfold rolloutFor
  split
  · exact operates_forContainer docker name labels _ _ _ ts
  · trivial

/-! ## Reported updates -/

/-- The program applies and reports updates only. -/
abbrev Updates {α : Type} (p : Prog α) : Prop := p.Only fun c => c.updates = true

theorem updates_of_operates {α : Type} {p : Prog α} (h : Operates p) : Updates p :=
  h.mono fun c hc => by
    cases c <;> first | rfl | cases hc

/-- A notification of an outcome, when it is asked for. -/
theorem updates_notify {event : NotifyEvent} (concludes : event.concludes = true) (asked : Bool) :
    Updates (if asked then request (.dispatch event) else pure () : Prog Unit) := by
  cases asked with
  | true => exact only_request concludes
  | false => trivial

theorem updates_notifySteps (image : String) (steps : List Rollout.RolloutStep) :
    Updates (notifySteps image steps) := by
  induction steps with
  | nil => trivial
  | cons step steps ih =>
      match step with
      | .updated container newId true =>
          have told : Updates (request (.dispatch (.updateSucceeded container image newId))) :=
            only_request rfl
          exact told.bind fun _ => ih
      | .updated _ _ false => exact ih
      | .oneShotCompleted _ => exact ih
      | .restarted _ => exact ih

theorem updates_reportRollout (report : Rollout.RolloutReport) (policy : Policy) (image : String) :
    Updates (reportRollout report policy image) := by
  refine (updates_notifySteps image _).bind fun _ => Program.Only.bind ?_ fun _ => trivial
  unfold notifyAbort
  cases report.aborted with
  | none => trivial
  | some reason =>
      cases policy.notify with
      | true => exact only_request rfl
      | false => trivial

theorem updates_notifyPlain (name image : String) (policy : Policy)
    (outcome : Except DockerError RecreateOutcome) :
    Updates (notifyPlain name image policy outcome) := by
  match outcome with
  | .ok (.recreated _ _) => exact updates_notify rfl _
  | .ok (.rolledBack _) => exact updates_notify rfl _
  | .ok (.skippedByHook _) => trivial
  | .error _ => trivial

/-- **Applying an update asks no registry, and notifies of outcomes only.** -/
theorem updates_applyUpdate (docker : Docker) (cfg : SchedulerConfig) (now : Cron.Instant)
    (name : String) (policy : Policy) (labels : LabelMap) (image latest : String)
    (tag : Option String) (settings : ResolvedSettings) :
    Updates (applyUpdate docker cfg now name policy labels image latest tag settings) := by
  refine (updates_of_operates (operates_rolloutFor _ _ _ _ _ _ _)).bind fun rollout => ?_
  cases rollout with
  | some report => exact (updates_reportRollout _ _ _).bind fun _ => trivial
  | none =>
      refine (updates_of_operates (operates_recreateWithHealth _ _ _ _ _ _)).bind fun outcome => ?_
      exact (updates_notifyPlain _ _ _ _).bind fun _ => trivial

end Scheduler

end Freshdock
