import Freshdock.Docker.Recreate

/-!
# Compose project rollouts

Inside a Compose project the unit of an update is the project. `plan` picks the members the
moved image applies to and orders them by dependency, `execute` runs the plan and stops at the
first step that fails, and `forContainer` decides between a rollout and the plain update of one
container.

**Two sets.** A plan touches containers in two ways: its targets, which are updated, and the
restart candidates, which are stopped and started because a dependency of theirs was updated
and their Compose file asks for it. Each set has its own conditions.
-/

set_option autoImplicit false

namespace Freshdock

open Interaction Docker Registry SelfId
open Compose (ProjectMember Graph)
open Labels (Policy PolicyDefaults Mode LabelError)

namespace Rollout

def defaultOneShotTimeout : Duration := Duration.fromSecs 600

structure RolloutConfig where
  health : HealthConfig
  pruneDangling : Bool
  oneShotTimeout : Duration
  /-- The image id a member needs no update to reach; `none` targets them all. -/
  tagImageId : Option String
  deriving DecidableEq, Repr

def RolloutConfig.default : RolloutConfig where
  health := .default
  pruneDangling := false
  oneShotTimeout := defaultOneShotTimeout
  tagImageId := none

/-! ## Plans -/

inductive TargetKind where
  | oneShot | service
  deriving DecidableEq, Repr

/-- One container the rollout will update, under its own policy. -/
structure PlannedTarget where
  container : String
  service : String
  kind : TargetKind
  policy : Policy
  deriving DecidableEq, Repr

/-- Why a member on the moved image is left alone. -/
inductive SkipReason where
  | optedOut
  | notEnabled
  | watchOnly
  | invalidLabels (error : String)
  | stoppedService
  | oneShotInFlight
  | selfContainer
  | alreadyCurrent
  deriving DecidableEq, Repr

def SkipReason.message : SkipReason → String
  | .optedOut => "explicitly opted out of freshdock"
  | .notEnabled =>
      "not opted into freshdock, and nothing in the project waits for it to complete"
  | .watchOnly => "in watch mode, which never restarts a container"
  | .invalidLabels e => "invalid freshdock labels: " ++ e
  | .stoppedService => "stopped, and not a one-shot; leaving it stopped"
  | .oneShotInFlight => "one-shot is already running"
  | .selfContainer => "this is freshdock's own container"
  | .alreadyCurrent => "already running the image the tag resolves to"

structure SkippedMember where
  container : String
  reason : SkipReason
  deriving DecidableEq, Repr

structure RolloutPlan where
  project : String
  /-- Dependencies before dependents. -/
  targets : List PlannedTarget
  skipped : List SkippedMember
  /-- The running containers of each service that may be restarted. -/
  restartCandidates : SortedMap String (List String)
  graph : Graph

namespace RolloutPlan

/-- The containers to restart when the services `updated` were updated. -/
def restartsFor (p : RolloutPlan) (updated : List String) : List String :=
  ((Compose.restartDependents p.graph updated).filterMap p.restartCandidates.get?).flatten

def allTargetServices (p : RolloutPlan) : List String := p.targets.map PlannedTarget.service

/-- Is the plan no more than the update of `container` on its own? -/
def addsNothingFor (p : RolloutPlan) (container : String) : Bool :=
  (p.restartsFor p.allTargetServices).isEmpty &&
    match p.targets with
    | [only] => only.container == container
    | _ => false

def covers (p : RolloutPlan) (container : String) : Bool :=
  p.targets.any fun t => t.container == container

def skipReasonFor (p : RolloutPlan) (container : String) : Option SkipReason :=
  (p.skipped.find? fun s => s.container == container).map SkippedMember.reason

end RolloutPlan

/-! ## Planning -/

/-- Is the member on the moved image? Either spelling counts, unless the member is pinned. -/
def sameImage (member : ProjectMember) (image : ImageRef) (imageId : Option String) : Bool :=
  if ImageRef.parse member.imageRef = image then true
  else if isPinned member.imageRef then false
  else
    match member.imageId, imageId with
    | some a, some b => a == b
    | _, _ => false

/-- What a plan is made for. -/
structure PlanInput where
  defaults : PolicyDefaults
  ownIdPrefix : Option String
  tagImageId : Option String
  /-- The reference and the id of the moved image. -/
  updatedImage : ImageRef
  updatedImageId : Option String
  /-- The services the project waits on to complete. -/
  awaited : List String

def PlanInput.isSelf (input : PlanInput) (member : ProjectMember) : Bool :=
  isOwnContainer input.ownIdPrefix (some member.id)

/-- May the member be restarted on behalf of a dependency? The image does not matter. -/
def PlanInput.restartable (input : PlanInput) (member : ProjectMember) : Bool :=
  member.running && !input.isSelf member && !Labels.explicitlyOptsOut member.labels &&
    match Labels.parsePolicy member.labels input.defaults with
    | .ok policy => policy.mode != .watch
    | .error _ => false

/-- The gates after the labels were read. -/
def PlanInput.admitPolicy (input : PlanInput) (oneShot : Bool) (member : ProjectMember)
    (policy : Policy) : Except SkipReason Policy :=
  if policy.mode = .watch then .error .watchOnly
  else if !(policy.enabled && policy.mode != .off) && !oneShot then .error .notEnabled
  else if !oneShot && input.tagImageId.isSome && member.imageId == input.tagImageId then
    .error .alreadyCurrent
  else if oneShot then
    if member.running then .error .oneShotInFlight else .ok policy
  else if member.running then .ok policy
  else .error .stoppedService

/-- Is a member on the moved image updated, and under which policy? -/
def PlanInput.admission (input : PlanInput) (oneShot : Bool) (member : ProjectMember) :
    Except SkipReason Policy :=
  if input.isSelf member then .error .selfContainer
  else if Labels.explicitlyOptsOut member.labels then .error .optedOut
  else
    match Labels.parsePolicy member.labels input.defaults with
    | .error e => .error (.invalidLabels e.message)
    | .ok policy => input.admitPolicy oneShot member policy

/-- What the walk over the members has collected. -/
structure PlanState where
  byService : SortedMap String (List PlannedTarget)
  skipped : List SkippedMember
  restartCandidates : SortedMap String (List String)

def PlanState.empty : PlanState := ⟨.empty, [], .empty⟩

def PlanState.addCandidate (state : PlanState) (service container : String) : PlanState :=
  { state with restartCandidates := state.restartCandidates.push service container }

def PlanState.skip (state : PlanState) (container : String) (reason : SkipReason) : PlanState :=
  { state with skipped := state.skipped ++ [⟨container, reason⟩] }

def PlanState.addTarget (state : PlanState) (target : PlannedTarget) : PlanState :=
  { state with byService := state.byService.push target.service target }

/-- The first half of a step: is the member a restart candidate? -/
def noteCandidate (input : PlanInput) (service : String) (state : PlanState)
    (member : ProjectMember) : PlanState :=
  if input.restartable member then state.addCandidate service member.name else state

/-- The second half of a step: is the member a target? -/
def noteTarget (input : PlanInput) (service : String) (state : PlanState)
    (member : ProjectMember) : PlanState :=
  if !sameImage member input.updatedImage input.updatedImageId then state
  else
    let oneShot := input.awaited.contains service
    match input.admission oneShot member with
    | .error reason => state.skip member.name reason
    | .ok policy =>
        state.addTarget {
          container := member.name
          service
          kind := if oneShot then .oneShot else .service
          policy }

def planMember (input : PlanInput) (state : PlanState) (member : ProjectMember) : PlanState :=
  match Compose.parse member.labels with
  | none => state
  | some info =>
      noteTarget input info.service (noteCandidate input info.service state member) member

def sortTargets (targets : List PlannedTarget) : List PlannedTarget :=
  targets.insertionSort fun a b => a.container ≤ b.container

/-- The plan the collected members make. -/
def assemble (project : String) (graph : Graph) (state : PlanState) : RolloutPlan where
  project := project
  targets := (Compose.topologicalOrder state.byService.keys graph).flatMap fun service =>
    sortTargets ((state.byService.get? service).getD [])
  skipped := state.skipped.insertionSort fun a b => a.container ≤ b.container
  restartCandidates := state.restartCandidates.map fun containers =>
    containers.insertionSort (· ≤ ·)
  graph := graph

/-- The members a plan looks at: an archive keeps the labels and the image of its original. -/
def liveMembers (members : List ProjectMember) : List ProjectMember :=
  members.filter fun m => !isArchiveName m.name

/-- What the plan of a project is made for, once the trigger's own row is known. -/
def planInput (members : List ProjectMember) (origin : ProjectMember)
    (tagImageId : Option String) (defaults : PolicyDefaults) (ownIdPrefix : Option String) :
    PlanInput where
  defaults := defaults
  ownIdPrefix := ownIdPrefix
  tagImageId := tagImageId
  updatedImage := ImageRef.parse origin.imageRef
  updatedImageId := origin.imageId
  awaited := Compose.servicesAwaitedForCompletion (Compose.graphOf members)

/-- The plan for `project` after the image that `trigger` runs has moved. -/
def plan (project : String) (members : List ProjectMember) (trigger : String)
    (tagImageId : Option String) (defaults : PolicyDefaults) (ownIdPrefix : Option String) :
    RolloutPlan :=
  let members := liveMembers members
  let graph := Compose.graphOf members
  match members.find? fun m => m.name == trigger with
  | none => assemble project graph .empty
  | some origin =>
      let input := planInput members origin tagImageId defaults ownIdPrefix
      assemble project graph (members.foldl (planMember input) .empty)

/-! ## Reports -/

/-- Why a rollout stopped before the end of its plan. -/
inductive AbortReason where
  | oneShotFailed (container : String) (exitCode : Int)
  | oneShotTimedOut (container : String)
  | rolledBack (container : String)
  | deferred (container : String) (reason : HookSkipReason)
  | stepFailed (container error : String)
  deriving DecidableEq, Repr

/-- Did the new image itself fail? -/
def AbortReason.rejectedTheImage : AbortReason → Bool
  | .rolledBack _ | .oneShotFailed _ _ | .oneShotTimedOut _ => true
  | .deferred _ _ | .stepFailed _ _ => false

def AbortReason.message : AbortReason → String
  | .oneShotFailed container exitCode =>
      container ++ " exited with code " ++ toString exitCode
  | .oneShotTimedOut container => container ++ " did not finish within its timeout"
  | .rolledBack container => container ++ " failed its health gate and was rolled back"
  | .deferred container reason =>
      container ++ " was deferred by its pre-update hook (" ++ reason.message ++ ")"
  | .stepFailed container error => container ++ " could not be updated: " ++ error

inductive RolloutStep where
  | oneShotCompleted (container : String)
  | updated (container newId : String) (notify : Bool)
  | restarted (container : String)
  deriving DecidableEq, Repr

def RolloutStep.container : RolloutStep → String
  | .oneShotCompleted container => container
  | .updated container _ _ => container
  | .restarted container => container

structure RolloutReport where
  project : String
  steps : List RolloutStep
  aborted : Option AbortReason
  notCompleted : List String
  skipped : List SkippedMember
  deriving DecidableEq, Repr

namespace RolloutReport

def touched (r : RolloutReport) : List String := r.steps.map RolloutStep.container

/-- Every container the rollout is responsible for, whether it got to it or not. -/
def claimed (r : RolloutReport) : List String := r.touched ++ r.notCompleted

/-- The containers whose image the rollout moved or was to move. -/
def imageTargets (r : RolloutReport) : List String :=
  (r.steps.filterMap fun
    | .updated container _ _ => some container
    | .oneShotCompleted container => some container
    | .restarted _ => none) ++ r.notCompleted

end RolloutReport

/-! ## Executing a plan -/

def targetCleanup (cfg : RolloutConfig) (target : PlannedTarget) : Cleanup where
  removeReplaced := target.policy.cleanup
  pruneDangling := cfg.pruneDangling

/-- How the end of a one-shot's update reads as a step. -/
def oneShotStep (target : PlannedTarget) :
    Except DockerError OneShotOutcome → Except AbortReason RolloutStep
  | .ok .completed => .ok (.oneShotCompleted target.container)
  | .ok (.failed exitCode) => .error (.oneShotFailed target.container exitCode)
  | .ok .timedOut => .error (.oneShotTimedOut target.container)
  | .ok (.skippedByHook reason) => .error (.deferred target.container reason)
  | .error e => .error (.stepFailed target.container e.message)

/-- How the end of a service's update reads as a step. -/
def serviceStep (target : PlannedTarget) :
    Except DockerError RecreateOutcome → Except AbortReason RolloutStep
  | .ok (.recreated _ newId) => .ok (.updated target.container newId target.policy.notify)
  | .ok (.rolledBack _) => .error (.rolledBack target.container)
  | .ok (.skippedByHook reason) => .error (.deferred target.container reason)
  | .error e => .error (.stepFailed target.container e.message)

/-- Update one target. -/
def runTarget (docker : Docker) (cfg : RolloutConfig) (ts : TsProvider)
    (target : PlannedTarget) : Prog (Except AbortReason RolloutStep) :=
  match target.kind with
  | .oneShot =>
      oneShotStep target <$> (recreateOneShot docker target.container cfg.oneShotTimeout
        cfg.health.pollInterval (targetCleanup cfg target) target.policy.hooks ts).run
  | .service =>
      serviceStep target <$> (recreateWithHealth docker target.container cfg.health
        (targetCleanup cfg target) target.policy.hooks ts).run

/-- How far the targets got. -/
structure Progress where
  steps : List RolloutStep
  updatedServices : List String
  aborted : Option AbortReason
  deriving DecidableEq, Repr

def Progress.start : Progress := ⟨[], [], none⟩

def Progress.complete (progress : Progress) (target : PlannedTarget) (step : RolloutStep) :
    Progress :=
  { progress with
    steps := progress.steps ++ [step]
    updatedServices := progress.updatedServices ++ [target.service] }

/-- Update the targets in order, up to the first that fails. -/
def runTargets (docker : Docker) (cfg : RolloutConfig) (ts : TsProvider) :
    List PlannedTarget → Progress → Prog Progress
  | [], progress => pure progress
  | target :: targets, progress => do
      let step ← runTarget docker cfg ts target
      match step with
      | .error reason => pure { progress with aborted := some reason }
      | .ok step => runTargets docker cfg ts targets (progress.complete target step)

/-- The stop options of a container, the daemon's defaults when it cannot be read. -/
def stopOptions (container : String) : Prog (Option String × Option Int) := do
  let inspected ← (inspect container).run
  pure (match inspected with
    | .ok spec => (spec.config.stopSignal, spec.config.stopTimeout)
    | .error _ => (none, none))

/-- Stop and start a dependent. -/
def restartDependent (container : String) : Op Unit := do
  let options ← Op.lift (stopOptions container)
  stop .restart container options.1 options.2
  start .restart container

/-- Restart each dependent, keeping the ones that came up again. -/
def runRestarts : List String → Prog (List RolloutStep)
  | [] => pure []
  | container :: containers => do
      let restarted ← (restartDependent container).run
      let steps ← runRestarts containers
      pure (match restarted with
        | .ok _ => .restarted container :: steps
        | .error _ => steps)

/-- The targets of `targets` that `steps` does not touch. -/
def remaining (targets : List PlannedTarget) (steps : List RolloutStep) : List String :=
  (targets.map PlannedTarget.container).filter fun c =>
    !(steps.map RolloutStep.container).contains c

/-- What follows the targets: the restarts, unless the rollout was aborted. -/
def concludeRollout (p : RolloutPlan) (progress : Progress) : Prog RolloutReport :=
  match progress.aborted with
  | some reason =>
      pure {
        project := p.project
        steps := progress.steps
        aborted := some reason
        notCompleted := remaining p.targets progress.steps
        skipped := p.skipped }
  | none => do
      let restarted ← runRestarts (p.restartsFor progress.updatedServices)
      pure {
        project := p.project
        steps := progress.steps ++ restarted
        aborted := none
        notCompleted := []
        skipped := p.skipped }

/-- Run a plan in order, stopping at the first step that fails. -/
def execute (docker : Docker) (p : RolloutPlan) (cfg : RolloutConfig) (ts : TsProvider) :
    Prog RolloutReport := do
  let progress ← runTargets docker cfg ts p.targets .start
  concludeRollout p progress

/-! ## From a container to its rollout -/

/-- Discover the members of a project and plan the rollout. -/
def planFor (project trigger : String) (tagImageId : Option String)
    (defaults : PolicyDefaults) (ownIdPrefix : Option String) : Op RolloutPlan := do
  let members ← listProject project
  pure (plan project members trigger tagImageId defaults ownIdPrefix)

/-- The report of a rollout that touched nothing. -/
def untouchedReport (project container : String) (aborted : Option AbortReason)
    (skipped : List SkippedMember) : RolloutReport where
  project := project
  steps := []
  aborted := aborted
  notCompleted := [container]
  skipped := skipped

/-- Rollout or plain update, once the project was read. -/
def rolloutOrPlain (docker : Docker) (project container : String) (cfg : RolloutConfig)
    (ts : TsProvider) : Except DockerError RolloutPlan → Prog (Option RolloutReport)
  | .error e =>
      pure (some (untouchedReport project container
        (some (.stepFailed container e.message)) []))
  | .ok p =>
      if !p.covers container then
        -- recreating a one-shot that is mid-run would kill it
        if p.skipReasonFor container = some .oneShotInFlight then
          pure (some (untouchedReport project container none p.skipped))
        else pure none
      else if p.addsNothingFor container then pure none
      else some <$> execute docker p cfg ts

/-- The rollout for `container`, or `none` when its plain update is the right thing. -/
def forContainer (docker : Docker) (container : String) (containerLabels : LabelMap)
    (cfg : RolloutConfig) (defaults : PolicyDefaults) (ownIdPrefix : Option String)
    (ts : TsProvider) : Prog (Option RolloutReport) :=
  match Compose.parse containerLabels with
  | none => pure none
  | some info => do
      let planned ← (planFor info.project container cfg.tagImageId defaults ownIdPrefix).run
      rolloutOrPlain docker info.project container cfg ts planned

end Rollout

end Freshdock
