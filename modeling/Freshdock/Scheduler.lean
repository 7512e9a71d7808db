import Freshdock.Cron
import Freshdock.Probe
import Freshdock.Rollout

/-!
# The scheduler

Every tick lists the running containers and processes the due ones in order: probe the image,
then update, report, or leave it. Schedule state is kept by container name and pruned to the
listing at the end of each tick.

The log of a tick, and the state that only decides what is logged, are not part of the model.
-/

set_option autoImplicit false

namespace Freshdock

open Interaction Docker SelfId
open Labels (Policy PolicyDefaults Mode)
open Cron (CronExpr Instant Zone)
open Probe (ProbeOutcome ProbeTarget)
open Rollout (AbortReason RolloutReport RolloutStep)

/-- The resolved `[settings]` of the configuration. -/
structure ResolvedSettings where
  defaultMode : Option Mode
  cleanup : Bool
  pruneDangling : Bool
  watchAll : Bool
  composeAware : Bool
  oneShotTimeout : Duration
  deriving DecidableEq, Repr

def ResolvedSettings.default : ResolvedSettings where
  defaultMode := none
  cleanup := false
  pruneDangling := false
  watchAll := false
  composeAware := true
  oneShotTimeout := Rollout.defaultOneShotTimeout

def ResolvedSettings.policyDefaults (settings : ResolvedSettings) : PolicyDefaults where
  mode := settings.defaultMode
  cleanup := settings.cleanup
  watchAll := settings.watchAll

namespace Scheduler

structure SchedulerConfig where
  pollInterval : Duration
  tick : Duration
  health : HealthConfig
  ownIdPrefix : Option String
  /-- The time zone of the host. -/
  zone : Zone

/-! ## Schedules -/

def defaultSchedule : Mode → Option String
  | .nightly => some "0 4 * * *"
  | .weekly => some "0 4 * * 0"
  | .monthly => some "0 4 1 * *"
  | .live | .watch | .off => none

def isCronMode : Mode → Bool
  | .nightly | .weekly | .monthly => true
  | .live | .watch | .off => false

def isPolledMode : Mode → Bool
  | .live | .watch => true
  | .nightly | .weekly | .monthly | .off => false

/-- The schedule state of one container. -/
structure ContainerState where
  lastChecked : Option Instant
  nextFire : Option Instant
  cron : Option CronExpr
  /-- The digest of the last notification of an available update. -/
  lastNotifiedDigest : Option String
  deriving DecidableEq, Repr

/-- A calendar mode's schedule, its label before the mode's default. -/
def cronFor (policy : Policy) : Option CronExpr :=
  if isCronMode policy.mode then
    (policy.schedule.orElse fun _ => defaultSchedule policy.mode).bind fun text =>
      (CronExpr.parse text).toOption
  else none

def seedState (zone : Zone) (policy : Policy) (now : Instant) : ContainerState where
  lastChecked := none
  nextFire := (cronFor policy).bind fun e => e.nextAfter zone now
  cron := cronFor policy
  lastNotifiedDigest := none

/-- The longest interval between two instants, in nanoseconds. -/
def maxDelta : Int := (2 ^ 63 - 1) * 1000000

def toDelta (d : Duration) : Int := min (d : Int) maxDelta

def due (policy : Policy) (state : ContainerState) (now : Instant)
    (pollInterval : Duration) : Bool :=
  match policy.mode with
  | .live | .watch =>
      match state.lastChecked with
      | none => true
      | some t => toDelta pollInterval ≤ now - t
  | .nightly | .weekly | .monthly =>
      match state.nextFire with
      | some fire => fire ≤ now
      | none => false
  | .off => false

/-- The bookkeeping of a container that is about to be processed. -/
def advance (zone : Zone) (policy : Policy) (now : Instant) (state : ContainerState) :
    ContainerState :=
  match policy.mode with
  | .live | .watch => { state with lastChecked := some now }
  | .nightly | .weekly | .monthly =>
      { state with nextFire := state.cron.bind fun e => e.nextAfter zone now }
  | .off => state

/-- The bookkeeping of a container that could not be inspected. A poll waits for its next
turn; a calendar window stays due. -/
def inspectFailed (policy : Policy) (now : Instant) (state : ContainerState) : ContainerState :=
  if isPolledMode policy.mode then { state with lastChecked := some now } else state

/-! ## One container -/

inductive Verdict where
  | upToDate | unknownDigest | available | updated | notUpdated | pinned | failed
  deriving DecidableEq, Repr

/-- What is remembered of the containers whose image was swapped or tried. -/
inductive UpdateOutcome where
  | rejected (digest : String) (containers : List String)
  | landed (containers : List String)
  deriving DecidableEq, Repr

structure Processed where
  /-- Every container an applied update touched. -/
  handled : List String
  outcome : Option UpdateOutcome
  verdicts : List Verdict
  deriving DecidableEq, Repr

def Processed.probed (verdict : Verdict) : Processed := ⟨[], none, [verdict]⟩

def failedAt : Option AbortReason → Option String
  | some (.stepFailed container _) => some container
  | _ => none

/-- One verdict for each image target of a rollout. -/
def rolloutVerdicts (report : RolloutReport) : List Verdict :=
  (report.steps.filterMap fun
    | .updated _ _ _ => some .updated
    | .oneShotCompleted _ => some .updated
    | .restarted _ => none) ++
  report.notCompleted.map fun c =>
    if failedAt report.aborted = some c then .failed else .notUpdated

/-- What a rollout leaves to remember. -/
def rolloutOutcome (report : RolloutReport) (latest : String) : Option UpdateOutcome :=
  match report.aborted with
  | some reason =>
      if reason.rejectedTheImage then some (.rejected latest report.imageTargets) else none
  | none =>
      if report.touched.isEmpty then none else some (.landed report.imageTargets)

/-- Notify of each updated container that asks for it. -/
def notifySteps (image : String) : List RolloutStep → Prog Unit
  | [] => pure ()
  | .updated container newId true :: steps => do
      request (.dispatch (.updateSucceeded container image newId))
      notifySteps image steps
  | _ :: steps => notifySteps image steps

def notifyAbort (report : RolloutReport) (policy : Policy) : Prog Unit :=
  match report.aborted, policy.notify with
  | some reason, true =>
      request (.dispatch (.rolloutAborted report.project reason.message report.touched
        report.notCompleted))
  | _, _ => pure ()

/-- Notify of a finished rollout; returns the containers it claims. -/
def reportRollout (report : RolloutReport) (policy : Policy) (image : String) :
    Prog (List String) := do
  notifySteps image report.steps
  notifyAbort report policy
  pure report.claimed

/-- The containers, memory and verdict an outcome of the plain update leaves. -/
def plainProcessed (name latest : String) :
    Except DockerError RecreateOutcome → Processed
  | .ok (.recreated _ _) => ⟨[name], some (.landed [name]), [.updated]⟩
  | .ok (.rolledBack _) => ⟨[name], some (.rejected latest [name]), [.notUpdated]⟩
  | .ok (.skippedByHook _) => ⟨[name], none, [.notUpdated]⟩
  | .error _ => ⟨[name], none, [.failed]⟩

/-- The notification of an outcome of the plain update. -/
def notifyPlain (name image : String) (policy : Policy) :
    Except DockerError RecreateOutcome → Prog Unit
  | .ok (.recreated _ newId) =>
      if policy.notify then request (.dispatch (.updateSucceeded name image newId)) else pure ()
  | .ok (.rolledBack event) =>
      if policy.notify then
        request (.dispatch (.updateFailed event.container event.reason event.oldImageRef
          event.newImageRef event.restoredFrom))
      else pure ()
  | _ => pure ()

def plainUpdate (docker : Docker) (cfg : SchedulerConfig) (ts : TsProvider) (name : String)
    (policy : Policy) (image latest : String) (settings : ResolvedSettings) :
    Prog Processed := do
  let outcome ← (recreateWithHealth docker name cfg.health
    ⟨policy.cleanup, settings.pruneDangling⟩ policy.hooks ts).run
  notifyPlain name image policy outcome
  pure (plainProcessed name latest outcome)

def rolloutConfig (cfg : SchedulerConfig) (settings : ResolvedSettings)
    (tagImageId : Option String) : Rollout.RolloutConfig where
  health := cfg.health
  pruneDangling := settings.pruneDangling
  oneShotTimeout := settings.oneShotTimeout
  tagImageId := tagImageId

/-- The rollout of the container's project, when projects are the unit of work. -/
def rolloutFor (docker : Docker) (cfg : SchedulerConfig) (ts : TsProvider) (name : String)
    (labels : LabelMap) (tagImageId : Option String) (settings : ResolvedSettings) :
    Prog (Option RolloutReport) :=
  if settings.composeAware then
    Rollout.forContainer docker name labels (rolloutConfig cfg settings tagImageId)
      settings.policyDefaults cfg.ownIdPrefix ts
  else pure none

def applyUpdate (docker : Docker) (cfg : SchedulerConfig) (now : Instant) (name : String)
    (policy : Policy) (labels : LabelMap) (image latest : String)
    (tagImageId : Option String) (settings : ResolvedSettings) : Prog Processed := do
  let ts := TsProvider.fixed (now / 1000000000)
  let rollout ← rolloutFor docker cfg ts name labels tagImageId settings
  match rollout with
  | some report => do
      let handled ← reportRollout report policy image
      pure ⟨handled, rolloutOutcome report latest, rolloutVerdicts report⟩
  | none => plainUpdate docker cfg ts name policy image latest settings

/-- A watched container: notify once for each digest. Returns the digest notified last. -/
def reportAvailable (name : String) (policy : Policy) (image latest : String)
    (lastNotified : Option String) : Prog (Processed × Option String) :=
  if policy.notify && lastNotified != some latest then do
    request (.dispatch (.updateAvailable name image latest))
    pure (.probed .available, some latest)
  else pure (.probed .available, lastNotified)

/-- The image id a member needs no update to reach, known once the tag carries upstream's
digest. -/
def currentImage (digests : Probe.LocalDigests) (latest : String)
    (tagImageId : Option String) : Option String :=
  if Probe.updateAvailable digests latest = some false then tagImageId else none

/-- An update is available: act by mode. -/
def actOnUpdate (docker : Docker) (cfg : SchedulerConfig) (now : Instant) (name : String)
    (policy : Policy) (labels : LabelMap) (target : ProbeTarget)
    (digests : Probe.LocalDigests) (latest : String) (tagImageId lastFailed : Option String)
    (lastNotified : Option String) (settings : ResolvedSettings) :
    Prog (Processed × Option String) :=
  match policy.mode with
  | .watch => reportAvailable name policy target.image latest lastNotified
  | .off => pure (.probed .notUpdated, lastNotified)
  | .live | .nightly | .weekly | .monthly =>
      if lastFailed = some latest then pure (.probed .notUpdated, lastNotified)
      else do
        let processed ← applyUpdate docker cfg now name policy labels target.image latest
          (currentImage digests latest tagImageId) settings
        pure (processed, lastNotified)

/-- Act on the outcome of a probe. -/
def actOnProbe (docker : Docker) (cfg : SchedulerConfig) (now : Instant) (name : String)
    (policy : Policy) (labels : LabelMap) (target : ProbeTarget)
    (lastFailed lastNotified : Option String) (settings : ResolvedSettings) :
    ProbeOutcome → Prog (Processed × Option String)
  | .fetched digests latest tagImageId =>
      match Probe.updateAvailableFor digests latest target.imageId tagImageId with
      | none => pure (.probed .unknownDigest, lastNotified)
      | some false => pure (.probed .upToDate, lastNotified)
      | some true =>
          actOnUpdate docker cfg now name policy labels target digests latest tagImageId
            lastFailed lastNotified settings
  | .pinned => pure (.probed .pinned, lastNotified)
  | .authRequired => pure (.probed .failed, lastNotified)
  | .credentialsRejected => pure (.probed .failed, lastNotified)
  | .networkUnavailable => pure (.probed .failed, lastNotified)
  | .error _ => pure (.probed .failed, lastNotified)

/-- Probe one container and act on the outcome. Returns the digest notified last, too. -/
def processContainer (docker : Docker) (cfg : SchedulerConfig) (now : Instant) (name : String)
    (policy : Policy) (labels : LabelMap) (target : ProbeTarget)
    (lastFailed lastNotified : Option String) (settings : ResolvedSettings) :
    Prog (Processed × Option String) := do
  let outcome ← Probe.probeImage target.image
  actOnProbe docker cfg now name policy labels target lastFailed lastNotified settings outcome

/-! ## One tick -/

/-- What is kept between ticks. -/
structure Memory where
  states : SortedMap String ContainerState
  /-- The digest that failed a container's health gate. -/
  failed : SortedMap String String

def Memory.empty : Memory := ⟨.empty, .empty⟩

/-- A tick under way: the memory, the containers seen, and the containers a rollout updated. -/
structure Sweep where
  memory : Memory
  live : List String
  handled : List String

def Sweep.markLive (sweep : Sweep) (name : String) : Sweep :=
  { sweep with live := name :: sweep.live }

def Sweep.setState (sweep : Sweep) (name : String) (state : ContainerState) : Sweep :=
  { sweep with memory :=
    { sweep.memory with states := sweep.memory.states.insert name state } }

def Memory.remember (memory : Memory) : Option UpdateOutcome → Memory
  | some (.rejected digest containers) =>
      { memory with failed := containers.foldl (fun m c => m.insert c digest) memory.failed }
  | some (.landed containers) =>
      { memory with failed := containers.foldl SortedMap.erase memory.failed }
  | none => memory

/-- The sweep after a container was processed. -/
def Sweep.record (sweep : Sweep) (processed : Processed) : Sweep :=
  { sweep with
    memory := sweep.memory.remember processed.outcome
    handled := sweep.handled ++ processed.handled }

/-- A due container, once its probe target is known. -/
def processDue (docker : Docker) (cfg : SchedulerConfig) (now : Instant) (name : String)
    (policy : Policy) (labels : LabelMap) (settings : ResolvedSettings) (sweep : Sweep)
    (state : ContainerState) : Except DockerError ProbeTarget → Prog Sweep
  | .error _ => pure (sweep.setState name (inspectFailed policy now state))
  | .ok target => do
      let state := advance cfg.zone policy now state
      let (processed, lastNotified) ← processContainer docker cfg now name policy labels target
        (sweep.memory.failed.get? name) state.lastNotifiedDigest settings
      pure ((sweep.setState name { state with lastNotifiedDigest := lastNotified }).record
        processed)

/-- A container that passed the gates. -/
def visitEnabled (docker : Docker) (cfg : SchedulerConfig) (now : Instant) (name : String)
    (policy : Policy) (settings : ResolvedSettings) (c : ContainerSummary) (sweep : Sweep) :
    Prog Sweep :=
  let state := (sweep.memory.states.get? name).getD (seedState cfg.zone policy now)
  let sweep := sweep.setState name state
  if due policy state now cfg.pollInterval then do
    let target ← (Probe.resolveTarget c).run
    processDue docker cfg now name policy (c.labels.getD fun _ => none) settings sweep state
      target
  else pure sweep

/-- One listed container. -/
def visit (docker : Docker) (cfg : SchedulerConfig) (now : Instant)
    (settings : ResolvedSettings) (c : ContainerSummary) (sweep : Sweep) : Prog Sweep :=
  let name := containerName c
  if isArchiveName name then pure sweep
  else if sweep.handled.contains name then pure (sweep.markLive name)
  else
    match Labels.parsePolicy (c.labels.getD fun _ => none) settings.policyDefaults with
    | .error _ => pure (sweep.markLive name)
    | .ok policy =>
        if !policy.enabled || policy.mode == .off then pure sweep
        else if policy.autoEnabled && isOwnContainer cfg.ownIdPrefix c.id then
          pure (sweep.markLive name)
        else visitEnabled docker cfg now name policy settings c (sweep.markLive name)

/-- Visit the listed containers, unless a shutdown is requested. The flag says whether all of
them were visited. -/
def sweepContainers (docker : Docker) (cfg : SchedulerConfig) (now : Instant)
    (settings : ResolvedSettings) : List ContainerSummary → Sweep → Prog (Sweep × Bool)
  | [], sweep => pure (sweep, true)
  | c :: cs, sweep => do
      let stopping : Bool ← request .shutdownRequested
      if stopping then pure (sweep, false)
      else do
        let sweep ← visit docker cfg now settings c sweep
        sweepContainers docker cfg now settings cs sweep

/-- What a tick leaves: pruned to the listing when the whole of it was visited. -/
def Sweep.finish (sweep : Sweep) (complete : Bool) : Memory :=
  if complete then
    { states := sweep.memory.states.retain sweep.live.contains
      failed := sweep.memory.failed.retain sweep.live.contains }
  else sweep.memory

/-- The containers of a tick, once they are listed. -/
def tickOver (docker : Docker) (cfg : SchedulerConfig) (settings : ResolvedSettings)
    (memory : Memory) : Except DockerError (List ContainerSummary) → Prog Memory
  | .error _ => pure memory
  | .ok containers => do
      let now : Int ← request .localTime
      let (sweep, complete) ← sweepContainers docker cfg now settings containers
        ⟨memory, [], []⟩
      pure (sweep.finish complete)

/-- One tick. -/
def runTick (docker : Docker) (cfg : SchedulerConfig) (settings : ResolvedSettings)
    (memory : Memory) : Prog Memory := do
  let listed ← listRunning.run
  tickOver docker cfg settings memory listed

end Scheduler

end Freshdock
