import Freshdock.Scheduler

/-!
# The `recreate` command

A manual update of one container. The mode of a container decides when the scheduler updates
it, not whether an operator may; only a container that is not opted in is refused.
-/

set_option autoImplicit false

namespace Freshdock.Commands

open Interaction Docker
open Labels (LabelError Policy Mode)
open Rollout (RolloutConfig RolloutReport)

inductive AppError where
  | docker (error : DockerError)
  | label (error : LabelError)
  | notOptedIn (container : String) (enabled : Bool) (mode : Mode)
  deriving DecidableEq, Repr

def AppError.message : AppError → String
  | .docker error => error.message
  | .label error => error.message
  | .notOptedIn container enabled mode =>
      "refusing to recreate " ++ container ++ ": not opted into freshdock (enable=" ++
        toString enabled ++ ", mode=" ++ mode.name ++
        "; set freshdock.enable=true and a mode other than off)"

/-- What the command did. -/
inductive RecreateResult where
  | rollout (report : RolloutReport)
  | container (outcome : RecreateOutcome)
  deriving DecidableEq, Repr

/-- The policy under which a container may be recreated by hand. -/
def optedIn (name : String) (labels : LabelMap) (settings : ResolvedSettings) :
    Except AppError Policy :=
  match Labels.parsePolicy labels settings.policyDefaults with
  | .error e => .error (.label e)
  | .ok policy =>
      if !policy.enabled || policy.mode == .off then
        .error (.notOptedIn name policy.enabled policy.mode)
      else .ok policy

def manualRolloutConfig (health : HealthConfig) (settings : ResolvedSettings) :
    RolloutConfig where
  health := health
  pruneDangling := settings.pruneDangling
  oneShotTimeout := settings.oneShotTimeout
  tagImageId := none

def manualRollout (docker : Docker) (spec : ContainerSpec) (health : HealthConfig)
    (settings : ResolvedSettings) (ts : TsProvider) : Prog (Option RolloutReport) :=
  if settings.composeAware then
    Rollout.forContainer docker spec.name (spec.config.labels.getD fun _ => none)
      (manualRolloutConfig health settings) settings.policyDefaults
      (SelfId.ownContainerIdPrefix docker.hostname) ts
  else pure none

def plainRecreate (docker : Docker) (name : String) (policy : Policy) (health : HealthConfig)
    (settings : ResolvedSettings) (ts : TsProvider) : Prog (Except AppError RecreateResult) := do
  let outcome ← (recreateWithHealth docker name health
    ⟨policy.cleanup, settings.pruneDangling⟩ policy.hooks ts).run
  pure (match outcome with
    | .ok outcome => .ok (.container outcome)
    | .error e => .error (.docker e))

/-- From the inspected container on. -/
def recreateInspected (docker : Docker) (name : String) (health : HealthConfig)
    (settings : ResolvedSettings) (ts : TsProvider) :
    Except DockerError ContainerSpec → Prog (Except AppError RecreateResult)
  | .error e => pure (.error (.docker e))
  | .ok spec =>
      match optedIn name (spec.config.labels.getD fun _ => none) settings with
      | .error e => pure (.error e)
      | .ok policy => do
          let rollout ← manualRollout docker spec health settings ts
          match rollout with
          | some report => pure (.ok (.rollout report))
          | none => plainRecreate docker name policy health settings ts

def runWith (docker : Docker) (name : String) (health : HealthConfig)
    (settings : ResolvedSettings) (ts : TsProvider) :
    Prog (Except AppError RecreateResult) := do
  let inspected ← (inspect name).run
  recreateInspected docker name health settings ts inspected

end Freshdock.Commands
