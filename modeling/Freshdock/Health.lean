import Freshdock.Docker.Ops

/-!
# The health gate

After a replacement is started, `waitForHealth` polls it until it is healthy, has run through
its grace period, has run out of time, or has exited. `waitForExit` is the gate for a one-shot:
it waits for the exit and returns its code.

Both loops poll at most `polls` times; a run that would poll more often is left unfinished.
-/

set_option autoImplicit false

namespace Freshdock

open Interaction Docker

inductive HealthOutcome where
  | healthy | timeout | crashed
  deriving DecidableEq, Repr

structure HealthConfig where
  /-- How long a declared healthcheck may take. -/
  healthTimeout : Duration
  /-- How long a container without a healthcheck has to stay up. -/
  gracePeriod : Duration
  pollInterval : Duration
  deriving DecidableEq, Repr

def HealthConfig.default : HealthConfig where
  healthTimeout := Duration.fromSecs 120
  gracePeriod := Duration.fromSecs 10
  pollInterval := Duration.fromSecs 1

inductive ExitOutcome where
  | exited (exitCode : Int)
  | timedOut
  deriving DecidableEq, Repr

/-- Past `limit` since `start` the loop ends with `verdict`, before it the loop sleeps and
goes on. -/
def orPollAgain {α : Type} (start limit pollInterval : Duration) (verdict : α)
    (again : Prog α) : Prog α := do
  let now : Nat ← request .now
  if limit ≤ now - start then pure verdict
  else do
    request (.sleep pollInterval)
    again

/-- The loop of the health gate. A failing probe is given up on at the limit of the path that
was seen last. -/
def pollHealth (id : String) (cfg : HealthConfig) (start : Duration) :
    Nat → Duration → Prog HealthOutcome
  | 0, _ => .stalled
  | polls + 1, errorDeadline => do
      let probed ← (probeState id).run
      match probed with
      | .ok .healthHealthy => pure .healthy
      | .ok (.exited _) => pure .crashed
      | .ok .healthStarting =>
          orPollAgain start cfg.healthTimeout cfg.pollInterval .timeout
            (pollHealth id cfg start polls cfg.healthTimeout)
      | .ok .healthUnhealthy =>
          orPollAgain start cfg.healthTimeout cfg.pollInterval .timeout
            (pollHealth id cfg start polls cfg.healthTimeout)
      | .ok .runningNoHealthcheck =>
          orPollAgain start cfg.gracePeriod cfg.pollInterval .healthy
            (pollHealth id cfg start polls cfg.gracePeriod)
      | .error _ =>
          orPollAgain start errorDeadline cfg.pollInterval .timeout
            (pollHealth id cfg start polls errorDeadline)

def waitForHealth (docker : Docker) (id : String) (cfg : HealthConfig) : Prog HealthOutcome := do
  let start ← request .now
  pollHealth id cfg start docker.polls cfg.healthTimeout

/-- The exit code a probe reports, if it reports an exit. -/
def exitReported : Except DockerError ContainerRuntimeState → Option Int
  | .ok (.exited exitCode) => some exitCode
  | _ => none

/-- The loop of the one-shot gate. -/
def pollExit (id : String) (timeout pollInterval start : Duration) : Nat → Prog ExitOutcome
  | 0 => .stalled
  | polls + 1 => do
      let probed ← (probeState id).run
      match exitReported probed with
      | some exitCode => pure (.exited exitCode)
      | none =>
          orPollAgain start timeout pollInterval .timedOut
            (pollExit id timeout pollInterval start polls)

def waitForExit (docker : Docker) (id : String) (timeout pollInterval : Duration) :
    Prog ExitOutcome := do
  let start ← request .now
  pollExit id timeout pollInterval start docker.polls

end Freshdock
