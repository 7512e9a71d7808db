import Freshdock.Health
import Freshdock.Rollback

/-!
# Recreating a container

The recreate cycle (`recreateOne`), the health-gated update around it (`recreateWithHealth`),
the re-run of a one-shot (`recreateOneShot`), and the repair of containers that share the
updated one's network namespace (`reattachDependents`).

**Order of a swap.** `stop`, `rename` to an archive name, `create` under the original name,
`start`. What follows a failure differs: an update reports it, a repair tries to restore the
dependent.
-/

set_option autoImplicit false

namespace Freshdock

open Interaction Registry Docker
open Labels (Hook LifecycleHooks)

/-! ## Outcomes -/

inductive HookSkipReason where
  | nonZeroExit (code : Int)
  | timedOut
  | execFailed (error : String)
  deriving DecidableEq, Repr

def HookSkipReason.message : HookSkipReason → String
  | .nonZeroExit code =>
      if code = 75 then "hook requested a deferral (exit code 75, EX_TEMPFAIL)"
      else "hook exited with code " ++ toString code
  | .timedOut => "hook timed out"
  | .execFailed e => "hook could not be executed: " ++ e

inductive RecreateOutcome where
  | recreated (oldName newId : String)
  | rolledBack (event : RollbackEvent)
  | skippedByHook (reason : HookSkipReason)
  deriving DecidableEq, Repr

inductive OneShotOutcome where
  | completed
  | failed (exitCode : Int)
  | timedOut
  | skippedByHook (reason : HookSkipReason)
  deriving DecidableEq, Repr

/-- Image cleanup after an update. -/
structure Cleanup where
  removeReplaced : Bool
  pruneDangling : Bool
  deriving DecidableEq, Repr

/-- What the recreate cycle did. -/
structure CycleResult where
  /-- The inspected name, not the caller's argument. -/
  ownerName : String
  oldName : String
  newId : String
  oldImageRef : String
  newImageRef : String
  oldImageId : Option String
  /-- The containers that shared the replaced container's network namespace. -/
  dependents : List String
  deriving DecidableEq, Repr

inductive CycleOutcome where
  | completed (cycle : CycleResult)
  | skipped (reason : HookSkipReason)
  deriving DecidableEq, Repr

/-- Where a swap broke down: at the stop, or after it, with the archive name from the rename
on. -/
inductive SwapError where
  | stop (error : DockerError)
  | afterStop (error : DockerError) (archive : Option String)
  deriving DecidableEq, Repr

def SwapError.intoInner : SwapError → DockerError
  | .stop error => error
  | .afterStop error _ => error

/-! ## The swap -/

/-- A daemon operation as a step of a swap. -/
def swapStep {α : Type} (onError : DockerError → SwapError) (op : Op α) :
    Fallible Call Call.Reply SwapError α :=
  ExceptT.mk (Except.mapError onError <$> op.run)

/-- `stop`, `rename`, `create`, `start`; returns the archive name and the new id. -/
def swapContainer (role : Role) (name : String) (spec : ContainerSpec) (image : String)
    (ts : TsProvider) : Fallible Call Call.Reply SwapError (String × String) := do
  swapStep .stop (stop role name spec.config.stopSignal spec.config.stopTimeout)
  let tsUnix ← (liftM ts.read : Fallible Call Call.Reply SwapError Int)
  let archive ← swapStep (.afterStop · none) (renameToOld role name tsUnix)
  let newId ← swapStep (.afterStop · (some archive)) (createFromSpec role name spec image)
  swapStep (.afterStop · (some archive)) (start role newId)
  pure (archive, newId)

/-! ## Repairing dependents -/

/-- Repoint an id reference at the replacement. A name reference, and every reference after a
rollback, is right as it is. -/
def rewriteOwnerReference (spec : ContainerSpec) (ownerName : String)
    (newOwnerId : Option String) : ContainerSpec :=
  match newOwnerId, spec.hostConfig with
  | some newId, some hostConfig =>
      match hostConfig.networkMode.bind containerReference with
      | some reference =>
          if reference == ownerName then spec
          else
            { spec with
              hostConfig := some { hostConfig with networkMode := some ("container:" ++ newId) } }
      | none => spec
  | _, _ => spec

def sharesNamespace (hostConfig : Option HostConfig) : Bool :=
  ((hostConfig.bind HostConfig.networkMode).bind containerReference).isSome

/-- Without the settings a daemon refuses next to a container-scoped network mode. -/
def stripSharedNamespaceConflicts (spec : ContainerSpec) : ContainerSpec :=
  if sharesNamespace spec.hostConfig then
    { spec with
      config := { spec.config with hostname := none, domainname := none, exposedPorts := none }
      networkEndpoints := none }
  else spec

/-- The image a dependent is re-created from: its own reference while that still resolves to
the image it runs, else the image id. -/
def repairImage (spec : ContainerSpec) : Prog String :=
  match spec.imageId with
  | none => pure spec.imageRef
  | some id =>
      if isPinned spec.imageRef then pure spec.imageRef
      else do
        let resolved ← (localImageId spec.imageRef).run
        match resolved with
        | .ok (some tagId) =>
            if behindTag (some id) (some tagId) then pure id else pure spec.imageRef
        | _ => pure id

/-- Best-effort restore of a dependent whose repair failed after the rename. -/
def restoreAfterFailedReattach (dependent archive : String) : Prog Unit := do
  let renamed ← (renameTo .repair archive dependent).run
  match renamed with
  | .error _ => pure ()
  | .ok _ => do
      let _ ← (start .repair dependent).run
      pure ()

/-- What follows the swap of a dependent. -/
def finishReattach (dependent : String) (swapped : Except SwapError (String × String)) :
    Op Unit :=
  match swapped with
  | .ok (archive, _) => do
      let _ ← Op.lift (remove .repair archive false).run
      pure ()
  | .error (.stop error) => throw error
  | .error (.afterStop error none) => throw error
  | .error (.afterStop error (some archive)) => do
      Op.lift (restoreAfterFailedReattach dependent archive)
      throw error

/-- The spec a dependent is re-created from. -/
def repairSpec (spec : ContainerSpec) (ownerName : String) (newOwnerId : Option String) :
    ContainerSpec :=
  stripSharedNamespaceConflicts (rewriteOwnerReference spec ownerName newOwnerId)

def reattachOne (ownerName : String) (newOwnerId : Option String) (dependent : String)
    (ts : TsProvider) : Op Unit := do
  let inspected ← inspect dependent
  let spec := repairSpec inspected ownerName newOwnerId
  let image ← Op.lift (repairImage spec)
  let swapped ← Op.lift (swapContainer .repair dependent spec image ts).run
  finishReattach dependent swapped

/-- Repair every dependent; a failure is logged and the next one follows. -/
def reattachDependents (ownerName : String) (newOwnerId : Option String) (ts : TsProvider) :
    List String → Prog Unit
  | [] => pure ()
  | dependent :: dependents => do
      let _ ← (reattachOne ownerName newOwnerId dependent ts).run
      reattachDependents ownerName newOwnerId ts dependents

/-! ## Hooks and cleanup -/

def hookVerdict : Except DockerError HookStatus → Option HookSkipReason
  | .ok (.completed exitCode) => if exitCode = 0 then none else some (.nonZeroExit exitCode)
  | .ok .timedOut => some .timedOut
  | .error e => some (.execFailed e.message)

/-- Run the pre-update hook in the old container; any failure skips the update. -/
def runPreUpdateHook (name : String) : Option Hook → Prog (Option HookSkipReason)
  | none => pure none
  | some hook => do
      let status ← (execHook name hook.command hook.timeout).run
      pure (hookVerdict status)

/-- Best-effort hook in the new container. -/
def runPostUpdateHook (newId : String) : Option Hook → Prog Unit
  | none => pure ()
  | some hook => do
      let _ ← (execHook newId hook.command hook.timeout).run
      pure ()

/-- Remove the replaced image, best-effort. -/
def removeReplacedImage (cleanup : Cleanup) (oldImageId : Option String) : Prog Unit :=
  match cleanup.removeReplaced, oldImageId with
  | true, some id => do
      let _ ← (removeImage id false).run
      pure ()
  | _, _ => pure ()

def runCleanup (cleanup : Cleanup) (oldImageId : Option String) : Prog Unit := do
  removeReplacedImage cleanup oldImageId
  if cleanup.pruneDangling then do
    let _ ← pruneDanglingImages.run
    pure ()
  else pure ()

/-! ## The cycle -/

/-- The dependents of a container, none when they cannot be listed. -/
def dependentsOf (docker : Docker) (name : String) : Prog (List String) := do
  let listed ← (listNetworkDependents docker name).run
  pure (match listed with
    | .ok dependents => dependents
    | .error _ => [])

/-- The swap of an update, and its result. -/
def completeCycle (spec : ContainerSpec) (dependents : List String) (ts : TsProvider) :
    Op CycleOutcome := do
  let (oldName, newId) ← ExceptT.mk (Except.mapError SwapError.intoInner <$>
    (swapContainer .update spec.name spec spec.imageRef ts).run)
  pure (.completed {
    ownerName := spec.name
    oldName
    newId
    oldImageRef := spec.imageRef
    newImageRef := spec.imageRef
    oldImageId := spec.imageId
    dependents })

/-- Everything that can refuse an update while the container is untouched: `inspect`,
`preflight`, `pull`, and the pre-update hook, whose verdict is returned with the spec. -/
def clearUpdate (docker : Docker) (name : String) (hooks : LifecycleHooks) :
    Op (ContainerSpec × Option HookSkipReason) := do
  let spec ← inspect name
  ExceptT.mk (pure (docker.preflightRecreate spec))
  pull (ImageRef.parse spec.imageRef)
  let skip ← Op.lift (runPreUpdateHook name hooks.preUpdate)
  pure (spec, skip)

/-- From the hook's verdict on. -/
def updateCycle (docker : Docker) (name : String) (ts : TsProvider) :
    ContainerSpec × Option HookSkipReason → Op CycleOutcome
  | (_, some reason) => pure (.skipped reason)
  | (spec, none) => do
      let dependents ← Op.lift (dependentsOf docker name)
      completeCycle spec dependents ts

/-- One container through the cycle. -/
def recreateOne (docker : Docker) (name : String) (hooks : LifecycleHooks) (ts : TsProvider) :
    Op CycleOutcome := do
  let cleared ← clearUpdate docker name hooks
  updateCycle docker name ts cleared

/-! ## The health-gated update -/

/-- A healthy replacement: repair the dependents, remove the archive, run the post-update hook
and the cleanup. All of it is best-effort. -/
def settleUpdate (cycle : CycleResult) (cleanup : Cleanup) (postUpdate : Option Hook)
    (ts : TsProvider) : Prog RecreateOutcome := do
  reattachDependents cycle.ownerName (some cycle.newId) ts cycle.dependents
  let _ ← (remove .update cycle.oldName false).run
  runPostUpdateHook cycle.newId postUpdate
  runCleanup cleanup cycle.oldImageId
  pure (.recreated cycle.oldName cycle.newId)

/-- A rejected replacement: roll back, then repair the dependents. -/
def undoUpdate (cycle : CycleResult) (reason : RollbackReason) (ts : TsProvider) :
    Op RecreateOutcome := do
  let event ← rollback cycle.ownerName cycle.newId cycle.oldName
    (cycle.oldImageRef, cycle.newImageRef) reason
  Op.lift (reattachDependents cycle.ownerName none ts cycle.dependents)
  pure (.rolledBack event)

/-- What a verdict of the health gate leads to. -/
def concludeUpdate (cycle : CycleResult) (cleanup : Cleanup) (hooks : LifecycleHooks)
    (ts : TsProvider) : HealthOutcome → Op RecreateOutcome
  | .healthy => Op.lift (settleUpdate cycle cleanup hooks.postUpdate ts)
  | .timeout => undoUpdate cycle .healthTimeout ts
  | .crashed => undoUpdate cycle .crashed ts

/-- From a finished cycle on. -/
def gateUpdate (docker : Docker) (cfg : HealthConfig) (cleanup : Cleanup)
    (hooks : LifecycleHooks) (ts : TsProvider) : CycleOutcome → Op RecreateOutcome
  | .skipped reason => pure (.skippedByHook reason)
  | .completed cycle => do
      let verdict ← Op.lift (waitForHealth docker cycle.newId cfg)
      concludeUpdate cycle cleanup hooks ts verdict

/-- The full update of one container. -/
def recreateWithHealth (docker : Docker) (name : String) (cfg : HealthConfig)
    (cleanup : Cleanup) (hooks : LifecycleHooks) (ts : TsProvider) : Op RecreateOutcome := do
  let outcome ← recreateOne docker name hooks ts
  gateUpdate docker cfg cleanup hooks ts outcome

/-! ## One-shots -/

/-- A one-shot that exited 0. -/
def settleOneShot (cycle : CycleResult) (cleanup : Cleanup) (ts : TsProvider) :
    Prog OneShotOutcome := do
  reattachDependents cycle.ownerName (some cycle.newId) ts cycle.dependents
  let _ ← (remove .update cycle.oldName false).run
  runCleanup cleanup cycle.oldImageId
  pure .completed

/-- What the exit of a one-shot leads to. A failure is not rolled back. -/
def concludeOneShot (cycle : CycleResult) (cleanup : Cleanup) (ts : TsProvider) :
    ExitOutcome → Prog OneShotOutcome
  | .exited exitCode =>
      if exitCode = 0 then settleOneShot cycle cleanup ts else pure (.failed exitCode)
  | .timedOut => pure .timedOut

def gateOneShot (docker : Docker) (timeout pollInterval : Duration) (cleanup : Cleanup)
    (ts : TsProvider) : CycleOutcome → Prog OneShotOutcome
  | .skipped reason => pure (.skippedByHook reason)
  | .completed cycle => do
      let exit ← waitForExit docker cycle.newId timeout pollInterval
      concludeOneShot cycle cleanup ts exit

/-- Re-run a one-shot and wait for its exit. Its hooks are ignored. -/
def recreateOneShot (docker : Docker) (name : String) (timeout pollInterval : Duration)
    (cleanup : Cleanup) (_hooks : LifecycleHooks) (ts : TsProvider) : Op OneShotOutcome := do
  let outcome ← recreateOne docker name LifecycleHooks.default ts
  Op.lift (gateOneShot docker timeout pollInterval cleanup ts outcome)

end Freshdock
