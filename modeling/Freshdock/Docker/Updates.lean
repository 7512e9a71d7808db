import Freshdock.Docker.Observed

/-!
# What an update can be observed to do

The update of a container in its parts: what clears it, the cycle, and what follows the gate,
a settled update (`SettleKeeps`) or an undone one (`UndoKeeps`). Each rule asks that the calls of
its part keep a guarantee; a result about whole updates supplies the guarantee.
-/

set_option autoImplicit false

namespace Freshdock.Docker

open Interaction Registry
open Labels (Hook LifecycleHooks)

/-- Every event that moves no container keeps `guar`. -/
def Still (guar : CallEvent → Prop) : Prop :=
  ∀ (call : Call) (reply : Option call.Reply), call.moves = none → guar ⟨call, reply⟩

variable {rely guar : CallEvent → Prop}

theorem Still.quiet (still : Still guar) : Quiet guar := by
  intro call reply hquiet
  apply still
  cases call <;> first | rfl | cases hquiet

/-! ## The cycle -/

theorem emits_runPreUpdateHook {name : String} (hook : Option Hook)
    (keeps : ∀ h ∈ hook, ∀ reply, guar ⟨.exec name h.command h.timeout, reply⟩) :
    Emits rely guar (runPreUpdateHook name hook) fun _ => True := by
  cases hook with
  | none => exact emits_done trivial
  | some h =>
      exact emits_bind (emits_request (keeps h rfl) fun _ _ => trivial)
        fun _ _ => emits_done trivial

/-- Before the swap, the only calls that are not hushed are the pull and the hook's. -/
theorem emits_clearUpdate (hushed : Hushed guar) (docker : Docker) (name : String)
    (hooks : LifecycleHooks)
    (pulled : ∀ spec, Inspected rely name spec → ∀ reply,
      guar ⟨.createImage (ImageRef.parse spec.imageRef), reply⟩)
    (keeps : ∀ hook ∈ hooks.preUpdate, ∀ reply,
      guar ⟨.exec name hook.command hook.timeout, reply⟩) :
    Emits rely guar (clearUpdate docker name hooks).run fun r =>
      ∀ cleared, r = .ok cleared → Inspected rely name cleared.1 := by
  refine emits_except_bind (emits_inspect hushed name) (fun e c h => by cases h)
    fun spec hspec => ?_
  refine emits_try_bind (fun _ => True) ?_ fun _ _ => ?_
  · refine emits_done ?_
    cases docker.preflightRecreate spec with
    | error e => exact fun c h => by cases h
    | ok _ => trivial
  refine emits_try_bind (fun _ => True) ((emits_pull hushed _
    (pulled spec hspec)).weaken fun r _ => ?_) fun _ _ => ?_
  · cases r with
    | error e => exact fun c h => by cases h
    | ok _ => trivial
  refine emits_lift_bind (emits_runPreUpdateHook _ keeps) fun skip _ => emits_done fun cleared h => ?_
  cases h
  exact hspec

/-- What a finished cycle says about the events. -/
structure Cycled (rely : CallEvent → Prop) (docker : Docker) (name : String)
    (cycle : CycleResult) (spec : ContainerSpec) : Prop where
  inspected : Inspected rely name spec
  ownerName : cycle.ownerName = spec.name
  oldImageId : cycle.oldImageId = spec.imageId
  archived : Archived rely .update spec.name cycle.oldName
  created : CreatedFrom rely .update spec.name spec spec.imageRef cycle.newId
  dependents : ∀ d ∈ cycle.dependents, ListedDependent rely docker name d

/-- What the end of `recreateOne` says about the events. -/
def CycledTo (rely : CallEvent → Prop) (docker : Docker) (name : String)
    (r : Except DockerError CycleOutcome) : Prop :=
  ∀ cycle, r = .ok (.completed cycle) → ∃ spec, Cycled rely docker name cycle spec

theorem emits_completeCycle (hushed : Hushed guar) {docker : Docker} {name : String}
    {spec : ContainerSpec} (hspec : Inspected rely name spec)
    (keeps : SwapKeeps rely guar .update spec.name spec spec.imageRef) {dependents : List String}
    (hdependents : ∀ d ∈ dependents, ListedDependent rely docker name d) (ts : TsProvider) :
    Emits rely guar (completeCycle spec dependents ts).run (CycledTo rely docker name) := by
  refine emits_try_bind (fun swapped : String × String =>
    Swapped rely .update spec.name spec spec.imageRef (.ok swapped)) (emits_map ?_)
    fun swapped hswapped => ?_
  · refine (emits_swapContainer hushed keeps ts).weaken fun r hr => ?_
    cases r with
    | error e => exact fun cycle h => by cases h
    | ok swapped => exact hr
  · refine emits_done fun cycle h => ⟨spec, ?_⟩
    cases h
    exact ⟨hspec, rfl, rfl, hswapped.1, hswapped.2, hdependents⟩

theorem emits_recreateOne (hushed : Hushed guar) (docker : Docker) (name : String)
    (hooks : LifecycleHooks) (ts : TsProvider)
    (pulled : ∀ spec, Inspected rely name spec → ∀ reply,
      guar ⟨.createImage (ImageRef.parse spec.imageRef), reply⟩)
    (hook : ∀ hook ∈ hooks.preUpdate, ∀ reply,
      guar ⟨.exec name hook.command hook.timeout, reply⟩)
    (keeps : ∀ spec, Inspected rely name spec →
      SwapKeeps rely guar .update spec.name spec spec.imageRef) :
    Emits rely guar (recreateOne docker name hooks ts).run (CycledTo rely docker name) := by
  refine emits_except_bind (emits_clearUpdate hushed docker name hooks pulled hook)
    (fun e c h => by cases h) fun cleared hcleared => ?_
  obtain ⟨spec, _ | reason⟩ := cleared
  · exact emits_lift_bind (emits_dependentsOf hushed docker name) fun dependents hdependents =>
      emits_completeCycle hushed hcleared (keeps spec hcleared) hdependents.listed ts
  · exact emits_done fun cycle h => by cases h

/-! ## After the gate -/

/-- What an undone update of a finished cycle may be observed to do. -/
structure UndoKeeps (rely guar : CallEvent → Prop) (cycle : CycleResult) : Prop where
  quiet : Quiet guar
  stop : ∀ signal timeout reply, guar ⟨.stopContainer .update cycle.newId signal timeout, reply⟩
  remove : ∀ reply, guar ⟨.removeContainer .update cycle.newId true, reply⟩
  rename : ∀ reply, guar ⟨.renameContainer .update cycle.oldName cycle.ownerName, reply⟩
  start : ∀ reply, guar ⟨.startContainer .update cycle.ownerName, reply⟩
  reattach : ∀ d ∈ cycle.dependents, ReattachKeeps rely guar d cycle.ownerName none

/-- What a settled update of a finished cycle may be observed to do. -/
structure SettleKeeps (rely guar : CallEvent → Prop) (cycle : CycleResult) : Prop where
  still : Still guar
  remove : ∀ reply, guar ⟨.removeContainer .update cycle.oldName false, reply⟩
  reattach : ∀ d ∈ cycle.dependents,
    ReattachKeeps rely guar d cycle.ownerName (some cycle.newId)

section Undo

theorem emits_rollback {name newId archive : String}
    (stop : ∀ signal timeout reply, guar ⟨.stopContainer .update newId signal timeout, reply⟩)
    (remove : ∀ reply, guar ⟨.removeContainer .update newId true, reply⟩)
    (rename : ∀ reply, guar ⟨.renameContainer .update archive name, reply⟩)
    (start : ∀ reply, guar ⟨.startContainer .update name, reply⟩) (images : String × String)
    (reason : RollbackReason) :
    Emits rely guar (rollback name newId archive images reason).run fun _ => True := by
  refine emits_lift_bind (emits_request (stop _ _) fun _ _ => trivial) fun _ _ => ?_
  refine emits_except_bind (emits_request remove fun _ _ _ _ => trivial) (fun _ => trivial)
    fun _ _ => ?_
  refine emits_except_bind (emits_request rename fun _ _ _ _ => trivial) (fun _ => trivial)
    fun _ _ => ?_
  refine emits_except_bind (emits_request start fun _ _ _ _ => trivial) (fun _ => trivial)
    fun _ _ => ?_
  exact emits_done trivial

variable {cycle : CycleResult} (keeps : UndoKeeps rely guar cycle)

include keeps

theorem UndoKeeps.rollback (images : String × String) (reason : RollbackReason) :
    Emits rely guar
      (rollback cycle.ownerName cycle.newId cycle.oldName images reason).run fun _ => True :=
  emits_rollback keeps.stop keeps.remove keeps.rename keeps.start images reason

theorem UndoKeeps.undoUpdate (reason : RollbackReason) (ts : TsProvider) :
    Emits rely guar (undoUpdate cycle reason ts).run fun _ => True := by
  refine emits_except_bind ((keeps.rollback _ reason).weaken fun _ _ _ _ => trivial)
    (fun _ => trivial) fun event _ => ?_
  exact emits_lift_bind (emits_reattachDependents keeps.quiet keeps.reattach ts)
    fun _ _ => emits_done trivial

end Undo

section Settle

theorem emits_runPostUpdateHook (newId : String) (hook : Option Hook)
    (keeps : ∀ command timeout reply, guar ⟨.exec newId command timeout, reply⟩) :
    Emits rely guar (runPostUpdateHook newId hook) fun _ => True := by
  cases hook with
  | none => exact emits_done trivial
  | some hook =>
      exact emits_bind (emits_request (keeps _ _) fun _ _ => trivial) fun _ _ => emits_done trivial

theorem emits_removeReplacedImage (cleanup : Cleanup) (oldImageId : Option String)
    (keeps : ∀ id reply, guar ⟨.removeImage id false, reply⟩) :
    Emits rely guar (removeReplacedImage cleanup oldImageId) fun _ => True := by
  unfold removeReplacedImage
  split
  · exact emits_bind (emits_request (keeps _) fun _ _ => trivial) fun _ _ => emits_done trivial
  · exact emits_done trivial

theorem emits_runCleanup (cleanup : Cleanup) (oldImageId : Option String)
    (removes : ∀ id reply, guar ⟨.removeImage id false, reply⟩)
    (prunes : ∀ reply, guar ⟨.pruneImages, reply⟩) :
    Emits rely guar (runCleanup cleanup oldImageId) fun _ => True := by
  refine emits_bind (emits_removeReplacedImage cleanup oldImageId removes) fun _ _ => ?_
  cases cleanup.pruneDangling with
  | false => exact emits_done trivial
  | true => exact emits_bind (emits_request prunes fun _ _ => trivial) fun _ _ => emits_done trivial

variable {cycle : CycleResult} (keeps : SettleKeeps rely guar cycle)

include keeps

theorem SettleKeeps.settleUpdate (cleanup : Cleanup) (hook : Option Hook) (ts : TsProvider) :
    Emits rely guar (settleUpdate cycle cleanup hook ts) fun _ => True := by
  refine emits_bind (emits_reattachDependents keeps.still.quiet keeps.reattach ts) fun _ _ => ?_
  refine emits_bind (emits_request keeps.remove fun _ _ => trivial) fun _ _ => ?_
  refine emits_bind (emits_runPostUpdateHook _ _ fun _ _ reply => keeps.still _ reply rfl)
    fun _ _ => ?_
  exact emits_bind (emits_runCleanup _ _ (fun _ reply => keeps.still _ reply rfl) fun reply =>
    keeps.still _ reply rfl) fun _ _ => emits_done trivial

theorem SettleKeeps.settleOneShot (cleanup : Cleanup) (ts : TsProvider) :
    Emits rely guar (settleOneShot cycle cleanup ts) fun _ => True := by
  refine emits_bind (emits_reattachDependents keeps.still.quiet keeps.reattach ts) fun _ _ => ?_
  refine emits_bind (emits_request keeps.remove fun _ _ => trivial) fun _ _ => ?_
  exact emits_bind (emits_runCleanup _ _ (fun _ reply => keeps.still _ reply rfl) fun reply =>
    keeps.still _ reply rfl) fun _ _ => emits_done trivial

end Settle

section Gate

variable {cycle : CycleResult} (settle : SettleKeeps rely guar cycle)

include settle

/-- **From the gate on, an update undoes or settles its cycle.** -/
theorem emits_gateUpdate (undo : UndoKeeps rely guar cycle) (docker : Docker)
    (cfg : HealthConfig) (cleanup : Cleanup) (hooks : LifecycleHooks) (ts : TsProvider) :
    Emits rely guar (gateUpdate docker cfg cleanup hooks ts (.completed cycle)).run
      fun _ => True := by
  refine emits_lift_bind (emits_waitForHealth undo.quiet docker _ cfg) fun verdict _ => ?_
  cases verdict with
  | healthy => exact emits_lift (settle.settleUpdate cleanup hooks.postUpdate ts)
  | timeout => exact undo.undoUpdate .healthTimeout ts
  | crashed => exact undo.undoUpdate .crashed ts

/-- **From the gate on, the re-run of a one-shot settles its cycle or stays as it is.** -/
theorem emits_gateOneShot (docker : Docker) (timeout pollInterval : Duration)
    (cleanup : Cleanup) (ts : TsProvider) :
    Emits rely guar (gateOneShot docker timeout pollInterval cleanup ts (.completed cycle))
      fun _ => True := by
  refine emits_bind (emits_waitForExit settle.still.quiet docker _ _ _) fun exit _ => ?_
  cases exit with
  | timedOut => exact emits_done trivial
  | exited exitCode =>
      by_cases hzero : exitCode = 0
      · simpa [concludeOneShot, hzero] using settle.settleOneShot cleanup ts
      · simpa [concludeOneShot, hzero] using emits_done trivial

end Gate

/-! ## Whole updates -/

section Whole

variable {docker : Docker} {name : String}
  (keeps : ∀ spec, Inspected rely name spec →
    SwapKeeps rely guar .update spec.name spec spec.imageRef)
  (settle : ∀ cycle spec, Cycled rely docker name cycle spec → SettleKeeps rely guar cycle)

include keeps settle

/-- A health-gated update clears the container, runs the cycle, and undoes or settles it. -/
theorem emits_recreateWithHealth
    (undo : ∀ cycle spec, Cycled rely docker name cycle spec → UndoKeeps rely guar cycle)
    (still : Still guar) (cfg : HealthConfig) (cleanup : Cleanup) (hooks : LifecycleHooks)
    (ts : TsProvider) :
    Emits rely guar (recreateWithHealth docker name cfg cleanup hooks ts).run fun _ => True := by
  refine @emits_except_bind _ _ _ _ _ rely guar _ _
    (fun outcome => CycledTo rely docker name (.ok outcome)) _
    ((emits_recreateOne still.quiet docker name hooks ts (fun _ _ reply => still _ reply rfl)
      (fun _ _ reply => still _ reply rfl) keeps).weaken fun r hr outcome h => ?_)
    (fun _ => trivial) fun outcome hcycled => ?_
  · subst h
    exact hr
  · cases outcome with
    | skipped reason => exact emits_done trivial
    | completed cycle =>
        obtain ⟨spec, cycled⟩ := hcycled cycle rfl
        exact emits_gateUpdate (settle cycle spec cycled) (undo cycle spec cycled) docker cfg
          cleanup hooks ts

/-- The re-run of a one-shot clears the container, runs the cycle, and settles it. -/
theorem emits_recreateOneShot (still : Still guar) (timeout pollInterval : Duration)
    (cleanup : Cleanup) (hooks : LifecycleHooks) (ts : TsProvider) :
    Emits rely guar (recreateOneShot docker name timeout pollInterval cleanup hooks ts).run
      fun _ => True := by
  refine @emits_except_bind _ _ _ _ _ rely guar _ _
    (fun outcome => CycledTo rely docker name (.ok outcome)) _
    ((emits_recreateOne still.quiet docker name LifecycleHooks.default ts
      (fun _ _ reply => still _ reply rfl) (fun _ _ reply => still _ reply rfl) keeps).weaken fun r hr outcome h => ?_)
    (fun _ => trivial) fun outcome hcycled => ?_
  · subst h
    exact hr
  · refine emits_lift ?_
    cases outcome with
    | skipped reason => exact emits_done trivial
    | completed cycle =>
        obtain ⟨spec, cycled⟩ := hcycled cycle rfl
        exact emits_gateOneShot (settle cycle spec cycled) docker timeout pollInterval cleanup ts

end Whole

end Freshdock.Docker
