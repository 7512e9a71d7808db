import Freshdock.Docker.Moves
import Freshdock.Interaction.Count

/-!
# An update creates once

Whatever comes of it, an update of a container creates at most one container for it: the swap makes
the replacement, a rollback starts the old one again, and what a repair creates is for a dependent
(`atMost_recreateWithHealth`, `atMost_recreateOneShot`).
-/

set_option autoImplicit false

namespace Freshdock.Docker

open Interaction Registry
open Labels (LifecycleHooks)

/-- A create of the replacement of an updated container. -/
def updateCreate (e : CallEvent) : Bool :=
  match e.call with
  | .createContainer .update _ _ => true
  | _ => false

/-- An event that creates no replacement. -/
def CreatesNone (e : CallEvent) : Prop := updateCreate e = false

theorem still_createsNone : Still CreatesNone := by
  intro call reply still
  cases call <;> first | rfl | cases still

theorem reattach_createsNone (rely : CallEvent → Prop) (dependent owner : String)
    (newOwnerId : Option String) : ReattachKeeps rely CreatesNone dependent owner newOwnerId where
  swap _ _ _ := { stop := fun _ _ _ => rfl, rename := fun _ _ => rfl, create := fun _ => rfl,
                  start := fun _ _ _ => rfl }
  restore _ _ _ := rfl
  restart _ := rfl
  clean _ _ _ := rfl

theorem settle_createsNone (cycle : CycleResult) : SettleKeeps (fun _ => True) CreatesNone cycle where
  still := still_createsNone
  remove _ := rfl
  reattach d _ := reattach_createsNone _ d _ _

theorem undo_createsNone (cycle : CycleResult) : UndoKeeps (fun _ => True) CreatesNone cycle where
  quiet := still_createsNone.quiet
  stop _ _ _ := rfl
  remove _ := rfl
  rename _ := rfl
  start _ := rfl
  reattach d _ := reattach_createsNone _ d _ _

section Count

variable {docker : Docker}

theorem atMost_createsNone {α : Type} {p : Prog α} {post : α → Prop}
    (h : Emits (fun _ => True) CreatesNone p post) : AtMost updateCreate 0 p :=
  atMost_of_emits (fun _ none => none) h

theorem atMost_swapStep {α : Type} {onError : DockerError → SwapError} {op : Op α} {n : Nat}
    (h : AtMost updateCreate n op.run) : AtMost updateCreate n (swapStep onError op).run :=
  atMost_map h

/-- A swap creates one container. -/
theorem atMost_swapContainer (role : Role) (name : String) (spec : ContainerSpec) (image : String)
    (ts : TsProvider) : AtMost updateCreate 1 (swapContainer role name spec image ts).run := by
  have quiet := still_createsNone.quiet
  refine (atMost_except_bind (m := 0) (n := 1) (atMost_swapStep (atMost_createsNone
    (@emits_request _ _ _ CreatesNone _ (fun _ => True) (fun _ => rfl) fun _ _ => trivial)))
    fun _ => ?_)
  refine atMost_lift_bind (m := 0) (n := 1) (atMost_createsNone (emits_ts quiet ts)) fun tsUnix => ?_
  refine atMost_except_bind (m := 0) (n := 1) (atMost_swapStep (atMost_createsNone
    (emits_renameToOld quiet role name tsUnix fun _ _ => rfl))) fun archive => ?_
  refine atMost_except_bind (m := 1) (n := 0) (atMost_swapStep (atMost_request _)) fun id => ?_
  exact atMost_except_bind (m := 0) (n := 0) (atMost_swapStep (atMost_createsNone
    (@emits_request _ _ _ CreatesNone _ (fun _ => True) (fun _ => rfl) fun _ _ => trivial)))
    fun _ => atMost_done _

/-- A cycle creates one container. -/
theorem atMost_recreateOne (name : String) (hooks : LifecycleHooks) (ts : TsProvider) :
    AtMost updateCreate 1 (recreateOne docker name hooks ts).run := by
  have quiet := still_createsNone.quiet
  refine atMost_except_bind (m := 0) (n := 1) (atMost_createsNone
    (emits_clearUpdate quiet.hushed docker name hooks (fun _ _ _ => rfl) fun _ _ _ => rfl)) fun cleared => ?_
  obtain ⟨spec, _ | reason⟩ := cleared
  · refine atMost_lift_bind (m := 0) (n := 1) (atMost_createsNone (emits_dependentsOf quiet docker name))
      fun dependents => ?_
    exact atMost_except_bind (m := 1) (n := 0) (atMost_map (atMost_swapContainer _ _ _ _ ts))
      fun _ => atMost_done _
  · exact (atMost_done _).mono (Nat.zero_le 1)

/-- **A health-gated update creates at most one container for the updated one.** -/
theorem atMost_recreateWithHealth (name : String) (cfg : HealthConfig) (cleanup : Cleanup)
    (hooks : LifecycleHooks) (ts : TsProvider) :
    AtMost updateCreate 1 (recreateWithHealth docker name cfg cleanup hooks ts).run := by
  refine atMost_except_bind (m := 1) (n := 0) (atMost_recreateOne name hooks ts) fun outcome => ?_
  cases outcome with
  | skipped reason => exact atMost_done _
  | completed cycle =>
      exact atMost_createsNone (emits_gateUpdate (settle_createsNone cycle) (undo_createsNone cycle) docker cfg
        cleanup hooks ts)

/-- **The re-run of a one-shot creates at most one container for it.** -/
theorem atMost_recreateOneShot (name : String) (timeout pollInterval : Duration)
    (cleanup : Cleanup) (hooks : LifecycleHooks) (ts : TsProvider) :
    AtMost updateCreate 1
      (recreateOneShot docker name timeout pollInterval cleanup hooks ts).run := by
  refine atMost_except_bind (m := 1) (n := 0) (atMost_recreateOne name LifecycleHooks.default ts)
    fun outcome => ?_
  cases outcome with
  | skipped reason => exact atMost_lift_bind (atMost_done _) fun _ => atMost_done _
  | completed cycle =>
      have gate : Emits (fun _ => True) CreatesNone (Op.lift (gateOneShot docker timeout pollInterval
          cleanup ts (.completed cycle))).run fun _ => True :=
        emits_lift (emits_gateOneShot (settle_createsNone cycle) docker timeout pollInterval cleanup ts)
      exact atMost_createsNone gate

end Count

end Freshdock.Docker
