import Freshdock.Docker.DaemonCycle
import Freshdock.Docker.UpdateOrder
import Freshdock.Docker.Obliging

/-!
# The previous container

**An update never loses the container it replaces before the replacement has proved healthy.**
Whatever calls of it fail, and whatever its probes are told: nothing that makes the update final
happens before the gate accepts the replacement, nothing is moved before the update is cleared,
and a run that did not get there leaves the container on the daemon, under its name or an
archive name (`KeepsPrevious`). A rollback that is reported has been carried out.
-/

set_option autoImplicit false

namespace Freshdock.Docker

open Interaction Registry
open Labels (LifecycleHooks)

/-- What an update owes the container it replaces. -/
structure KeepsPrevious (docker : Docker) (name : String) (cfg : HealthConfig)
    (hooks : LifecycleHooks) (ts : TsProvider) (prev : Container)
    (run : Run Call Call.Reply World (Except DockerError RecreateOutcome)) : Prop where
  /-- The archive, an image or the dangling images are removed, and the post-update hook is run,
  only after the gate has accepted the replacement. -/
  concluded : ∀ before e after, run.trace = before ++ e :: after → Concludes before e →
    ReachedHealthy docker name cfg hooks ts before
  /-- A run that moves a container was cleared before, by calls that moved none. -/
  cleared : (∃ e ∈ run.trace, e.call.moves ≠ none) →
    ∃ cleared rest spec, run.trace = cleared ++ rest ∧
      Produces (clearUpdate docker name hooks).run cleared (some (.ok (spec, none))) ∧
      ∀ e ∈ cleared, e.call.moves = none
  /-- A run that does not reach a healthy verdict keeps the container. -/
  kept : ¬ ReachedHealthy docker name cfg hooks ts run.trace → Kept prev run.state
  /-- A run that reports a rollback has restored the container and removed the replacement. -/
  rolledBack : ∀ event, run.out = some (.ok (.rolledBack event)) →
    Restored prev run.state ∧ ∃ newId, (∀ id, CreatedForUpdate run.trace id ↔ id = newId) ∧
      ∀ c ∈ run.state.containers, c.id ≠ newId

/-- A settled update is no rollback. -/
theorem recreated_of_settleUpdate {cycle : CycleResult} {cleanup : Cleanup}
    {hook : Option Labels.Hook} {ts : TsProvider} {events : List CallEvent}
    {outcome : RecreateOutcome}
    (h : Produces (settleUpdate cycle cleanup hook ts) events (some outcome)) :
    outcome = .recreated cycle.oldName cycle.newId := by
  obtain ⟨repairs, _, rest, rfl, -, h⟩ := h.of_bind_some
  obtain ⟨removal, _, rest, rfl, -, h⟩ := h.of_bind_some
  obtain ⟨hooked, _, rest, rfl, -, h⟩ := h.of_bind_some
  obtain ⟨cleaned, _, rest, rfl, -, h⟩ := h.of_bind_some
  exact h.of_done.2

section Runs

variable {oracle : Oracle} {docker : Docker} {name : String} {cfg : HealthConfig}
  {hooks : LifecycleHooks} {ts : TsProvider} {w : World} {prev : Container}

/-- From the gate on: the container is kept unless the gate accepts, and is restored by a
rollback that is reported. -/
theorem ensures_gateUpdate {cycle : CycleResult} {cycled : List CallEvent}
    (h : Exchanged prev cycle w)
    (hcycle : Produces (recreateOne docker name hooks ts).run cycled
      (some (.ok (.completed cycle)))) (cleanup : Cleanup) :
    Ensures oracle.answer (gateUpdate docker cfg cleanup hooks ts (.completed cycle)).run w
      fun out trace w' =>
        (¬ ReachedHealthy docker name cfg hooks ts (cycled ++ trace) → Kept prev w') ∧
          ∀ event, out = some (.ok (.rolledBack event)) →
            Restored prev w' ∧ ∀ c ∈ w'.containers, c.id ≠ cycle.newId := by
  have hgate := (@ensures_still oracle _ _ _ _
    (emits_waitForHealth (quiet_moves _).hushed docker cycle.newId cfg) w .rfl).and
    (ensures_produces _ w)
  refine ensures_lift_bind _ hgate ?_ ?_
  · intro gated w₁ ⟨⟨same, _, _⟩, _⟩
    exact ⟨fun _ => (h.of_same same).shelved.kept, fun _ h => by cases h⟩
  intro verdict gated w₁ ⟨⟨same, _, _⟩, hverdict⟩
  have undone (reason : RollbackReason) :
      Ensures oracle.answer (undoUpdate cycle reason ts).run w₁ fun out more w' =>
        (¬ ReachedHealthy docker name cfg hooks ts (cycled ++ (gated ++ more)) → Kept prev w') ∧
          ∀ event, out = some (.ok (.rolledBack event)) →
            Restored prev w' ∧ ∀ c ∈ w'.containers, c.id ≠ cycle.newId := by
    refine (ensures_undoUpdate (h.of_same same) reason ts).weaken ?_
    intro out more w' ⟨kept, restored⟩
    exact ⟨fun _ => kept, fun event hout => restored _ hout⟩
  cases verdict with
  | healthy =>
      refine (ensures_produces _ w₁).weaken ?_
      intro out more w' hmore
      constructor
      · intro hnot
        exact absurd ⟨cycled, gated, more, cycle, rfl, hcycle, hverdict⟩ hnot
      · rintro event rfl
        cases recreated_of_settleUpdate (Produces.of_lift_ok hmore)
  | timeout => exact undone .healthTimeout
  | crashed => exact undone .crashed

/-- What the run of an update leaves behind. -/
theorem ensures_recreateWithHealth (valid : w.Valid) (hname : w.resolve name = some prev)
    (cleanup : Cleanup) :
    Ensures oracle.answer (recreateWithHealth docker name cfg cleanup hooks ts).run w
      fun out trace w' =>
        (¬ ReachedHealthy docker name cfg hooks ts trace → Kept prev w') ∧
          ∀ event, out = some (.ok (.rolledBack event)) →
            Restored prev w' ∧ ∃ newId, (∀ id, CreatedForUpdate trace id ↔ id = newId) ∧
              ∀ c ∈ w'.containers, c.id ≠ newId := by
  have hcycle := (@ensures_recreateOne oracle w prev docker name valid hname hooks ts).and
    (ensures_produces _ w)
  refine ensures_except_bind _ hcycle ?_ ?_ ?_
  · intro trace w₁ ⟨h, _⟩
    exact ⟨fun _ => h.kept, fun _ h => by cases h⟩
  · intro e trace w₁ ⟨h, _⟩
    exact ⟨fun _ => h.kept, fun _ h => by cases h⟩
  intro outcome cycled w₁ ⟨h, hcycled⟩
  cases outcome with
  | skipped reason => exact ensures_done ⟨fun _ => h.kept, fun _ h => by cases h⟩
  | completed cycle =>
      have exchanged := h.completed cycle rfl
      refine ((ensures_gateUpdate exchanged hcycled cleanup).and
        (ensures_gateUpdate_spares docker cfg cleanup hooks ts cycle)).weaken ?_
      intro out more w' ⟨⟨kept, restored⟩, spares⟩
      refine ⟨kept, fun event hout => ?_⟩
      obtain ⟨hrestored, hgone⟩ := restored event hout
      refine ⟨hrestored, cycle.newId, fun id => ?_, hgone⟩
      rw [← created_of_recreateOne hcycled id]
      constructor
      · rintro ⟨name', body, hmem⟩
        rcases List.mem_append.mp hmem with hmem | hmem
        · exact ⟨name', body, hmem⟩
        · exact absurd rfl (spares _ hmem)
      · rintro ⟨name', body, hmem⟩
        exact ⟨name', body, List.mem_append_left _ hmem⟩

end Runs

/-- **The previous container is never lost before the new one has proved healthy**, on any
daemon, for any replies and any faults. -/
theorem previous_never_lost {oracle : Oracle} {docker : Docker} {name : String} {w : World}
    {prev : Container} (valid : w.Valid) (hname : w.resolve name = some prev)
    (cfg : HealthConfig) (cleanup : Cleanup) (hooks : LifecycleHooks) (ts : TsProvider) :
    KeepsPrevious docker name cfg hooks ts prev
      (updateRun oracle docker name cfg cleanup hooks ts w) := by
  have produced : Produces (recreateWithHealth docker name cfg cleanup hooks ts).run
      (updateRun oracle docker name cfg cleanup hooks ts w).trace
      (updateRun oracle docker name cfg cleanup hooks ts w).out := play_produces _ _ w
  obtain ⟨kept, rolledBack⟩ :=
    @ensures_recreateWithHealth oracle docker name cfg hooks ts w prev valid hname cleanup
  exact {
    concluded := fun _ _ _ hplace hconcludes =>
      reachedHealthy_of_concludes produced hplace hconcludes
    cleared := cleared_of_moves produced
    kept := kept
    rolledBack := rolledBack }

/-! ## A rejected replacement -/

/-- Carries out every call, and reports every container as exited. -/
def rejectingDaemon : Oracle where
  fault _ := .none
  report _ := inspectReport "" "app:2" (fun _ => none)
    ⟨some .exited, some false, none, some 1, none⟩
  shown _ _ := false
  row _ _ := ⟨none, none, none, none, none, none, none⟩
  hook _ := .completed 0
  image _ := ⟨none, none⟩
  id _ := "2b"
  clock _ := 0
  unixTime _ := 0

def rejectedRun : Run Call Call.Reply World (Except DockerError RecreateOutcome) :=
  updateRun rejectingDaemon ⟨"1.44", none, 5⟩ "web" HealthConfig.default ⟨true, true⟩
    LifecycleHooks.default (.fixed 5) ⟨[⟨"1a", "web", true⟩], ["1a"], 0⟩

/-- The rejected replacement of `web` is rolled back. -/
theorem previous_never_lost_rejected :
    KeepsPrevious ⟨"1.44", none, 5⟩ "web" HealthConfig.default LifecycleHooks.default (.fixed 5)
        ⟨"1a", "web", true⟩ rejectedRun ∧
      rejectedRun.state.containers = [⟨"1a", "web", true⟩] ∧
      rejectedRun.out = some (.ok (.rolledBack ⟨"web", .crashed, "app:2", "app:2", "web-old-5"⟩)) :=
  ⟨previous_never_lost (by constructor <;> decide) rfl HealthConfig.default ⟨true, true⟩
      LifecycleHooks.default (.fixed 5), rfl, rfl⟩

end Freshdock.Docker
