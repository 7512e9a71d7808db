import Freshdock.Docker.Moves
import Freshdock.Rollout.PlanFacts

/-!
# The containers a rollout moves

A rollout moves what the updates of its targets move, and the containers it restarts. The
restarts come after every target was updated, so that they are those of the services of all
the targets.

The members of a project are what the listing shows, with the image reference of some of them
read from an inspect (`Refilled`).
-/

set_option autoImplicit false

namespace Freshdock.Rollout

open Interaction Docker Registry
open Compose (ProjectMember)
open Labels (PolicyDefaults)

/-- The member of a listing row, up to its image where the row names that by an id. -/
structure Refilled (row : ContainerSummary) (m : ProjectMember) : Prop where
  name : m.name = containerName row
  id : m.id = row.id.getD ""
  labels : m.labels = row.labels.getD fun _ => none
  running : m.running = (projectMember row).running
  named : isImageId (projectMember row).imageRef = false → m = projectMember row

/-- The members were read off a listing of the project. -/
def ListedProject (rely : CallEvent → Prop) (project : String) (members : List ProjectMember) :
    Prop :=
  ∃ rows, rely ⟨.listProjectContainers project, some (.ok rows)⟩ ∧
    List.Forall₂ Refilled rows members

/-- Every member was read off a row. -/
theorem exists_row_of_refilled {rows : List ContainerSummary} {members : List ProjectMember}
    (refilled : List.Forall₂ Refilled rows members) {m : ProjectMember} (hm : m ∈ members) :
    ∃ row ∈ rows, Refilled row m := by
  induction refilled with
  | nil => cases hm
  | cons head _ ih =>
      rcases List.mem_cons.mp hm with rfl | hm
      · exact ⟨_, List.mem_cons_self, head⟩
      · obtain ⟨row, hrow, hrefilled⟩ := ih hm
        exact ⟨row, List.mem_cons_of_mem _ hrow, hrefilled⟩

variable {rely guar : CallEvent → Prop}

section Listing

variable (quiet : Quiet guar)

include quiet

theorem emits_resolveMemberImage {row : ContainerSummary} {m : ProjectMember}
    (refilled : Refilled row m) :
    Emits rely guar (resolveMemberImage m).run fun r => ∀ m', r = .ok m' → Refilled row m' := by
  unfold resolveMemberImage
  split
  · next hid =>
    refine emits_except_bind (emits_inspect quiet m.id) (fun e m' h => by cases h) fun spec _ => ?_
    refine emits_done fun m' h => ?_
    cases h
    refine ⟨refilled.name, refilled.id, refilled.labels, refilled.running, fun hnamed => ?_⟩
    rw [refilled.named hnamed, hnamed] at hid
    cases hid
  · refine emits_done fun m' h => ?_
    cases h
    exact refilled

theorem emits_resolveMemberImages {rows : List ContainerSummary} {members : List ProjectMember}
    (refilled : List.Forall₂ Refilled rows members) :
    Emits rely guar (resolveMemberImages members).run fun r =>
      ∀ members', r = .ok members' → List.Forall₂ Refilled rows members' := by
  induction refilled with
  | nil =>
      refine emits_done fun members' h => ?_
      cases h
      exact .nil
  | cons head _ ih =>
      refine emits_except_bind (emits_resolveMemberImage quiet head) (fun e m' h => by cases h)
        fun m' hm' => ?_
      refine emits_except_bind ih (fun e m' h => by cases h) fun members' hmembers' => ?_
      refine emits_done fun all h => ?_
      cases h
      exact .cons hm' hmembers'

theorem emits_listProject (project : String) :
    Emits rely guar (listProject project).run fun r =>
      ∀ members, r = .ok members → ListedProject rely project members := by
  refine emits_try_bind (fun rows => rely ⟨.listProjectContainers project, some (.ok rows)⟩)
    ((emits_quiet quiet rfl rfl).weaken fun r hr => ?_) fun rows hrows => ?_
  · cases r with
    | error e => exact fun members h => by cases h
    | ok rows => exact hr
  · have refilled : List.Forall₂ Refilled rows (rows.map projectMember) := by
      rw [List.forall₂_map_right_iff]
      exact List.forall₂_same.mpr fun row _ => ⟨rfl, rfl, rfl, rfl, fun _ => rfl⟩
    exact (emits_resolveMemberImages quiet refilled).weaken fun r hr members h =>
      ⟨rows, hrows, hr members h⟩

/-- A planned rollout is the plan of a listing. -/
theorem emits_planFor (project trigger : String) (tag : Option String)
    (defaults : PolicyDefaults) (own : Option String) :
    Emits rely guar (planFor project trigger tag defaults own).run fun r =>
      ∀ p, r = .ok p → ∃ members, ListedProject rely project members ∧
        p = plan project members trigger tag defaults own := by
  refine emits_except_bind (emits_listProject quiet project) (fun e p h => by cases h)
    fun members hmembers => ?_
  refine emits_done fun p h => ?_
  cases h
  exact ⟨members, hmembers, rfl⟩

end Listing

/-! ## Running the targets -/

section Run

variable {P : Role → String → Prop} {docker : Docker}

theorem emits_runTarget {target : PlannedTarget}
    (updatable : Updatable rely P docker target.container) (cfg : RolloutConfig)
    (ts : TsProvider) : Emits rely (Moves P) (runTarget docker cfg ts target) fun _ => True := by
  unfold runTarget
  cases target.kind with
  | oneShot => exact emits_map (updatable.recreateOneShot _ _ _ _ ts)
  | service => exact emits_map (updatable.recreateWithHealth _ _ _ ts)

/-- Updating the targets moves what their updates move. When none failed, every target's
service was updated. -/
theorem emits_runTargets {targets : List PlannedTarget}
    (updatable : ∀ t ∈ targets, Updatable rely P docker t.container) (cfg : RolloutConfig)
    (ts : TsProvider) (progress : Progress) :
    Emits rely (Moves P) (runTargets docker cfg ts targets progress) fun done =>
      done.aborted = none →
        done.updatedServices = progress.updatedServices ++ targets.map PlannedTarget.service := by
  induction targets generalizing progress with
  | nil => exact emits_done fun _ => by simp
  | cons target targets ih =>
      refine emits_bind (emits_runTarget (updatable _ List.mem_cons_self) cfg ts) fun step _ => ?_
      cases step with
      | error reason => exact emits_done fun h => by cases h
      | ok step =>
          refine (ih (fun t ht => updatable t (List.mem_cons_of_mem _ ht))
            (progress.complete target step)).weaken fun done hdone h => ?_
          rw [hdone h]
          simp [Progress.complete]

theorem emits_restartDependent {container : String} (allowed : P .restart container) :
    Emits rely (Moves P) (restartDependent container).run fun _ => True := by
  have hstopOptions : Emits rely (Moves P) (stopOptions container) fun _ => True :=
    emits_bind (emits_inspect (quiet_moves P) container) fun _ _ => emits_done trivial
  refine emits_lift_bind hstopOptions fun options _ => ?_
  refine emits_try_bind (fun _ => True)
    (emits_request (fun _ => moves_of_some rfl allowed) fun r _ => by cases r <;> trivial)
    fun _ _ => ?_
  exact emits_request (fun _ => moves_of_some rfl allowed) fun _ _ => trivial

theorem emits_runRestarts {containers : List String}
    (allowed : ∀ c ∈ containers, P .restart c) :
    Emits rely (Moves P) (runRestarts containers) fun _ => True := by
  induction containers with
  | nil => exact emits_done trivial
  | cons container containers ih =>
      refine emits_bind (emits_restartDependent (allowed _ List.mem_cons_self)) fun _ _ => ?_
      refine emits_bind (ih fun c hc => allowed c (List.mem_cons_of_mem _ hc)) fun _ _ => ?_
      exact emits_done trivial

/-- **Executing a plan moves what the updates of its targets move, and what it restarts.** -/
theorem emits_execute {p : RolloutPlan}
    (updatable : ∀ t ∈ p.targets, Updatable rely P docker t.container)
    (restarts : ∀ c ∈ p.restartsFor p.allTargetServices, P .restart c) (cfg : RolloutConfig)
    (ts : TsProvider) : Emits rely (Moves P) (execute docker p cfg ts) fun _ => True := by
  refine emits_bind (emits_runTargets updatable cfg ts .start) fun progress hprogress => ?_
  unfold concludeRollout
  cases haborted : progress.aborted with
  | some reason => exact emits_done trivial
  | none =>
      have hservices : progress.updatedServices = p.allTargetServices := by
        rw [hprogress haborted]
        rfl
      rw [hservices]
      exact emits_bind (emits_runRestarts restarts) fun _ _ => emits_done trivial

/-- What has to be allowed of a plan. -/
structure Executable (rely : CallEvent → Prop) (P : Role → String → Prop) (docker : Docker)
    (p : RolloutPlan) : Prop where
  targets : ∀ t ∈ p.targets, Updatable rely P docker t.container
  restarts : ∀ c ∈ p.restartsFor p.allTargetServices, P .restart c

/-- **A rollout moves allowed containers, when every plan of its listing does.** -/
theorem emits_forContainer {container : String} {labels : LabelMap} {cfg : RolloutConfig}
    {defaults : PolicyDefaults} {own : Option String}
    (executable : ∀ project members, ListedProject rely project members →
      Executable rely P docker (plan project members container cfg.tagImageId defaults own))
    (ts : TsProvider) :
    Emits rely (Moves P) (forContainer docker container labels cfg defaults own ts)
      fun _ => True := by
  unfold forContainer
  cases Compose.parse labels with
  | none => exact emits_done trivial
  | some info =>
      refine emits_bind (emits_planFor (quiet_moves P) _ _ _ _ _) fun planned hplanned => ?_
      cases planned with
      | error e => exact emits_done trivial
      | ok p =>
          obtain ⟨members, hmembers, rfl⟩ := hplanned p rfl
          have allowed := executable _ members hmembers
          simp only [rolloutOrPlain]
          split
          · split <;> exact emits_done trivial
          · split
            · exact emits_done trivial
            · exact emits_map (emits_execute allowed.targets allowed.restarts cfg ts)

end Run

end Freshdock.Rollout
