import Freshdock.Rollout.PlanFacts
import Freshdock.Rollout.PlainUpdate

/-!
# The order of a plan

A target stands after every target that its service depends on through services with targets of
their own (`targets_in_chain_order`). A chain that leaves the plan imposes no order: the planner
sorts the graph that the targets' services induce, and the services of a chain that leaves it
are ordered by name.
-/

set_option autoImplicit false

namespace Freshdock.Rollout

open Compose (ProjectMember Graph)
open Labels (PolicyDefaults)

/-- The first target stands before the second, wherever they stand. -/
def Before (targets : List PlannedTarget) (first second : PlannedTarget) : Prop :=
  ∃ front back, targets = front ++ back ∧ first ∉ back ∧ second ∉ front

theorem before_of_ahead {targets : List PlannedTarget} {first second : PlannedTarget}
    (ahead : Ahead targets first.service second.service) : Before targets first second := by
  obtain ⟨front, back, hsplit, hback, hfront⟩ := ahead
  exact ⟨front, back, hsplit, fun h => hback first h rfl, fun h => hfront second h rfl⟩

/-- **The whole dependency order is kept, for one plan**: on a project without cycles, a
target stands after every target that its service depends on through any chain of edges. -/
def DependencyOrder (project : String) (members : List ProjectMember) (trigger : String)
    (tag : Option String) (defaults : PolicyDefaults) (own : Option String) : Prop :=
  (∀ service, Compose.Acyclic (Compose.graphOf (liveMembers members)) service) →
    ∀ first ∈ (plan project members trigger tag defaults own).targets,
    ∀ second ∈ (plan project members trigger tag defaults own).targets,
      Relation.TransGen (Compose.DependsOn (Compose.graphOf (liveMembers members)))
        second.service first.service →
      Before (plan project members trigger tag defaults own).targets first second

section

variable {project trigger : String} {members : List ProjectMember} {tag : Option String}
  {defaults : PolicyDefaults} {own : Option String}

/-- An edge to a service that has a target. -/
def DependsInPlan (p : RolloutPlan) (service dependency : String) : Prop :=
  Compose.DependsOn p.graph service dependency ∧ dependency ∈ p.allTargetServices

/-- A chain ends at a service that has a target. -/
theorem chain_target {p : RolloutPlan} {service dependency : String}
    (chain : Relation.TransGen (DependsInPlan p) service dependency) :
    dependency ∈ p.allTargetServices := by
  rcases Relation.TransGen.tail'_iff.mp chain with ⟨_, -, -, hmem⟩
  exact hmem

/-- **A target stands after every target that its service depends on through services that have
targets.** -/
theorem targets_in_chain_order
    (acyclic : ∀ service, Compose.Acyclic (Compose.graphOf (liveMembers members)) service)
    {first second : PlannedTarget}
    (hsecond : second ∈ (plan project members trigger tag defaults own).targets)
    (chain : Relation.TransGen (DependsInPlan (plan project members trigger tag defaults own))
      second.service first.service) :
    Before (plan project members trigger tag defaults own).targets first second := by
  refine before_of_ahead ?_
  generalize hservice : first.service = service at chain
  clear hservice
  have start : second.service ∈ (plan project members trigger tag defaults own).allTargetServices :=
    List.mem_map_of_mem hsecond
  induction chain with
  | single hdep =>
      obtain ⟨hdep, hmem⟩ := hdep
      rw [plan_graph] at hdep
      exact plan_ahead (acyclic _) hdep hmem start
  | tail chain hdep ih =>
      obtain ⟨hdep, hmem⟩ := hdep
      rw [plan_graph] at hdep
      have between := chain_target chain
      exact (plan_ahead (acyclic _) hdep hmem between).trans ih (List.mem_map.mp between)

end

/-! A dependency that runs through a service which is not updated. -/

def memberOn (image name service dependsOn : String) : ProjectMember where
  name := name
  id := "id-" ++ name
  imageRef := image
  imageId := none
  labels := LabelMap.ofPairs [("com.docker.compose.project", "stack"),
    ("com.docker.compose.service", service), ("com.docker.compose.depends_on", dependsOn),
    ("freshdock.enable", "true"), ("freshdock.mode", "live")]
  running := true

/-- `api` depends on `store`, through `proxy`, which runs another image. -/
def throughProxy : List ProjectMember :=
  [memberOn "app" "api" "api" "proxy:service_started", memberOn "app" "store" "store" "",
    memberOn "nginx" "proxy" "proxy" "store:service_healthy"]

def livePolicy : Labels.Policy := { Labels.disabledPolicy with enabled := true, mode := .live }

def apiTarget : PlannedTarget := ⟨"api", "api", .service, livePolicy⟩

def storeTarget : PlannedTarget := ⟨"store", "store", .service, livePolicy⟩

/-- The dependent is first in the plan. -/
theorem not_dependencyOrder :
    ¬ DependencyOrder "stack" throughProxy "api" none ⟨none, false, false⟩ none := by
  intro order
  have acyclic : ∀ service, Compose.Acyclic (Compose.graphOf (liveMembers throughProxy)) service :=
    Compose.acyclic_of_rank
      (fun service => if service = "store" then 0 else if service = "proxy" then 1 else 2) (by decide)
  have targets : (plan "stack" throughProxy "api" none ⟨none, false, false⟩ none).targets =
      [apiTarget, storeTarget] := by decide
  have edge : Compose.DependsOn (Compose.graphOf (liveMembers throughProxy)) "api" "proxy" := by
    unfold Compose.DependsOn
    decide
  have edge' : Compose.DependsOn (Compose.graphOf (liveMembers throughProxy)) "proxy" "store" := by
    unfold Compose.DependsOn
    decide
  obtain ⟨front, back, happend, hback, hfront⟩ := order acyclic storeTarget (by rw [targets]; decide)
    apiTarget (by rw [targets]; decide) ((Relation.TransGen.single edge).tail edge')
  rw [targets] at happend
  cases front with
  | nil =>
      simp only [List.nil_append] at happend
      exact hback (by rw [← happend]; decide)
  | cons t front =>
      obtain ⟨rfl, -⟩ := List.cons.inj happend
      exact hfront List.mem_cons_self

/-- A direct dependency comes first. -/
theorem targets_in_chain_order_direct :
    Before (plan "stack" [memberOn "app" "api" "api" "store:service_healthy",
        memberOn "app" "store" "store" ""] "api" none ⟨none, false, false⟩ none).targets
      storeTarget apiTarget := by
  refine targets_in_chain_order (Compose.acyclic_of_rank
    (fun service => if service = "store" then 0 else 1) (by decide)) (by decide) (.single ?_)
  unfold DependsInPlan Compose.DependsOn
  decide

end Freshdock.Rollout
