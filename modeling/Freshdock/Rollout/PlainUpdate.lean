import Freshdock.Docker.Obliging
import Freshdock.Rollout.PlanFacts

/-!
# The plain update against a plan of one target

When a plan adds nothing over the update of one container, the rollout is left out and the
container gets a plain health-gated update. For a service the two are the same program up to
the form of their result. For a one-shot they are not: the plan waits for its exit, while the
health gate of the plain update takes the exit for a crash.
-/

set_option autoImplicit false

namespace Freshdock.Rollout

open Interaction Docker

/-- The update a caller makes in place of a plan: the health-gated one, under the container's
own policy. -/
def plainUpdate (docker : Docker) (cfg : RolloutConfig) (ts : TsProvider) (container : String)
    (policy : Labels.Policy) : Prog (Except DockerError RecreateOutcome) :=
  (recreateWithHealth docker container cfg.health ⟨policy.cleanup, cfg.pruneDangling⟩
    policy.hooks ts).run

/-- Did the plain update succeed? -/
def plainSucceeded : Except DockerError RecreateOutcome → Bool
  | .ok (.recreated _ _) => true
  | _ => false

/-- Did the rollout succeed? -/
def rolloutSucceeded (report : RolloutReport) : Bool := report.aborted.isNone

/-- The plain update of `container` and the plan `p` leave the same state and give the same
verdict, in every environment. -/
def PlainAgrees (p : RolloutPlan) (container : String) (policy : Labels.Policy)
    (cfg : RolloutConfig) (ts : TsProvider) : Prop :=
  ∀ (docker : Docker) (σ : Type) (h : Handler Call Call.Reply σ) (s : σ),
    (play h (plainUpdate docker cfg ts container policy) s).state =
      (play h (execute docker p cfg ts) s).state ∧
    (play h (plainUpdate docker cfg ts container policy) s).out.map plainSucceeded =
      (play h (execute docker p cfg ts) s).out.map rolloutSucceeded

/-- The report of a plan whose only target's update ended so. -/
def singleReport (p : RolloutPlan) (target : PlannedTarget)
    (outcome : Except DockerError RecreateOutcome) : RolloutReport :=
  match serviceStep target outcome with
  | .ok step =>
      { project := p.project, steps := [step], aborted := none, notCompleted := [],
        skipped := p.skipped }
  | .error reason =>
      { project := p.project, steps := [], aborted := some reason,
        notCompleted := remaining p.targets [], skipped := p.skipped }

theorem succeeded_singleReport (p : RolloutPlan) (target : PlannedTarget)
    (outcome : Except DockerError RecreateOutcome) :
    rolloutSucceeded (singleReport p target outcome) = plainSucceeded outcome := by
  match outcome with
  | .ok (.recreated _ _) => rfl
  | .ok (.rolledBack _) => rfl
  | .ok (.skippedByHook _) => rfl
  | .error _ => rfl

section

variable {p : RolloutPlan} {container : String} {target : PlannedTarget}

/-- **Executing a plan of one service is its plain update**, reported as a rollout. -/
theorem execute_single_service (h : p.addsNothingFor container = true) (ht : target ∈ p.targets)
    (hkind : target.kind = .service) (docker : Docker) (cfg : RolloutConfig) (ts : TsProvider) :
    execute docker p cfg ts = singleReport p target <$> plainUpdate docker cfg ts container target.policy := by
  obtain ⟨rfl, hone, hrestarts⟩ := targets_of_addsNothing h ht
  have hrun : runTarget docker cfg ts target =
      serviceStep target <$> plainUpdate docker cfg ts target.container target.policy := by
    rw [runTarget, hkind]
    rfl
  rw [execute, hone, runTargets, hrun, map_eq_pure_bind, map_eq_pure_bind]
  simp only [bind_assoc, pure_bind]
  congr 1
  funext outcome
  unfold singleReport
  cases hstep : serviceStep target outcome with
  | error reason => rfl
  | ok step =>
      simp only [runTargets, pure_bind, concludeRollout, Progress.complete, Progress.start,
        List.nil_append, hrestarts, runRestarts, List.append_nil]

/-- **For a one-shot the plain update and the plan disagree**: where every container exits 0
the plan completes, and the plain update is rolled back. -/
theorem plain_disagrees_for_oneShot (h : p.addsNothingFor container = true)
    (ht : target ∈ p.targets) (hkind : target.kind = .oneShot) (cfg : RolloutConfig)
    (ts : TsProvider) {docker : Docker} (hpolls : 0 < docker.polls) :
    (play exitingDaemon.answer (plainUpdate docker cfg ts container target.policy) 0).out.map plainSucceeded =
      some false ∧
    (play exitingDaemon.answer (execute docker p cfg ts) 0).out.map rolloutSucceeded =
      some true := by
  obtain ⟨rfl, hone, hrestarts⟩ := targets_of_addsNothing h ht
  have swappable := exitingDaemon_swappable ts target.container
  constructor
  · obtain ⟨event, hplain⟩ := @Obliging.Swappable.rolledBack _ 0 docker _ _ _ swappable
      (fun _ => rfl) hpolls _ rfl cfg.health ⟨target.policy.cleanup, cfg.pruneDangling⟩
      target.policy.hooks
    rw [plainUpdate, hplain.1]
    rfl
  · have hcompleted := @Obliging.Swappable.completed _ 0 docker _ _ _ swappable hpolls rfl
      cfg.oneShotTimeout cfg.health.pollInterval (targetCleanup cfg target) target.policy.hooks
    have hrun : Returns exitingDaemon.answer (runTarget docker cfg ts target) 0
        (.ok (.oneShotCompleted target.container)) 0 := by
      rw [runTarget, hkind]
      exact returns_map hcompleted
    have hexecute : Returns exitingDaemon.answer (execute docker p cfg ts) 0
        { project := p.project, steps := [.oneShotCompleted target.container], aborted := none,
          notCompleted := [], skipped := p.skipped } 0 := by
      rw [execute, hone]
      refine returns_bind (returns_bind hrun (returns_done _)) ?_
      simp only [concludeRollout, Progress.complete, Progress.start, List.nil_append, hrestarts]
      exact returns_bind (returns_done []) (returns_done _)
    rw [hexecute.1]
    rfl

/-- **The plain update agrees with the plan exactly for a service.** -/
theorem plain_agrees_iff_service (h : p.addsNothingFor container = true) (ht : target ∈ p.targets)
    (cfg : RolloutConfig) (ts : TsProvider) :
    PlainAgrees p container target.policy cfg ts ↔ target.kind = .service := by
  constructor
  · intro agrees
    cases hkind : target.kind with
    | service => rfl
    | oneShot =>
        have hpolls : 0 < (⟨"1.44", none, 1⟩ : Docker).polls := Nat.one_pos
        obtain ⟨hplain, hplan⟩ := plain_disagrees_for_oneShot h ht hkind cfg ts hpolls
        have hverdict := (agrees ⟨"1.44", none, 1⟩ Nat exitingDaemon.answer 0).2
        rw [hplain, hplan] at hverdict
        cases hverdict
  · intro hkind docker σ env s
    rw [execute_single_service h ht hkind, play_map]
    refine ⟨rfl, ?_⟩
    cases (play env (plainUpdate docker cfg ts container target.policy) s).out with
    | none => rfl
    | some outcome => simp [succeeded_singleReport]

end

/-! A project whose migration is the only member on the moved image. -/

def composeLabels (service dependsOn : String) : LabelMap :=
  LabelMap.ofPairs [("com.docker.compose.project", "stack"),
    ("com.docker.compose.service", service), ("com.docker.compose.depends_on", dependsOn)]

def migrateAlone : List Compose.ProjectMember :=
  [⟨"migrate", "id-migrate", "schema", none, composeLabels "migrate" "", false⟩,
    ⟨"web", "id-web", "app", none,
      composeLabels "web" "migrate:service_completed_successfully:false", true⟩]

def migrateAlonePlan : RolloutPlan := plan "stack" migrateAlone "migrate" none ⟨none, false, false⟩ none

def migrateTarget : PlannedTarget :=
  ⟨"migrate", "migrate", .oneShot, Labels.disabledPolicy⟩

theorem migrateAlone_single : migrateAlonePlan.addsNothingFor "migrate" = true ∧
    migrateTarget ∈ migrateAlonePlan.targets := by
  decide

/-- The plan of this project adds nothing for the migration, and its plain update does not
agree with it. -/
theorem plain_disagrees_for_migrateAlone :
    migrateAlonePlan.addsNothingFor "migrate" = true ∧
      migrateAlonePlan.targets = [migrateTarget] ∧
      ¬ PlainAgrees migrateAlonePlan "migrate" migrateTarget.policy .default .system := by
  refine ⟨migrateAlone_single.1, by decide, fun agrees => ?_⟩
  have hpolls : 0 < (⟨"1.44", none, 1⟩ : Docker).polls := Nat.one_pos
  obtain ⟨hplain, hplan⟩ := plain_disagrees_for_oneShot migrateAlone_single.1 migrateAlone_single.2
    rfl .default .system hpolls
  have hverdict := (agrees ⟨"1.44", none, 1⟩ Nat exitingDaemon.answer 0).2
  rw [hplain, hplan] at hverdict
  cases hverdict

/-- The condition fails for this project. -/
theorem plain_agrees_iff_service_migrateAlone :
    PlainAgrees migrateAlonePlan "migrate" migrateTarget.policy .default .system ↔
      migrateTarget.kind = .service :=
  plain_agrees_iff_service migrateAlone_single.1 migrateAlone_single.2 .default .system

end Freshdock.Rollout
