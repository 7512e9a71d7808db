import Freshdock.Commands.Recreate
import Freshdock.Rollout.Runs

/-!
# Attempts to update a container

The scheduler and the `recreate` command update a container in the same way: the rollout of its
project when there is one, and the plain health-gated update when there is none. An `Attempt` is
that program without what the caller does with its result (`recreateInspected_eq_attempt`,
`applyUpdate_eq_attempt`).

An attempt on a member of a project reads the project first and decides afterwards, so that an
observation of it is an observation of the listing, which moves nothing, and one of what the
listing led to (`Listed.produces`).
-/

set_option autoImplicit false

namespace Freshdock.Rollout

open Interaction Docker Registry
open Compose (ProjectMember)
open Labels (Policy PolicyDefaults LifecycleHooks)
open Cron (Instant)
open Scheduler (SchedulerConfig)

/-- What a caller knows when it updates a container. -/
structure Attempt where
  docker : Docker
  /-- How the caller refers to the container. -/
  ref : String
  /-- The container's inspected name. -/
  container : String
  labels : LabelMap
  cfg : RolloutConfig
  defaults : PolicyDefaults
  own : Option String
  cleanup : Cleanup
  hooks : LifecycleHooks
  ts : TsProvider

inductive AttemptOutcome where
  | rollout (report : RolloutReport)
  | plain (outcome : Except DockerError RecreateOutcome)
  deriving DecidableEq, Repr

namespace Attempt

/-- The plain update, when there is no rollout. -/
def plainOr (a : Attempt) : Option RolloutReport → Prog AttemptOutcome
  | some report => pure (.rollout report)
  | none =>
      .plain <$> (recreateWithHealth a.docker a.ref a.cfg.health a.cleanup a.hooks a.ts).run

def run (a : Attempt) : Prog AttemptOutcome := do
  let rollout ← forContainer a.docker a.container a.labels a.cfg a.defaults a.own a.ts
  a.plainOr rollout

/-- The plan the attempt makes for a listing. -/
def plan (a : Attempt) (project : String) (members : List ProjectMember) : RolloutPlan :=
  Rollout.plan project members a.container a.cfg.tagImageId a.defaults a.own

/-- What the attempt's plan is made for. -/
def input (a : Attempt) (members : List ProjectMember) (origin : ProjectMember) : PlanInput :=
  planInput (liveMembers members) origin a.cfg.tagImageId a.defaults a.own

/-- From the listing on. -/
def onListing (a : Attempt) (project : String)
    (listed : Except DockerError (List ProjectMember)) : Prog AttemptOutcome := do
  let rollout ← rolloutOrPlain a.docker project a.container a.cfg a.ts (listed.map (a.plan project))
  a.plainOr rollout

/-- The attempt was told these members by its listing. -/
def Listed (a : Attempt) (events : List CallEvent) (members : List ProjectMember) : Prop :=
  ∃ info listing rest, Compose.parse a.labels = some info ∧ events = listing ++ rest ∧
    Produces (listProject info.project).run listing (some (.ok members))

variable {a : Attempt}

/-! ## The callers -/

/-- The attempt of the `recreate` command. -/
def ofCommand (docker : Docker) (name : String) (spec : ContainerSpec) (policy : Policy)
    (health : HealthConfig) (settings : ResolvedSettings) (ts : TsProvider) : Attempt where
  docker := docker
  ref := name
  container := spec.name
  labels := spec.config.labels.getD fun _ => none
  cfg := Commands.manualRolloutConfig health settings
  defaults := settings.policyDefaults
  own := SelfId.ownContainerIdPrefix docker.hostname
  cleanup := ⟨policy.cleanup, settings.pruneDangling⟩
  hooks := policy.hooks
  ts := ts

/-- How the command reports its attempt. -/
def commandResult : AttemptOutcome → Except Commands.AppError Commands.RecreateResult
  | .rollout report => .ok (.rollout report)
  | .plain (.ok outcome) => .ok (.container outcome)
  | .plain (.error e) => .error (.docker e)

/-- **A container that is opted in is recreated by one attempt.** -/
theorem recreateInspected_eq_attempt {docker : Docker} {name : String} {spec : ContainerSpec}
    {policy : Policy} {health : HealthConfig} {settings : ResolvedSettings} {ts : TsProvider}
    (aware : settings.composeAware = true)
    (optedIn : Commands.optedIn name (spec.config.labels.getD fun _ => none) settings = .ok policy) :
    Commands.recreateInspected docker name health settings ts (.ok spec) =
      commandResult <$> (ofCommand docker name spec policy health settings ts).run := by
  rw [Commands.recreateInspected, optedIn, map_eq_pure_bind, run, bind_assoc]
  simp only [Commands.manualRollout, aware, ite_true]
  refine bind_congr fun rollout => ?_
  cases rollout with
  | some report => rfl
  | none =>
      simp only [plainOr, Commands.plainRecreate, map_eq_pure_bind, bind_assoc, pure_bind]
      refine bind_congr fun outcome => ?_
      cases outcome <;> rfl

/-- The attempt of the scheduler. -/
def ofScheduler (docker : Docker) (cfg : SchedulerConfig) (now : Instant) (name : String)
    (policy : Policy) (labels : LabelMap) (tagImageId : Option String)
    (settings : ResolvedSettings) : Attempt where
  docker := docker
  ref := name
  container := name
  labels := labels
  cfg := Scheduler.rolloutConfig cfg settings tagImageId
  defaults := settings.policyDefaults
  own := cfg.ownIdPrefix
  cleanup := ⟨policy.cleanup, settings.pruneDangling⟩
  hooks := policy.hooks
  ts := .fixed (now / 1000000000)

/-- What the scheduler makes of its attempt. -/
def schedulerResult (name : String) (policy : Policy) (image latest : String) :
    AttemptOutcome → Prog Scheduler.Processed
  | .rollout report => do
      let handled ← Scheduler.reportRollout report policy image
      pure ⟨handled, Scheduler.rolloutOutcome report latest, Scheduler.rolloutVerdicts report⟩
  | .plain outcome => do
      Scheduler.notifyPlain name image policy outcome
      pure (Scheduler.plainProcessed name latest outcome)

/-- **An update of the scheduler is one attempt, and its report.** -/
theorem applyUpdate_eq_attempt {docker : Docker} {cfg : SchedulerConfig} {now : Instant}
    {name : String} {policy : Policy} {labels : LabelMap} {image latest : String}
    {tagImageId : Option String} {settings : ResolvedSettings}
    (aware : settings.composeAware = true) :
    Scheduler.applyUpdate docker cfg now name policy labels image latest tagImageId settings =
      (ofScheduler docker cfg now name policy labels tagImageId settings).run >>=
        schedulerResult name policy image latest := by
  rw [run, bind_assoc]
  simp only [Scheduler.applyUpdate, Scheduler.rolloutFor, aware, ite_true]
  refine bind_congr fun rollout => ?_
  cases rollout with
  | some report => rfl
  | none =>
      simp only [plainOr, Scheduler.plainUpdate, map_eq_pure_bind, bind_assoc, pure_bind]
      rfl

/-! ## The listing and the rest -/

/-- An attempt on a member of a project is its listing and what that leads to. -/
theorem run_eq {info : Compose.ComposeInfo} (hinfo : Compose.parse a.labels = some info) :
    a.run = (listProject info.project).run >>= a.onListing info.project := by
  have hplan : (planFor info.project a.container a.cfg.tagImageId a.defaults a.own).run =
      (listProject info.project).run >>= fun listed => pure (listed.map (a.plan info.project)) := by
    rw [planFor, ExceptT.run_bind]
    refine bind_congr fun listed => ?_
    cases listed <;> rfl
  rw [run, forContainer, hinfo]
  simp only [hplan, bind_assoc, pure_bind]
  rfl

/-- What the listing of a run was told, its attempt was told. -/
theorem listed_of_play {env : Obliging} {t : Nat} {info : Compose.ComposeInfo}
    {members : List ProjectMember} (hinfo : Compose.parse a.labels = some info)
    (told : (play env.answer (listProject info.project).run t).out = some (.ok members)) :
    a.Listed (play env.answer a.run t).trace members := by
  have produced := play_produces env.answer (listProject info.project).run t
  rw [run_eq hinfo, play_bind]
  rcases hlisting : play env.answer (listProject info.project).run t with ⟨out, listing, s⟩
  rw [hlisting] at told produced
  cases told
  exact ⟨info, listing, _, hinfo, rfl, produced⟩

/-- A listing moves no container. -/
theorem still_of_listing {project : String} {events : List CallEvent}
    {out : Option (Except DockerError (List ProjectMember))}
    (h : Produces (listProject project).run events out) : ∀ e ∈ events, e.call.moves = none := by
  have quiet : Quiet fun e => e.call.moves = none := by
    intro call reply hquiet
    cases call <;> first | rfl | cases hquiet
  exact (@emits_listProject (fun _ => True) _ quiet project events out h fun _ _ => trivial).1

/-- **An observation of an attempt that was told its listing is one of the listing, which
moves nothing, and one of what it led to.** -/
theorem Listed.produces {events : List CallEvent} {out : Option AttemptOutcome}
    {members : List ProjectMember} (listed : a.Listed events members)
    (produced : Produces a.run events out) :
    ∃ project listing rest, events = listing ++ rest ∧ (∀ e ∈ listing, e.call.moves = none) ∧
      Produces (a.onListing project (.ok members)) rest out := by
  obtain ⟨info, listing, rest, hinfo, rfl, hlisting⟩ := listed
  rw [run_eq hinfo] at produced
  exact ⟨info.project, listing, rest, rfl, still_of_listing hlisting, produced.after hlisting⟩

/-- **What a listing leads to**: nothing, the plain update when the plan does not cover the
container or adds nothing to it, or the execution of a plan that covers it. -/
theorem onListing_cases {project : String} {members : List ProjectMember}
    {events : List CallEvent} {out : Option AttemptOutcome}
    (h : Produces (a.onListing project (.ok members)) events out) :
    events = [] ∨
      (((a.plan project members).covers a.container = true →
          (a.plan project members).addsNothingFor a.container = true) ∧
        ∃ out', Produces
          (recreateWithHealth a.docker a.ref a.cfg.health a.cleanup a.hooks a.ts).run events out') ∨
      ((a.plan project members).covers a.container = true ∧
        ∃ out', Produces (execute a.docker (a.plan project members) a.cfg a.ts) events out') := by
  change Produces (rolloutOrPlain a.docker project a.container a.cfg a.ts
    (.ok (a.plan project members)) >>= a.plainOr) events out at h
  unfold rolloutOrPlain at h
  cases hcovers : (a.plan project members).covers a.container with
  | false =>
      simp only [hcovers, Bool.not_false, ite_true] at h
      split at h
      · exact .inl (produces_done_iff.mp h).1
      · exact .inr (.inl ⟨fun hcontra => (Bool.noConfusion hcontra), h.exists_of_map⟩)
  | true =>
      simp only [hcovers, Bool.not_true, Bool.false_eq_true, ite_false] at h
      split at h
      · next hadds => exact .inr (.inl ⟨fun _ => hadds, h.exists_of_map⟩)
      · refine .inr (.inr ⟨rfl, ?_⟩)
        rcases h.of_bind with ⟨-, hrun⟩ | ⟨first, rollout, rest, rfl, hrun, hrest⟩
        · exact hrun.exists_of_map
        · obtain ⟨report, rfl, hexecute⟩ := hrun.of_map
          obtain ⟨rfl, -⟩ := produces_done_iff.mp hrest
          exact ⟨some report, by rwa [List.append_nil]⟩

end Attempt

end Freshdock.Rollout
