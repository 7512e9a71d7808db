import Freshdock.Rollout.FailStop

/-!
# Restarts that are owed

A service that declares `restart: true` on a dependency is to be restarted when the dependency was
recreated. A rollout decides its restarts at its end, from the services of its own targets, and an
aborted rollout restarts nothing. What it recreated is not remembered: the next rollout finds it
current and leaves it out of its plan.

**Since.** `Since` says where in a sequence of rollouts, of which the last completes, a container of
the dependency was recreated, and what was done since then. By the end a dependent was recreated or
restarted exactly when it was a target since, or when the last plan still restarts its service
(`restart_done_iff`).
-/

set_option autoImplicit false

namespace Freshdock.Rollout

open Interaction Docker Registry SelfId
open Compose (ProjectMember)
open Labels (PolicyDefaults)

/-! ## Restarts -/

/-- The daemon does what it is asked when a dependent is restarted. -/
structure AcceptsRestarts (events : List CallEvent) : Prop where
  stops : ∀ ref signal timeout reply,
    ⟨.stopContainer .restart ref signal timeout, some reply⟩ ∈ events → reply = .ok ()
  starts : ∀ ref reply, ⟨.startContainer .restart ref, some reply⟩ ∈ events → reply = .ok ()

theorem AcceptsRestarts.subset {events part : List CallEvent} (h : AcceptsRestarts events)
    (sub : ∀ e ∈ part, e ∈ events) : AcceptsRestarts part where
  stops ref signal timeout reply he := h.stops ref signal timeout reply (sub _ he)
  starts ref reply he := h.starts ref reply (sub _ he)

/-- A restart that the daemon accepts succeeds. -/
theorem restarted_of_accepted {container : String} {events : List CallEvent}
    {result : Except DockerError Unit}
    (h : Produces (restartDependent container).run events (some result))
    (accepts : AcceptsRestarts events) : result = .ok () := by
  obtain ⟨read, options, acted, rfl, -, hacted⟩ := h.of_lift_bind_some
  have accepts := accepts.subset fun e he => List.mem_append_right read he
  obtain ⟨stopped, reply, started, rfl, hstop, hstart⟩ := hacted.of_bind_some
  obtain rfl := Produces.of_request hstop
  obtain rfl := accepts.stops _ _ _ reply (List.mem_append_left _ List.mem_cons_self)
  have hlast : started = [⟨.startContainer .restart container, some result⟩] :=
    Produces.of_request hstart
  exact accepts.starts container result
    (List.mem_append_right _ (by rw [hlast]; exact List.mem_cons_self))

/-- All restarts that the daemon accepts are reported. -/
theorem runRestarts_of_accepted {containers : List String} {events : List CallEvent}
    {steps : List RolloutStep} (h : Produces (runRestarts containers) events (some steps))
    (accepts : AcceptsRestarts events) : steps = containers.map RolloutStep.restarted := by
  induction containers generalizing events steps with
  | nil => exact h.of_done.2
  | cons container containers ih =>
      obtain ⟨first, result, rest, rfl, hfirst, hrest⟩ := h.of_bind_some
      obtain ⟨more, steps', last, rfl, hmore, hlast⟩ := hrest.of_bind_some
      obtain ⟨rfl, rfl⟩ := hlast.of_done
      obtain rfl := restarted_of_accepted hfirst
        (accepts.subset fun e he => List.mem_append_left _ he)
      obtain rfl := ih hmore
        (accepts.subset fun e he => List.mem_append_right _ (List.mem_append_left _ he))
      rfl

/-! ## Sequences of rollouts -/

/-- A rollout of the project: what it was planned from, and how it went. -/
structure Round where
  members : List ProjectMember
  trigger : String
  cfg : RolloutConfig
  ts : TsProvider
  events : List CallEvent
  report : RolloutReport

/-- The member may be restarted: it runs, is not opted out, has readable labels, is not in watch
mode and is not freshdock itself. -/
structure Restartable (defaults : PolicyDefaults) (own : Option String) (service : String)
    (m : ProjectMember) : Prop where
  service : ∃ info, Compose.parse m.labels = some info ∧ info.service = service
  running : m.running = true
  notOptedOut : Labels.explicitlyOptsOut m.labels = false
  policy : ∃ policy, Labels.parsePolicy m.labels defaults = .ok policy ∧ policy.mode ≠ .watch
  notSelf : isOwnContainer own (some m.id) = false

/-- The containers of `service` declare `restart: true` on `dependency`. -/
def Declares (members : List ProjectMember) (service dependency : String) : Prop :=
  ∀ m ∈ liveMembers members, ∀ info, Compose.parse m.labels = some info → info.service = service →
    ∃ d ∈ info.dependsOn, d.service = dependency ∧ d.restart = true

/-- The plan restarts the service: it has no target of its own, and it declares `restart: true` on a
service that has one. -/
def RestartsService (p : RolloutPlan) (service : String) : Prop :=
  service ∉ p.allTargetServices ∧ ∃ deps, p.graph.get? service = some deps ∧
    ∃ d ∈ deps, d.restart = true ∧ d.service ∈ p.allTargetServices

section Sequence

variable (docker : Docker) (project : String) (defaults : PolicyDefaults) (own : Option String)

def Round.plan (r : Round) : RolloutPlan :=
  Rollout.plan project r.members r.trigger r.cfg.tagImageId defaults own

/-- The round is the rollout of its plan. -/
structure Round.Ran (r : Round) : Prop where
  well : WellListed r.members
  covers : (r.plan project defaults own).covers r.trigger = true
  adds : (r.plan project defaults own).addsNothingFor r.trigger = false
  produced : Produces (execute docker (r.plan project defaults own) r.cfg r.ts) r.events
    (some r.report)

/-- A container of `dependency` was recreated, by the last round or by the first of the rounds
before it. `done` are the steps that earlier rounds made since, and of the targets and steps of the
last round, all but the first `skip` came since. -/
inductive Since (dependency : String) : List Round → Round → List RolloutStep → Nat → Prop where
  | completed {last : Round} {before todo : List PlannedTarget} {t : PlannedTarget} :
      (last.plan project defaults own).targets = before ++ t :: todo → t.service = dependency →
      Since dependency [] last [] (before.length + 1)
  | aborted {first last : Round} {rounds : List Round} {pre post : List RolloutStep}
      {step : RolloutStep} {t : PlannedTarget} :
      first.report.steps = pre ++ step :: post → t ∈ (first.plan project defaults own).targets →
      t.service = dependency → step.container = t.container →
      Since dependency (first :: rounds) last (post ++ rounds.flatMap fun r => r.report.steps) 0

/-- What is asked of every round: it is a rollout of its plan, `service` declares
`restart: true` on the dependency, and `container` may be restarted. -/
structure Round.Owes (r : Round) (service dependency container : String) : Prop
    extends r.Ran docker project defaults own where
  declares : Declares r.members service dependency
  restartable : ∃ m ∈ liveMembers r.members, m.name = container ∧ Restartable defaults own service m

/-- **No restart is lost**: at the end of the first round that is not aborted, the
container was recreated or restarted since the dependency was recreated. -/
def RestartNotLost : Prop :=
  ∀ service dependency container aborted last done skip,
    Since project defaults own dependency aborted last done skip →
    (∀ r ∈ aborted ++ [last], r.Owes docker project defaults own service dependency container) →
    (∀ r ∈ aborted, r.report.aborted ≠ none) → last.report.aborted = none →
    AcceptsRestarts last.events →
    container ∈ (done ++ last.report.steps.drop skip).map RolloutStep.container

end Sequence

/-! ## The last round -/

section Last

variable {docker : Docker} {project : String} {defaults : PolicyDefaults} {own : Option String}
  {service dependency container : String} {r : Round}

/-- The containers that a completed round reports are its targets and what its plan restarts. -/
theorem touched_of_completed (ran : r.Ran docker project defaults own)
    (completes : r.report.aborted = none) (accepts : AcceptsRestarts r.events) :
    r.report.steps.map RolloutStep.container =
      (r.plan project defaults own).targets.map PlannedTarget.container ++
        (r.plan project defaults own).restartsFor (r.plan project defaults own).allTargetServices := by
  obtain ⟨first, progress, rest, hevents, hfirst, hrest⟩ := ran.produced.of_bind_some
  rcases produces_runTargets hfirst rfl with ⟨steps, hran, rfl⟩ |
      ⟨finished, target, todo, before, run, steps, reason, -, -, -, -, rfl⟩
  · obtain ⟨restarts, restarted, last, rfl, hrestarts, hlast⟩ := hrest.of_bind_some
    obtain ⟨-, hreport⟩ := hlast.of_done
    have hrestarted := runRestarts_of_accepted hrestarts (accepts.subset fun e he => by
      rw [hevents]
      exact List.mem_append_right _ (List.mem_append_left _ he))
    rw [hreport, hrestarted]
    change (steps ++ _).map RolloutStep.container = _
    rw [List.map_append, containers_of_reports hran.reports, List.map_map]
    exact congrArg (_ ++ ·) (List.map_id _)
  · obtain ⟨-, hreport⟩ := hrest.of_done
    rw [hreport] at completes
    cases completes

/-- A plan restarts the container exactly when it restarts its service. -/
theorem mem_restartsFor_iff (owes : r.Owes docker project defaults own service dependency container) :
    container ∈ (r.plan project defaults own).restartsFor
        (r.plan project defaults own).allTargetServices ↔
      RestartsService (r.plan project defaults own) service := by
  obtain ⟨m, hm, rfl, restartable⟩ := owes.restartable
  obtain ⟨info, hinfo, hservice⟩ := restartable.service
  obtain ⟨policy, hpolicy, hwatch⟩ := restartable.policy
  have candidate (origin : ProjectMember) : candidateOf (planInput (liveMembers r.members) origin
      r.cfg.tagImageId defaults own) m = some (service, m.name) := by
    refine candidateOf_eq_some.mpr ⟨info, hinfo, ?_, hservice, rfl⟩
    have hself : (planInput (liveMembers r.members) origin r.cfg.tagImageId defaults own).isSelf m =
        false := restartable.notSelf
    have hdefaults : Labels.parsePolicy m.labels (planInput (liveMembers r.members) origin
        r.cfg.tagImageId defaults own).defaults = .ok policy := hpolicy
    unfold PlanInput.restartable
    rw [restartable.running, hself, restartable.notOptedOut, hdefaults]
    simp [hwatch]
  unfold Round.plan
  rw [mem_restartsFor_plan, RestartsService, plan_graph]
  constructor
  · rintro ⟨origin, -, m', hm', service', hdependent, hcandidate⟩
    obtain ⟨info', hinfo', -, hservice', hname⟩ := candidateOf_eq_some.mp hcandidate
    obtain rfl := owes.well.eq_of_name (mem_of_live hm') (mem_of_live hm) hname
    obtain rfl := Option.some.inj (hinfo.symm.trans hinfo')
    rw [← hservice, hservice']
    exact Compose.mem_restartDependents.mp hdependent
  · intro restarts
    obtain ⟨t, ht, -⟩ := List.any_eq_true.mp owes.covers
    obtain ⟨origin, horigin, -⟩ := mem_targets_plan.mp ht
    exact ⟨origin, horigin, m, hm, service, Compose.mem_restartDependents.mpr restarts,
      candidate origin⟩

/-- A plan with targets of the dependency and none of the service restarts the service. -/
theorem restartsService_of_declares
    (owes : r.Owes docker project defaults own service dependency container)
    (updated : dependency ∈ (r.plan project defaults own).allTargetServices)
    (aside : service ∉ (r.plan project defaults own).allTargetServices) :
    RestartsService (r.plan project defaults own) service := by
  obtain ⟨m, hm, -, restartable⟩ := owes.restartable
  obtain ⟨info, hinfo, rfl⟩ := restartable.service
  obtain ⟨deps, hdeps⟩ := Compose.exists_node_of_member hm hinfo
  obtain ⟨m', hm', info', hinfo', hservice, rfl⟩ := Compose.exists_member_of_graphOf hdeps
  obtain ⟨d, hd, hdependency, hrestart⟩ := owes.declares m' hm' info' hinfo' hservice
  refine ⟨aside, info'.dependsOn, ?_, d, hd, hrestart, by rwa [hdependency]⟩
  rw [Round.plan, plan_graph]
  exact hdeps

/-- The steps that a round skips are steps of its targets. -/
theorem skip_le {aborted : List Round} {done : List RolloutStep} {skip : Nat}
    (since : Since project defaults own dependency aborted r done skip) :
    skip ≤ ((r.plan project defaults own).targets.map PlannedTarget.container).length := by
  cases since with
  | @completed _ before todo t htargets _ =>
      rw [htargets]
      simp
  | aborted _ _ _ _ => exact Nat.zero_le _

/-- **A dependent is recreated or restarted exactly when it was a target since, or when the last
plan restarts its service.** -/
theorem restart_done_iff {aborted : List Round} {done : List RolloutStep} {skip : Nat}
    (since : Since project defaults own dependency aborted r done skip)
    (owes : ∀ r' ∈ aborted ++ [r], r'.Owes docker project defaults own service dependency container)
    (completes : r.report.aborted = none) (accepts : AcceptsRestarts r.events) :
    container ∈ (done ++ r.report.steps.drop skip).map RolloutStep.container ↔
      container ∈ done.map RolloutStep.container ∨
      container ∈ ((r.plan project defaults own).targets.drop skip).map PlannedTarget.container ∨
      RestartsService (r.plan project defaults own) service := by
  have last := owes r (List.mem_append_right _ List.mem_cons_self)
  rw [List.map_append, List.mem_append, List.map_drop, touched_of_completed last.toRan completes
    accepts, List.drop_append_of_le_length (skip_le since), List.mem_append, ← List.map_drop,
    mem_restartsFor_iff last]

end Last

/-! A project whose `web` is to be restarted with `config`. -/

def configRow (imageId : String) : ContainerSummary :=
  { stackRow "config" "config" "" "live" .running with imageId := some imageId }

def dependentRow : ContainerSummary :=
  { stackRow "web" "web" "config:service_started:true" "live" .running with image := some "other" }

def proxyRow : ContainerSummary := stackRow "proxy" "proxy" "" "live" .running

def workerRow : ContainerSummary := stackRow "worker" "worker" "" "live" .running

def configRows (imageId : String) : List ContainerSummary :=
  [configRow imageId, dependentRow, proxyRow, workerRow]

/-- The daemon of the project. It may refuse to create a container. -/
def configDaemon (rows : List ContainerSummary) (refused : String) : Obliging :=
  { stackDaemon rows with
    create := fun name =>
      if name = refused then .error (.bollard ⟨.dockerResponseServerError 409 "in use", "in use"⟩)
      else .ok "updated" }

def defaultsOff : PolicyDefaults := ⟨none, false, false⟩

def configPlan (rows : List ContainerSummary) (trigger : String) : RolloutPlan :=
  plan "stack" (stackMembers rows) trigger (some "new") defaultsOff none

/-- The rollout of a container's project, played against the daemon. -/
def configRun (rows : List ContainerSummary) (trigger refused : String) :
    Run Call Call.Reply Nat RolloutReport :=
  play (configDaemon rows refused).answer (execute ⟨"1.44", none, 1⟩ (configPlan rows trigger)
    { RolloutConfig.default with tagImageId := some "new" } (.fixed 5)) 0

def configRound (rows : List ContainerSummary) (trigger refused : String) (report : RolloutReport) :
    Round where
  members := stackMembers rows
  trigger := trigger
  cfg := { RolloutConfig.default with tagImageId := some "new" }
  ts := .fixed 5
  events := (configRun rows trigger refused).trace
  report := report

theorem configRows_wellListed (imageId : String) : WellListed (stackMembers (configRows imageId)) where
  nodup := show ["config", "web", "proxy", "worker"].Nodup by decide
  trimmed m hm := by
    have hname : m.name ∈ (stackMembers (configRows imageId)).map ProjectMember.name :=
      List.mem_map_of_mem hm
    have trimmed : ∀ name ∈ ["config", "web", "proxy", "worker"],
        Text.trimStartMatches name '/' = name := by
      decide
    exact trimmed m.name hname

theorem declares_config (imageId : String) :
    Declares (stackMembers (configRows imageId)) "web" "config" := by
  intro m hm info hinfo hservice
  have key : ∀ row ∈ configRows imageId, ∀ info,
      Compose.parse (projectMember row).labels = some info → info.service = "web" →
        ∃ d ∈ info.dependsOn, d.service = "config" ∧ d.restart = true := by
    intro row hrow info hinfo hservice
    rcases List.mem_cons.mp hrow with rfl | hrow
    · cases hinfo
      exact absurd hservice (show "config" ≠ "web" by decide)
    rcases List.mem_cons.mp hrow with rfl | hrow
    · cases hinfo
      decide +kernel
    rcases List.mem_cons.mp hrow with rfl | hrow
    · cases hinfo
      exact absurd hservice (by decide)
    · obtain rfl := List.mem_singleton.mp hrow
      cases hinfo
      exact absurd hservice (by decide)
  obtain ⟨row, hrow, rfl⟩ := List.mem_map.mp (mem_of_live hm)
  exact key row hrow info hinfo hservice

def configRefused : RolloutReport where
  project := "stack"
  steps := [.updated "config" "updated" false]
  aborted := some (.stepFailed "proxy" "docker daemon error: in use")
  notCompleted := ["proxy", "worker"]
  skipped := []

def configCurrent : RolloutReport where
  project := "stack"
  steps := [.updated "proxy" "updated" false, .updated "worker" "updated" false]
  aborted := none
  notCompleted := []
  skipped := [⟨"config", .alreadyCurrent⟩]

def configDone : RolloutReport where
  project := "stack"
  steps := [.updated "config" "updated" false, .updated "proxy" "updated" false,
    .updated "worker" "updated" false, .restarted "web"]
  aborted := none
  notCompleted := []
  skipped := []

/-- Rollouts of the project: the image it is on, the trigger, what is refused, and the report. -/
def configRollouts : List (String × String × String × RolloutReport) :=
  [("old", "config", "proxy", configRefused), ("new", "proxy", "", configCurrent),
    ("old", "config", "", configDone)]

theorem configRollouts_run : ∀ r ∈ configRollouts,
    (configRun (configRows r.1) r.2.1 r.2.2.1).out = some r.2.2.2 ∧
      (configPlan (configRows r.1) r.2.1).covers r.2.1 = true ∧
      (configPlan (configRows r.1) r.2.1).addsNothingFor r.2.1 = false := by
  decide +kernel

theorem configRound_owes {imageId trigger refused : String} {report : RolloutReport}
    (h : (imageId, trigger, refused, report) ∈ configRollouts) :
    (configRound (configRows imageId) trigger refused report).Owes ⟨"1.44", none, 1⟩ "stack"
      defaultsOff none "web" "config" "web" where
  well := configRows_wellListed imageId
  covers := (configRollouts_run _ h).2.1
  adds := (configRollouts_run _ h).2.2
  produced := by
    change Produces (execute _ (configPlan (configRows imageId) trigger) _ _) _ (some report)
    rw [← (configRollouts_run _ h).1]
    exact play_produces _ _ 0
  declares := declares_config imageId
  restartable := by
    refine ⟨projectMember dependentRow, ?_, rfl, ⟨_, rfl, rfl⟩, rfl, rfl, ⟨_, rfl, nofun⟩, rfl⟩
    refine List.mem_filter.mpr ⟨?_, by decide⟩
    exact List.mem_cons_of_mem _ List.mem_cons_self

theorem configRound_accepts (rows : List ContainerSummary) (trigger refused : String)
    (report : RolloutReport) :
    AcceptsRestarts (configRound rows trigger refused report).events := by
  have promise : ∀ e ∈ (configRun rows trigger refused).trace,
      (∀ ref signal timeout reply, e = ⟨.stopContainer .restart ref signal timeout, some reply⟩ →
        reply = .ok ()) ∧
      ∀ ref reply, e = ⟨.startContainer .restart ref, some reply⟩ → reply = .ok () := by
    refine play_events (fun call t => ⟨fun ref signal timeout reply h => ?_, fun ref reply h => ?_⟩) _ 0
    · obtain rfl : call = .stopContainer .restart ref signal timeout := congrArg Event.call h
      exact (Option.some.inj (Event.reply_inj h)).symm
    · obtain rfl : call = .startContainer .restart ref := congrArg Event.call h
      exact (Option.some.inj (Event.reply_inj h)).symm
  exact ⟨fun ref signal timeout reply he => (promise _ he).1 ref signal timeout reply rfl,
    fun ref reply he => (promise _ he).2 ref reply rfl⟩

/-- The rollout that recreates `config` is aborted at `proxy`, and the next one finds `config`
current. `web` is not restarted. -/
theorem not_restartNotLost : ¬ RestartNotLost ⟨"1.44", none, 1⟩ "stack" defaultsOff none := by
  intro notLost
  let first := configRound (configRows "old") "config" "proxy" configRefused
  let last := configRound (configRows "new") "proxy" "" configCurrent
  have since : Since "stack" defaultsOff none "config" [first] last
      ([] ++ ([] : List Round).flatMap fun r => r.report.steps) 0 := by
    have htarget : "config" ∈ (configPlan (configRows "old") "config").targets.map
        PlannedTarget.container ∧ ∀ t ∈ (configPlan (configRows "old") "config").targets,
          t.container = "config" → t.service = "config" := by
      decide +kernel
    obtain ⟨t, ht, hname⟩ := List.mem_map.mp htarget.1
    exact @Since.aborted _ _ _ _ _ _ _ [] _ _ _ rfl ht (htarget.2 t ht hname) hname.symm
  have hfirst : first.Owes ⟨"1.44", none, 1⟩ "stack" defaultsOff none "web" "config" "web" :=
    configRound_owes (by simp [configRollouts])
  have hlast : last.Owes ⟨"1.44", none, 1⟩ "stack" defaultsOff none "web" "config" "web" :=
    configRound_owes (by simp [configRollouts])
  have lost := notLost "web" "config" "web" [first] last _ 0 since
    (by
      intro r hr
      rcases List.mem_cons.mp hr with rfl | hr
      · exact hfirst
      · obtain rfl := List.mem_singleton.mp hr
        exact hlast)
    (by
      intro r hr
      obtain rfl := List.mem_singleton.mp hr
      exact nofun) rfl (configRound_accepts _ _ _ _)
  exact absurd lost (by decide)

/-- When nothing is refused, `web` is restarted after `config` was recreated. -/
theorem restart_done_web : "web" ∈ (configDone.steps.drop 1).map RolloutStep.container := by
  let round := configRound (configRows "old") "config" "" configDone
  have owes : round.Owes ⟨"1.44", none, 1⟩ "stack" defaultsOff none "web" "config" "web" :=
    configRound_owes (by simp [configRollouts])
  have services : (round.plan "stack" defaultsOff none).allTargetServices =
      ["config", "proxy", "worker"] := by
    change (configPlan (configRows "old") "config").allTargetServices = _
    decide +kernel
  have since : Since "stack" defaultsOff none "config" [] round [] 1 := by
    cases htargets : (round.plan "stack" defaultsOff none).targets with
    | nil =>
        rw [RolloutPlan.allTargetServices, htargets] at services
        cases services
    | cons t todo =>
        rw [RolloutPlan.allTargetServices, htargets] at services
        exact @Since.completed _ _ _ _ _ [] _ _ htargets (List.cons.inj services).1
  refine (@restart_done_iff ⟨"1.44", none, 1⟩ _ _ _ "web" _ _ _ _ _ _ since ?_ rfl
    (configRound_accepts _ _ _ _)).mpr (.inr (.inr (restartsService_of_declares owes ?_ ?_)))
  · intro r hr
    obtain rfl := List.mem_singleton.mp hr
    exact owes
  · rw [services]
    exact List.mem_cons_self
  · rw [services]
    decide

end Freshdock.Rollout
