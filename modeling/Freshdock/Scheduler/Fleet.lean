import Freshdock.Docker.Obliging
import Freshdock.Scheduler.States
import Freshdock.Scheduler.Updates

/-!
# Fleets

A fleet is a daemon with its containers, a registry and a clock, as far as a tick asks for them:
everything that is asked for is granted, a container is in the state the fleet says, and a project
is listed with the containers it has after so many creates. Results about ticks that need an
environment to exist take a fleet.
-/

set_option autoImplicit false

namespace Freshdock.Scheduler

open Interaction Docker
open Rollout (RolloutPlan PlannedTarget)

structure Fleet where
  running : List ContainerSummary
  /-- The containers of the projects, after so many creates. -/
  project : Nat → List ContainerSummary
  names : List String
  /-- The id that a create returns, after so many creates, or why it is refused. -/
  created : Nat → String → Except DockerError String
  /-- All ids that creates return. -/
  ids : List String
  image : String → String
  state : String → Docker.ContainerState
  localImage : Docker.ImageInspect
  digest : String
  /-- The wall clock. -/
  time : Int

namespace Fleet

def noSuchContainer : DockerError :=
  .bollard ⟨.dockerResponseServerError 404 "no such container", "no such container"⟩

def nameInUse : DockerError := .bollard ⟨.dockerResponseServerError 409 "in use", "in use"⟩

/-- The fleet's containers, in an obliging environment. -/
def base (fleet : Fleet) : Obliging where
  inspect ref :=
    if ref ∈ fleet.names ∨ ref ∈ fleet.ids then
      .ok (inspectReport ref (fleet.image ref) (fun _ => none) (fleet.state ref))
    else .error noSuchContainer
  running := fleet.running
  project := fleet.project 0
  create name := fleet.created 0 name
  rename _ := .ok ()

/-- Answers by the number of creates so far. -/
def answer (fleet : Fleet) : Handler Call Call.Reply Nat
  | .listProjectContainers _, creates => (some (.ok (fleet.project creates)), creates)
  | .createContainer _ name _, creates => (some (fleet.created creates name), creates + 1)
  | .renameContainer _ source target, creates =>
      (some (if source ∈ fleet.names ∧ target ∈ fleet.names then .error nameInUse else .ok ()),
        creates)
  | .inspectImage _, creates => (some (.ok fleet.localImage), creates)
  | .fetchDigest _, creates => (some (.ok fleet.digest), creates)
  | .localTime, creates => (some fleet.time, creates)
  | call, creates => ((fleet.base.answer call 0).1, creates)

/-- The fleet's listings show names in use, and these are without leading slashes and no ids. -/
structure Named (fleet : Fleet) : Prop where
  running : ∀ row ∈ fleet.running, containerName row ∈ fleet.names
  project : ∀ creates, ∀ row ∈ fleet.project creates, containerName row ∈ fleet.names
  trimmed : ∀ name ∈ fleet.names, Text.trimStartMatches name '/' = name
  created : ∀ creates name id, fleet.created creates name = .ok id → id ∉ fleet.names

theorem inspect_name {fleet : Fleet} {ref : String} {resp : ContainerInspectResponse}
    (h : fleet.base.inspect ref = .ok resp) : resp.name = some ref := by
  unfold base at h
  dsimp only at h
  split at h
  · cases h
    rfl
  · cases h

theorem known (fleet : Fleet) (named : fleet.Named) (call : Call) (creates : Nat) :
    NamesKnown fleet.names ⟨call, (fleet.answer call creates).1⟩ where
  inspected n hn resp name h hname := by
    obtain rfl : call = .inspectContainer n := congrArg Event.call h
    rw [inspect_name (Option.some.inj (Event.reply_inj h))] at hname
    cases hname
    exact named.trimmed n hn
  renamed n hn n' hn' h := by
    obtain rfl : call = .renameContainer .update n n' := congrArg Event.call h
    have hrename : (if n ∈ fleet.names ∧ n' ∈ fleet.names then .error nameInUse else .ok () :
      Except DockerError Unit) = .ok () := Option.some.inj (Event.reply_inj h)
    rw [if_pos ⟨hn, hn'⟩] at hrename
    cases hrename
  created name body id h := by
    obtain rfl : call = .createContainer .update name body := congrArg Event.call h
    exact named.created creates name id (Option.some.inj (Event.reply_inj h))
  running rows h row hrow _ := by
    obtain rfl : call = .listRunning := congrArg Event.call h
    have hrows : (.ok fleet.running : Except DockerError (List ContainerSummary)) = .ok rows :=
      Option.some.inj (Event.reply_inj h)
    cases hrows
    exact named.running row hrow
  project project rows h row hrow _ := by
    obtain rfl : call = .listProjectContainers project := congrArg Event.call h
    have hrows : (.ok (fleet.project creates) : Except DockerError (List ContainerSummary)) =
      .ok rows := Option.some.inj (Event.reply_inj h)
    cases hrows
    exact named.project creates row hrow

/-- The tick of a fleet. -/
def tick (fleet : Fleet) (docker : Docker) (cfg : SchedulerConfig) (settings : ResolvedSettings)
    (memory : Memory) : Run Call Call.Reply Nat Memory :=
  play fleet.answer (runTick docker cfg settings memory) 0

/-- The tick of a fleet that is answered leaves a memory. -/
theorem produces_tick (fleet : Fleet) (docker : Docker) (cfg : SchedulerConfig)
    (settings : ResolvedSettings) (memory : Memory) :
    Produces (runTick docker cfg settings memory) (fleet.tick docker cfg settings memory).trace
      (fleet.tick docker cfg settings memory).out :=
  play_produces _ _ 0

/-- What a tick of a fleet leaves, when it is finished. -/
def after (fleet : Fleet) (docker : Docker) (cfg : SchedulerConfig) (settings : ResolvedSettings)
    (memory : Memory) : Memory :=
  (fleet.tick docker cfg settings memory).out.getD memory

section Tick

variable {fleet : Fleet} {docker : Docker} {cfg : SchedulerConfig} {settings : ResolvedSettings}
  {memory : Memory}

theorem produces_after (finished : (fleet.tick docker cfg settings memory).out.isSome = true) :
    Produces (runTick docker cfg settings memory) (fleet.tick docker cfg settings memory).trace
      (some (fleet.after docker cfg settings memory)) := by
  obtain ⟨memory', hmemory⟩ := Option.isSome_iff_exists.mp finished
  have h := fleet.produces_tick docker cfg settings memory
  rw [after, hmemory]
  rwa [hmemory] at h

theorem known_of_tick (named : fleet.Named) :
    ∀ e ∈ (fleet.tick docker cfg settings memory).trace, NamesKnown fleet.names e :=
  play_events (fleet.known named) _ 0

/-- A tick of a fleet is listed its running containers. -/
theorem rows_of_tick {rows : List ContainerSummary}
    (h : (fleet.tick docker cfg settings memory).trace.head? =
      some ⟨.listRunning, some (.ok rows)⟩) : rows = fleet.running := by
  have heq : (⟨.listRunning, some (.ok fleet.running)⟩ : CallEvent) =
      ⟨.listRunning, some (.ok rows)⟩ := Option.some.inj h
  exact (Except.ok.inj (Option.some.inj (Event.reply_inj heq))).symm

/-- The clock of a tick of a fleet is the fleet's. -/
theorem time_of_tick {now : Cron.Instant}
    (h : TimeOf (fleet.tick docker cfg settings memory).trace now) : now = fleet.time := by
  have heq : (⟨.localTime, some fleet.time⟩ : CallEvent) = ⟨.localTime, some now⟩ := Option.some.inj h
  exact (Option.some.inj (Event.reply_inj heq)).symm

/-- A tick of a fleet is listed rows of the fleet's projects. -/
theorem project_of_tick {project : String} {rows : List ContainerSummary}
    (h : ⟨.listProjectContainers project, some (.ok rows)⟩ ∈
      (fleet.tick docker cfg settings memory).trace) : ∃ creates, rows = fleet.project creates := by
  have lists : ∀ e ∈ (fleet.tick docker cfg settings memory).trace, ∀ project rows,
      e = ⟨.listProjectContainers project, some (.ok rows)⟩ →
        ∃ creates, rows = fleet.project creates := by
    refine play_events (fun call creates project rows h => ?_) _ 0
    obtain rfl : call = .listProjectContainers project := congrArg Event.call h
    exact ⟨creates, (Except.ok.inj (Option.some.inj (Event.reply_inj h))).symm⟩
  exact lists _ h project rows rfl

/-- A fleet's registry serves its digest. -/
theorem digest_of_tick {image : Registry.ImageRef} {latest : String}
    (h : ⟨.fetchDigest image, some (.ok latest)⟩ ∈ (fleet.tick docker cfg settings memory).trace) :
    latest = fleet.digest := by
  have serves : ∀ e ∈ (fleet.tick docker cfg settings memory).trace,
      ∀ (image : Registry.ImageRef) (latest : String),
        e = ⟨.fetchDigest image, some (.ok latest)⟩ → latest = fleet.digest := by
    refine play_events (fun call creates image latest h => ?_) _ 0
    obtain rfl : call = .fetchDigest image := congrArg Event.call h
    exact (Except.ok.inj (Option.some.inj (Event.reply_inj h))).symm
  exact serves _ h image latest rfl

/-- A fleet does not shut down. -/
theorem no_shutdown :
    ⟨.shutdownRequested, some true⟩ ∉ (fleet.tick docker cfg settings memory).trace := by
  have keeps : ∀ e ∈ (fleet.tick docker cfg settings memory).trace,
      e ≠ ⟨.shutdownRequested, some true⟩ := by
    refine play_events (fun call creates h => ?_) _ 0
    obtain rfl : call = .shutdownRequested := congrArg Event.call h
    cases Option.some.inj (Event.reply_inj h)
  exact fun h => keeps _ h rfl

/-- A container that a tick of a fleet visited is one of its running containers. -/
theorem running_of_tick {now : Cron.Instant} {row : ContainerSummary} {s : Sweep}
    {part : List CallEvent}
    (within : TickVisit docker cfg settings memory (fleet.tick docker cfg settings memory).trace now
      row s part) : row ∈ fleet.running := by
  obtain ⟨rows, rest, hevents, visited⟩ := within
  rw [← rows_of_tick (by rw [hevents]; rfl)]
  exact visited.row_mem

/-- The first container of a fleet is visited from the start. -/
theorem first_visit {row : ContainerSummary} {rows : List ContainerSummary}
    (first : fleet.running = row :: rows) :
    TickVisit docker cfg settings memory (fleet.tick docker cfg settings memory).trace fleet.time row
      ⟨memory, [], []⟩ (play fleet.answer (visit docker cfg fleet.time settings row ⟨memory, [], []⟩)
        0).trace := by
  let sweep := play fleet.answer (sweepContainers docker cfg fleet.time settings (row :: rows)
    ⟨memory, [], []⟩) 0
  have hevents : (fleet.tick docker cfg settings memory).trace =
      ⟨.listRunning, some (.ok (row :: rows))⟩ :: ⟨.localTime, some fleet.time⟩ :: sweep.trace := by
    have hlisted : Returns fleet.answer listRunning.run 0 (.ok (row :: rows)) 0 := by
      rw [← first]
      exact ⟨rfl, rfl⟩
    have hlist : (play fleet.answer listRunning.run 0).trace =
        [⟨.listRunning, some (.ok (row :: rows))⟩] := by
      rw [← first]
      rfl
    have htime : Returns fleet.answer (request .localTime : Prog Int) 0 fleet.time 0 := ⟨rfl, rfl⟩
    have hfinish : (play fleet.answer (tickOver docker cfg settings memory (.ok (row :: rows))) 0).trace
        = ⟨.localTime, some fleet.time⟩ :: sweep.trace := by
      refine (trace_bind htime).trans (congrArg (List.cons _) ?_)
      rcases @trace_bind_cases _ _ _ _ _ fleet.answer (sweepContainers docker cfg fleet.time settings
        (row :: rows) ⟨memory, [], []⟩) (fun r => pure (r.1.finish r.2)) 0 with h |
          ⟨r, creates, -, h⟩
      · exact h
      · exact h.trans (List.append_nil _)
    exact (trace_bind hlisted).trans (congrArg₂ List.append hlist hfinish)
  refine ⟨row :: rows, sweep.trace, hevents, ?_⟩
  have hasked : Returns fleet.answer (request .shutdownRequested : Prog Bool) 0 false 0 := ⟨rfl, rfl⟩
  have hsweep : sweep.trace = ⟨.shutdownRequested, some false⟩ ::
      (play fleet.answer (visit docker cfg fleet.time settings row ⟨memory, [], []⟩ >>=
        sweepContainers docker cfg fleet.time settings rows) 0).trace := trace_bind hasked
  have hvisit := play_produces fleet.answer (visit docker cfg fleet.time settings row
    ⟨memory, [], []⟩) 0
  rcases @trace_bind_cases _ _ _ _ _ fleet.answer (visit docker cfg fleet.time settings row
    ⟨memory, [], []⟩) (sweepContainers docker cfg fleet.time settings rows) 0 with h |
      ⟨s, creates, -, h⟩
  · rw [hsweep, h]
    exact .last hvisit
  · rw [hsweep, h]
    exact .here hvisit

/-- The only container of a fleet is visited first. -/
theorem visit_of_single {row : ContainerSummary} (single : fleet.running = [row])
    {now : Cron.Instant} {c : ContainerSummary} {s : Sweep} {part : List CallEvent}
    (within : TickVisit docker cfg settings memory (fleet.tick docker cfg settings memory).trace now
      c s part) : c = row ∧ s = ⟨memory, [], []⟩ := by
  obtain ⟨rows, rest, hevents, visited⟩ := within
  rw [show rows = [row] from (rows_of_tick (by rw [hevents]; rfl)).trans single] at visited
  exact visited.single

end Tick

end Fleet

/-! ## A stack -/

/-- A container of the project, on an image that is behind. -/
def memberRow (name mode : String) : ContainerSummary where
  id := some ("id-" ++ name)
  names := some [name]
  image := some "app"
  imageId := some "old-image"
  labels := some (LabelMap.ofPairs [("com.docker.compose.project", "stack"),
    ("com.docker.compose.service", name), ("freshdock.enable", "true"), ("freshdock.mode", mode)])
  state := some .running
  networkMode := none

/-- Two containers of one project. What replaces `api` exits at once. -/
def stackFleet (rows : List ContainerSummary) (time : Int) : Fleet where
  running := rows
  project _ := rows
  names := ["api", "web"]
  created _ name := .ok (if name = "api" then "new-api" else "new-web")
  ids := ["new-api", "new-web"]
  image _ := "app"
  state ref :=
    if ref = "new-api" then ⟨some .exited, some false, none, some 1, none⟩
    else ⟨some .running, some true, none, none, some .healthy⟩
  localImage := ⟨some "old-image", some ["app@sha256:old"]⟩
  digest := "sha256:new"
  time := time

def stackDocker : Docker := ⟨"1.44", none, 3⟩

def stackConfig : SchedulerConfig where
  pollInterval := Duration.fromSecs 300
  tick := Duration.fromSecs 60
  health := .default
  ownIdPrefix := none
  zone := .utc

/-- Four in the morning. -/
def nightly : Cron.CronExpr where
  minute := ⟨1#64, false⟩
  hour := ⟨16#64, false⟩
  dom := ⟨4294967294#64, true⟩
  month := ⟨8190#64, true⟩
  dow := ⟨127#64, true⟩

example : (Cron.CronExpr.parse "0 4 * * *").toOption = some nightly := by decide +kernel

/-- `web` alone, in a mode. -/
def webFleet (mode : String) (time : Int) : Fleet := stackFleet [memberRow "web" mode] time

/-- What the labels of `web` say in the nightly mode. -/
def webPolicy : Labels.Policy where
  enabled := true
  mode := .nightly
  notify := false
  schedule := none
  cleanup := false
  hooks := .default
  autoEnabled := false

theorem webPolicy_parsed : Labels.parsePolicy ((memberRow "web" "nightly").labels.getD fun _ => none)
    ResolvedSettings.default.policyDefaults = .ok webPolicy := rfl

theorem webPolicy_schedule : cronFor webPolicy = some nightly := by decide +kernel

theorem stackFleet_named {rows : List ContainerSummary} (time : Int)
    (shown : ∀ row ∈ rows, containerName row ∈ ["api", "web"]) : (stackFleet rows time).Named where
  running := shown
  project _ := shown
  trimmed := show ∀ name ∈ ["api", "web"], Text.trimStartMatches name '/' = name by decide
  created _ name id hid := by
    obtain rfl := Except.ok.inj hid
    change (if name = "api" then "new-api" else "new-web") ∉ ["api", "web"]
    split <;> decide

/-! ## A release -/

def releaseRow (name image dependsOn : String) (running : Bool) : ContainerSummary where
  id := some ("id-" ++ name)
  names := some [name]
  image := some image
  imageId := some ("old-" ++ image)
  labels := some (LabelMap.ofPairs [("com.docker.compose.project", "stack"),
    ("com.docker.compose.service", name), ("com.docker.compose.depends_on", dependsOn),
    ("freshdock.enable", "true"), ("freshdock.mode", "live")])
  state := some (if running then .running else .exited)
  networkMode := none

def releaseRows : List ContainerSummary :=
  [releaseRow "api" "app:1" "" true, releaseRow "migrate" "app:2" "" false,
    releaseRow "web" "app:2" "migrate:service_completed_successfully:false" true]

/-- `api` runs one image, and `web` another one, with a one-shot to complete before it. -/
def releaseFleet (time : Int) : Fleet where
  running := releaseRows.filter fun row => row.state == some .running
  project _ := releaseRows
  names := ["api", "migrate", "web"]
  created _ name :=
    .ok (if name = "api" then "new-api" else if name = "migrate" then "new-migrate" else "new-web")
  ids := ["new-api", "new-migrate", "new-web"]
  image ref := if ref = "api" ∨ ref = "new-api" then "app:1" else "app:2"
  state ref :=
    if ref = "new-migrate" then ⟨some .exited, some false, none, some 0, none⟩
    else ⟨some .running, some true, none, none, some .healthy⟩
  localImage := ⟨some "old-image", some ["app@sha256:old"]⟩
  digest := "sha256:new"
  time := time

theorem releaseFleet_named (time : Int) : (releaseFleet time).Named where
  running := show ∀ row ∈ releaseRows.filter fun row => row.state == some .running,
    containerName row ∈ ["api", "migrate", "web"] by decide
  project _ := show ∀ row ∈ releaseRows, containerName row ∈ ["api", "migrate", "web"] by decide
  trimmed := show ∀ name ∈ ["api", "migrate", "web"], Text.trimStartMatches name '/' = name by decide
  created _ name id hid := by
    obtain rfl := Except.ok.inj hid
    change (if name = "api" then "new-api" else if name = "migrate" then "new-migrate" else "new-web") ∉
      ["api", "migrate", "web"]
    split
    · decide
    · split <;> decide

/-- The rollouts of the release are apart: that of `api` is for `api`, and no other one is. -/
theorem releaseFleet_apart {time : Int} {memory : Memory} {name : String} {labels : LabelMap}
    {tag : Option String} {part : List CallEvent} {p : RolloutPlan}
    (within : ∀ e ∈ part, e ∈ ((releaseFleet time).tick stackDocker stackConfig .default memory).trace)
    (plans : Plans stackConfig .default name labels tag part p) {t : PlannedTarget}
    (ht : t ∈ p.targets) : t.container = "api" ↔ name = "api" := by
  obtain ⟨origin, horigin, rfl, row, hrow, hname, hsame⟩ := @sameImage_of_plans _ _ _ _ _ _
    releaseRows _ plans (fun project rows h row hrow => by
      obtain ⟨creates, rfl⟩ := Fleet.project_of_tick (within _ h)
      exact hrow) (by decide +kernel) t ht
  have apart : ∀ origin ∈ releaseRows, ∀ row ∈ releaseRows,
      Rollout.sameImage (projectMember row)
        (Registry.ImageRef.parse (projectMember origin).imageRef) origin.imageId = true →
      (containerName row = "api" ↔ containerName origin = "api") := by
    decide +kernel
  rw [← hname]
  exact apart origin horigin row hrow hsame

end Freshdock.Scheduler
