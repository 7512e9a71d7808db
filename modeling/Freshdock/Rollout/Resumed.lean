import Freshdock.Rollout.Concerned
import Freshdock.Rollout.FailStop
import Freshdock.Rollout.Permitted

/-!
# Attempts after an aborted rollout

A rollout that stops at a migration leaves it to the next attempt, which is planned anew from what
the daemon then lists. Nothing else is remembered of the abort. An attempt that is `Ready`, which
means that it can re-run the migration whenever it concerns a container that waits for it, does so
before it moves that container (`guarded_until_rerun`). A migration that was renamed away and not
replaced is listed as an archive, which the plan leaves out, and its dependents are updated
(`not_migrationSafe_renamedAway`).

**Up to.** `UpTo stop P` says that `P` holds up to the first element at which `stop` does. Migration
safety, and the condition under which it holds, are of that form: both end with the first attempt
that re-ran the migration.
-/

set_option autoImplicit false

namespace Freshdock.Rollout

open Interaction Docker Registry
open Compose (ProjectMember)
open Health (Report NotUpNorFailed ExitedZero)

/-! ## Up to an element -/

section UpTo

variable {α : Type} {stop P Q : α → Prop}

/-- `P` holds of every element up to the first at which `stop` does. -/
def UpTo (stop P : α → Prop) : List α → Prop
  | [] => True
  | a :: rest => P a ∧ (¬ stop a → UpTo stop P rest)

theorem UpTo.imp {elements : List α} (h : UpTo stop P elements)
    (imp : ∀ a ∈ elements, P a → Q a) : UpTo stop Q elements := by
  induction elements with
  | nil => trivial
  | cons a rest ih =>
      obtain ⟨head, tail⟩ := h
      refine ⟨imp a List.mem_cons_self head, fun running => ?_⟩
      exact ih (tail running) fun a' ha' => imp a' (List.mem_cons_of_mem _ ha')

end UpTo

/-! ## Sequences of attempts -/

/-- An attempt, the members it was told, and what was observed of it. -/
structure Trial where
  attempt : Attempt
  members : List ProjectMember
  events : List CallEvent
  out : Option AttemptOutcome

/-- The trial is an attempt on a member of `project`. Its listing was answered with its members, or
was not answered with any. -/
structure Trial.Made (project : String) (r : Trial) : Prop where
  project : ∃ info, Compose.parse r.attempt.labels = some info ∧ info.project = project
  produced : Produces r.attempt.run r.events r.out
  told : r.attempt.Listed r.events r.members ∨ ∀ members, ¬ r.attempt.Listed r.events members
  well : WellListed r.members
  names : ∀ e ∈ r.events, NamesHold r.attempt r.members e
  own : ∀ e ∈ r.events,
    NamesApart (r.attempt.container :: r.members.map ProjectMember.name) e
  repairs : RepairsApart (r.members.map ProjectMember.name) r.events

/-- The trial was a rollout that was aborted at the one-shot `container` of the service. -/
structure Trial.StoppedAt (project : String) (r : Trial) (migration container : String) :
    Prop where
  listed : r.attempt.Listed r.events r.members
  aborted : ∃ report reason, r.out = some (.rollout report) ∧ report.aborted = some reason ∧
    reason.container = container
  target : ∃ t ∈ (r.attempt.plan project r.members).targets, t.container = container ∧
    t.service = migration ∧ t.kind = .oneShot

/-- A container that is listed again has the labels it had. -/
def LabelsUnchanged (trials : List Trial) : Prop :=
  ∀ r ∈ trials, ∀ r' ∈ trials, ∀ m ∈ r.members, ∀ m' ∈ r'.members, m.name = m'.name →
    m.labels = m'.labels

/-- No listed container is opted out or in watch mode. -/
def NoneExcluded (trials : List Trial) : Prop :=
  ∀ r ∈ trials, ∀ m ∈ r.members, Labels.explicitlyOptsOut m.labels = false ∧
    ∀ policy, Labels.parsePolicy m.labels r.attempt.defaults = .ok policy → policy.mode ≠ .watch

namespace Trial

/-- In these events of the trial, a container of the migration was re-run to exit 0. -/
def Reruns (migration : String) (events : List CallEvent) (r : Trial) : Prop :=
  ∃ x ∈ r.members, MemberOf migration x ∧ Reran ExitedZero x.name events

end Trial

/-- The container's own label waits for the migration to complete. -/
def WaitsFor (migration : String) (m : ProjectMember) : Prop :=
  ∃ info, Compose.parse m.labels = some info ∧
    ∃ d ∈ info.dependsOn, d.service = migration ∧ d.condition = .completedSuccessfully

/-- No container that waits for the migration is moved, in whatever role, before the migration was
re-run to exit 0. -/
def Trial.Guards (migration : String) (r : Trial) : Prop :=
  ∀ before e after, r.events = before ++ e :: after → ∀ role, ∀ m ∈ r.members, WaitsFor migration m →
    e.call.moves = some (role, m.name) → r.Reruns migration before

/-- The first trial is a rollout that was aborted at a container of the migration, and other
attempts on the project follow. -/
structure Aborts (project : String) (first : Trial) (later : List Trial)
    (migration container : String) : Prop where
  made : ∀ r ∈ first :: later, r.Made project
  unchanged : LabelsUnchanged (first :: later)
  noneExcluded : NoneExcluded (first :: later)
  stopped : first.StoppedAt project migration container

/-- **Migration safety across rollouts**: once a rollout was aborted at a migration,
no later attempt moves a container that waits for it before it, or an attempt before it, has re-run
the migration to exit 0. -/
def MigrationSafe (project : String) (first : Trial) (later : List Trial) : Prop :=
  ∀ migration container, Aborts project first later migration container →
    UpTo (fun r => r.Reruns migration r.events) (Trial.Guards migration) later

/-! ## What a later attempt re-runs -/

/-- The listing shows the container that the rollout stopped at, or another of the migration whose
labels can be read: it is over, on the moved image, and not freshdock itself. -/
structure Trial.Shows (first r : Trial) (migration container : String)
    (origin x : ProjectMember) : Prop where
  live : x ∈ liveMembers r.members
  finished : x.running = false
  image : sameImage x (r.attempt.input r.members origin).updatedImage
    (r.attempt.input r.members origin).updatedImageId = true
  notSelf : (r.attempt.input r.members origin).isSelf x = false
  readable : (x.name = container ∧ r.attempt.defaults = first.attempt.defaults) ∨
    MemberOf migration x ∧ ∃ policy, Labels.parsePolicy x.labels r.attempt.defaults = .ok policy

/-- The trial can re-run the migration: its plan covers the container that it is for, its listing
shows a container to re-run, and the migration reaches no cycle. -/
def CanRerun (first : Trial) (migration container : String) (r : Trial) : Prop :=
  ∃ origin x, Covers r.attempt r.members origin ∧ first.Shows r migration container origin x ∧
    Compose.Acyclic (Compose.graphOf (liveMembers r.members)) migration

/-- The container is of a service that waits for the migration by the project's graph. -/
def Trial.Records (migration : String) (r : Trial) (m : ProjectMember) : Prop :=
  ∃ service, MemberOf service m ∧
    Compose.Awaits (Compose.graphOf (liveMembers r.members)) service migration

/-- The trial is ready for the containers that wait for the migration: it can re-run the migration
before those that it concerns, and leaves the others alone. -/
structure Trial.Ready (first : Trial) (migration container : String) (r : Trial) : Prop where
  /-- A listing that shows a container which waits, and which the attempt concerns, shows the
  migration as well, and the graph knows that the container waits for it. -/
  rerun : r.attempt.Listed r.events r.members → ∀ m ∈ r.members, WaitsFor migration m →
    r.attempt.Concerns r.members m → CanRerun first migration container r ∧ r.Records migration m
  /-- No container that waits is in the network namespace of another. -/
  apart : ∀ m ∈ r.members, WaitsFor migration m → ∀ row, ShownRunning r.events row →
    SharesNamespace row → containerName row ≠ m.name
  explicit : ExitsExplicit r.events

/-- An attempt whose listing was not answered with members moves nothing. -/
theorem Attempt.still_of_unlisted {a : Attempt} {info : Compose.ComposeInfo}
    (hinfo : Compose.parse a.labels = some info) {events : List CallEvent}
    {out : Option AttemptOutcome} (produced : Produces a.run events out)
    (unlisted : ∀ members, ¬ a.Listed events members) : ∀ e ∈ events, e.call.moves = none := by
  have hrun := produced
  rw [Attempt.run_eq hinfo] at hrun
  rcases hrun.of_bind with ⟨-, hlisting⟩ | ⟨listing, listed, rest, rfl, hlisting, hrest⟩
  · exact Attempt.still_of_listing hlisting
  · cases listed with
    | ok members => exact absurd ⟨info, listing, rest, hinfo, rfl, hlisting⟩ (unlisted members)
    | error e =>
        obtain ⟨rfl, -⟩ := produces_done_iff.mp hrest
        rw [List.append_nil]
        exact Attempt.still_of_listing hlisting

section Later

variable {project migration container : String} {first r : Trial} {later : List Trial}
  {origin x : ProjectMember}

/-- The container that the rollout stopped at belongs to the migration, and its labels can be
read. -/
theorem Aborts.read (aborts : Aborts project first later migration container) (hr : r ∈ later)
    (hx : x ∈ r.members) (hname : x.name = container) :
    MemberOf migration x ∧
      ∃ policy, Labels.parsePolicy x.labels first.attempt.defaults = .ok policy := by
  obtain ⟨t, ht, hcontainer, hservice, -⟩ := aborts.stopped.target
  obtain ⟨origin, -, m, hm, htarget⟩ := mem_targets_plan.mp ht
  obtain ⟨info, hinfo, -, hadmission, htname, htservice, -⟩ := targetOf_eq_some.mp htarget
  obtain ⟨-, -, hpolicy, -⟩ := admission_iff.mp hadmission
  have hlabels : m.labels = x.labels :=
    aborts.unchanged first List.mem_cons_self r (List.mem_cons_of_mem _ hr) m (mem_of_live hm) x hx
      (by rw [← htname, hcontainer, hname])
  refine ⟨⟨info, hlabels ▸ hinfo, htservice.symm.trans hservice⟩, t.policy, ?_⟩
  rw [← hlabels]
  exact hpolicy

/-- A container that the listing shows is eligible. -/
theorem Trial.Shows.eligible (shows : first.Shows r migration container origin x)
    (aborts : Aborts project first later migration container) (hr : r ∈ later) :
    Eligible (r.attempt.input r.members origin) migration x := by
  have hx : x ∈ r.members := mem_of_live shows.live
  obtain ⟨service, policy, hpolicy⟩ : MemberOf migration x ∧
      ∃ policy, Labels.parsePolicy x.labels r.attempt.defaults = .ok policy := by
    rcases shows.readable with ⟨hname, hdefaults⟩ | readable
    · rw [hdefaults]
      exact aborts.read hr hx hname
    · exact readable
  obtain ⟨notOptedOut, notWatched⟩ := aborts.noneExcluded r (List.mem_cons_of_mem _ hr) x hx
  exact ⟨service, shows.image, shows.notSelf, notOptedOut, policy, hpolicy,
    notWatched policy hpolicy⟩

/-- An attempt that can re-run the migration does so before it updates or restarts a container that
waits for it by the graph. -/
theorem CanRerun.reran (can : CanRerun first migration container r)
    (aborts : Aborts project first later migration container) (hr : r ∈ later)
    (listed : r.attempt.Listed r.events r.members) {before after : List CallEvent} {e : CallEvent}
    (split : r.events = before ++ e :: after) {role : Role} (hrole : role ≠ .repair)
    {m : ProjectMember} (hm : m ∈ r.members) (records : r.Records migration m)
    (moved : e.call.moves = some (role, m.name)) :
    ∃ x ∈ r.members, MemberOf migration x ∧ Reran NotUpNorFailed x.name before := by
  obtain ⟨origin, x, covers, shows, acyclic⟩ := can
  obtain ⟨service, hservice, awaits⟩ := records
  have made := aborts.made r (List.mem_cons_of_mem _ hr)
  have pending : Pending r.attempt r.members origin service migration x :=
    ⟨awaits, acyclic, shows.live, shows.eligible aborts hr, shows.finished⟩
  have produced := made.produced
  have names := made.names
  rw [split] at produced listed names
  exact ⟨x, mem_of_live shows.live, pending.eligible.service,
    pending.reran_of_moves made.well covers produced listed names hm hservice hrole moved⟩

/-- **A later attempt that is ready re-runs the migration before it moves a container that waits for
it.** -/
theorem Trial.Ready.guards (ready : first.Ready migration container r)
    (aborts : Aborts project first later migration container) (hr : r ∈ later) :
    r.Guards migration := by
  have made := aborts.made r (List.mem_cons_of_mem _ hr)
  intro before e after split role m hm waits moved
  have he : e ∈ r.events := by simp [split]
  rcases made.told with listed | unlisted
  · by_cases hrole : role = .repair
    · subst hrole
      obtain ⟨row, shown, shares, hname⟩ :=
        Attempt.shares_of_repair made.produced made.repairs he (List.mem_map_of_mem hm) moved
      exact absurd hname (ready.apart m hm waits row shown shares)
    · have concerns : r.attempt.Concerns r.members m :=
        Attempt.concerns_of_moves made.well made.produced listed made.names made.own he hm hrole
          moved
      obtain ⟨can, records⟩ := ready.rerun listed m hm waits concerns
      obtain ⟨x, hx, hmember, reran⟩ :=
        can.reran aborts hr listed split hrole hm records moved
      refine ⟨x, hx, hmember, reran.exitedZero ready.explicit ?_⟩
      rw [split]
      exact List.subset_append_left _ _
  · obtain ⟨info, hinfo, -⟩ := made.project
    rw [Attempt.still_of_unlisted hinfo made.produced unlisted e he] at moved
    cases moved

/-- **After a rollout was aborted at a migration, no container that waits for it is moved before the
migration was re-run to exit 0**, as long as the attempts up to then are ready. -/
theorem guarded_until_rerun (aborts : Aborts project first later migration container)
    (ready : UpTo (fun r => r.Reruns migration r.events)
      (first.Ready migration container) later) :
    UpTo (fun r => r.Reruns migration r.events) (Trial.Guards migration) later :=
  ready.imp fun _ hr ready => ready.guards aborts hr

end Later

/-! ## Projects

Projects whose rollout is aborted at their migration, and what a second attempt does. -/

/-- A daemon with the rows of a project. What replaces `migrate` is `created`, and in `state`; what
replaces another container is healthy. -/
def stoppingDaemon (rows : List ContainerSummary) (created : Except DockerError String)
    (state : ContainerState) : Obliging :=
  { stackDaemon rows with
    inspect := fun ref =>
      if ref ∈ "migrated" :: "updated" :: rows.map containerName then
        .ok (inspectReport ref "app" (fun _ => none)
          (if ref = "migrated" then state
            else ⟨some .running, some true, none, none, some .healthy⟩))
      else .error (.bollard ⟨.dockerResponseServerError 404 "unknown", "unknown"⟩)
    create := fun name => if name = "migrate" then created else .ok "updated" }

/-- The attempt to update the container of a row, with no time for its migrations. -/
def hurriedAttempt (row : ContainerSummary) : Attempt :=
  { stackAttempt row with cfg := { RolloutConfig.default with oneShotTimeout := 0 } }

/-- The trial of a row on a daemon. -/
def trialOn (env : Obliging) (row : ContainerSummary) : Trial where
  attempt := hurriedAttempt row
  members := stackMembers env.project
  events := (play env.answer (hurriedAttempt row).run 0).trace
  out := (play env.answer (hurriedAttempt row).run 0).out

section Trials

variable {rows : List ContainerSummary} {created : Except DockerError String}
  {state : ContainerState} {row : ContainerSummary}

theorem stoppingDaemon_inspect {ref : String} {resp : ContainerInspectResponse}
    (h : (stoppingDaemon rows created state).inspect ref = .ok resp) :
    resp.name = some ref := by
  unfold stoppingDaemon at h
  dsimp only at h
  split at h
  · cases h
    rfl
  · cases h

/-- A daemon that keeps the names of its rows apart keeps them apart in repairs. -/
theorem KeepsRowNames.repairsApart {α : Type} {env : Obliging} (keeps : KeepsRowNames env rows)
    (p : Prog α) (t : Nat) :
    RepairsApart ((stackMembers rows).map ProjectMember.name) (play env.answer p t).trace where
  renamed row _ n hn hrename := by
    obtain ⟨m, hm, rfl⟩ := List.mem_map.mp hn
    obtain ⟨row', hrow', rfl⟩ := List.mem_map.mp hm
    refine @play_events _ _ _ _ env.answer (fun e => ∀ dependent,
      e ≠ ⟨.renameContainer .repair dependent (projectMember row').name, some (.ok ())⟩) ?_ p t _
      hrename (containerName row) rfl
    intro call s dependent h
    obtain rfl : call = .renameContainer .repair dependent (projectMember row').name :=
      congrArg Event.call h
    exact keeps.rename row' hrow' (Option.some.inj (Event.reply_inj h))
  created name body id hcreate := by
    refine @play_events _ _ _ _ env.answer (fun e =>
      e = ⟨.createContainer .repair name body, some (.ok id)⟩ →
        id ∉ (stackMembers rows).map ProjectMember.name) ?_ p t _ hcreate rfl
    intro call s h
    obtain rfl : call = .createContainer .repair name body := congrArg Event.call h
    exact keeps.create name id (Option.some.inj (Event.reply_inj h))

/-- What a run is shown as running is what the daemon has. -/
theorem mem_running_of_shown {α : Type} {env : Obliging} {p : Prog α} {t : Nat}
    {row : ContainerSummary} (shown : ShownRunning (play env.answer p t).trace row) :
    row ∈ env.running := by
  obtain ⟨running, hlisted, hrow⟩ := shown
  refine @play_events _ _ _ _ env.answer (fun e => e = ⟨.listRunning, some (.ok running)⟩ →
    row ∈ env.running) ?_ p t _ hlisted rfl
  intro call s h
  obtain rfl : call = .listRunning := congrArg Event.call h
  rw [Except.ok.inj (Option.some.inj (Event.reply_inj h))]
  exact hrow

/-- Where what replaces `migrate` has exited, exits are explicit. -/
theorem stoppingDaemon_explicit {code : Int} (ref : String)
    (hover : NotUpNorFailed ((stoppingDaemon rows created
      ⟨some .exited, some false, none, some code, none⟩).inspect ref)) :
    ExitedZero ((stoppingDaemon rows created
      ⟨some .exited, some false, none, some code, none⟩).inspect ref) := by
  unfold stoppingDaemon at hover ⊢
  dsimp only at hover ⊢
  split
  · next shown =>
    rw [if_pos shown] at hover
    refine exitedZero_of_inspectReport ?_ hover
    split
    · exact .inr ⟨rfl, rfl⟩
    · exact .inl (.inl rfl)
  · next unknown =>
    rw [if_neg unknown] at hover
    exact absurd hover not_over_of_error

theorem stoppingDaemon_keeps
    (fresh : ∀ id ∈ ["migrated", "updated"], id ∉ (stackMembers rows).map ProjectMember.name)
    (issues : ∀ id, created = .ok id → id = "migrated") :
    KeepsRowNames (stoppingDaemon rows created state) rows := by
  refine ⟨fun ref resp h => stoppingDaemon_inspect h, fun _ hrow => stackDaemon_rename hrow,
    fun name id hcreate => ?_⟩
  rw [stoppingDaemon] at hcreate
  dsimp only at hcreate
  split at hcreate
  · rw [issues id hcreate]
    exact fresh "migrated" List.mem_cons_self
  · cases hcreate
    exact fresh "updated" (List.mem_cons_of_mem _ List.mem_cons_self)

end Trials

/-- No row is opted out or in watch mode. -/
def followed (rows : List ContainerSummary) : Bool :=
  (stackMembers rows).all fun m => !Labels.explicitlyOptsOut m.labels &&
    match Labels.parsePolicy m.labels ⟨none, false, false⟩ with
    | .ok policy => policy.mode != .watch
    | .error _ => true

/-- The trial is a rollout that was aborted at its one-shot `migrate`. -/
def stopsAtMigrate (r : Trial) : Bool :=
  (match r.out with
    | some (.rollout report) => report.aborted.map AbortReason.container == some "migrate"
    | _ => false) &&
    (r.attempt.plan "stack" r.members).targets.any fun t =>
      t.container == "migrate" && t.service == "migrate" && t.kind == .oneShot

/-- The event moves no container of the migration as an update. -/
def leavesMigrate (r : Trial) (e : CallEvent) : Bool :=
  r.members.all fun m =>
    e.call.moves != some (.update, m.name) ||
      (Compose.parse m.labels).map Compose.ComposeInfo.service != some "migrate"

/-- The trial moves the container, and none of the migration before. -/
def strays (r : Trial) (name : String) : Bool :=
  match r.events.findIdx? fun e => e.call.moves.map Prod.snd == some name with
  | some n => (r.events.take n).all (leavesMigrate r)
  | none => false

theorem aborted_of_stopsAtMigrate {r : Trial} (h : stopsAtMigrate r = true) :
    (∃ report reason, r.out = some (.rollout report) ∧ report.aborted = some reason ∧
      reason.container = "migrate") ∧
    ∃ t ∈ (r.attempt.plan "stack" r.members).targets, t.container = "migrate" ∧
      t.service = "migrate" ∧ t.kind = .oneShot := by
  simp only [stopsAtMigrate, Bool.and_eq_true, List.any_eq_true, beq_iff_eq, and_assoc] at h
  refine ⟨?_, h.2⟩
  replace h := h.1
  split at h
  · next report hout =>
    obtain ⟨reason, haborted, hcontainer⟩ := Option.map_eq_some_iff.mp (by simpa using h)
    exact ⟨report, reason, hout, haborted, hcontainer⟩
  · cases h

theorem exists_event_of_strays {r : Trial} {name : String} (h : strays r name = true) :
    ∃ before e after role, r.events = before ++ e :: after ∧ e.call.moves = some (role, name) ∧
      ∀ e' ∈ before, leavesMigrate r e' = true := by
  unfold strays at h
  split at h
  · next n hfind =>
    obtain ⟨hlt, hmoves, -⟩ := List.findIdx?_eq_some_iff_getElem.mp hfind
    obtain ⟨role, hmoved⟩ : ∃ role, r.events[n].call.moves = some (role, name) := by
      simpa using hmoves
    exact ⟨r.events.take n, r.events[n], r.events.drop (n + 1), role,
      place_of_getElem? (List.getElem?_eq_getElem hlt), hmoved, List.all_eq_true.mp h⟩
  · cases h

/-- The rows of a project that is staged: they are listed once and as they are, with labels that
depend on their names only. -/
structure Staged (labelsOf : String → LabelMap) (rows : List ContainerSummary) : Prop where
  well : WellListed (stackMembers rows)
  fresh : ∀ id ∈ ["migrated", "updated"], id ∉ (stackMembers rows).map ProjectMember.name
  named : ∀ row ∈ rows, isImageId (projectMember row).imageRef = false
  labelled : (stackMembers rows).map ProjectMember.labels =
    (stackMembers rows).map fun m => labelsOf m.name
  followed : followed rows = true

/-- A row of the project that an attempt is for. -/
structure Chosen (rows : List ContainerSummary) (row : ContainerSummary) : Prop where
  shown : row ∈ rows
  parsed : ∃ info, Compose.parse (projectMember row).labels = some info ∧ info.project = "stack"

section Staged

variable {labelsOf : String → LabelMap} {rows rows' : List ContainerSummary}
  {created created' : Except DockerError String} {state state' : ContainerState}
  {row row' : ContainerSummary}

theorem Staged.listed (staged : Staged labelsOf rows) (chosen : Chosen rows row) :
    (hurriedAttempt row).Listed (trialOn (stoppingDaemon rows created state) row).events
      (stackMembers rows) := by
  obtain ⟨info, hinfo, -⟩ := chosen.parsed
  have told := @Obliging.returns_listProject (stoppingDaemon rows created state) 0
    info.project staged.named
  exact Attempt.listed_of_play hinfo told.1

theorem Staged.made (staged : Staged labelsOf rows) (chosen : Chosen rows row)
    (issues : ∀ id, created = .ok id → id = "migrated") :
    (trialOn (stoppingDaemon rows created state) row).Made "stack" where
  project := chosen.parsed
  produced := play_produces _ _ 0
  told := .inl (staged.listed chosen)
  well := staged.well
  names := play_events ((stoppingDaemon_keeps staged.fresh issues).namesHold rfl rfl staged.well
    chosen.shown) _ 0
  own e he := by
    have holds := play_events ((stoppingDaemon_keeps staged.fresh issues).namesHold rfl rfl staged.well
      chosen.shown (a := hurriedAttempt row)) _ 0 e he
    refine holds.toNamesApart.mono (List.cons_subset.mpr ⟨?_, List.Subset.refl _⟩)
    exact List.mem_map_of_mem (List.mem_map_of_mem chosen.shown)
  repairs := (stoppingDaemon_keeps staged.fresh issues).repairsApart _ 0

theorem Staged.labels (staged : Staged labelsOf rows) :
    ∀ m ∈ stackMembers rows, m.labels = labelsOf m.name :=
  List.map_inj_left.mp staged.labelled

theorem Staged.noneExcluded (staged : Staged labelsOf rows) :
    ∀ m ∈ stackMembers rows, Labels.explicitlyOptsOut m.labels = false ∧
      ∀ policy, Labels.parsePolicy m.labels ⟨none, false, false⟩ = .ok policy →
        policy.mode ≠ .watch := by
  intro m hm
  have hm := List.all_eq_true.mp staged.followed m hm
  simp only [Bool.and_eq_true, Bool.not_eq_true'] at hm
  refine ⟨hm.1, fun policy hpolicy => ?_⟩
  have hmode := hm.2
  rw [hpolicy] at hmode
  simpa using hmode

/-- Two trials of a project, the first aborted at its migration. -/
theorem Staged.aborts (staged : Staged labelsOf rows) (chosen : Chosen rows row)
    (issues : ∀ id, created = .ok id → id = "migrated") (staged' : Staged labelsOf rows')
    (chosen' : Chosen rows' row') (issues' : ∀ id, created' = .ok id → id = "migrated")
    (stops : stopsAtMigrate (trialOn (stoppingDaemon rows created state) row) = true) :
    Aborts "stack" (trialOn (stoppingDaemon rows created state) row)
      [trialOn (stoppingDaemon rows' created' state') row'] "migrate" "migrate" where
  made := List.forall_mem_cons.mpr ⟨staged.made chosen issues,
    List.forall_mem_singleton.mpr (staged'.made chosen' issues')⟩
  unchanged := by
    have hlabels : ∀ r ∈ [trialOn (stoppingDaemon rows created state) row,
        trialOn (stoppingDaemon rows' created' state') row'],
        ∀ m ∈ r.members, m.labels = labelsOf m.name :=
      List.forall_mem_cons.mpr ⟨staged.labels, List.forall_mem_singleton.mpr staged'.labels⟩
    intro r hr r' hr' m hm m' hm' hname
    rw [hlabels r hr m hm, hlabels r' hr' m' hm', hname]
  noneExcluded := List.forall_mem_cons.mpr
    ⟨staged.noneExcluded, List.forall_mem_singleton.mpr staged'.noneExcluded⟩
  stopped := ⟨staged.listed chosen, (aborted_of_stopsAtMigrate stops).1,
    (aborted_of_stopsAtMigrate stops).2⟩

/-- A second attempt that moves a container which waits for the migration, with no re-run before. -/
theorem not_migrationSafe {first second : Trial}
    (aborts : Aborts "stack" first [second] "migrate" "migrate") {m : ProjectMember}
    (hm : m ∈ second.members) (waits : WaitsFor "migrate" m)
    (strayed : strays second m.name = true) : ¬ MigrationSafe "stack" first [second] := by
  intro safe
  obtain ⟨before, e, after, role, split, moved, left⟩ := exists_event_of_strays strayed
  obtain ⟨x, hx, ⟨info, hinfo, hservice⟩, reran⟩ :=
    (safe "migrate" "migrate" aborts).1 before e after split role m hm waits moved
  obtain ⟨front, spec, id, rest, report, rfl, ⟨signal, timeout, hstop⟩, -⟩ := reran
  have hleft := left _ (List.mem_append_left _ (List.mem_append_left _ hstop))
  have hx := List.all_eq_true.mp hleft x hx
  rw [hinfo, Option.map_some, hservice] at hx
  simp [Call.moves] at hx

end Staged

/-- The labels of a container in a list of rows. -/
def labelsIn (rows : List ContainerSummary) (name : String) : LabelMap :=
  ((rows.find? fun row => containerName row == name).bind ContainerSummary.labels).getD
    fun _ => none

def exited (code : Int) : ContainerState := ⟨some .exited, some false, none, some code, none⟩

/-- A trial whose migration exits with `code`. -/
def exiting (rows : List ContainerSummary) (code : Int) (row : ContainerSummary) : Trial :=
  trialOn (stoppingDaemon rows (.ok "migrated") (exited code)) row

theorem issues_migrated (id : String) (h : (.ok "migrated" : Except DockerError String) = .ok id) :
    id = "migrated" := by
  cases h
  rfl

/-- A row whose labels are these waits for the migration, and may be chosen. -/
theorem dependent_of_parse {row : ContainerSummary} {service : String}
    (h : Compose.parse (projectMember row).labels = some (dependentInfo service)) :
    WaitsFor "migrate" (projectMember row) ∧
      ∃ info, Compose.parse (projectMember row).labels = some info ∧ info.project = "stack" :=
  ⟨⟨_, h, _, List.mem_cons_self, rfl, rfl⟩, _, h, rfl⟩

/-- The migration is listed under the name of an archive. -/
def archivedStack : List ContainerSummary :=
  [stackRow "migrate-old-5" "migrate" "" "live" .exited, webRow "live"]

def refused : DockerError := .bollard ⟨.dockerResponseServerError 500 "no space", "no space"⟩

/-- The migration was renamed, and its replacement could not be created. -/
def renamedAway : Trial :=
  trialOn (stoppingDaemon exitedStack (.error refused) (exited 0)) (webRow "live")

-- Both runs at once: the kernel reads the labels of a row once then.
theorem trials_stop : stopsAtMigrate renamedAway = true ∧
    strays (exiting archivedStack 0 (webRow "live")) "web" = true ∧
    stopsAtMigrate (exiting exitedStack 1 (webRow "live")) = true := by
  decide +kernel

theorem followed_of_mem : ∀ rows ∈ [exitedStack, archivedStack], followed rows = true := by
  decide +kernel

theorem staged_exited : Staged (labelsIn (migrateRow .exited :: archivedStack)) exitedStack :=
  ⟨⟨by decide, by decide⟩, by decide, by decide, rfl, followed_of_mem _ (by simp)⟩

theorem chosen_exited : Chosen exitedStack (webRow "live") :=
  ⟨List.mem_cons_of_mem _ List.mem_cons_self, (dependent_of_parse (parse_web "live")).2⟩

/-- **A migration that was renamed away is forgotten**: the next attempt is shown its archive only,
and moves `web` with no re-run. -/
theorem not_migrationSafe_renamedAway :
    ¬ MigrationSafe "stack" renamedAway [exiting archivedStack 0 (webRow "live")] := by
  have staged : Staged (labelsIn (migrateRow .exited :: archivedStack)) archivedStack :=
    ⟨⟨by decide, by decide⟩, by decide, by decide, rfl, followed_of_mem _ (by simp)⟩
  have web : webRow "live" ∈ archivedStack := List.mem_cons_of_mem _ List.mem_cons_self
  obtain ⟨waits, parsed⟩ := dependent_of_parse (parse_web "live")
  obtain ⟨stops, strayed, -⟩ := trials_stop
  exact not_migrationSafe (staged_exited.aborts chosen_exited (fun _ h => by cases h) staged
    ⟨web, parsed⟩ issues_migrated stops) (List.mem_map_of_mem web) waits strayed

/-- In this project the migration fails, and is re-run by the next attempt before `web` is
stopped. -/
theorem guarded_until_rerun_exited :
    UpTo (fun r => r.Reruns "migrate" r.events) (Trial.Guards "migrate")
      [exiting exitedStack 0 (webRow "live")] := by
  obtain ⟨-, -, stops⟩ := trials_stop
  have aborts : Aborts "stack" (exiting exitedStack 1 (webRow "live"))
      [exiting exitedStack 0 (webRow "live")] "migrate" "migrate" :=
    staged_exited.aborts chosen_exited issues_migrated staged_exited chosen_exited issues_migrated
      stops
  have shows : (exiting exitedStack 1 (webRow "live")).Shows (exiting exitedStack 0 (webRow "live"))
      "migrate" "migrate" (projectMember (webRow "live")) (projectMember (migrateRow .exited)) :=
    ⟨List.mem_cons_self, rfl, by decide, rfl, .inl ⟨rfl, rfl⟩⟩
  have ready : (exiting exitedStack 1 (webRow "live")).Ready "migrate" "migrate"
      (exiting exitedStack 0 (webRow "live")) := by
    refine ⟨fun _ m hm waits _ => ⟨⟨_, _, ⟨rfl, by decide⟩, shows,
      Compose.acyclic_of_dependencies_nil (by decide)⟩, ?_⟩, fun m _ _ row shown => ?_,
      explicit_of_inspect stoppingDaemon_explicit _ 0⟩
    · rcases List.mem_cons.mp hm with rfl | hm
      · -- `migrate` itself waits for nothing
        obtain ⟨info, hinfo, d, hd, -⟩ := waits
        have parsed : Compose.parse (projectMember (migrateRow .exited)).labels =
            some ⟨"stack", "migrate", []⟩ := by decide
        cases parsed.symm.trans hinfo
        cases hd
      · obtain rfl := List.mem_singleton.mp hm
        exact ⟨"web", ⟨dependentInfo "web", parse_web "live", rfl⟩, _, rfl, _, List.mem_cons_self,
          rfl, rfl⟩
    · exact absurd (mem_running_of_shown shown) List.not_mem_nil
  exact guarded_until_rerun aborts ⟨ready, fun _ => trivial⟩

end Freshdock.Rollout
