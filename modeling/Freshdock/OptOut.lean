import Freshdock.Commands.Recreate
import Freshdock.Docker.Obliging
import Freshdock.Rollout.Moves

/-!
# Opt-outs hold on every path

Five paths move containers: a scheduler tick, the targets of a rollout, its restarts, the
repair of containers in an updated container's network namespace, and the manual `recreate`.
They gate on labels with two functions and at different moments. The result of this file is
that none of them moves a container whose labels say no.

**Whose labels.** A container's labels are fixed when it is created, and a container is
addressed by its name or its id, so labels belong to references: `L ref` are the labels of the
container that `ref` denotes. `Honest L` says of an event that what the daemon reports fits
`L`, that a container created from a body has the labels of the body, and that a rename takes
the labels along.
-/

set_option autoImplicit false

namespace Freshdock.OptOut

open Interaction Docker Registry
open Compose (ProjectMember)
open Labels (Policy PolicyDefaults SaysNo)
open Rollout (ListedProject Refilled)

/-- Labels that are absent are empty. -/
def labelsOf (labels : Option LabelMap) : LabelMap := labels.getD fun _ => none

/-- What an event reports fits the labels `L`. -/
structure Honest (L : String → LabelMap) (e : CallEvent) : Prop where
  inspected : ∀ ref resp spec, e = ⟨.inspectContainer ref, some (.ok resp)⟩ →
    ContainerSpec.fromInspect resp = .ok spec →
    labelsOf spec.config.labels = L ref ∧ L spec.name = L ref
  running : ∀ rows, e = ⟨.listRunning, some (.ok rows)⟩ →
    ∀ row ∈ rows, labelsOf row.labels = L (containerName row)
  project : ∀ project rows, e = ⟨.listProjectContainers project, some (.ok rows)⟩ →
    ∀ row ∈ rows, labelsOf row.labels = L (containerName row)
  created : ∀ role name body id, e = ⟨.createContainer role name body, some (.ok id)⟩ →
    L id = labelsOf body.labels
  renamed : ∀ role source target, e = ⟨.renameContainer role source target, some (.ok ())⟩ →
    L target = L source

/-- Containers are allowed by their labels. -/
def Permits (Q : Role → LabelMap → Prop) (L : String → LabelMap) (role : Role) (ref : String) :
    Prop :=
  Q role (L ref)

/-- The resolved mode of these labels is `watch`. -/
def Watched (defaults : PolicyDefaults) (labels : LabelMap) : Prop :=
  ∃ policy, Labels.parsePolicy labels defaults = .ok policy ∧ policy.mode = .watch

/-- What the scheduler and a rollout may move: nothing that says no, and nothing that is
watched, except to repair it. -/
def Automatic (defaults : PolicyDefaults) (role : Role) (labels : LabelMap) : Prop :=
  ¬ SaysNo labels ∧ (role ≠ .repair → ¬ Watched defaults labels)

/-- What an operator's command may move. -/
def Manual (_role : Role) (labels : LabelMap) : Prop := ¬ SaysNo labels

variable {L : String → LabelMap} {Q : Role → LabelMap → Prop} {docker : Docker}

/-! ## Updates -/

theorem labels_of_inspected {ref : String} {spec : ContainerSpec}
    (h : Inspected (Honest L) ref spec) :
    labelsOf spec.config.labels = L ref ∧ L spec.name = L ref := by
  obtain ⟨resp, honest, hread⟩ := h
  exact honest.inspected ref resp spec rfl hread

theorem labels_of_archived {role : Role} {name archive : String}
    (h : Archived (Honest L) role name archive) : L archive = L name :=
  h.renamed role name archive rfl

theorem labels_of_created {role : Role} {name image id : String} {spec : ContainerSpec}
    (h : CreatedFrom (Honest L) role name spec image id) : L id = labelsOf spec.config.labels :=
  h.created role name _ id rfl

theorem labels_rewriteOwnerReference (spec : ContainerSpec) (owner : String)
    (newOwnerId : Option String) :
    (rewriteOwnerReference spec owner newOwnerId).config = spec.config := by
  unfold rewriteOwnerReference
  split
  · split
    · split <;> rfl
    · rfl
  · rfl

/-- A repair keeps the labels. -/
theorem labels_repairSpec (spec : ContainerSpec) (owner : String) (newOwnerId : Option String) :
    (repairSpec spec owner newOwnerId).config.labels = spec.config.labels := by
  rw [← labels_rewriteOwnerReference spec owner newOwnerId, repairSpec,
    stripSharedNamespaceConflicts]
  split <;> rfl

/-- A listed dependent does not say no. -/
theorem not_saysNo_of_dependent {owner d : String}
    (h : ListedDependent (Honest L) docker owner d) : ¬ SaysNo (L d) := by
  obtain ⟨resp, running, -, honest, hd⟩ := h
  obtain ⟨row, hrow, hdependent⟩ := List.mem_filterMap.mp hd
  intro hno
  unfold networkDependent at hdependent
  split at hdependent
  · cases hdependent
  · split_ifs at hdependent with _ _ _ hopt
    cases hdependent
    have hlabels := honest.running running rfl row hrow
    rw [← hlabels] at hno
    cases hrowLabels : row.labels with
    | none => simp [hrowLabels, labelsOf, SaysNo] at hno
    | some labels =>
        rw [hrowLabels] at hno
        have hopted : Labels.explicitlyOptsOut labels = true :=
          Labels.explicitlyOptsOut_of_saysNo hno
        exact hopt (by simp [explicitlyOptsOut, hrowLabels, hopted])

section Permits

variable (repairs : ∀ labels, ¬ SaysNo labels → Q .repair labels)

include repairs

theorem repairable_of_permits {d : String} (h : ¬ SaysNo (L d)) :
    Repairable (Honest L) (Permits Q L) d where
  itself := repairs _ h
  archive archive harchived := by
    refine repairs _ ?_
    rwa [labels_of_archived harchived]
  replacement inspected owner newOwnerId image id hinspected hcreated := by
    refine repairs _ ?_
    rwa [labels_of_created hcreated, labels_repairSpec, (labels_of_inspected hinspected).1]

/-- **An update of a permitted container is permitted.** -/
theorem updatable_of_permits {name : String} (h : Q .update (L name)) :
    Updatable (Honest L) (Permits Q L) docker name where
  owner spec hinspected := by
    rw [Permits, (labels_of_inspected hinspected).2]
    exact h
  archive spec archive hinspected harchived := by
    rw [Permits, labels_of_archived harchived, (labels_of_inspected hinspected).2]
    exact h
  replacement spec id hinspected hcreated := by
    rw [Permits, labels_of_created hcreated, (labels_of_inspected hinspected).1]
    exact h
  dependents d hd := repairable_of_permits repairs (not_saysNo_of_dependent hd)

end Permits

/-! ## Rollouts -/

theorem labels_of_member {project : String} {members : List ProjectMember} {m : ProjectMember}
    (listed : ListedProject (Honest L) project members) (hm : m ∈ members) :
    m.labels = L m.name := by
  obtain ⟨rows, honest, refilled⟩ := listed
  obtain ⟨row, hrow, hrefilled⟩ := Rollout.exists_row_of_refilled refilled hm
  rw [hrefilled.labels, hrefilled.name]
  exact honest.project project rows rfl row hrow

/-- A planned target is enabled or awaited, and neither says no nor is watched. -/
theorem automatic_of_admitted {input : Rollout.PlanInput} {oneShot : Bool} {m : ProjectMember}
    {policy : Policy} (h : input.admission oneShot m = .ok policy) :
    Automatic input.defaults .update m.labels := by
  unfold Rollout.PlanInput.admission at h
  split_ifs at h with _ hopt
  split at h
  case h_1 => cases h
  case h_2 policy' hparse =>
    refine ⟨fun hno => hopt (Labels.explicitlyOptsOut_of_saysNo hno), fun _ => ?_⟩
    rintro ⟨watching, hwatching, hmode⟩
    rw [hparse] at hwatching
    cases hwatching
    unfold Rollout.PlanInput.admitPolicy at h
    simp [hmode] at h

theorem automatic_of_restartable {input : Rollout.PlanInput} {m : ProjectMember}
    (h : input.restartable m = true) : Automatic input.defaults .restart m.labels := by
  simp only [Rollout.PlanInput.restartable, Bool.and_eq_true, Bool.not_eq_true'] at h
  obtain ⟨⟨⟨-, -⟩, hopt⟩, hmode⟩ := h
  refine ⟨fun hno => ?_, fun _ => ?_⟩
  · rw [Labels.explicitlyOptsOut_of_saysNo hno] at hopt
    cases hopt
  · rintro ⟨policy, hpolicy, hwatch⟩
    rw [hpolicy] at hmode
    simp [hwatch] at hmode

/-- **Every plan of an honest listing is permitted.** -/
theorem executable_of_honest {project trigger : String} {members : List ProjectMember}
    {tag : Option String} {defaults : PolicyDefaults} {own : Option String}
    (listed : ListedProject (Honest L) project members)
    (weaker : ∀ role labels, Automatic defaults role labels → Q role labels)
    (repairs : ∀ labels, ¬ SaysNo labels → Q .repair labels) :
    Rollout.Executable (Honest L) (Permits Q L) docker
      (Rollout.plan project members trigger tag defaults own) where
  targets t ht := by
    obtain ⟨origin, -, m, hm, htarget⟩ := Rollout.mem_targets_plan.mp ht
    obtain ⟨info, -, -, hadmit, hname, -, -⟩ := Rollout.targetOf_eq_some.mp htarget
    refine updatable_of_permits repairs ?_
    rw [hname, ← labels_of_member listed (List.mem_filter.mp hm).1]
    exact weaker _ _ (automatic_of_admitted hadmit)
  restarts c hc := by
    obtain ⟨origin, -, m, hm, service, -, hcandidate⟩ := Rollout.mem_restartsFor_plan.mp hc
    obtain ⟨info, -, hrestartable, -, hname⟩ := Rollout.candidateOf_eq_some.mp hcandidate
    rw [Permits, ← hname, ← labels_of_member listed (List.mem_filter.mp hm).1]
    exact weaker _ _ (automatic_of_restartable hrestartable)

theorem emits_forContainer {container : String} {labels : LabelMap}
    {cfg : Rollout.RolloutConfig} {defaults : PolicyDefaults} {own : Option String}
    (weaker : ∀ role labels, Automatic defaults role labels → Q role labels)
    (repairs : ∀ labels, ¬ SaysNo labels → Q .repair labels) (ts : TsProvider) :
    Emits (Honest L) (Moves (Permits Q L))
      (Rollout.forContainer docker container labels cfg defaults own ts) fun _ => True :=
  Rollout.emits_forContainer (fun _ _ listed => executable_of_honest listed weaker repairs) ts

/-! ## The scheduler -/

section Scheduler

open Scheduler

variable {settings : ResolvedSettings} {cfg : SchedulerConfig} {now : Cron.Instant}

/-- Programs of the scheduler that move nothing. -/
theorem emits_notifySteps {P : Role → String → Prop} (image : String)
    (steps : List Rollout.RolloutStep) :
    Emits (Honest L) (Moves P) (notifySteps image steps) fun _ => True := by
  induction steps with
  | nil => exact emits_done trivial
  | cons step steps ih =>
      match step with
      | .updated _ _ true =>
          exact emits_bind (emits_request (fun _ => moves_of_none rfl) fun _ _ => trivial)
            fun _ _ => ih
      | .updated _ _ false => exact ih
      | .oneShotCompleted _ => exact ih
      | .restarted _ => exact ih

theorem emits_reportRollout {P : Role → String → Prop} (report : Rollout.RolloutReport)
    (policy : Policy) (image : String) :
    Emits (Honest L) (Moves P) (reportRollout report policy image) fun _ => True := by
  refine emits_bind (emits_notifySteps image report.steps) fun _ _ => ?_
  have hnotify : Emits (Honest L) (Moves P) (notifyAbort report policy) fun _ => True := by
    unfold notifyAbort
    cases report.aborted with
    | none => exact emits_done trivial
    | some reason =>
        cases policy.notify with
        | true => exact emits_request (fun _ => moves_of_none rfl) fun _ _ => trivial
        | false => exact emits_done trivial
  exact emits_bind hnotify fun _ _ => emits_done trivial

theorem emits_notifyPlain {P : Role → String → Prop} (name image : String) (policy : Policy)
    (outcome : Except DockerError RecreateOutcome) :
    Emits (Honest L) (Moves P) (notifyPlain name image policy outcome) fun _ => True := by
  have dispatched (event : NotifyEvent) (asked : Bool) :
      Emits (Honest L) (Moves P)
        (if asked then request (.dispatch event) else pure () : Prog Unit) fun _ => True := by
    cases asked with
    | true => exact emits_request (fun _ => moves_of_none rfl) fun _ _ => trivial
    | false => exact emits_done trivial
  match outcome with
  | .ok (.recreated _ _) => exact dispatched _ _
  | .ok (.rolledBack _) => exact dispatched _ _
  | .ok (.skippedByHook _) => exact emits_done trivial
  | .error _ => exact emits_done trivial

theorem emits_plainUpdate {name : String}
    (updatable : Updatable (Honest L) (Permits Q L) docker name) (ts : TsProvider)
    (policy : Policy) (image latest : String) :
    Emits (Honest L) (Moves (Permits Q L))
      (plainUpdate docker cfg ts name policy image latest settings) fun _ => True := by
  refine emits_bind (updatable.recreateWithHealth _ _ _ ts) fun outcome _ => ?_
  exact emits_bind (emits_notifyPlain _ _ _ _) fun _ _ => emits_done trivial

/-- What an update of the scheduler may move. -/
abbrev Swept (settings : ResolvedSettings) (L : String → LabelMap) : Role → String → Prop :=
  Permits (Automatic settings.policyDefaults) L

theorem repairs_automatic {defaults : PolicyDefaults} (labels : LabelMap)
    (h : ¬ SaysNo labels) : Automatic defaults .repair labels :=
  ⟨h, fun hne => absurd rfl hne⟩

theorem emits_applyUpdate {name : String} {policy : Policy} {labels : LabelMap}
    (allowed : Automatic settings.policyDefaults .update (L name)) (image latest : String)
    (tag : Option String) :
    Emits (Honest L) (Moves (Swept settings L))
      (applyUpdate docker cfg now name policy labels image latest tag settings)
      fun _ => True := by
  have hrollout : Emits (Honest L) (Moves (Swept settings L))
      (rolloutFor docker cfg (.fixed (now / 1000000000)) name labels tag settings)
      fun _ => True := by
    unfold rolloutFor
    split
    · exact emits_forContainer (fun _ _ h => h) repairs_automatic _
    · exact emits_done trivial
  refine emits_bind hrollout fun rollout _ => ?_
  cases rollout with
  | some report =>
      exact emits_bind (emits_reportRollout report policy image) fun _ _ => emits_done trivial
  | none => exact emits_plainUpdate (updatable_of_permits repairs_automatic allowed) _ _ _ _

theorem emits_processContainer {name : String} {policy : Policy} {labels : LabelMap}
    (hpolicy : Labels.parsePolicy (L name) settings.policyDefaults = .ok policy)
    (henabled : policy.enabled = true) (hmode : policy.mode ≠ .off)
    (target : Probe.ProbeTarget) (lastFailed lastNotified : Option String) :
    Emits (Honest L) (Moves (Swept settings L))
      (processContainer docker cfg now name policy labels target lastFailed lastNotified settings)
      fun _ => True := by
  have hprobe : Emits (Honest L) (Moves (Swept settings L)) (Probe.probeImage target.image)
      fun _ => True := by
    unfold Probe.probeImage
    split
    · exact emits_done trivial
    · refine emits_bind (emits_request (fun _ => moves_of_none rfl) fun _ _ => trivial) fun _ _ => ?_
      exact emits_bind (emits_request (fun _ => moves_of_none rfl) fun _ _ => trivial)
        fun _ _ => emits_done trivial
  refine emits_bind hprobe fun outcome _ => ?_
  have allowed : policy.mode ≠ .watch → Automatic settings.policyDefaults .update (L name) := by
    refine fun hne => ⟨Labels.not_saysNo_of_enabled hpolicy henabled hmode, fun _ => ?_⟩
    rintro ⟨watching, hwatching, hwatch⟩
    rw [hpolicy] at hwatching
    cases hwatching
    exact hne hwatch
  have hact (digests : Probe.LocalDigests) (latest : String) (tag : Option String) :
      Emits (Honest L) (Moves (Swept settings L))
        (actOnUpdate docker cfg now name policy labels target digests latest tag lastFailed
          lastNotified settings) fun _ => True := by
    unfold actOnUpdate
    split
    · unfold reportAvailable
      split
      · exact emits_bind (emits_request (fun _ => moves_of_none rfl) fun _ _ => trivial)
          fun _ _ => emits_done trivial
      · exact emits_done trivial
    · exact emits_done trivial
    all_goals
      split
      · exact emits_done trivial
      · exact emits_bind (emits_applyUpdate (allowed (by simp_all)) _ _ _)
          fun _ _ => emits_done trivial
  cases outcome with
  | fetched digests latest tag =>
      simp only [actOnProbe]
      split
      · exact emits_done trivial
      · exact emits_done trivial
      · exact hact digests latest tag
  | _ => exact emits_done trivial

theorem emits_resolveTarget {P : Role → String → Prop} (c : ContainerSummary) :
    Emits (Honest L) (Moves P) (Probe.resolveTarget c).run fun _ => True := by
  unfold Probe.resolveTarget
  split
  · exact emits_done trivial
  · split
    · split
      · exact emits_done trivial
      · exact emits_try_bind (fun _ => True)
          ((emits_inspect (quiet_moves P) _).weaken fun r _ => by cases r <;> trivial)
          fun _ _ => emits_done trivial
    · exact emits_done trivial

/-- **Visiting a listed container moves nothing that says no, and nothing watched.** -/
theorem emits_visit {c : ContainerSummary} (hlabels : labelsOf c.labels = L (containerName c))
    (sweep : Sweep) :
    Emits (Honest L) (Moves (Swept settings L)) (visit docker cfg now settings c sweep)
      fun _ => True := by
  unfold visit
  dsimp only
  split
  · exact emits_done trivial
  split
  · exact emits_done trivial
  split
  case h_1 => exact emits_done trivial
  case h_2 policy hpolicy =>
    change Labels.parsePolicy (labelsOf c.labels) _ = _ at hpolicy
    rw [hlabels] at hpolicy
    split
    · exact emits_done trivial
    · next hgate =>
      simp only [Bool.or_eq_true, Bool.not_eq_true', not_or, Bool.not_eq_false,
        beq_iff_eq] at hgate
      split
      · exact emits_done trivial
      · unfold visitEnabled
        dsimp only
        split
        · refine emits_bind (emits_resolveTarget c) fun target _ => ?_
          cases target with
          | error e => exact emits_done trivial
          | ok target =>
              exact emits_bind (emits_processContainer hpolicy hgate.1 hgate.2 _ _ _)
                fun _ _ => emits_done trivial
        · exact emits_done trivial

theorem emits_sweepContainers {rows : List ContainerSummary}
    (hlabels : ∀ row ∈ rows, labelsOf row.labels = L (containerName row)) (sweep : Sweep) :
    Emits (Honest L) (Moves (Swept settings L))
      (sweepContainers docker cfg now settings rows sweep) fun _ => True := by
  induction rows generalizing sweep with
  | nil => exact emits_done trivial
  | cons row rows ih =>
      refine emits_bind (emits_request (fun _ => moves_of_none rfl) fun _ _ => trivial)
        fun stopping _ => ?_
      cases stopping with
      | true => exact emits_done trivial
      | false =>
          refine emits_bind (emits_visit (hlabels _ List.mem_cons_self) sweep) fun sweep _ => ?_
          exact ih (fun r hr => hlabels r (List.mem_cons_of_mem _ hr)) sweep

theorem emits_runTick (memory : Memory) :
    Emits (Honest L) (Moves (Swept settings L)) (runTick docker cfg settings memory)
      fun _ => True := by
  refine emits_bind (emits_listRunning (quiet_moves _).hushed) fun listed hlisted => ?_
  cases listed with
  | error e => exact emits_done trivial
  | ok rows =>
      refine emits_bind (emits_request (fun _ => moves_of_none rfl) fun _ _ => trivial)
        fun now _ => ?_
      exact emits_bind (emits_sweepContainers ((hlisted rows rfl).running rows rfl) _)
        fun _ _ => emits_done trivial

end Scheduler

/-! ## The command -/

theorem emits_runWith (name : String) (health : HealthConfig) (settings : ResolvedSettings)
    (ts : TsProvider) :
    Emits (Honest L) (Moves (Permits Manual L))
      (Commands.runWith docker name health settings ts) fun _ => True := by
  refine emits_bind (emits_inspect (quiet_moves _).hushed name) fun inspected hinspected => ?_
  cases inspected with
  | error e => exact emits_done trivial
  | ok spec =>
      have hspec := labels_of_inspected (hinspected spec rfl)
      simp only [Commands.recreateInspected]
      cases hopted : Commands.optedIn name (spec.config.labels.getD fun _ => none) settings with
      | error e => exact emits_done trivial
      | ok policy =>
          have hname : ¬ SaysNo (L name) := by
            rw [← hspec.1]
            unfold Commands.optedIn at hopted
            split at hopted
            · cases hopted
            · next policy' hpolicy =>
              split_ifs at hopted with hgate
              simp only [Bool.or_eq_true, Bool.not_eq_true', not_or, Bool.not_eq_false,
                beq_iff_eq] at hgate
              exact Labels.not_saysNo_of_enabled hpolicy hgate.1 hgate.2
          have hrollout : Emits (Honest L) (Moves (Permits Manual L))
              (Commands.manualRollout docker spec health settings ts) fun _ => True := by
            unfold Commands.manualRollout
            split
            · exact emits_forContainer (fun _ _ h => h.1) (fun _ h => h) ts
            · exact emits_done trivial
          refine emits_bind hrollout fun rollout _ => ?_
          cases rollout with
          | some report => exact emits_done trivial
          | none =>
              have updatable : Updatable (Honest L) (Permits Manual L) docker name :=
                updatable_of_permits (fun _ h => h) hname
              exact emits_bind (updatable.recreateWithHealth _ _ _ ts)
                fun _ _ => emits_done trivial

/-! ## Every path -/

/-- **An opt-out is absolute.** Whatever the daemon does, as long as its reports fit the labels
`L`: a scheduler tick and a rollout move no container whose labels say no, and none that is
watched except to repair it; the `recreate` command moves no container whose labels say no. -/
theorem opt_out_is_absolute (L : String → LabelMap) (docker : Docker)
    (settings : ResolvedSettings) :
    (∀ cfg memory events out,
      Produces (Scheduler.runTick docker cfg settings memory) events out →
      (∀ e ∈ events, Honest L e) →
      ∀ e ∈ events, ∀ role ref, e.call.moves = some (role, ref) →
        ¬ SaysNo (L ref) ∧ (role ≠ .repair → ¬ Watched settings.policyDefaults (L ref))) ∧
    (∀ container labels cfg defaults own ts events out,
      Produces (Rollout.forContainer docker container labels cfg defaults own ts) events out →
      (∀ e ∈ events, Honest L e) →
      ∀ e ∈ events, ∀ role ref, e.call.moves = some (role, ref) →
        ¬ SaysNo (L ref) ∧ (role ≠ .repair → ¬ Watched defaults (L ref))) ∧
    (∀ name health ts events out,
      Produces (Commands.runWith docker name health settings ts) events out →
      (∀ e ∈ events, Honest L e) →
      ∀ e ∈ events, ∀ role ref, e.call.moves = some (role, ref) → ¬ SaysNo (L ref)) := by
  refine ⟨?_, ?_, ?_⟩
  · intro cfg memory events out produced honest
    exact (emits_runTick memory events out produced honest).1
  · intro container labels cfg defaults own ts events out produced honest
    exact (emits_forContainer (fun _ _ h => h) repairs_automatic ts events out produced honest).1
  · intro name health ts events out produced honest
    exact (emits_runWith name health settings ts events out produced honest).1

/-! Two replicas of an enabled service run next to a service that is opted out. The daemon refuses
every create. -/

def memberLabels (service enable : String) : LabelMap :=
  LabelMap.ofPairs [("freshdock.enable", enable), ("freshdock.mode", "live"),
    ("com.docker.compose.project", "stack"), ("com.docker.compose.service", service)]

/-- The labels by reference: `kept` is opted out, and all else is the service `web`. -/
def mixedLabels (ref : String) : LabelMap :=
  if ref = "kept" then memberLabels "kept" "false" else memberLabels "web" "true"

def mixedRow (name : String) : ContainerSummary where
  id := none
  names := some [name]
  image := some "app"
  imageId := some "old-image"
  labels := some (mixedLabels name)
  state := some .running
  networkMode := none

def mixedNames : List String := ["kept", "web-1", "web-2"]

def mixedDaemon : Obliging where
  inspect ref :=
    if ref ∈ mixedNames then .ok (inspectReport ref "app" (mixedLabels ref)
      ⟨some .running, some true, none, none, some .healthy⟩)
    else .error (.bollard ⟨.dockerResponseServerError 404 "no such container", "no such container"⟩)
  running := mixedNames.map mixedRow
  project := mixedNames.map mixedRow
  create _ := .error (.bollard ⟨.dockerResponseServerError 409 "name in use", "name in use"⟩)
  rename _ := .ok ()

/-- Only what is not `kept` is renamed, and the image is behind its registry. -/
def mixedAnswer : Handler Call Call.Reply Nat
  | .renameContainer _ source target, t =>
      (some (if source = "kept" ∨ target = "kept" then
        .error (.bollard ⟨.dockerResponseServerError 409 "in use", "in use"⟩) else .ok ()), t)
  | .inspectImage _, t => (some (.ok ⟨some "old-image", some ["app@sha256:old"]⟩), t)
  | .fetchDigest _, t => (some (.ok "sha256:new"), t)
  | call, t => mixedDaemon.answer call t

theorem mixedRow_honest {row : ContainerSummary} (h : row ∈ mixedNames.map mixedRow) :
    labelsOf row.labels = mixedLabels (containerName row) := by
  have named : ∀ name ∈ mixedNames, containerName (mixedRow name) = name := by decide
  obtain ⟨name, hname, rfl⟩ := List.mem_map.mp h
  rw [named name hname]
  rfl

theorem mixedAnswer_honest (call : Call) (t : Nat) :
    Honest mixedLabels ⟨call, (mixedAnswer call t).1⟩ where
  inspected ref resp spec h hread := by
    obtain rfl : call = .inspectContainer ref := congrArg Event.call h
    have hreply := Option.some.inj (Event.reply_inj h)
    by_cases hname : ref ∈ mixedNames
    · obtain rfl := Except.ok.inj ((if_pos hname).symm.trans hreply)
      have trimmed : ∀ name ∈ mixedNames, Text.trimStartMatches name '/' = name := by decide
      obtain ⟨_, config, h, hconfig, _, hspec, _, hlabels, _, _⟩ := fromInspect_ok hread
      cases h
      cases hconfig
      rw [hlabels, hspec, trimmed ref hname]
      exact ⟨rfl, rfl⟩
    · cases (if_neg hname).symm.trans hreply
  running rows h row hrow := by
    obtain rfl : call = .listRunning := congrArg Event.call h
    cases h
    exact mixedRow_honest hrow
  project project rows h row hrow := by
    obtain rfl : call = .listProjectContainers project := congrArg Event.call h
    cases h
    exact mixedRow_honest hrow
  created role name body id h := by
    obtain rfl : call = .createContainer role name body := congrArg Event.call h
    cases h
  renamed role source target h := by
    obtain rfl : call = .renameContainer role source target := congrArg Event.call h
    have hreply := Option.some.inj (Event.reply_inj h)
    by_cases hkept : source = "kept" ∨ target = "kept"
    · cases (if_pos hkept).symm.trans hreply
    · rw [not_or] at hkept
      rw [mixedLabels, mixedLabels, if_neg hkept.1, if_neg hkept.2]

def mixedDocker : Docker := ⟨"1.44", none, 10⟩

def mixedConfig : Scheduler.SchedulerConfig where
  pollInterval := Duration.fromSecs 300
  tick := Duration.fromSecs 60
  health := .default
  ownIdPrefix := none
  zone := .utc

/-- The path moves `web-1` and leaves `kept` alone. -/
def SparesKept (path : List CallEvent) : Prop :=
  path.any (fun e => e.call.moves = some (.update, "web-1")) = true ∧
    ∀ e ∈ path, ∀ role, e.call.moves ≠ some (role, "kept")

def mixedTick : List CallEvent :=
  (play mixedAnswer (Scheduler.runTick mixedDocker mixedConfig .default .empty) 0).trace

def mixedRollout : List CallEvent :=
  (play mixedAnswer (Rollout.forContainer mixedDocker "web-1" (mixedLabels "web-1") .default
    ResolvedSettings.default.policyDefaults none .system) 0).trace

def mixedCommand : List CallEvent :=
  (play mixedAnswer (Commands.runWith mixedDocker "web-1" .default .default .system) 0).trace

theorem opt_out_on_mixedDaemon :
    SparesKept mixedTick ∧ SparesKept mixedRollout ∧ SparesKept mixedCommand := by
  have absolute := opt_out_is_absolute mixedLabels mixedDocker .default
  have opted : SaysNo (mixedLabels "kept") := .inl ⟨"false", rfl, by decide⟩
  refine ⟨⟨by decide +kernel, fun e he role hmoves => ?_⟩,
    ⟨by decide +kernel, fun e he role hmoves => ?_⟩,
    ⟨by decide +kernel, fun e he role hmoves => ?_⟩⟩
  · exact (absolute.1 mixedConfig .empty _ _ (play_produces _ _ _)
      (play_events mixedAnswer_honest _ _) e he role "kept" hmoves).1 opted
  · exact (absolute.2.1 "web-1" (mixedLabels "web-1") .default _ none .system _ _
      (play_produces _ _ _) (play_events mixedAnswer_honest _ _) e he role "kept" hmoves).1 opted
  · exact absolute.2.2 "web-1" .default .system _ _ (play_produces _ _ _)
      (play_events mixedAnswer_honest _ _) e he role "kept" hmoves opted

end Freshdock.OptOut
