import Freshdock.Docker.Obliging
import Freshdock.Rollout.Moves
import Freshdock.Rollout.Runs

/-!
# Running one-shots and rollouts

A one-shot that is running is never a target of a plan that knows it for a one-shot. It can
still be touched in two ways: as a restart candidate, for which only its labels and its running
count, and as a plain service, when the listing holds replicas of its waiting service whose
labels disagree and the graph kept the edges of one that does not wait for it.

A rollout interrupts no running one-shot exactly when neither applies to any of them
(`Spared`).
-/

set_option autoImplicit false

namespace Freshdock.Rollout

open Interaction Docker Registry SelfId Text
open Compose (ProjectMember)
open Labels (PolicyDefaults)

/-! ## The statement -/

/-- A container that some live member of the project waits on to complete. -/
def AwaitedIn (members : List ProjectMember) (m : ProjectMember) : Prop :=
  ∃ service, Compose.nonEmpty (m.labels Compose.labelService) = some service ∧
    ∃ w ∈ liveMembers members, ∃ info, Compose.parse w.labels = some info ∧
      ∃ d ∈ info.dependsOn, d.condition = .completedSuccessfully ∧ d.service = service

/-- What a daemon promises about the names of listed containers while `held` is in use: an
inspect by name is answered with that name, and neither a rename of an update nor a new id
takes `held`. -/
structure KeepsNames (members : List ProjectMember) (held : String) (e : CallEvent) : Prop where
  inspected : ∀ m ∈ members, ∀ resp name, e = ⟨.inspectContainer m.name, some (.ok resp)⟩ →
    resp.name = some name → trimStartMatches name '/' = m.name
  renamed : ∀ source target, e = ⟨.renameContainer .update source target, some (.ok ())⟩ →
    target ≠ held
  created : ∀ name body id, e = ⟨.createContainer .update name body, some (.ok id)⟩ → id ≠ held

/-- **Running one-shots are not interrupted, for one listing, trigger and defaults**: whatever the
outcomes of its steps, a rollout of the plan moves no awaited container that the listing shows
as running, network-namespace repairs aside. -/
def NeverInterrupts (project : String) (members : List ProjectMember) (trigger : String)
    (tag : Option String) (defaults : PolicyDefaults) (own : Option String) : Prop :=
  ∀ m ∈ members, m.running = true → AwaitedIn members m →
    ∀ (docker : Docker) (cfg : RolloutConfig) (ts : TsProvider) (events : List CallEvent)
      (out : Option RolloutReport),
      Produces (execute docker (plan project members trigger tag defaults own) cfg ts) events out →
      (∀ e ∈ events, KeepsNames members m.name e) →
      ∀ e ∈ events, ∀ role, role ≠ .repair → e.call.moves ≠ some (role, m.name)

/-! ## The condition -/

/-- An update of the plan reaches the service: a live member of it is admitted. -/
def Reached (input : PlanInput) (live : List ProjectMember) (service : String) : Prop :=
  ∃ m ∈ live, ∃ t, targetOf input m = some t ∧ t.service = service

theorem reached_iff {input : PlanInput} {live : List ProjectMember} {service : String} :
    Reached input live service ↔
      service ∈ (live.filterMap (targetOf input)).map PlannedTarget.service := by
  simp only [Reached, List.mem_map, List.mem_filterMap]
  constructor
  · rintro ⟨m, hm, t, htarget, hservice⟩
    exact ⟨t, ⟨m, hm, htarget⟩, hservice⟩
  · rintro ⟨t, ⟨m, hm, htarget⟩, hservice⟩
    exact ⟨m, hm, t, htarget, hservice⟩

/-- The member may be restarted, its service is not updated, and the service asks to be
restarted with one that is. -/
def Bounced (input : PlanInput) (live : List ProjectMember) (m : ProjectMember) : Prop :=
  ∃ info, Compose.parse m.labels = some info ∧ input.restartable m = true ∧
    ¬ Reached input live info.service ∧
    ∃ deps, (Compose.graphOf live).get? info.service = some deps ∧
      ∃ d ∈ deps, d.restart = true ∧ Reached input live d.service

/-- The graph has lost the edges that wait for the member's service, and the member is admitted
as any service is. -/
def Mistaken (input : PlanInput) (m : ProjectMember) : Prop :=
  ∃ info, Compose.parse m.labels = some info ∧ info.service ∉ input.awaited ∧
    (targetOf input m).isSome

/-- No running one-shot is bounced, and none is mistaken for a service. -/
def Spared (members : List ProjectMember) (trigger : String) (tag : Option String)
    (defaults : PolicyDefaults) (own : Option String) : Prop :=
  ∀ origin, originOf members trigger = some origin →
    ∀ m ∈ liveMembers members, m.running = true → AwaitedIn members m →
      ¬ Mistaken (planInput (liveMembers members) origin tag defaults own) m ∧
        ¬ Bounced (planInput (liveMembers members) origin tag defaults own)
          (liveMembers members) m

/-- **A running one-shot that the plan knows for one is not a target.** -/
theorem targetOf_running {input : PlanInput} {m : ProjectMember} {info : Compose.ComposeInfo}
    (hinfo : Compose.parse m.labels = some info) (hawaited : info.service ∈ input.awaited)
    (hrunning : m.running = true) : targetOf input m = none := by
  cases htarget : targetOf input m with
  | none => rfl
  | some t =>
      obtain ⟨info', hinfo', -, hadmitted, -⟩ := targetOf_eq_some.mp htarget
      obtain rfl : info = info' := by simpa [hinfo] using hinfo'
      have hcontains : input.awaited.contains info.service = true := by simpa using hawaited
      rw [hcontains] at hadmitted
      unfold PlanInput.admission at hadmitted
      split at hadmitted
      · cases hadmitted
      · split at hadmitted
        · cases hadmitted
        · split at hadmitted
          · cases hadmitted
          · simp only [PlanInput.admitPolicy, hrunning, Bool.not_true, Bool.and_false,
              Bool.false_eq_true, Bool.false_and, ite_false, ite_true] at hadmitted
            split at hadmitted <;> cases hadmitted

/-- A running one-shot that is a target is mistaken. -/
theorem mistaken_of_target {input : PlanInput} {m : ProjectMember} {t : PlannedTarget}
    (hrunning : m.running = true) (htarget : targetOf input m = some t) : Mistaken input m := by
  obtain ⟨info, hinfo, -⟩ := targetOf_eq_some.mp htarget
  refine ⟨info, hinfo, ?_, by rw [htarget]; rfl⟩
  intro hawaited
  rw [targetOf_running hinfo hawaited hrunning] at htarget
  cases htarget

section Plan

variable {project trigger : String} {members : List ProjectMember} {tag : Option String}
  {defaults : PolicyDefaults} {own : Option String}

theorem mem_allTargetServices {service : String} :
    service ∈ (plan project members trigger tag defaults own).allTargetServices ↔
      ∃ origin, originOf members trigger = some origin ∧
        Reached (planInput (liveMembers members) origin tag defaults own)
          (liveMembers members) service := by
  simp only [RolloutPlan.allTargetServices, List.mem_map, mem_targets_plan, Reached]
  constructor
  · rintro ⟨t, ⟨origin, horigin, m, hm, htarget⟩, rfl⟩
    exact ⟨origin, horigin, m, hm, t, htarget, rfl⟩
  · rintro ⟨origin, horigin, m, hm, t, htarget, rfl⟩
    exact ⟨t, ⟨origin, horigin, m, hm, htarget⟩, rfl⟩

/-- The members the plan restarts are the bounced ones. -/
theorem mem_restarts_iff (well : WellListed members) {origin m : ProjectMember}
    (horigin : originOf members trigger = some origin) (hm : m ∈ liveMembers members) :
    m.name ∈ (plan project members trigger tag defaults own).restartsFor
        (plan project members trigger tag defaults own).allTargetServices ↔
      Bounced (planInput (liveMembers members) origin tag defaults own) (liveMembers members) m := by
  have hservices (service : String) :
      service ∈ (plan project members trigger tag defaults own).allTargetServices ↔
        Reached (planInput (liveMembers members) origin tag defaults own) (liveMembers members)
          service := by
    rw [mem_allTargetServices]
    simp [horigin]
  rw [mem_restartsFor_plan]
  constructor
  · rintro ⟨origin', horigin', m', hm', service, hservice, hcandidate⟩
    obtain rfl : origin = origin' := by simpa [horigin] using horigin'
    obtain ⟨info, hinfo, hrestartable, rfl, hname⟩ := candidateOf_eq_some.mp hcandidate
    obtain rfl := well.eq_of_name (mem_of_live hm') (mem_of_live hm) hname
    obtain ⟨hnot, deps, hdeps, d, hd, hrestart, hreached⟩ :=
      Compose.mem_restartDependents.mp hservice
    exact ⟨info, hinfo, hrestartable, fun h => hnot ((hservices _).mpr h), deps, hdeps, d, hd,
      hrestart, (hservices _).mp hreached⟩
  · rintro ⟨info, hinfo, hrestartable, hnot, deps, hdeps, d, hd, hrestart, hreached⟩
    refine ⟨origin, horigin, m, hm, info.service, Compose.mem_restartDependents.mpr ?_,
      candidateOf_eq_some.mpr ⟨info, hinfo, hrestartable, rfl, rfl⟩⟩
    exact ⟨fun h => hnot ((hservices _).mp h), deps, hdeps, d, hd, hrestart,
      (hservices _).mpr hreached⟩

/-! ## Spared one-shots are not interrupted -/

/-- An update is asked to move no container called `held`, but for repairs. -/
def Avoids (held : String) (role : Role) (ref : String) : Prop := role ≠ .repair → ref ≠ held

theorem repairable_avoids {rely : CallEvent → Prop} {held dependent : String} :
    Repairable rely (Avoids held) dependent where
  itself h := absurd rfl h
  archive _ _ h := absurd rfl h
  replacement _ _ _ _ _ _ _ h := absurd rfl h

theorem updatable_avoids {docker : Docker} {held : String} {m : ProjectMember}
    (hm : m ∈ members) (hne : m.name ≠ held) :
    Updatable (KeepsNames members held) (Avoids held) docker m.name where
  owner spec hspec _ := by
    obtain ⟨resp, keeps, hread⟩ := hspec
    obtain ⟨name, _, hname, _, _, hspecName, _⟩ := fromInspect_ok hread
    rw [hspecName, keeps.inspected m hm resp name rfl hname]
    exact hne
  archive _ _ _ keeps _ := keeps.renamed _ _ rfl
  replacement _ _ _ keeps _ := keeps.created _ _ _ rfl
  dependents _ _ := repairable_avoids

theorem neverInterrupts_of_spared (well : WellListed members)
    (spared : Spared members trigger tag defaults own) :
    NeverInterrupts project members trigger tag defaults own := by
  intro m hm hrunning hawaited docker cfg ts events out produced keeps e he role hrole hmoves
  -- a target or a restarted container of m's name is m itself, since names are unique
  have htargets : ∀ t ∈ (plan project members trigger tag defaults own).targets,
      Updatable (KeepsNames members m.name) (Avoids m.name) docker t.container := by
    intro t ht
    obtain ⟨origin, horigin, m', hm', htarget⟩ := mem_targets_plan.mp ht
    obtain ⟨-, -, -, -, hcontainer, -⟩ := targetOf_eq_some.mp htarget
    rw [hcontainer]
    refine updatable_avoids (mem_of_live hm') ?_
    intro hname
    obtain rfl := well.eq_of_name (mem_of_live hm') hm hname
    exact (spared origin horigin m' hm' hrunning hawaited).1 (mistaken_of_target hrunning htarget)
  have hrestarts : ∀ c ∈ (plan project members trigger tag defaults own).restartsFor
      (plan project members trigger tag defaults own).allTargetServices,
      Avoids m.name .restart c := by
    rintro c hc - rfl
    obtain ⟨origin, horigin, m', hm', service, -, hcandidate⟩ := mem_restartsFor_plan.mp hc
    obtain ⟨-, -, -, -, hname⟩ := candidateOf_eq_some.mp hcandidate
    obtain rfl := well.eq_of_name (mem_of_live hm') hm hname
    exact (spared origin horigin m' hm' hrunning hawaited).2
      ((mem_restarts_iff well horigin hm').mp hc)
  exact (emits_execute htargets hrestarts cfg ts events out produced keeps).1 e he role m.name
    hmoves hrole rfl

/-! ## The others are -/

/-- A timestamp with more digits than `held` has characters. -/
def lateTimestamp (held : String) : TsProvider := .fixed ((10 ^ (held.length + 1) : Nat) : Int)

theorem archive_ne {held name archive : String}
    (h : IsArchiveOf name (Obliging.timestamp (lateTimestamp held)) archive) : archive ≠ held := by
  have hdigits : held.length + 1 < (toString ((10 ^ (held.length + 1) : Nat) : Int)).length := by
    have hle := (@Nat.length_repr_le_iff (10 ^ (held.length + 1)) (held.length + 1)
      (Nat.succ_pos _)).not.mpr (lt_irrefl _)
    exact Nat.lt_of_not_le hle
  have hlength : held.length < archive.length := by
    rcases h with rfl | ⟨n, rfl⟩
    · simp only [oldNameFor, Obliging.timestamp, lateTimestamp, String.length_append]
      omega
    · simp only [oldNameFor, Obliging.timestamp, lateTimestamp, String.length_append]
      omega
  intro heq
  rw [heq] at hlength
  exact lt_irrefl _ hlength

/-- A daemon on which every update succeeds: the one-shots exit 0, under the id `exited`, and
the others are healthy, under the id `healthy`. The name `held` is in use. -/
def completingDaemon (held exited healthy : String) (oneShots : List String) : Obliging where
  inspect ref := .ok (inspectReport ref "app" (fun _ => none)
    (if ref = exited then ⟨some .exited, some false, none, some 0, none⟩
      else ⟨some .running, some true, none, none, some .healthy⟩))
  running := []
  project := []
  create name := .ok (if oneShots.contains name then exited else healthy)
  rename target :=
    if target = held then .error (.bollard ⟨.dockerResponseServerError 409 "in use", "in use"⟩)
    else .ok ()

section Completing

variable {held exited healthy : String} {oneShots : List String}

theorem completingDaemon_keepsNames (well : WellListed members) (hexited : exited ≠ held)
    (hhealthy : healthy ≠ held) (call : Call) (t : Nat) :
    KeepsNames members held
      ⟨call, ((completingDaemon held exited healthy oneShots).answer call t).1⟩ where
  inspected m hm resp name h hname := by
    cases h
    cases hname
    exact well.trimmed m hm
  renamed source target h htarget := by
    subst htarget
    have hcall : call = .renameContainer .update source target := congrArg Event.call h
    subst hcall
    simp only [Obliging.answer, completingDaemon, if_true] at h
    cases h
  created name body id h := by
    cases h
    split
    · exact hexited
    · exact hhealthy

theorem completingDaemon_swappable (hne : exited ≠ healthy) {name : String}
    (htrim : trimStartMatches name '/' = name) :
    (completingDaemon held exited healthy oneShots).Swappable (lateTimestamp held) name
      (some (if oneShots.contains name then ⟨some .exited, some false, none, some 0, none⟩
        else ⟨some .running, some true, none, none, some .healthy⟩)) where
  quiet := rfl
  spec := by
    refine ⟨_, _, if oneShots.contains name then exited else healthy, _, rfl, rfl, ?_, ?_, rfl, rfl,
      ?_⟩
    · intro archive harchive
      exact if_neg (archive_ne harchive)
    · change Except.ok _ = Except.ok _
      rw [htrim]
    · change some _ = some _
      split
      · rw [if_pos rfl]
      · rw [if_neg (Ne.symm hne)]

end Completing

/-- **Every plan has a run in which all its targets succeed.** -/
theorem exists_completed_rollout (well : WellListed members) (held : String) :
    ∃ docker cfg ts events report,
      Produces (execute docker (plan project members trigger tag defaults own) cfg ts) events
        (some report) ∧
      report.aborted = none ∧ ∀ e ∈ events, KeepsNames members held e := by
  obtain ⟨exited, hexited⟩ := Infinite.exists_notMem_finset {held}
  obtain ⟨healthy, hhealthy⟩ := Infinite.exists_notMem_finset {held, exited}
  simp only [Finset.mem_insert, Finset.mem_singleton, not_or] at hexited hhealthy
  let p := plan project members trigger tag defaults own
  let oneShots := (p.targets.filter (·.kind = .oneShot)).map PlannedTarget.container
  let env := completingDaemon held exited healthy oneShots
  have each : ∀ target ∈ p.targets, ∃ step, Returns env.answer
      (runTarget ⟨"1.44", none, 1⟩ .default (lateTimestamp held) target) 0 (.ok step) 0 := by
    intro target htarget
    obtain ⟨origin, horigin, m, hm, hm'⟩ := mem_targets_plan.mp htarget
    obtain ⟨-, -, -, -, hcontainer, -⟩ := targetOf_eq_some.mp hm'
    have htrim : trimStartMatches target.container '/' = target.container := by
      rw [hcontainer]
      exact well.trimmed m (mem_of_live hm)
    have swappable := @completingDaemon_swappable held exited healthy oneShots
      (Ne.symm hhealthy.2) target.container htrim
    have hcontains : oneShots.contains target.container = decide (target.kind = .oneShot) := by
      rw [Bool.eq_iff_iff, List.contains_iff_mem, decide_eq_true_eq]
      constructor
      · intro hmem
        obtain ⟨other, hother, heq⟩ := List.mem_map.mp hmem
        obtain ⟨hother, hkind⟩ := List.mem_filter.mp hother
        obtain rfl := target_unique well hother htarget heq
        exact of_decide_eq_true hkind
      · intro hkind
        exact List.mem_map.mpr ⟨target, List.mem_filter.mpr ⟨htarget, decide_eq_true hkind⟩, rfl⟩
    rw [hcontains] at swappable
    unfold runTarget
    cases hkind : target.kind with
    | oneShot =>
        rw [hkind] at swappable
        exact ⟨_, returns_map (swappable.completed Nat.one_pos rfl _ _ _ _)⟩
    | service =>
        rw [hkind] at swappable
        obtain ⟨oldName, newId, hrun⟩ := @Obliging.Swappable.recreated env 0 ⟨"1.44", none, 1⟩
          _ _ _ swappable Nat.one_pos rfl HealthConfig.default (targetCleanup .default target)
          target.policy.hooks
        exact ⟨_, returns_map hrun⟩
  obtain ⟨report, ⟨hout, -⟩, haborted⟩ := returns_execute each
  have hrun := play_produces env.answer (execute ⟨"1.44", none, 1⟩ p .default (lateTimestamp held)) 0
  rw [hout] at hrun
  exact ⟨_, _, _, _, report, hrun, haborted,
    play_events (completingDaemon_keepsNames well hexited hhealthy.1) _ _⟩

theorem spared_of_neverInterrupts (well : WellListed members)
    (never : NeverInterrupts project members trigger tag defaults own) :
    Spared members trigger tag defaults own := by
  intro origin horigin m hm hrunning hawaited
  obtain ⟨docker, cfg, ts, events, report, hrun, haborted, keeps⟩ :=
    @exists_completed_rollout project trigger members tag defaults own well m.name
  have still := never m (mem_of_live hm) hrunning hawaited docker cfg ts events _ hrun keeps
  obtain ⟨first, rest, progress, steps, rfl, hfirst, hcompleted, hrest⟩ :=
    exists_restarts_of_execute hrun haborted
  constructor
  · rintro ⟨info, hinfo, -, hsome⟩
    obtain ⟨t, htarget⟩ := Option.isSome_iff_exists.mp hsome
    obtain ⟨-, -, -, -, hcontainer, -⟩ := targetOf_eq_some.mp htarget
    have ht : t ∈ (plan project members trigger tag defaults own).targets :=
      mem_targets_plan.mpr ⟨origin, horigin, m, hm, htarget⟩
    obtain ⟨run, step, within, hstep⟩ := exists_run_of_target hfirst hcompleted ht
    obtain ⟨hooks, cycled, more, cycle, rfl, hcycle⟩ := exists_cycle_of_runTarget hstep
    obtain ⟨resp, spec, before, hread, rfl, -, signal, timeout, hstop⟩ :=
      produces_recreateOne hcycle
    have hinspect := keeps _ (List.mem_append_left rest (within.mem (List.mem_append_left more
      (List.mem_append_left _ List.mem_cons_self))))
    obtain ⟨name, _, hname, _, _, hspecName, _⟩ := fromInspect_ok hread
    rw [hcontainer] at hinspect
    have htrim := hinspect.inspected m (mem_of_live hm) resp name rfl hname
    have hmem := List.mem_append_left rest (within.mem (List.mem_append_left more
      (List.mem_append_left (replaced .update spec.name spec spec.imageRef cycle.newId)
        (List.mem_cons_of_mem _ hstop))))
    refine still _ hmem .update (by decide) ?_
    rw [hspecName, htrim]
    rfl
  · intro hbounced
    obtain ⟨signal, timeout, reply, hstop⟩ := stop_of_runRestarts hrest
      ((mem_restarts_iff well horigin hm).mpr hbounced)
    exact still _ (List.mem_append_right first hstop) .restart (by decide) rfl

/-- **A rollout interrupts no running one-shot exactly when none of them is bounced by a
`restart: true` edge or mistaken for a service.** -/
theorem neverInterrupts_iff (well : WellListed members) :
    NeverInterrupts project members trigger tag defaults own ↔
      Spared members trigger tag defaults own :=
  ⟨spared_of_neverInterrupts well, neverInterrupts_of_spared well⟩

end Plan

/-! A migration that asks to be restarted with the service whose image moved. -/

def inFlightLabels (service dependsOn : String) : LabelMap :=
  LabelMap.ofPairs [("com.docker.compose.project", "stack"),
    ("com.docker.compose.service", service), ("com.docker.compose.depends_on", dependsOn),
    ("freshdock.enable", "true"), ("freshdock.mode", "live")]

def configMember : ProjectMember :=
  ⟨"config", "id-config", "app", none, inFlightLabels "config" "", true⟩

def migrateMember : ProjectMember :=
  ⟨"migrate", "id-migrate", "schema", none,
    inFlightLabels "migrate" "config:service_started:true", true⟩

def webMember : ProjectMember :=
  ⟨"web", "id-web", "site", none,
    inFlightLabels "web" "migrate:service_completed_successfully:false", true⟩

def inFlight : List ProjectMember := [configMember, migrateMember, webMember]

def inFlightInput : PlanInput :=
  planInput inFlight configMember none ⟨none, false, false⟩ none

theorem inFlight_wellListed : WellListed inFlight where
  nodup := by decide
  trimmed := by decide

theorem inFlight_awaited : AwaitedIn inFlight migrateMember := by
  refine ⟨"migrate", by decide, webMember, ?_,
    ⟨"stack", "web", [⟨"migrate", .completedSuccessfully, false⟩]⟩, by decide,
    ⟨"migrate", .completedSuccessfully, false⟩, by decide, rfl, rfl⟩
  exact List.mem_cons_of_mem _ (List.mem_cons_of_mem _ List.mem_cons_self)

theorem inFlight_bounced : Bounced inFlightInput inFlight migrateMember := by
  refine ⟨⟨"stack", "migrate", [⟨"config", .started, true⟩]⟩, by decide, by decide, ?_,
    [⟨"config", .started, true⟩], by decide, ⟨"config", .started, true⟩, by decide, rfl, ?_⟩
  · rw [reached_iff]
    decide
  · rw [reached_iff]
    decide

/-- A rollout restarts a migration in flight. -/
theorem inFlight_interrupted :
    ¬ NeverInterrupts "stack" inFlight "config" none ⟨none, false, false⟩ none := by
  intro never
  have spared := spared_of_neverInterrupts inFlight_wellListed never
  have hm : migrateMember ∈ liveMembers inFlight :=
    List.mem_cons_of_mem _ List.mem_cons_self
  exact (spared configMember rfl migrateMember hm rfl inFlight_awaited).2 inFlight_bounced

/-- The condition at this listing. -/
theorem neverInterrupts_iff_inFlight :
    NeverInterrupts "stack" inFlight "config" none ⟨none, false, false⟩ none ↔
      Spared inFlight "config" none ⟨none, false, false⟩ none :=
  neverInterrupts_iff inFlight_wellListed

end Freshdock.Rollout
