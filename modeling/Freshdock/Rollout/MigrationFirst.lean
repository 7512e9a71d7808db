import Freshdock.Health.OneShotExit
import Freshdock.Rollout.Attempts

/-!
# Migrations before their dependents

A service that waits for a migration to complete is updated after the migration was re-run. This
file proves it for one attempt, from any listing and against any daemon that keeps names apart
(`reran_of_moves`, `migration_first`).

**What it takes.** The plan has to cover the container that the attempt is for, since the
attempt falls back to the plain update otherwise. The migration must not be running, since a
one-shot in flight is left alone and its dependents are not. The migration must not reach a cycle,
since services on a cycle are ordered by name.

The graph is taken as it is, and an exit is taken at its word: what is proved is about the edges
that the graph records (`Compose.Awaits`), and about daemons whose reports of an exit say which
(`ExitsExplicit`).
-/

set_option autoImplicit false

namespace Freshdock.Rollout

open Interaction Docker Registry Text
open Compose (ProjectMember)
open Labels (PolicyDefaults)
open Health (Report NotUpNorFailed ExitedZero probed reports reportOf)

/-! ## The statement -/

/-- The member is a container of the service. -/
def MemberOf (service : String) (m : ProjectMember) : Prop :=
  ∃ info, Compose.parse m.labels = some info ∧ info.service = service

/-- A member that may be re-run for the moved image: it is on it, not opted out, not in watch
mode, its labels can be read, and it is not freshdock itself. -/
structure Eligible (input : PlanInput) (service : String) (m : ProjectMember) : Prop where
  service : MemberOf service m
  image : sameImage m input.updatedImage input.updatedImageId = true
  notSelf : input.isSelf m = false
  notOptedOut : Labels.explicitlyOptsOut m.labels = false
  policy : ∃ policy, Labels.parsePolicy m.labels input.defaults = .ok policy ∧
    policy.mode ≠ .watch

/-- The container `name` was stopped and created anew from its own spec, and a probe of what was
created was told `finished`. -/
def Reran (finished : Report → Prop) (name : String) (events : List CallEvent) : Prop :=
  ∃ front spec id rest report, events = front ++ replaced .update name spec spec.imageRef id ++ rest ∧
    (∃ signal timeout, ⟨.stopContainer .update name signal timeout, some (.ok ())⟩ ∈ front) ∧
    probed id report ∈ rest ∧ finished report

/-- What a daemon promises about names during an attempt: the listed names are kept apart, and an
inspect by the attempt's reference is answered with the container's name. -/
structure NamesHold (a : Attempt) (members : List ProjectMember) (e : CallEvent) : Prop
    extends NamesApart (members.map ProjectMember.name) e where
  addressed : ∀ resp name, e = ⟨.inspectContainer a.ref, some (.ok resp)⟩ →
    resp.name = some name → trimStartMatches name '/' = a.container

/-- **Migrations come before their dependents, for one attempt**: when it moves a
container as an update, then for every service that this container's own label waits for to
complete, and that has an eligible member, a container of that service was re-run before and
reported exit 0. -/
def MigratesFirst (a : Attempt) : Prop :=
  ∀ events out members origin, Produces a.run events out → a.Listed events members →
    WellListed members → (∀ e ∈ events, NamesHold a members e) →
    originOf members a.container = some origin →
    ∀ m ∈ members, ∀ info, Compose.parse m.labels = some info →
    ∀ d ∈ info.dependsOn, d.condition = .completedSuccessfully →
    (∃ x ∈ liveMembers members, Eligible (a.input members origin) d.service x) →
    ∀ before e after, events = before ++ e :: after → e.call.moves = some (.update, m.name) →
      ∃ x ∈ members, MemberOf d.service x ∧ Reran ExitedZero x.name before

/-- The container that the attempt is for is a target of its plan. -/
structure Covers (a : Attempt) (members : List ProjectMember) (origin : ProjectMember) : Prop where
  listed : originOf members a.container = some origin
  admitted : (targetOf (a.input members origin) origin).isSome

/-! ## Targets -/

section Targets

variable {a : Attempt} {project service : String} {members : List ProjectMember}
  {origin x : ProjectMember}

theorem originOf_eq_some (h : originOf members a.container = some origin) :
    origin ∈ liveMembers members ∧ origin.name = a.container := by
  unfold originOf at h
  exact ⟨List.mem_of_find?_eq_some h, by simpa using List.find?_some h⟩

/-- A plan covers the container exactly when its own row is admitted. -/
theorem covers_iff (well : WellListed members) (horigin : originOf members a.container = some origin) :
    (a.plan project members).covers a.container = true ↔ Covers a members origin := by
  obtain ⟨hlive, hname⟩ := originOf_eq_some horigin
  simp only [RolloutPlan.covers, List.any_eq_true, beq_iff_eq, Attempt.plan, mem_targets_plan]
  constructor
  · rintro ⟨t, ⟨origin', horigin', m, hm, htarget⟩, hcontainer⟩
    obtain rfl : origin = origin' := by simpa [horigin] using horigin'
    obtain ⟨-, -, -, -, htname, -⟩ := targetOf_eq_some.mp htarget
    obtain rfl : m = origin :=
      well.eq_of_name (mem_of_live hm) (mem_of_live hlive) (by rw [← htname, hcontainer, hname])
    exact ⟨horigin, Option.isSome_iff_exists.mpr ⟨t, htarget⟩⟩
  · rintro ⟨-, admitted⟩
    obtain ⟨t, htarget⟩ := Option.isSome_iff_exists.mp admitted
    obtain ⟨-, -, -, -, htname, -⟩ := targetOf_eq_some.mp htarget
    exact ⟨t, ⟨origin, horigin, origin, hlive, htarget⟩, htname.trans hname⟩

/-- **An eligible member of an awaited service becomes a one-shot target when it is not
running.** -/
theorem targetOf_of_eligible {input : PlanInput} (eligible : Eligible input service x)
    (awaited : service ∈ input.awaited) (finished : x.running = false) :
    ∃ t, targetOf input x = some t ∧ t.container = x.name ∧ t.service = service ∧
      t.kind = .oneShot := by
  obtain ⟨info, hinfo, rfl⟩ := eligible.service
  obtain ⟨policy, hpolicy, hmode⟩ := eligible.policy
  have hcontains : input.awaited.contains info.service = true := by simpa using awaited
  have hadmission : input.admission true x = .ok policy := by
    simp [PlanInput.admission, PlanInput.admitPolicy, eligible.notSelf, eligible.notOptedOut,
      hpolicy, hmode, finished]
  refine ⟨⟨x.name, info.service, .oneShot, policy⟩, targetOf_eq_some.mpr ?_, rfl, rfl, rfl⟩
  exact ⟨info, hinfo, eligible.image, by rw [hcontains]; exact hadmission, rfl, rfl,
    by rw [hcontains]; rfl⟩

/-- The service of a target is the one of its member. -/
theorem service_of_target (well : WellListed members) {m : ProjectMember} (hm : m ∈ members)
    (hservice : MemberOf service m) {t : PlannedTarget}
    (ht : t ∈ (a.plan project members).targets) (hcontainer : m.name = t.container) :
    t.service = service := by
  obtain ⟨origin, -, m', hm', htarget⟩ := mem_targets_plan.mp ht
  obtain ⟨info, hinfo, -, -, hname, hinfoService, -⟩ := targetOf_eq_some.mp htarget
  obtain rfl := well.eq_of_name (mem_of_live hm') hm (hname.symm.trans hcontainer.symm)
  obtain ⟨info', hinfo', rfl⟩ := hservice
  rw [hinfoService, show info = info' by simpa [hinfo] using hinfo']

end Targets

/-! ## The containers an update moves -/

section Moved

variable {a : Attempt} {members : List ProjectMember}

/-- The run of a target moves its container only. -/
theorem container_of_runTarget {project : String} {t : PlannedTarget}
    (ht : t ∈ (a.plan project members).targets) {events : List CallEvent}
    {out : Option (Except AbortReason RolloutStep)}
    (produced : Produces (runTarget a.docker a.cfg a.ts t) events out)
    (names : ∀ e ∈ events, NamesHold a members e) {e : CallEvent} (he : e ∈ events)
    {m : ProjectMember} (hm : m ∈ members) {role : Role} (hrole : role ≠ .repair)
    (moved : e.call.moves = some (role, m.name)) : m.name = t.container := by
  obtain ⟨origin, -, m', hm', htarget⟩ := mem_targets_plan.mp ht
  obtain ⟨-, -, -, -, hcontainer, -⟩ := targetOf_eq_some.mp htarget
  have inUse : t.container ∈ members.map ProjectMember.name := by
    rw [hcontainer]
    exact List.mem_map_of_mem (mem_of_live hm')
  have updatable := @updatable_movesOnly_self (NamesHold a members) _ _ a.docker inUse
    fun _ holds => holds.toNamesApart
  exact (emits_runTarget updatable a.cfg a.ts events out produced names).1 e he role m.name moved
    hrole (List.mem_map_of_mem hm)

/-- The plain update of a listed container moves that container only. -/
theorem container_of_plain {origin : ProjectMember}
    (horigin : originOf members a.container = some origin) {events : List CallEvent}
    {out : Option (Except DockerError RecreateOutcome)}
    (produced : Produces
      (recreateWithHealth a.docker a.ref a.cfg.health a.cleanup a.hooks a.ts).run events out)
    (names : ∀ e ∈ events, NamesHold a members e) {e : CallEvent} (he : e ∈ events)
    {m : ProjectMember} (hm : m ∈ members) {role : Role} (hrole : role ≠ .repair)
    (moved : e.call.moves = some (role, m.name)) : m.name = a.container := by
  obtain ⟨hlive, hname⟩ := originOf_eq_some horigin
  have inUse : a.container ∈ members.map ProjectMember.name := by
    rw [← hname]
    exact List.mem_map_of_mem (mem_of_live hlive)
  have updatable : Updatable (NamesHold a members)
      (MovesOnly (members.map ProjectMember.name) a.container) a.docker a.ref :=
    updatable_movesOnly inUse (fun _ holds => holds.toNamesApart)
      fun resp name holds => holds.addressed resp name rfl
  exact (updatable.recreateWithHealth a.cfg.health a.cleanup a.hooks a.ts events out produced
    names).1 e he role m.name moved hrole (List.mem_map_of_mem hm)

end Moved

/-! ## Re-runs -/

theorem Reran.within {finished : Report → Prop} {name : String} {part whole : List CallEvent}
    (h : Reran finished name part) (within : Within part whole) : Reran finished name whole := by
  obtain ⟨before, after, rfl⟩ := within
  obtain ⟨front, spec, id, rest, report, rfl, ⟨signal, timeout, hstop⟩, hprobed, hover⟩ := h
  refine ⟨before ++ front, spec, id, rest ++ after, report, by simp, ⟨signal, timeout, ?_⟩, ?_, hover⟩
  · exact List.mem_append_right _ hstop
  · exact List.mem_append_left _ hprobed

/-- A report that a container which an update created is over, with no exit code other than 0, says
that it exited with 0. -/
def ExitsExplicit (events : List CallEvent) : Prop :=
  ∀ name body id report, ⟨.createContainer .update name body, some (.ok id)⟩ ∈ events →
    probed id report ∈ events → NotUpNorFailed report → ExitedZero report

/-- Where exits are explicit, what was re-run exited with 0. -/
theorem Reran.exitedZero {name : String} {part whole : List CallEvent}
    (h : Reran NotUpNorFailed name part) (explicit : ExitsExplicit whole) (sub : part ⊆ whole) :
    Reran ExitedZero name part := by
  obtain ⟨front, spec, id, rest, report, rfl, hstop, hprobed, hover⟩ := h
  have hcreated : ⟨.createContainer .update name (spec.toCreateBody spec.imageRef), some (.ok id)⟩ ∈
      front ++ replaced .update name spec spec.imageRef id ++ rest :=
    List.mem_append_left _ (List.mem_append_right _ List.mem_cons_self)
  exact ⟨front, spec, id, rest, report, rfl, hstop, hprobed,
    explicit _ _ id report (sub hcreated) (sub (List.mem_append_right _ hprobed)) hover⟩

theorem probed_of_mem_reports {id : String} {events : List CallEvent} {report : Report}
    (h : report ∈ reports id events) : probed id report ∈ events := by
  obtain ⟨e, he, hreport⟩ := List.mem_filterMap.mp h
  unfold reportOf at hreport
  split at hreport
  · split at hreport
    · next heq =>
      subst heq
      cases hreport
      exact he
    · cases hreport
  · cases hreport

/-- **A one-shot's step that succeeded re-ran its container**, and the report that ended its gate
said that it was over, with no exit code other than 0. -/
theorem reran_of_runTarget {a : Attempt} {members : List ProjectMember} {x : ProjectMember}
    (hx : x ∈ members) {t : PlannedTarget} (hcontainer : t.container = x.name)
    (hkind : t.kind = .oneShot) {events : List CallEvent} {step : RolloutStep}
    (produced : Produces (runTarget a.docker a.cfg a.ts t) events (some (.ok step)))
    (names : ∀ e ∈ events, NamesHold a members e) : Reran NotUpNorFailed x.name events := by
  rw [runTarget, hkind] at produced
  obtain ⟨outcome, hstep, hrun⟩ := produced.of_map
  obtain rfl : outcome = .ok .completed := by
    match outcome, hstep with
    | .ok .completed, _ => rfl
  obtain ⟨cycled, outcome, gated, rfl, hcycled, hgated⟩ := hrun.of_except_bind_ok
  replace hgated := hgated.of_lift_ok
  cases outcome with
  | skipped reason =>
      obtain ⟨-, hout⟩ := hgated.of_done
      cases hout
  | completed cycle =>
      obtain ⟨resp, spec, before, hread, rfl, -, signal, timeout, hstop⟩ :=
        produces_recreateOne hcycled
      obtain ⟨front, report, more, hreports, -, hover⟩ := Health.reports_of_completedGate hgated
      have hreport : report ∈ reports cycle.newId gated := by
        rw [hreports]
        exact List.mem_append_right _ List.mem_cons_self
      have hname : spec.name = x.name := by
        obtain ⟨name, _, hname, _, _, hspecName, _⟩ := fromInspect_ok hread
        rw [hspecName]
        refine (names _ List.mem_cons_self).inspected x.name (List.mem_map_of_mem hx) resp name ?_
          hname
        rw [hcontainer]
      rw [hname] at hstop ⊢
      refine ⟨_ :: before, spec, cycle.newId, gated, report, rfl, ⟨signal, timeout, ?_⟩, ?_,
        (Health.notUpNorFailed_iff report).mpr hover⟩
      · exact List.mem_cons_of_mem _ hstop
      · exact probed_of_mem_reports hreport

/-! ## Migrations come first -/

section First

variable {a : Attempt} {project service migration : String} {members : List ProjectMember}
  {origin m x : ProjectMember} {before after : List CallEvent} {e : CallEvent} {role : Role}

/-- What has to be re-run before a service is moved: a member of the migration that the service
waits for, eligible and over. -/
structure Pending (a : Attempt) (members : List ProjectMember) (origin : ProjectMember)
    (service migration : String) (x : ProjectMember) : Prop where
  awaits : Compose.Awaits (Compose.graphOf (liveMembers members)) service migration
  acyclic : Compose.Acyclic (Compose.graphOf (liveMembers members)) migration
  live : x ∈ liveMembers members
  eligible : Eligible (a.input members origin) migration x
  finished : x.running = false

/-- A pending migration is a target of the plan. -/
theorem Pending.target (pending : Pending a members origin service migration x)
    (horigin : originOf members a.container = some origin) :
    ∃ t ∈ (a.plan project members).targets, t.container = x.name ∧ t.service = migration ∧
      t.kind = .oneShot := by
  obtain ⟨t, htarget, hcontainer, hservice, hkind⟩ :=
    targetOf_of_eligible pending.eligible pending.awaits.mem pending.finished
  exact ⟨t, mem_targets_plan.mpr ⟨origin, horigin, x, pending.live, htarget⟩, hcontainer, hservice,
    hkind⟩

/-- While the targets of a plan are updated, a pending migration is re-run before a container
that waits for it is moved. -/
theorem Pending.reran_in_targets (pending : Pending a members origin service migration x)
    (well : WellListed members) (horigin : originOf members a.container = some origin)
    {out : Option Progress}
    (produced : Produces (runTargets a.docker a.cfg a.ts (a.plan project members).targets .start)
      (before ++ e :: after) out)
    (names : ∀ e' ∈ before ++ e :: after, NamesHold a members e') (hm : m ∈ members)
    (hservice : MemberOf service m) (hrole : role ≠ .repair)
    (moved : e.call.moves = some (role, m.name)) : Reran NotUpNorFailed x.name before := by
  obtain ⟨t', ht', hcontainer', hservice', hkind'⟩ := @Pending.target _ project _ _ _ _ _ pending horigin
  obtain ⟨done, t, todo, run, verdict, hsplit, hrun, he, within, hdone⟩ :=
    exists_target_of_event produced
  have ht : t ∈ (a.plan project members).targets := by
    rw [hsplit]
    exact List.mem_append_right _ List.mem_cons_self
  have hcontainer : m.name = t.container :=
    container_of_runTarget ht hrun (fun e he => names e (within.mem he)) he hm hrole moved
  have hdone' : t' ∈ done := target_before pending.acyclic pending.awaits.dependsOn hsplit
    (service_of_target well hm hservice ht hcontainer) ht' hservice'
  obtain ⟨run', step, within', hrun'⟩ := hdone t' hdone'
  have names' : ∀ e ∈ run', NamesHold a members e :=
    fun e he => names e (List.mem_append_left _ (within'.mem he))
  exact (reran_of_runTarget (mem_of_live pending.live) hcontainer' hkind' hrun' names').within within'

/-- **Before an attempt moves a container of a service, it has re-run the pending migrations
that the service waits for.** -/
theorem Pending.reran_of_moves (pending : Pending a members origin service migration x)
    (well : WellListed members) (covers : Covers a members origin)
    {out : Option AttemptOutcome} (produced : Produces a.run (before ++ e :: after) out)
    (listed : a.Listed (before ++ e :: after) members)
    (names : ∀ e' ∈ before ++ e :: after, NamesHold a members e') (hm : m ∈ members)
    (hservice : MemberOf service m) (hrole : role ≠ .repair)
    (moved : e.call.moves = some (role, m.name)) : Reran NotUpNorFailed x.name before := by
  obtain ⟨project, listing, rest, hsplit, still, hrest⟩ := listed.produces produced
  rcases place_of_append hsplit.symm with ⟨after', rfl⟩ | ⟨before', rfl, rfl⟩
  · have hstill := still e (by simp)
    rw [moved] at hstill
    cases hstill
  suffices h : Reran NotUpNorFailed x.name before' from h.within ⟨listing, [], by simp⟩
  replace names : ∀ e' ∈ before' ++ e :: after, NamesHold a members e' := by
    intro e he
    exact names e (by simp only [List.append_assoc]; exact List.mem_append_right _ he)
  obtain ⟨t', ht', hcontainer', -, hkind'⟩ := @Pending.target _ project _ _ _ _ _ pending covers.listed
  rcases Attempt.onListing_cases hrest with hnil | ⟨honly, out', hplain⟩ | ⟨-, out', hexecute⟩
  · exact absurd hnil (by simp)
  · -- a plan that adds nothing has the migration for its only target, and moves nothing else
    have hadds := honly ((covers_iff well covers.listed).mpr covers)
    obtain ⟨htrigger, -⟩ := targets_of_addsNothing hadds ht'
    have hmoved := container_of_plain covers.listed hplain names (by simp) hm hrole moved
    obtain rfl := well.eq_of_name hm (mem_of_live pending.live)
      (by rw [hmoved, ← htrigger, hcontainer'])
    obtain ⟨info, hinfo, rfl⟩ := hservice
    obtain ⟨info', hinfo', hmigration⟩ := pending.eligible.service
    obtain rfl : info = info' := by simpa [hinfo] using hinfo'
    have hself := pending.awaits.dependsOn
    rw [hmigration] at hself
    exact absurd (.single hself) (pending.acyclic migration .refl)
  · rcases hexecute.of_bind with ⟨-, htargets⟩ | ⟨first, progress, rest, hsplit, htargets, hrest⟩
    · exact pending.reran_in_targets well covers.listed htargets names hm hservice hrole moved
    rcases place_of_append hsplit.symm with ⟨after', rfl⟩ | ⟨before'', rfl, rfl⟩
    · rw [hsplit] at names
      exact pending.reran_in_targets well covers.listed htargets
        (fun e he => names e (List.mem_append_left _ he)) hm hservice hrole moved
    -- the restarts follow targets that all succeeded
    have haborted : progress.aborted = none := by
      cases haborted : progress.aborted with
      | none => rfl
      | some reason =>
          rw [concludeRollout, haborted] at hrest
          obtain ⟨hnil, -⟩ := produces_done_iff.mp hrest
          exact absurd hnil (by simp)
    obtain ⟨run, step, within, hrun⟩ := exists_run_of_target htargets haborted ht'
    refine (reran_of_runTarget (mem_of_live pending.live) hcontainer' hkind' hrun ?_).within
      (within.append_right before'')
    intro e he
    exact names e (by simp [within.mem he])

/-- **An attempt whose plan covers its container re-runs the migrations first**: before it moves
a container of a service as an update, a container of every migration that the service waits for by
the graph, that reaches no cycle, and that has an eligible member which is not running, was re-run
and reported exit 0. -/
theorem migrates_first_of_covers {events : List CallEvent} {out : Option AttemptOutcome}
    (produced : Produces a.run events out) (listed : a.Listed events members)
    (well : WellListed members) (names : ∀ e ∈ events, NamesHold a members e)
    (explicit : ExitsExplicit events) (horigin : originOf members a.container = some origin)
    (covered : (a.plan project members).covers a.container = true) :
    ∀ service migration, Compose.Awaits (Compose.graphOf (liveMembers members)) service migration →
      Compose.Acyclic (Compose.graphOf (liveMembers members)) migration →
      (∃ x ∈ liveMembers members,
        Eligible (a.input members origin) migration x ∧ x.running = false) →
      ∀ m ∈ members, MemberOf service m →
      ∀ before e after, events = before ++ e :: after → e.call.moves = some (.update, m.name) →
        ∃ x ∈ members, MemberOf migration x ∧ Reran ExitedZero x.name before := by
  rintro service migration awaits acyclic ⟨x, live, eligible, finished⟩ m hm hservice before e after
    rfl moved
  have pending : Pending a members origin service migration x :=
    ⟨awaits, acyclic, live, eligible, finished⟩
  have covers := (covers_iff well horigin).mp covered
  have reran : Reran NotUpNorFailed x.name before :=
    pending.reran_of_moves well covers produced listed names hm hservice (by decide) moved
  exact ⟨x, mem_of_live live, eligible.service,
    reran.exitedZero explicit (List.subset_append_left _ _)⟩

end First

/-! ## Projects

A project with a migration, its attempts, and a daemon for it. -/

/-- A row of a project that is updated when its image moves, in some mode. -/
def stackRow (name service dependsOn mode : String) (state : ContainerSummaryState) :
    ContainerSummary where
  id := some ("id-" ++ name)
  names := some [name]
  image := some "app"
  imageId := none
  labels := some (LabelMap.ofPairs [("com.docker.compose.project", "stack"),
    ("com.docker.compose.service", service), ("com.docker.compose.depends_on", dependsOn),
    ("freshdock.enable", "true"), ("freshdock.mode", mode)])
  state := some state
  networkMode := none

/-- A daemon with the rows of a project, that does what it is asked. What replaces `migrate`
exits 0, and what replaces another container is healthy. -/
def stackDaemon (rows : List ContainerSummary) : Obliging where
  inspect ref :=
    if ref ∈ "migrated" :: "updated" :: rows.map containerName then
      .ok (inspectReport ref "app" (fun _ => none)
        (if ref = "migrated" then ⟨some .exited, some false, none, some 0, none⟩
          else ⟨some .running, some true, none, none, some .healthy⟩))
    else .error (.bollard ⟨.dockerResponseServerError 404 "unknown", "unknown"⟩)
  running := []
  project := rows
  create name := .ok (if name = "migrate" then "migrated" else "updated")
  rename target :=
    if target ∈ rows.map containerName then
      .error (.bollard ⟨.dockerResponseServerError 409 "in use", "in use"⟩)
    else .ok ()

def stackMembers (rows : List ContainerSummary) : List ProjectMember := rows.map projectMember

/-- The attempt to update the container of a row. -/
def stackAttempt (row : ContainerSummary) : Attempt where
  docker := ⟨"1.44", none, 1⟩
  ref := containerName row
  container := containerName row
  labels := row.labels.getD fun _ => none
  cfg := .default
  defaults := ⟨none, false, false⟩
  own := none
  cleanup := ⟨false, false⟩
  hooks := .default
  ts := .fixed 5

/-- What is observed of the attempt on its daemon. -/
def stackEvents (rows : List ContainerSummary) (row : ContainerSummary) : List CallEvent :=
  (play (stackDaemon rows).answer (stackAttempt row).run 0).trace

section Stack

variable {rows : List ContainerSummary} {row : ContainerSummary}

theorem stackDaemon_inspect {ref : String} {resp : ContainerInspectResponse}
    (h : (stackDaemon rows).inspect ref = .ok resp) : resp.name = some ref := by
  unfold stackDaemon at h
  dsimp only at h
  split at h
  · cases h
    rfl
  · cases h

/-- An inspect of a container that is up, or that exited with a code, says so. -/
theorem exitedZero_of_inspectReport {name image : String} {labels : LabelMap}
    {state : ContainerState}
    (shows : Health.Up state ∨ state.status = some .exited ∧ state.exitCode.isSome = true)
    (hover : NotUpNorFailed (.ok (inspectReport name image labels state))) :
    ExitedZero (.ok (inspectReport name image labels state)) := by
  obtain ⟨resp, hresp, hstate⟩ := hover
  cases hresp
  obtain ⟨down, hcode⟩ := hstate state rfl
  rcases shows with up | ⟨hstatus, hsome⟩
  · exact absurd up down
  · refine ⟨_, state, rfl, rfl, hstatus, ?_⟩
    rcases hcode with hnone | hzero
    · rw [hnone] at hsome
      cases hsome
    · exact hzero

/-- A daemon whose inspects are explicit is explicit in every run. -/
theorem explicit_of_inspect {α : Type} {env : Obliging}
    (explicit : ∀ ref, NotUpNorFailed (env.inspect ref) → ExitedZero (env.inspect ref)) (p : Prog α)
    (t : Nat) : ExitsExplicit (play env.answer p t).trace := by
  intro name body id report _ hprobed
  refine @play_events _ _ _ _ env.answer
    (fun e => ∀ report, e = probed id report → NotUpNorFailed report → ExitedZero report) ?_ p t _
    hprobed report rfl
  intro call s report h
  obtain rfl : call = .inspectContainer id := congrArg Event.call h
  rw [← Option.some.inj (Event.reply_inj h)]
  exact explicit id

/-- An inspect that failed says nothing of an exit. -/
theorem not_over_of_error {e : DockerError} : ¬ NotUpNorFailed (.error e) := by
  rintro ⟨resp, hresp, -⟩
  cases hresp

theorem stackDaemon_explicit (ref : String)
    (hover : NotUpNorFailed ((stackDaemon rows).inspect ref)) :
    ExitedZero ((stackDaemon rows).inspect ref) := by
  unfold stackDaemon at hover ⊢
  dsimp only at hover ⊢
  split
  · next shown =>
    rw [if_pos shown] at hover
    refine exitedZero_of_inspectReport ?_ hover
    split
    · exact .inr ⟨rfl, rfl⟩
    · exact .inl (.inl rfl)
  · next unknown =>
    rw [if_neg unknown] at hover
    exact absurd hover not_over_of_error

theorem stackDaemon_rename {row' : ContainerSummary} (shown : row' ∈ rows) :
    (stackDaemon rows).rename (projectMember row').name ≠ .ok () := by
  have hmem : containerName row' ∈ rows.map containerName := List.mem_map_of_mem shown
  intro h
  unfold stackDaemon at h
  change (if containerName row' ∈ rows.map containerName then _ else _) = _ at h
  rw [if_pos hmem] at h
  cases h

/-- The daemon answers an inspect with the name it was asked for, lets no container take the name
of a row, and issues no id that is one. -/
structure KeepsRowNames (env : Obliging) (rows : List ContainerSummary) : Prop where
  inspect : ∀ ref resp, env.inspect ref = .ok resp → resp.name = some ref
  rename : ∀ row ∈ rows, env.rename (projectMember row).name ≠ .ok ()
  create : ∀ name id, env.create name = .ok id →
    id ∉ (stackMembers rows).map ProjectMember.name

/-- Such a daemon keeps the names of its rows apart. -/
theorem KeepsRowNames.namesHold {env : Obliging} (keeps : KeepsRowNames env rows) {a : Attempt}
    (href : a.ref = containerName row) (hcontainer : a.container = containerName row)
    (well : WellListed (stackMembers rows)) (shown : row ∈ rows) (call : Call) (t : Nat) :
    NamesHold a (stackMembers rows) ⟨call, (env.answer call t).1⟩ where
  inspected n hn resp name h hname := by
    obtain rfl : call = .inspectContainer n := congrArg Event.call h
    rw [keeps.inspect _ _ (Option.some.inj (Event.reply_inj h))] at hname
    cases hname
    obtain ⟨m, hm, rfl⟩ := List.mem_map.mp hn
    exact well.trimmed m hm
  addressed resp name h hname := by
    obtain rfl : call = .inspectContainer a.ref := congrArg Event.call h
    rw [keeps.inspect _ _ (Option.some.inj (Event.reply_inj h))] at hname
    cases hname
    rw [href, hcontainer]
    exact well.trimmed (projectMember row) (List.mem_map_of_mem shown)
  renamed n _ n' hn' h := by
    obtain rfl : call = .renameContainer .update n n' := congrArg Event.call h
    obtain ⟨m, hm, rfl⟩ := List.mem_map.mp hn'
    obtain ⟨row', hrow', rfl⟩ := List.mem_map.mp hm
    exact keeps.rename row' hrow' (Option.some.inj (Event.reply_inj h))
  created name body id h := by
    obtain rfl : call = .createContainer .update name body := congrArg Event.call h
    exact keeps.create name id (Option.some.inj (Event.reply_inj h))

theorem stackDaemon_names (well : WellListed (stackMembers rows)) (shown : row ∈ rows)
    (fresh : "migrated" ∉ (stackMembers rows).map ProjectMember.name ∧
      "updated" ∉ (stackMembers rows).map ProjectMember.name) (call : Call) (t : Nat) :
    NamesHold (stackAttempt row) (stackMembers rows)
      ⟨call, ((stackDaemon rows).answer call t).1⟩ := by
  have keeps : KeepsRowNames (stackDaemon rows) rows := by
    refine ⟨fun ref resp h => stackDaemon_inspect h, fun _ hrow => stackDaemon_rename hrow,
      fun name id hcreate => ?_⟩
    rw [stackDaemon] at hcreate
    dsimp only at hcreate
    split at hcreate
    · cases hcreate
      exact fresh.1
    · cases hcreate
      exact fresh.2
  exact keeps.namesHold rfl rfl well shown call t

end Stack

def awaitsMigrate : String := "migrate:service_completed_successfully"

def migrateRow (state : ContainerSummaryState) : ContainerSummary :=
  stackRow "migrate" "migrate" "" "live" state

def webRow (mode : String) : ContainerSummary := stackRow "web" "web" awaitsMigrate mode .running

theorem eligible_migrate {input : PlanInput} {dependsOn : String} {state : ContainerSummaryState}
    (image : input.updatedImage = ImageRef.parse "app") (own : input.ownIdPrefix = none)
    (defaults : input.defaults = ⟨none, false, false⟩)
    (service : MemberOf "migrate"
      (projectMember (stackRow "migrate" "migrate" dependsOn "live" state))) :
    Eligible input "migrate"
      (projectMember (stackRow "migrate" "migrate" dependsOn "live" state)) where
  service := service
  image := by
    unfold sameImage
    exact if_pos image.symm
  notSelf := by
    rw [PlanInput.isSelf, own]
    rfl
  notOptedOut := rfl
  policy := by
    rw [defaults]
    exact ⟨_, rfl, nofun⟩

/-- Nothing that was only read re-ran a container. -/
theorem not_reran_of_still {finished : Report → Prop} {name : String} {events : List CallEvent}
    (still : ∀ e ∈ events, e.call.moves = none) : ¬ Reran finished name events := by
  rintro ⟨front, spec, id, rest, report, rfl, ⟨signal, timeout, hstop⟩, -⟩
  have hnone := still _ (List.mem_append_left _ (List.mem_append_left _ hstop))
  cases hnone

section Stack

variable {rows : List ContainerSummary} {row : ContainerSummary}

/-- A project whose attempt moves its own container first does not re-run the migration first. -/
theorem not_migratesFirst {info : Compose.ComposeInfo} (well : WellListed (stackMembers rows))
    (shown : row ∈ rows)
    (fresh : "migrated" ∉ (stackMembers rows).map ProjectMember.name ∧
      "updated" ∉ (stackMembers rows).map ProjectMember.name)
    (hinfo : Compose.parse (projectMember row).labels = some info)
    (told : (play (stackDaemon rows).answer (listProject info.project).run 0).out =
      some (.ok (stackMembers rows)))
    (horigin : originOf (stackMembers rows) (containerName row) = some (projectMember row))
    (waits : ⟨"migrate", .completedSuccessfully, false⟩ ∈ info.dependsOn)
    (eligible : ∃ x ∈ liveMembers (stackMembers rows),
      Eligible ((stackAttempt row).input (stackMembers rows) (projectMember row)) "migrate" x)
    (movesOwn : (stackEvents rows row).findSome? (fun e => e.call.moves) =
      some (.update, containerName row)) : ¬ MigratesFirst (stackAttempt row) := by
  intro first
  obtain ⟨before, e, after, split, moved, still⟩ := List.findSome?_eq_some_iff.mp movesOwn
  obtain ⟨x, -, -, reran⟩ := first (stackEvents rows row) _ (stackMembers rows) (projectMember row)
    (play_produces _ _ 0) (Attempt.listed_of_play hinfo told) well
    (play_events (stackDaemon_names well shown fresh) _ 0) horigin (projectMember row)
    (List.mem_map_of_mem shown) info hinfo _ waits rfl eligible _ _ _ split moved
  exact not_reran_of_still still reran

end Stack

/-- What a row that waits for the migration says. -/
def dependentInfo (service : String) : Compose.ComposeInfo :=
  ⟨"stack", service, [⟨"migrate", .completedSuccessfully, false⟩]⟩

theorem parse_awaiting {service : String}
    (named : Compose.nonEmpty (some service) = some service) (name mode : String)
    (state : ContainerSummaryState) :
    Compose.parse (projectMember (stackRow name service awaitsMigrate mode state)).labels =
      some (dependentInfo service) := by
  have project : Compose.nonEmpty (some "stack") = some "stack" := by decide
  have depends : Compose.parseDependsOn awaitsMigrate =
      [⟨"migrate", .completedSuccessfully, false⟩] := by
    decide
  have hproject : (projectMember (stackRow name service awaitsMigrate mode state)).labels
      Compose.labelProject = some "stack" := rfl
  have hservice : (projectMember (stackRow name service awaitsMigrate mode state)).labels
      Compose.labelService = some service := rfl
  have hdepends : (projectMember (stackRow name service awaitsMigrate mode state)).labels
      Compose.labelDependsOn = some awaitsMigrate := rfl
  have honce : Compose.isOneoff (projectMember
      (stackRow name service awaitsMigrate mode state)).labels = false := rfl
  rw [Compose.parse, honce, hproject, hservice, hdepends, project, named, Option.getD_some, depends]
  rfl

theorem parse_web (mode : String) : Compose.parse (projectMember (webRow mode)).labels =
    some (dependentInfo "web") :=
  parse_awaiting (by decide) "web" mode .running

/-- A running migration is left alone, and its dependent is not. -/
def inFlightStack : List ContainerSummary := [migrateRow .running, webRow "live"]

/-- In watch mode the trigger is not covered, and is updated on its own when asked for. -/
def watchedStack : List ContainerSummary := [migrateRow .exited, webRow "watch"]

/-- The migration and its dependent depend on each other. -/
def apiRow : ContainerSummary := stackRow "api" "api" awaitsMigrate "live" .running

def cyclicStack : List ContainerSummary :=
  [apiRow, stackRow "migrate" "migrate" "api:service_started" "live" .exited]

theorem movesOwn_of_mem : ∀ stack ∈ [(inFlightStack, webRow "live"),
    (watchedStack, webRow "watch"), (cyclicStack, apiRow)],
    (stackEvents stack.1 stack.2).findSome? (fun e => e.call.moves) =
      some (.update, containerName stack.2) := by
  decide +kernel

theorem not_migratesFirst_inFlight : ¬ MigratesFirst (stackAttempt (webRow "live")) :=
  @not_migratesFirst inFlightStack _ (dependentInfo "web") ⟨by decide, by decide⟩
    (List.mem_cons_of_mem _ List.mem_cons_self) (by decide) (parse_web _) rfl rfl (by decide)
    ⟨_, List.mem_cons_self, eligible_migrate rfl rfl rfl ⟨⟨"stack", "migrate", []⟩, by decide, rfl⟩⟩
    (movesOwn_of_mem (inFlightStack, webRow "live") (by simp))

theorem not_migratesFirst_watched : ¬ MigratesFirst (stackAttempt (webRow "watch")) :=
  @not_migratesFirst watchedStack _ (dependentInfo "web") ⟨by decide, by decide⟩
    (List.mem_cons_of_mem _ List.mem_cons_self) (by decide) (parse_web _) rfl rfl (by decide)
    ⟨_, List.mem_cons_self, eligible_migrate rfl rfl rfl ⟨⟨"stack", "migrate", []⟩, by decide, rfl⟩⟩
    (movesOwn_of_mem (watchedStack, webRow "watch") (by simp))

theorem not_migratesFirst_cyclic : ¬ MigratesFirst (stackAttempt apiRow) :=
  @not_migratesFirst cyclicStack _ (dependentInfo "api") ⟨by decide, by decide⟩
    List.mem_cons_self (by decide) (parse_awaiting (by decide) "api" "live" .running) rfl rfl
    (by decide) ⟨_, List.mem_cons_of_mem _ List.mem_cons_self, eligible_migrate rfl rfl rfl
      ⟨⟨"stack", "migrate", [⟨"api", .started, false⟩]⟩, by decide, rfl⟩⟩
    (movesOwn_of_mem (cyclicStack, apiRow) (by simp))

/-- **Dependents are updated without their migration**: next to a running migration, when the
plan does not cover the container, and on a cycle. -/
theorem migratesFirst_fails :
    ¬ MigratesFirst (stackAttempt (webRow "live")) ∧
      ¬ MigratesFirst (stackAttempt (webRow "watch")) ∧
      ¬ MigratesFirst (stackAttempt apiRow) :=
  ⟨not_migratesFirst_inFlight, not_migratesFirst_watched, not_migratesFirst_cyclic⟩

/-- A project with an exited migration. -/
def exitedStack : List ContainerSummary := [migrateRow .exited, webRow "live"]

/-- In this project the migration is re-run before `web` is stopped. -/
theorem migrates_first_of_covers_exited :
    ∃ x ∈ stackMembers exitedStack, MemberOf "migrate" x ∧
      Reran ExitedZero x.name ((stackEvents exitedStack (webRow "live")).take 17) := by
  have well : WellListed (stackMembers exitedStack) := ⟨by decide, by decide⟩
  have shown : webRow "live" ∈ exitedStack := List.mem_cons_of_mem _ List.mem_cons_self
  have info : MemberOf "web" (projectMember (webRow "live")) :=
    ⟨dependentInfo "web", parse_web "live", rfl⟩
  have eligible : Eligible ((stackAttempt (webRow "live")).input (stackMembers exitedStack)
      (projectMember (webRow "live"))) "migrate" (projectMember (migrateRow .exited)) :=
    eligible_migrate rfl rfl rfl ⟨⟨"stack", "migrate", []⟩, by decide, rfl⟩
  have moved : (stackEvents exitedStack (webRow "live"))[17]? =
      some ⟨.stopContainer .update "web" none none, some (.ok ())⟩ := rfl
  exact @migrates_first_of_covers (stackAttempt (webRow "live")) "stack" (stackMembers exitedStack)
    (projectMember (webRow "live")) _ _ (play_produces _ _ 0)
    (@Attempt.listed_of_play _ _ _ (dependentInfo "web") _ (parse_web "live") rfl) well
    (play_events (stackDaemon_names well shown (by decide)) _ 0)
    (explicit_of_inspect stackDaemon_explicit _ 0) rfl (by decide) "web" "migrate"
    ⟨_, rfl, _, List.mem_cons_self, rfl, rfl⟩ (Compose.acyclic_of_dependencies_nil (by decide))
    ⟨_, List.mem_cons_self, eligible, rfl⟩ _ (List.mem_map_of_mem shown) info _ _ _
    (place_of_getElem? moved) rfl

end Freshdock.Rollout
