import Freshdock.Rollout.FailStop
import Freshdock.Scheduler.Visits

/-!
# What an update of the scheduler does

An update that a visit applies is the rollout of the container's project, or the plain update of
the container alone, or it ends with the planning (`produces_applyUpdate`). A rollout moves its
targets and remembers these; a plain update moves the container and remembers it
(`moved_of_applyUpdate`, `remembered_of_applyUpdate`).
-/

set_option autoImplicit false

namespace Freshdock.Scheduler

open Interaction Docker
open Labels (Policy)
open Cron (Instant)
open Rollout (RolloutPlan RolloutReport PlannedTarget)

section Applied

variable (docker : Docker) (cfg : SchedulerConfig) (now : Instant) (settings : ResolvedSettings)
  (name : String) (policy : Policy) (labels : LabelMap) (latest : String) (tag : Option String)

/-- The plan of the container's project, made in the observation of an update, that leads to a
rollout: it covers the container, and more than its plain update would. -/
def Plans (events : List CallEvent) (p : RolloutPlan) : Prop :=
  ∃ info listing rest, Compose.parse labels = some info ∧ events = listing ++ rest ∧
    Produces (Rollout.planFor info.project name tag settings.policyDefaults cfg.ownIdPrefix).run
      listing (some (.ok p)) ∧
    p.covers name = true ∧ p.addsNothingFor name = false

/-- How an applied update goes. -/
inductive Applied : List CallEvent → Option Processed → Prop where
  | untouched {events : List CallEvent} {out : Option Processed} : Unmoved events →
      (∀ r, out = some r → r.outcome = none ∧ r.handled = [name]) → Applied events out
  | plain {front run tail : List CallEvent} {outcome : Option (Except DockerError RecreateOutcome)}
      {out : Option Processed} : Unmoved front → Unmoved tail →
      Produces (recreateWithHealth docker name cfg.health ⟨policy.cleanup, settings.pruneDangling⟩
        policy.hooks (.fixed (now / 1000000000))).run run outcome →
      (∀ r, out = some r → ∃ o, outcome = some o ∧ r = plainProcessed name latest o) →
      Applied (front ++ run ++ tail) out
  | rollout {p : RolloutPlan} {listing run tail : List CallEvent} {done : Option RolloutReport}
      {out : Option Processed} : Unmoved listing → Unmoved tail →
      Plans cfg settings name labels tag (listing ++ run ++ tail) p →
      Produces (Rollout.execute docker p (rolloutConfig cfg settings tag)
        (.fixed (now / 1000000000))) run done →
      (∀ r, out = some r → ∃ report, done = some report ∧
        r = ⟨report.claimed, rolloutOutcome report latest, rolloutVerdicts report⟩) →
      Applied (listing ++ run ++ tail) out

end Applied

section Cases

variable {docker : Docker} {cfg : SchedulerConfig} {now : Instant} {settings : ResolvedSettings}
  {name : String} {policy : Policy} {labels : LabelMap} {image latest : String}
  {tag : Option String} {events : List CallEvent}

theorem unmoved_of_planFor {project trigger : String} {own : Option String}
    {defaults : Labels.PolicyDefaults} {out : Option (Except DockerError RolloutPlan)}
    (h : Produces (Rollout.planFor project trigger tag defaults own).run events out) :
    Unmoved events :=
  unmoved_of_emits (Rollout.emits_planFor quiet_unmoved project trigger tag defaults own) h

/-- Reports are only notified of. -/
theorem produces_reportRollout {report : RolloutReport} {out : Option (List String)}
    (h : Produces (reportRollout report policy image) events out) :
    Unmoved events ∧ ∀ claimed, out = some claimed → claimed = report.claimed := by
  have steps (steps : List Rollout.RolloutStep) :
      Emits (fun _ => True) (fun e => e.call.moves = none) (notifySteps image steps)
        fun _ => True := by
    induction steps with
    | nil => exact emits_done trivial
    | cons step steps ih =>
        unfold notifySteps
        split
        · exact emits_done trivial
        · next heq =>
          cases heq
          exact emits_bind (emits_unmoved rfl) fun _ _ => ih
        · next heq =>
          cases heq
          exact ih
  have abort : Emits (fun _ => True) (fun e => e.call.moves = none) (notifyAbort report policy)
      fun _ => True := by
    unfold notifyAbort
    cases report.aborted with
    | none => exact emits_done trivial
    | some reason =>
        cases policy.notify with
        | true => exact emits_unmoved rfl
        | false => exact emits_done trivial
  have emits : Emits (fun _ => True) (fun e => e.call.moves = none)
      (reportRollout report policy image) fun claimed => claimed = report.claimed :=
    emits_bind (steps report.steps) fun _ _ => emits_bind abort fun _ _ => emits_done rfl
  exact emits events out h fun _ _ => trivial

theorem unmoved_of_notifyPlain {outcome : Except DockerError RecreateOutcome} {out : Option Unit}
    (h : Produces (notifyPlain name image policy outcome) events out) : Unmoved events := by
  have dispatched (event : NotifyEvent) (asked : Bool) :
      Emits (fun _ => True) (fun e => e.call.moves = none)
        (if asked then request (.dispatch event) else pure () : Prog Unit) fun _ => True := by
    cases asked with
    | true => exact emits_unmoved rfl
    | false => exact emits_done trivial
  refine @unmoved_of_emits _ _ (fun _ => True) _ _ ?_ h
  match outcome with
  | .ok (.recreated _ _) => exact dispatched _ _
  | .ok (.rolledBack _) => exact dispatched _ _
  | .ok (.skippedByHook _) => exact emits_done trivial
  | .error _ => exact emits_done trivial

/-- What the rollout part of an update does, when it is not cut short. -/
theorem produces_rolloutFor {out : Option (Option RolloutReport)}
    (h : Produces (rolloutFor docker cfg (.fixed (now / 1000000000)) name labels tag settings) events
      out) :
    (Unmoved events ∧ (∀ report, out = some (some report) →
      Rollout.RolloutReport.claimed report = [name] ∧ rolloutOutcome report latest = none)) ∨
    ∃ p listing run done, events = listing ++ run ∧ Unmoved listing ∧
      Plans cfg settings name labels tag events p ∧
      Produces (Rollout.execute docker p (rolloutConfig cfg settings tag)
        (.fixed (now / 1000000000))) run done ∧
      ∀ r, out = some r → ∃ report, done = some report ∧ r = some report := by
  unfold rolloutFor at h
  split at h
  case isFalse =>
    obtain ⟨rfl, rfl | rfl⟩ := produces_done_iff.mp h
    · exact .inl ⟨by simp [Unmoved], by rintro _ ⟨⟩⟩
    · exact .inl ⟨by simp [Unmoved], by rintro _ ⟨⟩⟩
  unfold Rollout.forContainer at h
  cases hinfo : Compose.parse labels with
  | none =>
      rw [hinfo] at h
      obtain ⟨rfl, rfl | rfl⟩ := produces_done_iff.mp h
      · exact .inl ⟨by simp [Unmoved], by rintro _ ⟨⟩⟩
      · exact .inl ⟨by simp [Unmoved], by rintro _ ⟨⟩⟩
  | some info =>
      rw [hinfo] at h
      rcases h.of_bind with ⟨rfl, hplan⟩ | ⟨listing, planned, run, rfl, hplan, hrun⟩
      · exact .inl ⟨unmoved_of_planFor hplan, by rintro _ ⟨⟩⟩
      have hlisting := unmoved_of_planFor hplan
      have still {result : Option RolloutReport}
          (h : Produces (pure result : Prog (Option RolloutReport)) run out)
          (hresult : ∀ report, result = some report →
            report.claimed = [name] ∧ rolloutOutcome report latest = none) :
          Unmoved (listing ++ run) ∧ ∀ report, out = some (some report) →
            report.claimed = [name] ∧ rolloutOutcome report latest = none := by
        obtain ⟨rfl, rfl | rfl⟩ := produces_done_iff.mp h
        · exact ⟨by rwa [List.append_nil], fun report hreport => hresult report
            (Option.some.inj hreport)⟩
        · exact ⟨by rwa [List.append_nil], by rintro _ ⟨⟩⟩
      cases planned with
      | error e =>
          refine .inl (still hrun fun report hreport => ?_)
          cases hreport
          exact ⟨rfl, rfl⟩
      | ok p =>
          simp only [Rollout.rolloutOrPlain] at hrun
          split at hrun
          · split at hrun
            · refine .inl (still hrun fun report hreport => ?_)
              cases hreport
              exact ⟨rfl, rfl⟩
            · exact .inl (still hrun (by rintro _ ⟨⟩))
          · next hcovers =>
            split at hrun
            · exact .inl (still hrun (by rintro _ ⟨⟩))
            · next hadds =>
              have plans : Plans cfg settings name labels tag (listing ++ run) p :=
                ⟨info, listing, run, hinfo, rfl, hplan, by simpa using hcovers,
                  Bool.eq_false_iff.mpr hadds⟩
              rcases hrun.of_bind with ⟨rfl, hexecute⟩ | ⟨first, report, last, rfl, hexecute, hlast⟩
              · exact .inr ⟨p, listing, run, none, rfl, hlisting, plans, hexecute, by rintro _ ⟨⟩⟩
              · obtain ⟨rfl, hout⟩ := produces_done_iff.mp hlast
                rw [List.append_nil] at plans ⊢
                refine .inr ⟨p, listing, first, some report, rfl, hlisting, plans, hexecute,
                  fun r hr => ⟨report, rfl, ?_⟩⟩
                rcases hout with rfl | rfl
                · exact (Option.some.inj hr).symm
                · cases hr

theorem Plans.append {events tail : List CallEvent} {p : RolloutPlan}
    (h : Plans cfg settings name labels tag events p) :
    Plans cfg settings name labels tag (events ++ tail) p := by
  obtain ⟨info, listing, rest, hinfo, rfl, hplan, hruns⟩ := h
  exact ⟨info, listing, rest ++ tail, hinfo, by simp, hplan, hruns⟩

/-- **An applied update goes one of three ways.** -/
theorem produces_applyUpdate {out : Option Processed}
    (h : Produces (applyUpdate docker cfg now name policy labels image latest tag settings) events
      out) :
    Applied docker cfg now settings name policy labels latest tag events out := by
  rcases h.of_bind with ⟨rfl, hrollout⟩ | ⟨first, rollout, rest, rfl, hrollout, hrest⟩
  · rcases @produces_rolloutFor _ _ _ _ _ _ latest _ _ _ hrollout with ⟨hunmoved, -⟩ |
        ⟨p, listing, run, done, rfl, hlisting, plans, hexecute, -⟩
    · exact .untouched hunmoved nofun
    · have applied : Applied docker cfg now settings name policy labels latest tag
          (listing ++ run ++ []) none :=
        .rollout hlisting (by simp [Unmoved]) plans.append hexecute nofun
      rwa [List.append_nil] at applied
  rcases @produces_rolloutFor _ _ _ _ _ _ latest _ _ _ hrollout with ⟨hunmoved, hreport⟩ |
      ⟨p, listing, run, done, rfl, hlisting, plans, hexecute, hdone⟩
  · cases rollout with
    | some report =>
        obtain ⟨hclaimed, houtcome⟩ := hreport report rfl
        rcases hrest.of_bind with ⟨rfl, hnotify⟩ | ⟨notified, handled, last, rfl, hnotify, hlast⟩
        · exact .untouched (hunmoved.append (produces_reportRollout hnotify).1) nofun
        · obtain ⟨hquiet, hhandled⟩ := produces_reportRollout hnotify
          obtain ⟨rfl, hout⟩ := produces_done_iff.mp hlast
          rw [List.append_nil]
          refine .untouched (hunmoved.append hquiet) fun r hr => ?_
          rcases hout with rfl | rfl
          · cases hr
            exact ⟨houtcome, (hhandled handled rfl).trans hclaimed⟩
          · cases hr
    | none =>
        rcases hrest.of_bind with ⟨rfl, hrun⟩ | ⟨run, outcome, tail, rfl, hrun, htail⟩
        · have applied : Applied docker cfg now settings name policy labels latest tag
              (first ++ rest ++ []) none :=
            .plain hunmoved (by simp [Unmoved]) hrun nofun
          rwa [List.append_nil] at applied
        · rw [← List.append_assoc]
          rcases htail.of_bind with ⟨rfl, hnotify⟩ | ⟨notified, _, last, rfl, hnotify, hlast⟩
          · exact .plain hunmoved (unmoved_of_notifyPlain hnotify) hrun nofun
          · obtain ⟨rfl, hout⟩ := produces_done_iff.mp hlast
            rw [List.append_nil]
            refine .plain hunmoved (unmoved_of_notifyPlain hnotify) hrun fun r hr => ⟨outcome, rfl, ?_⟩
            rcases hout with rfl | rfl
            · exact (Option.some.inj hr).symm
            · cases hr
  · obtain ⟨report, rfl, rfl⟩ := hdone rollout rfl
    rcases hrest.of_bind with ⟨rfl, hnotify⟩ | ⟨notified, handled, last, rfl, hnotify, hlast⟩
    · exact .rollout hlisting (produces_reportRollout hnotify).1 plans.append hexecute nofun
    · obtain ⟨hquiet, hhandled⟩ := produces_reportRollout hnotify
      obtain ⟨rfl, hout⟩ := produces_done_iff.mp hlast
      rw [List.append_nil]
      refine .rollout hlisting hquiet plans.append hexecute fun r hr => ⟨report, rfl, ?_⟩
      rcases hout with rfl | rfl
      · cases hr
        rw [hhandled handled rfl]
      · cases hr

/-! ## What is moved and remembered -/

/-- What a daemon promises about the names in use: it keeps them apart, and its listings show no
others, archives aside. -/
structure NamesKnown (names : List String) (e : CallEvent) : Prop extends NamesApart names e where
  running : ∀ rows, e = ⟨.listRunning, some (.ok rows)⟩ →
    ∀ row ∈ rows, isArchiveName (containerName row) = false → containerName row ∈ names
  project : ∀ project rows, e = ⟨.listProjectContainers project, some (.ok rows)⟩ →
    ∀ row ∈ rows, isArchiveName (containerName row) = false → containerName row ∈ names

/-- The containers an applied update is for: the container itself and the targets of its rollout. -/
def Subject (cfg : SchedulerConfig) (settings : ResolvedSettings) (name : String)
    (labels : LabelMap) (tag : Option String) (events : List CallEvent) (ref : String) : Prop :=
  ref = name ∨ ∃ p, Plans cfg settings name labels tag events p ∧
    ref ∈ p.targets.map PlannedTarget.container

section Effects

variable {names : List String} {out : Option Processed}

/-- The targets of a plan are containers that a listing showed. -/
theorem mem_names_of_plans {p : RolloutPlan} (plans : Plans cfg settings name labels tag events p)
    (known : ∀ e ∈ events, NamesKnown names e) {t : PlannedTarget} (ht : t ∈ p.targets) :
    t.container ∈ names := by
  obtain ⟨info, listing, rest, -, rfl, hplan, -⟩ := plans
  have listed := (@Rollout.emits_planFor (NamesKnown names) _ quiet_unmoved info.project name tag
    settings.policyDefaults cfg.ownIdPrefix listing _ hplan
    fun e he => known e (List.mem_append_left _ he)).2 _ rfl p rfl
  obtain ⟨members, ⟨rows, hrows, refilled⟩, rfl⟩ := listed
  obtain ⟨origin, -, m, hm, htarget⟩ := Rollout.mem_targets_plan.mp ht
  obtain ⟨-, -, -, -, hname, -⟩ := Rollout.targetOf_eq_some.mp htarget
  obtain ⟨row, hrow, hrefilled⟩ := Rollout.exists_row_of_refilled refilled (Rollout.mem_of_live hm)
  have live : isArchiveName m.name = false := by simpa using (List.mem_filter.mp hm).2
  rw [hrefilled.name] at live
  rw [hname, hrefilled.name]
  exact hrows.project _ rows rfl row hrow live

/-- Where the listings name their images, the targets of a plan are on the image of its trigger. -/
theorem sameImage_of_plans {shown : List ContainerSummary} {p : RolloutPlan}
    (plans : Plans cfg settings name labels tag events p)
    (listed : ∀ project rows, ⟨.listProjectContainers project, some (.ok rows)⟩ ∈ events →
      ∀ row ∈ rows, row ∈ shown)
    (named : ∀ row ∈ shown, Registry.isImageId (projectMember row).imageRef = false) {t : PlannedTarget}
    (ht : t ∈ p.targets) :
    ∃ origin ∈ shown, containerName origin = name ∧ ∃ row ∈ shown, containerName row = t.container ∧
      Rollout.sameImage (projectMember row)
        (Registry.ImageRef.parse (projectMember origin).imageRef) origin.imageId = true := by
  obtain ⟨info, listing, rest, -, rfl, hplan, -⟩ := plans
  obtain ⟨members, ⟨rows, hrows, refilled⟩, rfl⟩ := (@Rollout.emits_planFor
    (· ∈ listing) _ quiet_unmoved info.project name tag settings.policyDefaults cfg.ownIdPrefix
    listing _ hplan fun _ he => he).2 _ rfl p rfl
  have inShown := listed _ rows (List.mem_append_left _ hrows)
  have member (m : Compose.ProjectMember) (hm : m ∈ Rollout.liveMembers members) :
      ∃ row ∈ shown, m = projectMember row := by
    obtain ⟨row, hrow, hrefilled⟩ := Rollout.exists_row_of_refilled refilled (Rollout.mem_of_live hm)
    exact ⟨row, inShown row hrow, hrefilled.named (named row (inShown row hrow))⟩
  obtain ⟨origin, horigin, m, hm, htarget⟩ := Rollout.mem_targets_plan.mp ht
  obtain ⟨-, -, hsame, -, hname, -⟩ := Rollout.targetOf_eq_some.mp htarget
  obtain ⟨first, hfirst, rfl⟩ := member origin (List.mem_of_find?_eq_some horigin)
  obtain ⟨row, hrow, rfl⟩ := member m hm
  have htrigger : (projectMember first).name = name := by
    simpa using List.find?_some horigin
  exact ⟨first, hfirst, htrigger, row, hrow, hname.symm, hsame⟩

/-- **An applied update moves what it is for.** -/
theorem Applied.moves (h : Applied docker cfg now settings name policy labels latest tag events out)
    (inUse : name ∈ names) (known : ∀ e ∈ events, NamesKnown names e) {e : CallEvent}
    (he : e ∈ events) {ref : String} (href : ref ∈ names)
    (moved : e.call.moves = some (.update, ref)) :
    Subject cfg settings name labels tag events ref := by
  have not_unmoved {part : List CallEvent} (hpart : Unmoved part) (he : e ∈ part) : False := by
    rw [hpart e he] at moved
    cases moved
  cases h with
  | untouched hunmoved => exact (not_unmoved hunmoved he).elim
  | @plain front run tail outcome _ hfront htail hrun =>
      rcases List.mem_append.mp he with he | he
      · rcases List.mem_append.mp he with he | he
        · exact (not_unmoved hfront he).elim
        · refine .inl ?_
          have updatable := @updatable_movesOnly_self (NamesKnown names) names name docker inUse
            fun _ known => known.toNamesApart
          exact (updatable.recreateWithHealth _ _ _ _ run _ hrun fun e he =>
            known e (List.mem_append_left _ (List.mem_append_right _ he))).1 e he .update ref moved
            nofun href
      · exact (not_unmoved htail he).elim
  | @rollout p listing run tail done _ hlisting htail plans hrun =>
      rcases List.mem_append.mp he with he | he
      · rcases List.mem_append.mp he with he | he
        · exact (not_unmoved hlisting he).elim
        · refine .inr ⟨p, plans, ?_⟩
          have inNames : ∀ t ∈ p.targets, t.container ∈ names :=
            fun t ht => mem_names_of_plans plans known ht
          have updatable : ∀ t ∈ p.targets, Updatable (NamesKnown names) (fun role ref =>
              role = .update → ref ∈ names → ref ∈ p.targets.map PlannedTarget.container) docker
              t.container := by
            intro t ht
            refine (@updatable_movesOnly_self (NamesKnown names) names t.container docker
              (inNames t ht) fun _ known => known.toNamesApart).mono fun role ref only hrole hmem => ?_
            rw [only (by rw [hrole]; nofun) hmem]
            exact List.mem_map_of_mem ht
          exact (Rollout.emits_execute updatable nofun _ _ run _ hrun fun e he =>
            known e (List.mem_append_left _ (List.mem_append_right _ he))).1 e he .update ref moved
            rfl href
      · exact (not_unmoved htail he).elim

/-- The containers an outcome is remembered for. -/
def UpdateOutcome.containers : UpdateOutcome → List String
  | .rejected _ containers => containers
  | .landed containers => containers

/-- **An applied update is remembered for what it is for.** -/
theorem Applied.remembers {r : Processed}
    (h : Applied docker cfg now settings name policy labels latest tag events (some r))
    {outcome : UpdateOutcome} (houtcome : r.outcome = some outcome) {container : String}
    (hmem : container ∈ outcome.containers) :
    Subject cfg settings name labels tag events container := by
  cases h with
  | untouched _ hr =>
      rw [(hr r rfl).1] at houtcome
      cases houtcome
  | plain _ _ _ hr =>
      obtain ⟨o, -, rfl⟩ := hr r rfl
      refine .inl ?_
      match o with
      | .ok (.recreated _ _) | .ok (.rolledBack _) =>
          cases houtcome
          exact List.mem_singleton.mp hmem
      | .ok (.skippedByHook _) | .error _ => cases houtcome
  | @rollout p listing run tail done _ _ _ plans hrun hr =>
      obtain ⟨report, rfl, rfl⟩ := hr r rfl
      refine .inr ⟨p, plans, (Rollout.mem_imageTargets_of_execute hrun).mp ?_⟩
      simp only [rolloutOutcome] at houtcome
      split at houtcome
      · split at houtcome
        · cases houtcome
          exact hmem
        · cases houtcome
      · split at houtcome
        · cases houtcome
        · cases houtcome
          exact hmem

/-- What is remembered of other containers stays. -/
theorem failed_remember_of_not_mem (memory : Memory) {outcome : UpdateOutcome} {container : String}
    (hnot : container ∉ outcome.containers) :
    (memory.remember (some outcome)).failed.get? container = memory.failed.get? container := by
  have inserts (digest : String) (containers : List String) (hnot : container ∉ containers)
      (failed : SortedMap String String) :
      (containers.foldl (fun m c => m.insert c digest) failed).get? container =
        failed.get? container := by
    induction containers generalizing failed with
    | nil => rfl
    | cons head containers ih =>
        rw [List.mem_cons, not_or] at hnot
        rw [List.foldl_cons, ih hnot.2, SortedMap.get?_insert_of_ne _ _ hnot.1]
  have erases (containers : List String) (hnot : container ∉ containers)
      (failed : SortedMap String String) :
      (containers.foldl SortedMap.erase failed).get? container = failed.get? container := by
    induction containers generalizing failed with
    | nil => rfl
    | cons head containers ih =>
        rw [List.mem_cons, not_or] at hnot
        rw [List.foldl_cons, ih hnot.2, SortedMap.get?_erase_of_ne _ hnot.1]
  cases outcome with
  | rejected digest containers => exact inserts digest containers hnot memory.failed
  | landed containers => exact erases containers hnot memory.failed

end Effects

end Cases

end Freshdock.Scheduler
