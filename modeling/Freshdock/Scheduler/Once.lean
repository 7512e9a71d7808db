import Freshdock.Docker.Creates
import Freshdock.Rollout.Permitted
import Freshdock.Scheduler.Fleet

/-!
# Updates within one tick

Every update creates at most one container for each of its targets. What a tick updated it does not
visit again, but a rollout that a later visit starts is planned from a fresh listing, and can have a
container among its targets that the tick updated before. When no rollout does, no container is
updated twice in one tick (`updated_once`).

**Seen.** The visits of a tick follow one another, and what is known of a visit depends on what was
seen of the tick before it (`VisitAt`). The rule for a sweep carries this along (`sweep_trace_rule`).
-/

set_option autoImplicit false

namespace Freshdock.Scheduler

open Interaction Docker
open Labels (Policy)
open Cron (Instant)
open Rollout (RolloutPlan RolloutReport PlannedTarget)

/-- An event that recreates a container as the target of an update. -/
def recreates (name : String) (e : CallEvent) : Bool :=
  match e.call with
  | .createContainer .update created _ => created == name
  | _ => false

/-- What a daemon promises about names: it keeps them apart, and lists each once. -/
structure NamesListed (names : List String) (e : CallEvent) : Prop extends NamesKnown names e where
  once : ∀ project rows, e = ⟨.listProjectContainers project, some (.ok rows)⟩ →
    (rows.map containerName).Nodup

/-! ## The events before a visit -/

section Visits

variable (docker : Docker) (cfg : SchedulerConfig) (settings : ResolvedSettings) (now : Instant)

/-- The visit of a container from a sweep, after `seen`, in the observation of the sweep over
`rows`. -/
inductive VisitAt : List ContainerSummary → Sweep → List CallEvent → List CallEvent →
    ContainerSummary → Sweep → List CallEvent → Prop where
  | here {c : ContainerSummary} {rows : List ContainerSummary} {sweep : Sweep}
      {part rest : List CallEvent} {out : Option Sweep} :
      Produces (visit docker cfg now settings c sweep) part out →
      VisitAt (c :: rows) sweep (⟨.shutdownRequested, some false⟩ :: part ++ rest)
        [⟨.shutdownRequested, some false⟩] c sweep part
  | later {c c' : ContainerSummary} {rows : List ContainerSummary} {sweep sweep' s : Sweep}
      {first rest seen part : List CallEvent} :
      Produces (visit docker cfg now settings c sweep) first (some sweep') →
      VisitAt rows sweep' rest seen c' s part →
      VisitAt (c :: rows) sweep (⟨.shutdownRequested, some false⟩ :: first ++ rest)
        (⟨.shutdownRequested, some false⟩ :: first ++ seen) c' s part

/-- The visit of a container, after `seen`, in the observation of a tick. -/
def TickVisitAt (memory : Memory) (events : List CallEvent) (now : Instant) (seen : List CallEvent)
    (c : ContainerSummary) (sweep : Sweep) (part : List CallEvent) : Prop :=
  ∃ rows rest, events = ⟨.listRunning, some (.ok rows)⟩ :: ⟨.localTime, some now⟩ :: rest ∧
    VisitAt docker cfg settings now rows ⟨memory, [], []⟩ rest seen c sweep part

end Visits

section Rule

variable {docker : Docker} {cfg : SchedulerConfig} {settings : ResolvedSettings} {now : Instant}

theorem VisitAt.last {row : ContainerSummary} {rows : List ContainerSummary} {sweep : Sweep}
    {part : List CallEvent} {out : Option Sweep}
    (h : Produces (visit docker cfg now settings row sweep) part out) :
    VisitAt docker cfg settings now (row :: rows) sweep (⟨.shutdownRequested, some false⟩ :: part)
      [⟨.shutdownRequested, some false⟩] row sweep part := by
  have within := @VisitAt.here docker cfg settings now row rows sweep part [] out h
  rwa [List.append_nil] at within

theorem VisitAt.visitIn {rows : List ContainerSummary} {sweep s : Sweep}
    {events seen part : List CallEvent} {c : ContainerSummary}
    (h : VisitAt docker cfg settings now rows sweep events seen c s part) :
    VisitIn docker cfg settings now rows sweep events c s part := by
  induction h with
  | here hvisit => exact .here hvisit
  | later hfirst _ ih => exact .later hfirst ih

/-- **The rule for the events of a sweep.** What a visit makes of the events before it and of its
sweep is carried along, and the events of every observation satisfy `fin`. -/
theorem sweep_trace_rule (inv : List CallEvent → Sweep → Prop) (fin : List CallEvent → Prop)
    (prior : List CallEvent)
    (fin_of_inv : ∀ seen s, inv seen s → fin seen)
    (asked : ∀ seen s reply, inv seen s → inv (seen ++ [⟨.shutdownRequested, reply⟩]) s)
    {rows : List ContainerSummary} {sweep : Sweep} {events : List CallEvent}
    {out : Option (Sweep × Bool)}
    (h : Produces (sweepContainers docker cfg now settings rows sweep) events out)
    (step : ∀ seen c s part out', VisitAt docker cfg settings now rows sweep events seen c s part →
      inv (prior ++ seen) s → Produces (visit docker cfg now settings c s) part out' →
      fin (prior ++ seen ++ part) ∧ ∀ s', out' = some s' → inv (prior ++ seen ++ part) s')
    (start : inv prior sweep) : fin (prior ++ events) := by
  induction rows generalizing sweep events prior with
  | nil =>
      obtain ⟨rfl, -⟩ := produces_done_iff.mp h
      rw [List.append_nil]
      exact fin_of_inv _ _ start
  | cons c rows ih =>
      cases h with
      | cut =>
          rw [List.append_nil]
          exact fin_of_inv _ _ start
      | unanswered => exact fin_of_inv _ _ (asked prior sweep none start)
      | answered _ _ stopping h =>
          have started := asked prior sweep (some stopping) start
          cases stopping with
          | true =>
              obtain ⟨rfl, -⟩ := produces_done_iff.mp h
              exact fin_of_inv _ _ started
          | false =>
              change Produces (visit docker cfg now settings c sweep >>= fun sweep =>
                sweepContainers docker cfg now settings rows sweep) _ out at h
              rcases h.of_bind with ⟨rfl, hvisit⟩ | ⟨first, s', rest, rfl, hvisit, hrest⟩
              · have hstep := step _ c sweep _ _ (.last hvisit) started hvisit
                simpa using hstep.1
              · have hstep := step _ c sweep _ _ (.here hvisit) started hvisit
                have hlater := @ih (prior ++ [⟨.shutdownRequested, some false⟩] ++ first) s' rest hrest
                  (fun seen c' s part out' at' => ?_) (hstep.2 s' rfl)
                · simpa using hlater
                · have hlater := step _ c' s part out' (.later hvisit at')
                  simpa using hlater

end Rule

/-! ## Counting updates -/

section Count

variable {docker : Docker} {names : List String} {name : String}

theorem countP_recreates_le (name : String) (events : List CallEvent) :
    events.countP (recreates name) ≤ events.countP updateCreate := by
  refine List.countP_mono_left fun e _ h => ?_
  obtain ⟨name', body, hcall⟩ : ∃ name' body, e.call = .createContainer .update name' body := by
    unfold recreates at h
    split at h
    · exact ⟨_, _, ‹_›⟩
    · cases h
  rw [updateCreate, hcall]

/-- An event that recreates a container moves it. -/
theorem moves_of_recreates {e : CallEvent} (h : recreates name e = true) :
    e.call.moves = some (.update, name) := by
  unfold recreates at h
  split at h
  · next hcall =>
    rw [hcall]
    obtain rfl := eq_of_beq h
    rfl
  · cases h

theorem countP_recreates_unmoved {events : List CallEvent} (h : Unmoved events) :
    events.countP (recreates name) = 0 := by
  rw [List.countP_eq_zero]
  intro e he hrecreates
  cases (h e he).symm.trans (moves_of_recreates hrecreates)

/-- Where only `P` is moved, only `P` is recreated. -/
theorem allowed_of_countP {P : Role → String → Prop} {events : List CallEvent}
    (moves : ∀ e ∈ events, Moves P e) (h : 0 < events.countP (recreates name)) : P .update name := by
  obtain ⟨e, he, hrecreates⟩ := List.countP_pos_iff.mp h
  exact moves e he .update name (moves_of_recreates hrecreates)

/-- What a run that is for `targets` recreates: each of them once, and of the names in use no
other. -/
structure RecreatesOnly (names targets : List String) (events : List CallEvent) : Prop where
  once : ∀ name ∈ names, events.countP (recreates name) ≤ 1
  only : ∀ name ∈ names, 0 < events.countP (recreates name) → name ∈ targets

theorem recreatesOnly_unmoved {events : List CallEvent} (h : Unmoved events) :
    RecreatesOnly names [] events where
  once name _ := by
    rw [countP_recreates_unmoved h]
    exact Nat.zero_le 1
  only name _ hpos := by
    rw [countP_recreates_unmoved h] at hpos
    exact absurd hpos (Nat.lt_irrefl 0)

/-- One run after the other, for different targets. -/
theorem RecreatesOnly.append {targets targets' : List String} {first rest : List CallEvent}
    (hfirst : RecreatesOnly names targets first) (hrest : RecreatesOnly names targets' rest)
    (apart : ∀ name ∈ targets, name ∉ targets') :
    RecreatesOnly names (targets ++ targets') (first ++ rest) where
  once name hname := by
    rw [List.countP_append]
    have hone := hfirst.once name hname
    have hone' := hrest.once name hname
    by_contra hmany
    exact apart name (hfirst.only name hname (by omega)) (hrest.only name hname (by omega))
  only name hname hpos := by
    rw [List.countP_append] at hpos
    rcases Nat.eq_zero_or_pos (first.countP (recreates name)) with hzero | hpos'
    · exact List.mem_append_right _ (hrest.only name hname (by omega))
    · exact List.mem_append_left _ (hfirst.only name hname hpos')

/-- A health-gated update recreates its container. -/
theorem recreatesOnly_recreateWithHealth {cfg : HealthConfig} {cleanup : Cleanup}
    {hooks : Labels.LifecycleHooks} {ts : TsProvider} {events : List CallEvent}
    {out : Option (Except DockerError RecreateOutcome)} {container : String}
    (inUse : container ∈ names) (apart : ∀ e ∈ events, NamesApart names e)
    (h : Produces (recreateWithHealth docker container cfg cleanup hooks ts).run events out) :
    RecreatesOnly names [container] events where
  once name _ := (countP_recreates_le name events).trans
    (atMost_recreateWithHealth container cfg cleanup hooks ts events out h)
  only name hname hpos := by
    have moves := ((@updatable_movesOnly_self (NamesApart names) names container docker inUse
      fun _ apart => apart).recreateWithHealth cfg cleanup hooks ts events out h apart).1
    exact List.mem_singleton.mpr (allowed_of_countP moves hpos nofun hname)

section Rollout

variable {cfg : Rollout.RolloutConfig} {ts : TsProvider} {events : List CallEvent}

theorem atMost_runTarget (target : PlannedTarget) :
    AtMost updateCreate 1 (Rollout.runTarget docker cfg ts target) := by
  unfold Rollout.runTarget
  cases target.kind with
  | oneShot => exact atMost_map (atMost_recreateOneShot _ _ _ _ _ ts)
  | service => exact atMost_map (atMost_recreateWithHealth _ _ _ _ ts)

theorem recreatesOnly_runTarget {target : PlannedTarget}
    {out : Option (Except Rollout.AbortReason Rollout.RolloutStep)}
    (inUse : target.container ∈ names) (apart : ∀ e ∈ events, NamesApart names e)
    (h : Produces (Rollout.runTarget docker cfg ts target) events out) :
    RecreatesOnly names [target.container] events where
  once name _ := (countP_recreates_le name events).trans (atMost_runTarget target events out h)
  only name hname hpos := by
    have updatable := @updatable_movesOnly_self (NamesApart names) names target.container docker inUse
      fun _ apart => apart
    have moves := (Rollout.emits_runTarget updatable cfg ts events out h apart).1
    exact List.mem_singleton.mpr (allowed_of_countP moves hpos nofun hname)

/-- The targets of a rollout are recreated once each. -/
theorem recreatesOnly_runTargets {targets : List PlannedTarget} {progress : Rollout.Progress}
    {out : Option Rollout.Progress} (inUse : ∀ t ∈ targets, t.container ∈ names)
    (nodup : (targets.map PlannedTarget.container).Nodup)
    (apart : ∀ e ∈ events, NamesApart names e)
    (h : Produces (Rollout.runTargets docker cfg ts targets progress) events out) :
    RecreatesOnly names (targets.map PlannedTarget.container) events := by
  induction targets generalizing progress events with
  | nil =>
      obtain ⟨rfl, -⟩ := produces_done_iff.mp h
      exact recreatesOnly_unmoved (by simp [Unmoved])
  | cons target targets ih =>
      rw [List.map_cons, List.nodup_cons] at nodup
      have hhead {part : List CallEvent} {verdict : Option (Except Rollout.AbortReason _)}
          (kept : ∀ e ∈ part, NamesApart names e)
          (hpart : Produces (Rollout.runTarget docker cfg ts target) part verdict) :=
        recreatesOnly_runTarget (inUse target List.mem_cons_self) kept hpart
      have fresh : ∀ name ∈ [target.container], name ∉ targets.map PlannedTarget.container := by
        intro name hname
        rw [List.mem_singleton.mp hname]
        exact nodup.1
      have stopped : RecreatesOnly names (targets.map PlannedTarget.container) [] :=
        ⟨fun _ _ => Nat.zero_le 1, fun _ _ hpos => absurd hpos (Nat.lt_irrefl 0)⟩
      rcases h.of_bind with ⟨rfl, hrun⟩ | ⟨first, verdict, rest, rfl, hrun, hrest⟩
      · have hall := (hhead apart hrun).append stopped fresh
        rwa [List.append_nil] at hall
      · have hfirst := hhead (fun e he => apart e (List.mem_append_left _ he)) hrun
        cases verdict with
        | error reason =>
            obtain ⟨rfl, -⟩ := produces_done_iff.mp hrest
            exact hfirst.append stopped fresh
        | ok step =>
            exact hfirst.append (ih (fun t ht => inUse t (List.mem_cons_of_mem _ ht)) nodup.2
              (fun e he => apart e (List.mem_append_right _ he)) hrest) fresh

/-- **A rollout recreates its targets once each.** -/
theorem recreatesOnly_execute {p : RolloutPlan} {out : Option RolloutReport}
    (inUse : ∀ t ∈ p.targets, t.container ∈ names)
    (nodup : (p.targets.map PlannedTarget.container).Nodup)
    (apart : ∀ e ∈ events, NamesApart names e)
    (h : Produces (Rollout.execute docker p cfg ts) events out) :
    RecreatesOnly names (p.targets.map PlannedTarget.container) events := by
  rcases h.of_bind with ⟨rfl, hrun⟩ | ⟨first, progress, rest, rfl, hrun, hrest⟩
  · exact recreatesOnly_runTargets inUse nodup apart hrun
  · have hfirst := recreatesOnly_runTargets inUse nodup
      (fun e he => apart e (List.mem_append_left _ he)) hrun
    have restarts : Emits (fun _ => True) (Moves fun role _ => role = .restart)
        (Rollout.concludeRollout p progress) fun _ => True := by
      unfold Rollout.concludeRollout
      cases progress.aborted with
      | some reason => exact emits_done trivial
      | none =>
          exact emits_bind (Rollout.emits_runRestarts fun _ _ => rfl) fun _ _ => emits_done trivial
    have hlast : RecreatesOnly names [] rest := by
      have none (name : String) : ¬ 0 < rest.countP (recreates name) := fun hpos => by
        cases allowed_of_countP (restarts rest out hrest fun _ _ => trivial).1 hpos
      exact ⟨fun name _ => by have := none name; omega, fun name _ hpos => absurd hpos (none name)⟩
    have hall := hfirst.append hlast fun _ _ => List.not_mem_nil
    rwa [List.append_nil] at hall

/-- A rollout claims its targets. -/
theorem mem_claimed_of_execute {p : RolloutPlan} {report : RolloutReport}
    (h : Produces (Rollout.execute docker p cfg ts) events (some report)) {container : String}
    (hmem : container ∈ p.targets.map PlannedTarget.container) : container ∈ report.claimed := by
  have himage := (Rollout.mem_imageTargets_of_execute h).mpr hmem
  rcases List.mem_append.mp himage with hstep | hleft
  · refine List.mem_append_left _ ?_
    obtain ⟨step, hstep, hcontainer⟩ := List.mem_filterMap.mp hstep
    refine List.mem_map.mpr ⟨step, hstep, ?_⟩
    cases step with
    | oneShotCompleted c | updated c _ _ => exact Option.some.inj hcontainer
    | restarted c => cases hcontainer
  · exact List.mem_append_right _ hleft

end Rollout

end Count

/-! ## Ticks -/

section Tick

variable {docker : Docker} {cfg : SchedulerConfig} {settings : ResolvedSettings}
  {names : List String}

/-- The targets of a plan that was made from a listing are distinct. -/
theorem nodup_of_plans {name : String} {labels : LabelMap} {tag : Option String}
    {events : List CallEvent} {p : RolloutPlan}
    (plans : Plans cfg settings name labels tag events p)
    (listed : ∀ e ∈ events, NamesListed names e) :
    (p.targets.map PlannedTarget.container).Nodup := by
  obtain ⟨info, listing, rest, -, rfl, hplan, -⟩ := plans
  obtain ⟨members, ⟨rows, hrows, refilled⟩, rfl⟩ :=
    (@Rollout.emits_planFor (NamesListed names) _ quiet_unmoved info.project name tag
      settings.policyDefaults cfg.ownIdPrefix listing _ hplan
      fun e he => listed e (List.mem_append_left _ he)).2 _ rfl p rfl
  have hnames : members.map Compose.ProjectMember.name = rows.map containerName := by
    clear hplan hrows
    induction refilled with
    | nil => rfl
    | cons head _ ih => rw [List.map_cons, List.map_cons, head.name, ih]
  have nodup : (members.map Compose.ProjectMember.name).Nodup := by
    rw [hnames]
    exact hrows.once _ rows rfl
  cases horigin : Rollout.originOf members name with
  | none =>
      have hnone : (Rollout.plan info.project members name tag settings.policyDefaults
          cfg.ownIdPrefix).targets = [] := by
        refine List.eq_nil_iff_forall_not_mem.mpr fun t ht => ?_
        obtain ⟨origin, hsome, -⟩ := Rollout.mem_targets_plan.mp ht
        cases horigin.symm.trans hsome
      rw [hnone]
      exact List.nodup_nil
  | some origin =>
      have hlisted := (@Rollout.listed_perm info.project name members tag settings.policyDefaults
        cfg.ownIdPrefix origin horigin).nodup_iff.mpr
        (nodup.sublist ((List.filter_sublist.trans List.filter_sublist).map _))
      exact (List.nodup_append.mp hlisted).1

/-- No rollout of the tick has a target that the tick recreated before. -/
def PlansFresh (docker : Docker) (cfg : SchedulerConfig) (settings : ResolvedSettings)
    (memory : Memory) (events : List CallEvent) : Prop :=
  ∀ now seen row s front rest policy found done,
    TickVisitAt docker cfg settings memory events now seen row s (front ++ rest) →
    Applies docker cfg now settings row s policy found front rest done →
    ∀ p, Plans cfg settings (containerName row) (row.labels.getD fun _ => none) found.current rest p →
      ∀ t ∈ p.targets, seen.countP (recreates t.container) = 0

/-- **A tick updates no container twice.** -/
def UpdatedOnce (docker : Docker) (cfg : SchedulerConfig) (settings : ResolvedSettings) : Prop :=
  ∀ memory events out, Produces (runTick docker cfg settings memory) events out →
    ∀ names, (∀ e ∈ events, NamesListed names e) →
      ∀ name ∈ names, events.countP (recreates name) ≤ 1

/-- What is known once a part of a tick was seen: no name was recreated twice, and those that were
recreated are handled. -/
def OnceSoFar (names : List String) (seen : List CallEvent) (s : Sweep) : Prop :=
  ∀ name ∈ names, seen.countP (recreates name) ≤ 1 ∧
    (0 < seen.countP (recreates name) → name ∈ s.handled)

/-- An applied update recreates what it is for, once each, and claims it. -/
theorem Applied.recreatesOnly {now : Instant} {name latest : String} {policy : Policy}
    {labels : LabelMap} {tag : Option String} {events : List CallEvent} {out : Option Processed}
    (h : Applied docker cfg now settings name policy labels latest tag events out)
    (inUse : name ∈ names) (listed : ∀ e ∈ events, NamesListed names e) :
    ∃ targets, RecreatesOnly names targets events ∧
      (∀ t ∈ targets, Subject cfg settings name labels tag events t) ∧
      ∀ r, out = some r → ∀ t ∈ targets, t ∈ r.handled := by
  have quiet {part : List CallEvent} (hpart : Unmoved part) := @recreatesOnly_unmoved names _ hpart
  have wrap {front run tail : List CallEvent} {targets : List String} (hfront : Unmoved front)
      (htail : Unmoved tail) (hrun : RecreatesOnly names targets run) :
      RecreatesOnly names targets (front ++ run ++ tail) := by
    have hall := ((quiet hfront).append hrun fun _ h => absurd h List.not_mem_nil).append
      (quiet htail) fun _ _ => List.not_mem_nil
    rwa [List.nil_append, List.append_nil] at hall
  cases h with
  | untouched hunmoved _ => exact ⟨[], quiet hunmoved, by simp, by simp⟩
  | @plain front run tail outcome _ hfront htail hrun hr =>
      have apart : ∀ e ∈ run, NamesApart names e := fun e he =>
        (listed e (List.mem_append_left _ (List.mem_append_right _ he))).toNamesApart
      refine ⟨[name], wrap hfront htail (recreatesOnly_recreateWithHealth inUse apart hrun),
        fun t ht => .inl (List.mem_singleton.mp ht), fun r hout t ht => ?_⟩
      obtain ⟨o, -, rfl⟩ := hr r hout
      match o with
      | .ok (.recreated _ _) | .ok (.rolledBack _) | .ok (.skippedByHook _) | .error _ => exact ht
  | @rollout p listing run tail done _ hlisting htail plans hrun hr =>
      have apart : ∀ e ∈ run, NamesApart names e := fun e he =>
        (listed e (List.mem_append_left _ (List.mem_append_right _ he))).toNamesApart
      have inNames : ∀ t ∈ p.targets, t.container ∈ names := fun t ht =>
        mem_names_of_plans plans (fun e he => (listed e he).toNamesKnown) ht
      refine ⟨_, wrap hlisting htail (recreatesOnly_execute inNames (nodup_of_plans plans listed)
        apart hrun), fun t ht => .inr ⟨p, plans, ht⟩, fun r hout t ht => ?_⟩
      obtain ⟨report, rfl, rfl⟩ := hr r hout
      exact mem_claimed_of_execute hrun ht

/-- **A visit keeps to once.** -/
theorem once_of_visit {memory : Memory} {events : List CallEvent}
    (listed : ∀ e ∈ events, NamesListed names e)
    (fresh : PlansFresh docker cfg settings memory events) {now : Instant}
    {seen part prior : List CallEvent} {row : ContainerSummary} {s : Sweep} {out : Option Sweep}
    (visited : TickVisitAt docker cfg settings memory events now seen row s part)
    (hprior : Unmoved prior) (once : OnceSoFar names (prior ++ seen) s)
    (h : Produces (visit docker cfg now settings row s) part out) :
    (∀ name ∈ names, (prior ++ seen ++ part).countP (recreates name) ≤ 1) ∧
      ∀ s', out = some s' → OnceSoFar names (prior ++ seen ++ part) s' := by
  rcases visit_cases h with ⟨hunmoved, hout⟩ |
      ⟨policy, found, front, rest, done, rfl, applies, hout⟩
  · have hsame (name : String) : (prior ++ seen ++ part).countP (recreates name) =
        (prior ++ seen).countP (recreates name) := by
      rw [List.countP_append, countP_recreates_unmoved hunmoved, Nat.add_zero]
    refine ⟨fun name hname => ?_, fun s' hs' name hname => ?_⟩
    · rw [hsame]
      exact (once name hname).1
    · rw [hsame, (hout s' hs').2]
      exact once name hname
  have tick : TickVisit docker cfg settings memory events now row s (front ++ rest) := by
    obtain ⟨rows, swept, hevents, at'⟩ := visited
    exact ⟨rows, swept, hevents, at'.visitIn⟩
  have inUse : containerName row ∈ names := by
    obtain ⟨rows, hrows, hrow⟩ := tick.listed
    exact (listed _ hrows).running rows rfl row hrow applies.considered.notArchive
  obtain ⟨targets, recreated, subject, handled⟩ :=
    (produces_applyUpdate applies.applied).recreatesOnly inUse
      fun e he => listed e (tick.mem (List.mem_append_right _ he))
  have hcount (name : String) : (prior ++ seen ++ (front ++ rest)).countP (recreates name) =
      (prior ++ seen).countP (recreates name) + rest.countP (recreates name) := by
    rw [List.countP_append, @List.countP_append _ _ front, countP_recreates_unmoved applies.unmoved,
      Nat.zero_add]
  -- what the update recreates was not recreated before
  have notBefore (name : String) (hname : name ∈ names)
      (hpos : 0 < rest.countP (recreates name)) : (prior ++ seen).countP (recreates name) = 0 := by
    rcases subject name (recreated.only name hname hpos) with rfl | ⟨p, plans, hmem⟩
    · rcases Nat.eq_zero_or_pos ((prior ++ seen).countP (recreates (containerName row))) with h | h
      · exact h
      · exact absurd ((once _ hname).2 h) applies.considered.notHandled
    · obtain ⟨t, ht, rfl⟩ := List.mem_map.mp hmem
      rw [List.countP_append, countP_recreates_unmoved hprior, Nat.zero_add]
      exact fresh now seen row s front rest policy found done visited applies p plans t ht
  have hfin (name : String) (hname : name ∈ names) :
      (prior ++ seen ++ (front ++ rest)).countP (recreates name) ≤ 1 := by
    rw [hcount]
    rcases Nat.eq_zero_or_pos (rest.countP (recreates name)) with hzero | hpos
    · rw [hzero, Nat.add_zero]
      exact (once name hname).1
    · rw [notBefore name hname hpos, Nat.zero_add]
      exact recreated.once name hname
  refine ⟨hfin, fun s' hs' name hname => ⟨hfin name hname, fun hpos => ?_⟩⟩
  obtain ⟨processed, rfl, -, hhandled⟩ := hout s' hs'
  rw [hhandled]
  rw [hcount] at hpos
  rcases Nat.eq_zero_or_pos (rest.countP (recreates name)) with hzero | hpos'
  · exact List.mem_append_left _ ((once name hname).2 (by omega))
  · exact List.mem_append_right _ (handled processed rfl name (recreated.only name hname hpos'))

/-- **A tick updates no container twice when none of its rollouts has a target that it recreated
before.** -/
theorem updated_once {memory : Memory} {events : List CallEvent} {out : Option Memory}
    (h : Produces (runTick docker cfg settings memory) events out)
    (listed : ∀ e ∈ events, NamesListed names e)
    (fresh : PlansFresh docker cfg settings memory events) :
    ∀ name ∈ names, events.countP (recreates name) ≤ 1 := by
  rcases produces_runTick h with ⟨hunmoved, -⟩ | ⟨rows, now, rest, swept, rfl, hswept, -⟩
  · exact (recreatesOnly_unmoved hunmoved).once
  let prior : List CallEvent := [⟨.listRunning, some (.ok rows)⟩, ⟨.localTime, some now⟩]
  have hprior : Unmoved prior := by simp [prior, Unmoved, Call.moves]
  refine sweep_trace_rule (OnceSoFar names)
    (fun seen => ∀ name ∈ names, seen.countP (recreates name) ≤ 1) prior
    (fun seen s once name hname => (once name hname).1) ?asked hswept ?step ?start
  case start =>
    intro name _
    rw [countP_recreates_unmoved hprior]
    exact ⟨Nat.zero_le 1, fun hpos => absurd hpos (Nat.lt_irrefl 0)⟩
  case asked =>
    intro seen s reply once name hname
    rw [List.countP_append, show [(⟨.shutdownRequested, reply⟩ : CallEvent)].countP
      (recreates name) = 0 from rfl]
    exact once name hname
  case step =>
    intro seen row s part out' visited once hvisit
    exact once_of_visit listed fresh ⟨rows, rest, rfl, visited⟩ hprior once hvisit

end Tick

/-! `a` runs `app:1` and `b` runs `app:2`. The new image of `app:1` is the one that `b` is on: once `a`
is updated, the rollout of `b` takes it for a member on the image of `b`. -/

def rowOn (name image imageId : String) : ContainerSummary where
  id := some ("id-" ++ name)
  names := some [name]
  image := some image
  imageId := some imageId
  labels := some (LabelMap.ofPairs [("com.docker.compose.project", "stack"),
    ("com.docker.compose.service", name), ("freshdock.enable", "true"), ("freshdock.mode", "live")])
  state := some .running
  networkMode := none

def promotedFleet : Fleet where
  running := [rowOn "a" "app:1" "first", rowOn "b" "app:2" "second"]
  project creates :=
    [rowOn "a" "app:1" (if creates = 0 then "first" else "second"), rowOn "b" "app:2" "second"]
  names := ["a", "b"]
  created creates _ :=
    .ok (if creates = 0 then "new-a" else if creates = 1 then "newer-a" else "new-b")
  ids := ["new-a", "newer-a", "new-b"]
  image ref := if ref = "b" ∨ ref = "new-b" then "app:2" else "app:1"
  state _ := ⟨some .running, some true, none, none, some .healthy⟩
  localImage := ⟨some "second", some ["app@sha256:old"]⟩
  digest := "sha256:new"
  time := 0

/-- The events of a tick of a fleet keep the promises about names. -/
theorem Fleet.listed_of_tick {fleet : Fleet} (named : fleet.Named)
    (once : ∀ creates, ((fleet.project creates).map containerName).Nodup) {docker : Docker}
    {cfg : SchedulerConfig} {settings : ResolvedSettings} {memory : Memory} :
    ∀ e ∈ (fleet.tick docker cfg settings memory).trace, NamesListed fleet.names e := by
  refine play_events (fun call creates => ⟨fleet.known named call creates, fun project rows h => ?_⟩)
    _ 0
  obtain rfl : call = .listProjectContainers project := congrArg Event.call h
  obtain rfl := Except.ok.inj (Option.some.inj (Event.reply_inj h))
  exact once creates

theorem promotedFleet_listed : ∀ e ∈ (promotedFleet.tick stackDocker stackConfig .default .empty).trace,
    NamesListed promotedFleet.names e := by
  have names (creates : Nat) : (promotedFleet.project creates).map containerName = ["a", "b"] := rfl
  refine Fleet.listed_of_tick ⟨by decide, fun creates row hrow => ?_, ?_, fun creates name id hid => ?_⟩
    fun creates => ?_
  · change containerName row ∈ ["a", "b"]
    rw [← names creates]
    exact List.mem_map_of_mem hrow
  · change ∀ name ∈ ["a", "b"], Text.trimStartMatches name '/' = name
    decide
  · obtain rfl := Except.ok.inj hid
    change (if creates = 0 then "new-a" else if creates = 1 then "newer-a" else "new-b") ∉ ["a", "b"]
    split
    · decide
    · split <;> decide
  · rw [names]
    decide

/-- `a` is recreated for itself, and once more for `b`. -/
theorem not_updatedOnce : ¬ UpdatedOnce stackDocker stackConfig .default := by
  intro once
  have hone := once .empty _ _ (promotedFleet.produces_tick _ _ _ _) _ promotedFleet_listed "a"
    (List.mem_cons_self)
  have htwo : (promotedFleet.tick stackDocker stackConfig .default .empty).trace.countP
      (recreates "a") = 2 := by
    decide +kernel
  omega

/-! The release of `web` comes after the update of `api`, which it spares. -/

def releaseTick : List CallEvent :=
  ((releaseFleet 0).tick stackDocker stackConfig .default .empty).trace

theorem releaseFleet_listed : ∀ e ∈ releaseTick,
    NamesListed (releaseFleet 0).names e :=
  Fleet.listed_of_tick (releaseFleet_named 0) fun _ =>
    show (releaseRows.map containerName).Nodup by decide

/-- The visit of `api` recreates nothing else. -/
theorem recreates_api {now : Instant} {s : Sweep} {part : List CallEvent} {out : Option Sweep}
    (within : TickVisit stackDocker stackConfig .default .empty releaseTick now
      (releaseRow "api" "app:1" "" true) s part)
    (h : Produces (visit stackDocker stackConfig now .default (releaseRow "api" "app:1" "" true) s)
      part out) {name : String} (inUse : name ∈ (releaseFleet 0).names) (hname : name ≠ "api") :
    part.countP (recreates name) = 0 := by
  rcases visit_cases h with ⟨hunmoved, -⟩ | ⟨policy, found, front, rest, done, rfl, applies, -⟩
  · exact countP_recreates_unmoved hunmoved
  have mem (e : CallEvent) (he : e ∈ rest) := within.mem (List.mem_append_right front he)
  obtain ⟨targets, recreated, subject, -⟩ :=
    (produces_applyUpdate applies.applied).recreatesOnly (List.mem_cons_self : "api" ∈ _)
      fun e he => releaseFleet_listed e (mem e he)
  rw [List.countP_append, countP_recreates_unmoved applies.unmoved, Nat.zero_add]
  by_contra hpos
  rcases subject name (recreated.only name inUse (Nat.pos_of_ne_zero hpos)) with rfl | ⟨p, plans, hmem⟩
  · exact hname rfl
  · obtain ⟨t, ht, rfl⟩ := List.mem_map.mp hmem
    exact hname ((releaseFleet_apart mem plans ht).mpr rfl)

/-- `api`, and the release of `web` with its one-shot, are updated once each. -/
theorem updated_once_release :
    releaseTick.countP (recreates "api") ≤ 1 ∧ releaseTick.countP (recreates "migrate") ≤ 1 ∧
      releaseTick.countP (recreates "web") ≤ 1 := by
  suffices fresh : PlansFresh stackDocker stackConfig .default .empty releaseTick by
    have once := updated_once (Fleet.produces_tick _ _ _ _ _) releaseFleet_listed fresh
    exact ⟨once "api" (by decide), once "migrate" (by decide), once "web" (by decide)⟩
  intro now seen row s front rest policy found done visited applies p plans t ht
  have tick : TickVisit stackDocker stackConfig .default .empty releaseTick now row s
      (front ++ rest) := by
    obtain ⟨rows, swept, hevents, at'⟩ := visited
    exact ⟨rows, swept, hevents, at'.visitIn⟩
  have inTick (e : CallEvent) (he : e ∈ rest) := tick.mem (List.mem_append_right front he)
  have apart := releaseFleet_apart inTick plans ht
  have inUse := mem_names_of_plans plans
      (fun e he => (releaseFleet_listed e (inTick e he)).toNamesKnown) ht
  obtain ⟨rows, swept, hevents, at'⟩ := visited
  obtain rfl : rows = [releaseRow "api" "app:1" "" true,
      releaseRow "web" "app:2" "migrate:service_completed_successfully:false" true] :=
    @Fleet.rows_of_tick (releaseFleet 0) stackDocker stackConfig .default .empty rows
      (congrArg List.head? hevents)
  cases at' with
  | here _ => rfl
  | later hfirst at' =>
      cases at' with
      | later _ at' => cases at'
      | here hvisit =>
          -- `api` was visited before, which recreates `api` only
          have first := recreates_api ⟨_, _, hevents, .here hfirst⟩ hfirst inUse fun h =>
            absurd (apart.mp h) (by decide)
          rw [List.countP_append, List.countP_cons_of_neg (by nofun), first]
          rfl

end Freshdock.Scheduler
