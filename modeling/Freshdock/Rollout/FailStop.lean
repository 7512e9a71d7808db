import Freshdock.Rollout.MigrationFirst

/-!
# A rollout stops at the first failure

A rollout updates its targets in order and stops at the first that fails. Its report is exact:
the steps are those of the targets before the failing one, the failing one is named, and what
was not completed is the failing target and the targets after it. No target after it is moved,
and no dependent is restarted. Without a failure every target is reported, and only then are
dependents restarted (`execute_failStop`).

**Ran.** `Ran targets events steps` is a run of all of `targets` to their success. What is
proved of a run that stopped is proved of the targets that ran before it and of the one it
stopped at.
-/

set_option autoImplicit false

namespace Freshdock.Rollout

open Interaction Docker Registry
open Compose (ProjectMember)
open Labels (PolicyDefaults)

/-- The step is the report of the target's success. -/
def Reports (target : PlannedTarget) (step : RolloutStep) : Prop :=
  match target.kind with
  | .oneShot => step = .oneShotCompleted target.container
  | .service => ∃ newId, step = .updated target.container newId target.policy.notify

/-- The container an abort names. -/
def AbortReason.container : AbortReason → String
  | .oneShotFailed container _ => container
  | .oneShotTimedOut container => container
  | .rolledBack container => container
  | .deferred container _ => container
  | .stepFailed container _ => container

/-- The container may be restarted on behalf of a plan: it is a candidate of a service that is not
in the plan and declares `restart: true` on an updated service. -/
def Owed (p : RolloutPlan) (container : String) : Prop :=
  ∃ service containers deps, p.restartCandidates.get? service = some containers ∧
    container ∈ containers ∧ service ∉ p.allTargetServices ∧ p.graph.get? service = some deps ∧
    ∃ d ∈ deps, d.restart = true ∧ d.service ∈ p.allTargetServices

section Targets

variable (docker : Docker) (cfg : RolloutConfig) (ts : TsProvider)

/-- All of the targets ran to their success, one after the other. -/
inductive Ran : List PlannedTarget → List CallEvent → List RolloutStep → Prop where
  | nil : Ran [] [] []
  | cons {target : PlannedTarget} {targets : List PlannedTarget} {run events : List CallEvent}
      {step : RolloutStep} {steps : List RolloutStep} :
      Produces (runTarget docker cfg ts target) run (some (.ok step)) → Ran targets events steps →
        Ran (target :: targets) (run ++ events) (step :: steps)

end Targets

/-! ## One target -/

section Runs

variable {docker : Docker} {cfg : RolloutConfig} {ts : TsProvider}

/-- A target that succeeded is reported, and a failure names it. -/
theorem verdict_of_runTarget {target : PlannedTarget} {events : List CallEvent}
    {verdict : Except AbortReason RolloutStep}
    (h : Produces (runTarget docker cfg ts target) events (some verdict)) :
    (∀ step, verdict = .ok step → Reports target step) ∧
      ∀ reason, verdict = .error reason → reason.container = target.container := by
  unfold runTarget at h
  unfold Reports
  cases hkind : target.kind with
  | oneShot =>
      rw [hkind] at h
      obtain ⟨outcome, rfl, -⟩ := h.of_map
      match outcome with
      | .ok .completed => exact ⟨fun step hstep => by cases hstep; rfl, nofun⟩
      | .ok (.failed _) | .ok .timedOut | .ok (.skippedByHook _) | .error _ =>
          exact ⟨nofun, fun reason hreason => by cases hreason; rfl⟩
  | service =>
      rw [hkind] at h
      obtain ⟨outcome, rfl, -⟩ := h.of_map
      match outcome with
      | .ok (.recreated _ newId) =>
          exact ⟨fun step hstep => by cases hstep; exact ⟨newId, rfl⟩, nofun⟩
      | .ok (.rolledBack _) | .ok (.skippedByHook _) | .error _ =>
          exact ⟨nofun, fun reason hreason => by cases hreason; rfl⟩

theorem Reports.container {target : PlannedTarget} {step : RolloutStep} (h : Reports target step) :
    step.container = target.container := by
  unfold Reports at h
  cases hkind : target.kind with
  | oneShot =>
      rw [hkind] at h
      rw [h]
      rfl
  | service =>
      rw [hkind] at h
      obtain ⟨newId, rfl⟩ := h
      rfl

/-! ## All targets -/

theorem Ran.reports {targets : List PlannedTarget} {events : List CallEvent}
    {steps : List RolloutStep} (ran : Ran docker cfg ts targets events steps) :
    List.Forall₂ Reports targets steps := by
  induction ran with
  | nil => exact .nil
  | cons run _ ih => exact .cons ((verdict_of_runTarget run).1 _ rfl) ih

/-- Targets that ran moved what their updates move. -/
theorem Ran.moves {rely : CallEvent → Prop} {P : Role → String → Prop}
    {targets : List PlannedTarget} {events : List CallEvent} {steps : List RolloutStep}
    (ran : Ran docker cfg ts targets events steps)
    (updatable : ∀ t ∈ targets, Updatable rely P docker t.container)
    (hrely : ∀ e ∈ events, rely e) : ∀ e ∈ events, Moves P e := by
  induction ran with
  | nil => simp
  | cons run _ ih =>
      intro e he
      rcases List.mem_append.mp he with he | he
      · exact (emits_runTarget (updatable _ List.mem_cons_self) cfg ts _ _ run
          fun e he => hrely e (List.mem_append_left _ he)).1 e he
      · exact ih (fun t ht => updatable t (List.mem_cons_of_mem _ ht))
          (fun e he => hrely e (List.mem_append_right _ he)) e he

/-- The progress after `targets` were done with `steps`. -/
def Progress.advance (progress : Progress) (targets : List PlannedTarget)
    (steps : List RolloutStep) (aborted : Option AbortReason) : Progress where
  steps := progress.steps ++ steps
  updatedServices := progress.updatedServices ++ targets.map PlannedTarget.service
  aborted := aborted

/-- **The targets all ran, or they ran up to one that failed.** -/
theorem produces_runTargets {targets : List PlannedTarget} {progress done : Progress}
    {events : List CallEvent}
    (h : Produces (runTargets docker cfg ts targets progress) events (some done))
    (fresh : progress.aborted = none) :
    (∃ steps, Ran docker cfg ts targets events steps ∧
      done = progress.advance targets steps none) ∨
    ∃ finished target todo first run steps reason, targets = finished ++ target :: todo ∧
      events = first ++ run ∧ Ran docker cfg ts finished first steps ∧
      Produces (runTarget docker cfg ts target) run (some (.error reason)) ∧
      done = progress.advance finished steps (some reason) := by
  induction targets generalizing progress events with
  | nil =>
      obtain ⟨rfl, rfl⟩ := h.of_done
      refine .inl ⟨[], .nil, ?_⟩
      obtain ⟨steps, services, aborted⟩ := done
      obtain rfl : aborted = none := fresh
      simp [Progress.advance]
  | cons head targets ih =>
      obtain ⟨first, verdict, rest, rfl, hfirst, hrest⟩ := h.of_bind_some
      cases verdict with
      | error reason =>
          obtain ⟨rfl, rfl⟩ := hrest.of_done
          refine .inr ⟨[], head, targets, [], first, [], reason, rfl, by simp, .nil, hfirst, ?_⟩
          simp [Progress.advance]
      | ok step =>
          rcases @ih (progress.complete head step) rest hrest fresh with
            ⟨steps, ran, rfl⟩ | ⟨finished, target, todo, first', run, steps, reason, rfl, rfl, ran,
              failed, rfl⟩
          · refine .inl ⟨step :: steps, .cons hfirst ran, ?_⟩
            simp [Progress.advance, Progress.complete]
          · refine .inr ⟨head :: finished, target, todo, first ++ first', run, step :: steps, reason,
              rfl, by simp, .cons hfirst ran, failed, ?_⟩
            simp [Progress.advance, Progress.complete]

/-- The steps of targets touch the targets. -/
theorem containers_of_reports {targets : List PlannedTarget} {steps : List RolloutStep}
    (h : List.Forall₂ Reports targets steps) :
    steps.map RolloutStep.container = targets.map PlannedTarget.container := by
  induction h with
  | nil => rfl
  | cons head _ ih => rw [List.map_cons, List.map_cons, head.container, ih]

/-- The image targets of a report are the containers its steps updated and those it did not
complete. -/
theorem imageTargets_of_reports {targets : List PlannedTarget} {steps : List RolloutStep}
    (h : List.Forall₂ Reports targets steps) (restarted : List String) (project : String)
    (aborted : Option AbortReason) (notCompleted : List String) (skipped : List SkippedMember) :
    RolloutReport.imageTargets ⟨project, steps ++ restarted.map RolloutStep.restarted, aborted,
      notCompleted, skipped⟩ = targets.map PlannedTarget.container ++ notCompleted := by
  induction h with
  | nil => simp [RolloutReport.imageTargets]
  | @cons target step targets steps head _ ih =>
      unfold Reports at head
      cases hkind : target.kind with
      | oneShot =>
          rw [hkind] at head
          subst head
          exact congrArg (target.container :: ·) ih
      | service =>
          rw [hkind] at head
          obtain ⟨newId, rfl⟩ := head
          exact congrArg (target.container :: ·) ih

/-- **What the steps do not touch is the failing target and what comes after it**, when the names
are distinct. -/
theorem remaining_eq {finished todo : List PlannedTarget} {steps : List RolloutStep}
    (nodup : ((finished ++ todo).map PlannedTarget.container).Nodup)
    (reports : List.Forall₂ Reports finished steps) :
    remaining (finished ++ todo) steps = todo.map PlannedTarget.container := by
  rw [List.map_append, List.nodup_append] at nodup
  rw [remaining, containers_of_reports reports, List.map_append, List.filter_append]
  have hfinished : (finished.map PlannedTarget.container).filter
      (fun c => !(finished.map PlannedTarget.container).contains c) = [] := by
    rw [List.filter_eq_nil_iff]
    intro c hc
    simpa using hc
  have htodo : (todo.map PlannedTarget.container).filter
      (fun c => !(finished.map PlannedTarget.container).contains c) =
      todo.map PlannedTarget.container := by
    rw [List.filter_eq_self]
    intro c hc
    have hnot : c ∉ finished.map PlannedTarget.container :=
      fun hmem => nodup.2.2 c hmem c hc rfl
    simpa using hnot
  rw [hfinished, htodo, List.nil_append]

/-! ## Restarts -/

/-- The reported restarts are among those that were attempted, in order. -/
theorem steps_of_runRestarts {containers : List String} {events : List CallEvent}
    {steps : List RolloutStep} (h : Produces (runRestarts containers) events (some steps)) :
    ∃ restarted : List String, steps = restarted.map RolloutStep.restarted ∧
      restarted.Sublist containers := by
  induction containers generalizing events steps with
  | nil =>
      obtain ⟨-, rfl⟩ := h.of_done
      exact ⟨[], rfl, .slnil⟩
  | cons container containers ih =>
      obtain ⟨-, restarted, rest, rfl, -, hrest⟩ := h.of_bind_some
      obtain ⟨more, steps', last, rfl, hmore, hlast⟩ := hrest.of_bind_some
      obtain ⟨-, rfl⟩ := hlast.of_done
      obtain ⟨restarts, rfl, sublist⟩ := ih hmore
      cases restarted with
      | ok _ => exact ⟨container :: restarts, rfl, sublist.cons_cons container⟩
      | error _ => exact ⟨restarts, rfl, sublist.cons container⟩

theorem owed_of_mem {p : RolloutPlan} {container : String}
    (h : container ∈ p.restartsFor p.allTargetServices) : Owed p container := by
  simp only [RolloutPlan.restartsFor, List.mem_flatten, List.mem_filterMap] at h
  obtain ⟨containers, ⟨service, hservice, hget⟩, hmem⟩ := h
  obtain ⟨hnot, deps, hdeps, hrestart⟩ := Compose.mem_restartDependents.mp hservice
  exact ⟨service, containers, deps, hget, hmem, hnot, hdeps, hrestart⟩

/-! ## The rollout -/

/-- The accounting of a rollout that stopped at `target`. -/
structure StoppedAt (docker : Docker) (cfg : RolloutConfig) (ts : TsProvider) (p : RolloutPlan)
    (events : List CallEvent) (report : RolloutReport) (finished : List PlannedTarget)
    (target : PlannedTarget) (todo : List PlannedTarget) : Prop where
  targets : p.targets = finished ++ target :: todo
  ran : ∃ first run reason, events = first ++ run ∧
    Ran docker cfg ts finished first report.steps ∧
    Produces (runTarget docker cfg ts target) run (some (.error reason)) ∧
    report.aborted = some reason ∧ reason.container = target.container
  steps : List.Forall₂ Reports finished report.steps
  notCompleted : report.notCompleted = (target :: todo).map PlannedTarget.container
  /-- No target after it is moved, repairs aside. -/
  untouched : ∀ later ∈ todo, ∀ e ∈ events, ∀ role,
    e.call.moves = some (role, later.container) → role = .repair
  notRestarted : ∀ e ∈ events, ∀ role ref, e.call.moves = some (role, ref) → role ≠ .restart

/-- The accounting of a rollout in which no target failed. -/
structure Completed (docker : Docker) (cfg : RolloutConfig) (ts : TsProvider) (p : RolloutPlan)
    (events : List CallEvent) (report : RolloutReport) : Prop where
  aborted : report.aborted = none
  notCompleted : report.notCompleted = []
  steps : ∃ steps, ∃ restarted : List String,
    report.steps = steps ++ restarted.map RolloutStep.restarted ∧
      List.Forall₂ Reports p.targets steps ∧ ∀ container ∈ restarted, Owed p container
  /-- Restarts come after all targets ran, and only those that are owed. -/
  order : ∃ first rest steps, events = first ++ rest ∧ Ran docker cfg ts p.targets first steps ∧
    (∀ e ∈ first, ∀ role ref, e.call.moves = some (role, ref) → role ≠ .restart) ∧
    ∀ e ∈ rest, ∀ role ref, e.call.moves = some (role, ref) → role = .restart ∧ Owed p ref

section Rollout

variable {p : RolloutPlan} {events : List CallEvent} {report : RolloutReport}

/-- Of the targets of a plan, the updates of some of them move these only. -/
theorem updatable_of_targets {targets : List PlannedTarget} {t : PlannedTarget} {names : List String}
    (ht : t ∈ targets) (inUse : t.container ∈ names) :
    Updatable (NamesApart names) (fun role ref => role ≠ .restart ∧
      (role ≠ .repair → ref ∈ names → ref ∈ targets.map PlannedTarget.container)) docker
      t.container := by
  have updatable := @updatable_movesOnly_self (NamesApart names) names t.container docker inUse
    fun _ apart => apart
  refine (updatable.mono fun role ref only hrole hmem => ?_).noRestart
  rw [only hrole hmem]
  exact List.mem_map_of_mem ht

/-- A rollout that stopped moved no target after the failing one. -/
theorem stoppedAt_of_failed (nodup : (p.targets.map PlannedTarget.container).Nodup)
    (names : ∀ e ∈ events, NamesApart (p.targets.map PlannedTarget.container) e)
    {finished todo : List PlannedTarget} {target : PlannedTarget} {first run : List CallEvent}
    {steps : List RolloutStep} {reason : AbortReason}
    (split : p.targets = finished ++ target :: todo) (hevents : events = first ++ run)
    (ran : Ran docker cfg ts finished first steps)
    (failed : Produces (runTarget docker cfg ts target) run (some (.error reason))) :
    StoppedAt docker cfg ts p events
      ⟨p.project, steps, some reason, remaining p.targets steps, p.skipped⟩ finished target todo := by
  have sub : ∀ t ∈ finished ++ [target], t ∈ p.targets := by
    intro t ht
    rw [split]
    rcases List.mem_append.mp ht with ht | ht
    · exact List.mem_append_left _ ht
    · obtain rfl := List.mem_singleton.mp ht
      exact List.mem_append_right _ List.mem_cons_self
  have moves : ∀ e ∈ events, Moves (fun role ref => role ≠ .restart ∧
      (role ≠ .repair → ref ∈ p.targets.map PlannedTarget.container →
        ref ∈ (finished ++ [target]).map PlannedTarget.container)) e := by
    subst hevents
    have updatable (t : PlannedTarget) (ht : t ∈ finished ++ [target]) :=
      @updatable_of_targets docker _ t (p.targets.map PlannedTarget.container) ht
        (List.mem_map_of_mem (sub t ht))
    intro e he
    rcases List.mem_append.mp he with he | he
    · exact ran.moves (fun t ht => updatable t (List.mem_append_left _ ht))
        (fun e he => names e (List.mem_append_left _ he)) e he
    · exact (emits_runTarget (updatable target (by simp)) cfg ts _ _ failed
        fun e he => names e (List.mem_append_right _ he)).1 e he
  exact {
    targets := split
    ran := ⟨first, run, reason, hevents, ran, failed, rfl, (verdict_of_runTarget failed).2 _ rfl⟩
    steps := ran.reports
    notCompleted := by
      rw [split] at nodup ⊢
      exact remaining_eq nodup ran.reports
    untouched := by
      intro later hlater e he role moved
      by_contra hrole
      have hmem : later.container ∈ p.targets.map PlannedTarget.container := by
        rw [split]
        exact List.mem_map_of_mem (List.mem_append_right _ (List.mem_cons_of_mem _ hlater))
      have hdone := (moves e he role later.container moved).2 hrole hmem
      have apart : ((finished ++ [target]) ++ todo).map PlannedTarget.container = p.targets.map
          PlannedTarget.container := by
        rw [split]
        simp
      rw [← apart, List.map_append, List.nodup_append] at nodup
      exact nodup.2.2 _ hdone _ (List.mem_map_of_mem hlater) rfl
    notRestarted := fun e he role ref moved => (moves e he role ref moved).1 }

/-- A rollout in which no target failed restarts what is owed. -/
theorem completed_of_ran (names : ∀ e ∈ events, NamesApart (p.targets.map PlannedTarget.container) e)
    {first rest : List CallEvent} {steps restarts : List RolloutStep}
    (hevents : events = first ++ rest) (ran : Ran docker cfg ts p.targets first steps)
    (restarted : Produces (runRestarts (p.restartsFor p.allTargetServices)) rest (some restarts)) :
    Completed docker cfg ts p events ⟨p.project, steps ++ restarts, none, [], p.skipped⟩ := by
  subst hevents
  obtain ⟨containers, rfl, sublist⟩ := steps_of_runRestarts restarted
  have moves : ∀ e ∈ rest, Moves (fun role ref => role = .restart ∧ Owed p ref) e :=
    (@emits_runRestarts (fun _ => True) _ _ (fun c hc => ⟨rfl, owed_of_mem hc⟩) _ _ restarted
      fun _ _ => trivial).1
  have first_moves := ran.moves
    (fun t ht => @updatable_of_targets docker _ t (p.targets.map PlannedTarget.container) ht
      (List.mem_map_of_mem ht)) fun e he => names e (List.mem_append_left _ he)
  exact {
    aborted := rfl
    notCompleted := rfl
    steps := ⟨steps, containers, rfl, ran.reports, fun c hc => owed_of_mem (sublist.subset hc)⟩
    order := ⟨first, rest, steps, rfl, ran,
      fun e he role ref moved => (first_moves e he role ref moved).1, moves⟩ }

/-- **A rollout stops at its first failure, and its report is exact.** -/
theorem execute_failStop (nodup : (p.targets.map PlannedTarget.container).Nodup)
    (produced : Produces (execute docker p cfg ts) events (some report))
    (names : ∀ e ∈ events, NamesApart (p.targets.map PlannedTarget.container) e) :
    ((∃ finished target todo, StoppedAt docker cfg ts p events report finished target todo) ∨
      Completed docker cfg ts p events report) ∧
    ∀ project members trigger tag defaults own, p = plan project members trigger tag defaults own →
      ∀ container, Owed p container → ∃ m ∈ liveMembers members, m.name = container ∧
        m.running = true := by
  refine ⟨?_, fun project members trigger tag defaults own hp container owed => ?_⟩
  · obtain ⟨first, progress, rest, rfl, hfirst, hrest⟩ := produced.of_bind_some
    rcases produces_runTargets hfirst rfl with ⟨steps, ran, rfl⟩ |
        ⟨finished, target, todo, before, run, steps, reason, split, hevents, ran, failed, rfl⟩
    · obtain ⟨restarts, restarted, last, rfl, hrestarts, hlast⟩ := hrest.of_bind_some
      obtain ⟨rfl, rfl⟩ := hlast.of_done
      exact .inr (completed_of_ran names (by rw [List.append_nil]) ran hrestarts)
    · obtain ⟨rfl, rfl⟩ := hrest.of_done
      exact .inl ⟨finished, target, todo,
        stoppedAt_of_failed nodup names split (by rw [List.append_nil, hevents]) ran failed⟩
  · subst hp
    obtain ⟨service, containers, -, hget, hmem, -⟩ := owed
    obtain ⟨origin, -, m, hm, hcandidate⟩ := exists_candidate_of_plan hget hmem
    obtain ⟨info, -, hrestartable, -, hname⟩ := candidateOf_eq_some.mp hcandidate
    simp only [PlanInput.restartable, Bool.and_eq_true] at hrestartable
    exact ⟨m, hm, hname, hrestartable.1.1.1⟩

/-- The image targets of a report are the targets of its plan. -/
theorem mem_imageTargets_of_execute (produced : Produces (execute docker p cfg ts) events (some report))
    {container : String} :
    container ∈ report.imageTargets ↔ container ∈ p.targets.map PlannedTarget.container := by
  obtain ⟨first, progress, rest, rfl, hfirst, hrest⟩ := produced.of_bind_some
  rcases produces_runTargets hfirst rfl with ⟨steps, ran, rfl⟩ |
      ⟨finished, target, todo, before, run, steps, reason, split, -, ran, -, rfl⟩
  · obtain ⟨restarts, restarted, last, rfl, hrestarts, hlast⟩ := hrest.of_bind_some
    obtain ⟨-, rfl⟩ := hlast.of_done
    obtain ⟨containers, rfl, -⟩ := steps_of_runRestarts hrestarts
    have himages := imageTargets_of_reports ran.reports containers p.project none [] p.skipped
    rw [List.append_nil] at himages
    exact iff_of_eq (congrArg (container ∈ ·) himages)
  · obtain ⟨-, rfl⟩ := hrest.of_done
    have himages := imageTargets_of_reports ran.reports [] p.project (some reason)
      (remaining p.targets steps) p.skipped
    rw [List.map_nil, List.append_nil] at himages
    refine (iff_of_eq (congrArg (container ∈ ·) himages)).trans ?_
    rw [List.mem_append, remaining, containers_of_reports ran.reports, List.mem_filter, split,
      List.map_append, List.mem_append]
    by_cases hdone : container ∈ finished.map PlannedTarget.container
    · simp [hdone]
    · simp [hdone]

/-- What an aborted rollout claims is what it moved or was to move. -/
theorem claimed_of_aborted (produced : Produces (execute docker p cfg ts) events (some report))
    {reason : AbortReason} (aborted : report.aborted = some reason) :
    report.claimed = report.imageTargets := by
  obtain ⟨first, progress, rest, rfl, hfirst, hrest⟩ := produced.of_bind_some
  rcases produces_runTargets hfirst rfl with ⟨steps, ran, rfl⟩ |
      ⟨finished, target, todo, before, run, steps, reason, split, -, ran, -, rfl⟩
  · obtain ⟨restarts, restarted, last, rfl, hrestarts, hlast⟩ := hrest.of_bind_some
    obtain ⟨-, rfl⟩ := hlast.of_done
    cases aborted
  · obtain ⟨-, rfl⟩ := hrest.of_done
    have himages := imageTargets_of_reports ran.reports [] p.project (some reason)
      (remaining p.targets steps) p.skipped
    rw [List.map_nil, List.append_nil] at himages
    refine Eq.trans ?_ himages.symm
    rw [RolloutReport.claimed, RolloutReport.touched]
    exact congrArg (· ++ remaining p.targets steps) (containers_of_reports ran.reports)

end Rollout

end Runs

/-! The rollout of the project whose migration exited, on its daemon. -/

def exitedPlan : RolloutPlan :=
  plan "stack" (stackMembers exitedStack) "web" none ⟨none, false, false⟩ none

def exitedRun : Run Call Call.Reply Nat RolloutReport :=
  play (stackDaemon exitedStack).answer (execute ⟨"1.44", none, 1⟩ exitedPlan .default (.fixed 5)) 0

/-- Both targets are accounted for. -/
theorem execute_failStop_exited : ∃ report, exitedRun.out = some report ∧
    ((∃ finished target todo, StoppedAt ⟨"1.44", none, 1⟩ .default (.fixed 5) exitedPlan
        exitedRun.trace report finished target todo) ∨
      Completed ⟨"1.44", none, 1⟩ .default (.fixed 5) exitedPlan exitedRun.trace report) := by
  obtain ⟨report, hreport⟩ := Option.isSome_iff_exists.mp
    (show exitedRun.out.isSome = true by decide +kernel)
  have hnames : exitedPlan.targets.map PlannedTarget.container = ["migrate", "web"] := by
    decide +kernel
  have produced : Produces (execute ⟨"1.44", none, 1⟩ exitedPlan .default (.fixed 5))
      exitedRun.trace (some report) := by
    rw [← hreport]
    exact play_produces _ _ 0
  have apart : ∀ e ∈ exitedRun.trace,
      NamesApart (exitedPlan.targets.map PlannedTarget.container) e := by
    rw [hnames]
    exact play_events (fun call t => (@stackDaemon_names exitedStack (migrateRow .exited)
      ⟨by decide, by decide⟩ List.mem_cons_self (by decide) call t).toNamesApart) _ 0
  exact ⟨report, hreport, (execute_failStop (by rw [hnames]; decide) produced apart).1⟩

end Freshdock.Rollout
