import Freshdock.Rollout.FailStop
import Freshdock.Rollout.Permitted
import Freshdock.Scheduler

/-!
# One rollout acts on a container once

The targets of a plan and the containers restarted at its end are distinct containers, as far as
the names of the listing are. So what a report answers for has no repetition, and the scheduler
counts one verdict for each container whose image the rollout moved or was to move.
-/

set_option autoImplicit false

namespace Freshdock.Rollout

open Interaction Docker
open Compose (ProjectMember Graph)
open Labels (PolicyDefaults)
open Scheduler (Verdict rolloutVerdicts failedAt)

section Plan

variable {project trigger : String} {members : List ProjectMember} {tag : Option String}
  {defaults : PolicyDefaults} {own : Option String}

/-- What comes from different members has different names. -/
theorem nodup_filterMap_names {β : Type} {f : ProjectMember → Option β} {name : β → String}
    (named : ∀ m x, f m = some x → name x = m.name)
    (nodup : (members.map ProjectMember.name).Nodup) :
    ((members.filterMap f).map name).Nodup := by
  induction members with
  | nil => simp
  | cons m members ih =>
      rw [List.map_cons, List.nodup_cons] at nodup
      cases hm : f m with
      | none =>
          rw [List.filterMap_cons_none hm]
          exact ih nodup.2
      | some x =>
          rw [List.filterMap_cons_some hm, List.map_cons, List.nodup_cons]
          refine ⟨fun hmem => ?_, ih nodup.2⟩
          obtain ⟨y, hy, heq⟩ := List.mem_map.mp hmem
          obtain ⟨m', hm', hfm'⟩ := List.mem_filterMap.mp hy
          rw [named m x hm, named m' y hfm'] at heq
          exact nodup.1 (heq ▸ List.mem_map_of_mem hm')

theorem nodup_liveMembers (nodup : (members.map ProjectMember.name).Nodup) :
    ((liveMembers members).map ProjectMember.name).Nodup :=
  nodup.sublist (List.filter_sublist.map _)

/-- **The targets of a plan are distinct containers.** -/
theorem nodup_targets (nodup : (members.map ProjectMember.name).Nodup) :
    ((plan project members trigger tag defaults own).targets.map PlannedTarget.container).Nodup := by
  cases horigin : originOf members trigger with
  | none =>
      have hnone : (plan project members trigger tag defaults own).targets = [] := by
        rw [plan_eq_empty horigin]
        rfl
      simp [hnone]
  | some origin =>
      rw [plan_eq_assemble horigin]
      refine ((targets_perm (liveMembers members)).map _).nodup_iff.mpr ?_
      refine nodup_filterMap_names (fun m t htarget => ?_) (nodup_liveMembers nodup)
      obtain ⟨-, -, -, -, hname, -⟩ := targetOf_eq_some.mp htarget
      exact hname

/-- The restarts are the candidates of each service that asks for one. -/
theorem restartsFor_assemble {graph : Graph} {state : PlanState} {updated : List String} :
    (assemble project graph state).restartsFor updated =
      (Compose.restartDependents graph updated).flatMap fun service =>
        (state.candidatesAt service).insertionSort (· ≤ ·) := by
  simp only [RolloutPlan.restartsFor, assemble, SortedMap.get?_map, PlanState.candidatesAt]
  induction Compose.restartDependents graph updated with
  | nil => rfl
  | cons service services ih =>
      rw [List.flatMap_cons, ← ih]
      cases hget : state.restartCandidates.get? service <;> simp [hget]

theorem nodup_restartDependents (graph : Graph) (updated : List String) :
    (Compose.restartDependents graph updated).Nodup := by
  refine Kahn.nodup_ascending ?_
  have nodup : (graph.entries.map Prod.fst).Nodup := graph.sorted.imp fun hlt => hlt.ne
  exact nodup.sublist (List.filter_sublist.map _)

/-- **The restarts of a plan are distinct containers.** -/
theorem nodup_restartsFor (nodup : (members.map ProjectMember.name).Nodup)
    (updated : List String) :
    ((plan project members trigger tag defaults own).restartsFor updated).Nodup := by
  cases horigin : originOf members trigger with
  | none =>
      have hnone : (plan project members trigger tag defaults own).restartsFor updated = [] := by
        rw [plan_eq_empty horigin, restartsFor_assemble]
        simp [candidatesAt_empty]
      simp [hnone]
  | some origin =>
      rw [plan_eq_assemble horigin, restartsFor_assemble]
      have names : (((liveMembers members).filterMap (candidateOf
          (planInput (liveMembers members) origin tag defaults own))).map Prod.snd).Nodup := by
        refine nodup_filterMap_names (fun m x hx => ?_) (nodup_liveMembers nodup)
        obtain ⟨-, -, -, -, hname⟩ := candidateOf_eq_some.mp hx
        exact hname.symm
      simp only [candidatesAt_foldl, candidatesAt_empty, List.nil_append]
      refine List.nodup_flatMap.mpr ⟨fun service _ => ?_, ?_⟩
      · rw [(List.perm_insertionSort _ _).nodup_iff]
        exact names.sublist (List.filter_sublist.map _)
      · refine (nodup_restartDependents _ updated).imp fun {first second} hne => ?_
        intro container hfirst hsecond
        simp only [List.mem_insertionSort, List.mem_map, List.mem_filter] at hfirst hsecond
        obtain ⟨x, ⟨hx, hservice⟩, rfl⟩ := hfirst
        obtain ⟨y, ⟨hy, hservice'⟩, heq⟩ := hsecond
        obtain rfl := List.inj_on_of_nodup_map names hy hx heq
        exact hne ((of_decide_eq_true hservice).symm.trans (of_decide_eq_true hservice'))

/-- **No target of a plan is restarted at its end.** -/
theorem restarts_apart (nodup : (members.map ProjectMember.name).Nodup) {container : String}
    (hrestart : container ∈ (plan project members trigger tag defaults own).restartsFor
      (plan project members trigger tag defaults own).allTargetServices) :
    container ∉
      (plan project members trigger tag defaults own).targets.map PlannedTarget.container := by
  intro htarget
  obtain ⟨t, ht, rfl⟩ := List.mem_map.mp htarget
  obtain ⟨origin, -, m, hm, service, hservice, hcandidate⟩ := mem_restartsFor_plan.mp hrestart
  obtain ⟨origin', -, m', hm', htargetOf⟩ := mem_targets_plan.mp ht
  obtain ⟨info, hinfo, -, rfl, hname⟩ := candidateOf_eq_some.mp hcandidate
  obtain ⟨info', hinfo', -, -, hname', hservice', -⟩ := targetOf_eq_some.mp htargetOf
  obtain rfl := List.inj_on_of_nodup_map nodup (mem_of_live hm) (mem_of_live hm')
    (hname.trans hname')
  obtain rfl : info = info' := Option.some.inj (hinfo.symm.trans hinfo')
  refine (Compose.mem_restartDependents.mp hservice).1 ?_
  rw [← hservice']
  exact List.mem_map_of_mem ht

end Plan

/-! ## Reports -/

/-- A step updated the container's image. -/
def Completes (report : RolloutReport) (container : String) : Prop :=
  .oneShotCompleted container ∈ report.steps ∨
    ∃ newId notify, .updated container newId notify ∈ report.steps

/-- The step of the container failed. -/
def StepFailedAt (report : RolloutReport) (container : String) : Prop :=
  ∃ error, report.aborted = some (.stepFailed container error)

/-- The verdict a container of the report deserves. -/
def Deserves (report : RolloutReport) (container : String) (verdict : Verdict) : Prop :=
  (verdict = .updated ∧ Completes report container) ∨
    (verdict = .failed ∧ ¬ Completes report container ∧ StepFailedAt report container) ∨
      (verdict = .notUpdated ∧ ¬ Completes report container ∧ ¬ StepFailedAt report container)

theorem failedAt_eq_some {aborted : Option AbortReason} {container : String} :
    failedAt aborted = some container ↔ ∃ error, aborted = some (.stepFailed container error) := by
  unfold failedAt
  split <;> simp_all

/-- No container is acted on twice. -/
structure ActsOnce (p : RolloutPlan) (report : RolloutReport) : Prop where
  targets : (p.targets.map PlannedTarget.container).Nodup
  restarts : (p.restartsFor p.allTargetServices).Nodup
  apart : ∀ container ∈ p.restartsFor p.allTargetServices,
    container ∉ p.targets.map PlannedTarget.container
  /-- Only these are restarted. -/
  restarted : (report.steps.filterMap fun
    | .restarted container => some container
    | _ => none).Sublist (p.restartsFor p.allTargetServices)
  claimed : report.claimed.Nodup
  covers : ∀ t ∈ p.targets, t.container ∈ report.claimed
  imageTargets : report.imageTargets = p.targets.map PlannedTarget.container
  verdicts : List.Forall₂ (Deserves report) report.imageTargets (rolloutVerdicts report)

section Report

variable {docker : Docker} {cfg : RolloutConfig} {ts : TsProvider} {p : RolloutPlan}
  {events : List CallEvent} {report : RolloutReport}

/-- The verdicts of steps that report targets, and of restarts. -/
theorem rolloutVerdicts_of_reports {targets : List PlannedTarget} {steps : List RolloutStep}
    (h : List.Forall₂ Reports targets steps) (restarted : List String) (project : String)
    (aborted : Option AbortReason) (notCompleted : List String) (skipped : List SkippedMember) :
    rolloutVerdicts ⟨project, steps ++ restarted.map RolloutStep.restarted, aborted, notCompleted,
      skipped⟩ = targets.map (fun _ => Verdict.updated) ++ notCompleted.map fun c =>
        if failedAt aborted = some c then .failed else .notUpdated := by
  induction h with
  | nil => simp [rolloutVerdicts]
  | @cons target step targets steps head _ ih =>
      unfold Reports at head
      cases hkind : target.kind with
      | oneShot =>
          rw [hkind] at head
          subst head
          exact congrArg (Verdict.updated :: ·) ih
      | service =>
          rw [hkind] at head
          obtain ⟨newId, rfl⟩ := head
          exact congrArg (Verdict.updated :: ·) ih

theorem Reports.completes {target : PlannedTarget} {step : RolloutStep} (h : Reports target step) :
    step = .oneShotCompleted target.container ∨
      ∃ newId notify, step = .updated target.container newId notify := by
  unfold Reports at h
  cases hkind : target.kind with
  | oneShot =>
      rw [hkind] at h
      exact .inl h
  | service =>
      rw [hkind] at h
      obtain ⟨newId, rfl⟩ := h
      exact .inr ⟨newId, _, rfl⟩

/-- The steps of targets restart nothing. -/
theorem restarted_of_reports {targets : List PlannedTarget} {steps : List RolloutStep}
    (h : List.Forall₂ Reports targets steps) :
    (steps.filterMap fun
      | .restarted container => some container
      | _ => none) = [] := by
  induction h with
  | nil => rfl
  | cons head _ ih => rcases head.completes with rfl | ⟨newId, notify, rfl⟩ <;> exact ih

/-- What completed is a target that was reported. -/
theorem completes_iff {targets : List PlannedTarget} {steps : List RolloutStep}
    (h : List.Forall₂ Reports targets steps) {restarted : List String} {project : String}
    {aborted : Option AbortReason} {notCompleted : List String} {skipped : List SkippedMember}
    {container : String} :
    Completes ⟨project, steps ++ restarted.map RolloutStep.restarted, aborted, notCompleted,
      skipped⟩ container ↔ container ∈ targets.map PlannedTarget.container := by
  unfold Completes
  induction h with
  | nil => simp
  | @cons target step targets steps head _ ih =>
      simp only [List.cons_append, List.mem_cons, List.map_cons] at ih ⊢
      rw [← ih]
      constructor
      · rintro ((rfl | hmem) | ⟨newId, notify, rfl | hmem⟩)
        · exact .inl head.container
        · exact .inr (.inl hmem)
        · exact .inl head.container
        · exact .inr (.inr ⟨newId, notify, hmem⟩)
      · rintro (rfl | hmem | ⟨newId, notify, hmem⟩)
        · rcases head.completes with rfl | ⟨newId, notify, rfl⟩
          · exact .inl (.inl rfl)
          · exact .inr ⟨newId, notify, .inl rfl⟩
        · exact .inl (.inr hmem)
        · exact .inr ⟨newId, notify, .inr hmem⟩

/-- **The verdicts are deserved**, when no target that was reported is among those that were not
completed. -/
theorem deserves_of_reports {targets : List PlannedTarget} {steps : List RolloutStep}
    (h : List.Forall₂ Reports targets steps) (restarted : List String) (project : String)
    (aborted : Option AbortReason) (notCompleted : List String) (skipped : List SkippedMember)
    (apart : ∀ c ∈ notCompleted, c ∉ targets.map PlannedTarget.container) :
    List.Forall₂ (Deserves ⟨project, steps ++ restarted.map RolloutStep.restarted, aborted,
        notCompleted, skipped⟩)
      (targets.map PlannedTarget.container ++ notCompleted)
      (targets.map (fun _ => Verdict.updated) ++ notCompleted.map fun c =>
        if failedAt aborted = some c then .failed else .notUpdated) := by
  refine List.rel_append ?_ ?_
  · rw [List.forall₂_map_left_iff, List.forall₂_map_right_iff, List.forall₂_same]
    intro t ht
    exact .inl ⟨rfl, (completes_iff h).mpr (List.mem_map_of_mem ht)⟩
  · rw [List.forall₂_map_right_iff, List.forall₂_same]
    intro c hc
    have incomplete : ¬ Completes ⟨project, steps ++ restarted.map RolloutStep.restarted, aborted,
        notCompleted, skipped⟩ c := fun hdone => apart c hc ((completes_iff h).mp hdone)
    split_ifs with hfailed
    · exact .inr (.inl ⟨rfl, incomplete, failedAt_eq_some.mp hfailed⟩)
    · exact .inr (.inr ⟨rfl, incomplete, fun hstep => hfailed (failedAt_eq_some.mpr hstep)⟩)

/-- **A report of what a plan names once acts on it once.** -/
theorem actsOnce_of_reports (targets : (p.targets.map PlannedTarget.container).Nodup)
    (restarts : (p.restartsFor p.allTargetServices).Nodup)
    (apart : ∀ container ∈ p.restartsFor p.allTargetServices,
      container ∉ p.targets.map PlannedTarget.container)
    {finished : List PlannedTarget} {steps : List RolloutStep}
    (reports : List.Forall₂ Reports finished steps) {restarted notCompleted : List String}
    (sublist : restarted.Sublist (p.restartsFor p.allTargetServices))
    (split : finished.map PlannedTarget.container ++ notCompleted =
      p.targets.map PlannedTarget.container) (aborted : Option AbortReason)
    (once : restarted = [] ∨ notCompleted = []) :
    ActsOnce p ⟨p.project, steps ++ restarted.map RolloutStep.restarted, aborted, notCompleted,
      p.skipped⟩ := by
  have nodup := split ▸ targets
  have himages := imageTargets_of_reports reports restarted p.project aborted notCompleted p.skipped
  have hclaimed : RolloutReport.claimed ⟨p.project, steps ++ restarted.map RolloutStep.restarted,
      aborted, notCompleted, p.skipped⟩ =
      finished.map PlannedTarget.container ++ restarted ++ notCompleted := by
    have hrestarted : (restarted.map RolloutStep.restarted).map RolloutStep.container =
        restarted := by
      rw [List.map_map]
      exact List.map_id _
    rw [RolloutReport.claimed, RolloutReport.touched, List.map_append,
      containers_of_reports reports, hrestarted]
  exact {
    targets := targets
    restarts := restarts
    apart := apart
    restarted := by
      rw [List.filterMap_append, restarted_of_reports reports, List.nil_append,
        List.filterMap_map]
      simpa [Function.comp_def] using sublist
    claimed := by
      rw [hclaimed]
      rcases once with rfl | rfl
      · rw [List.append_nil]
        exact nodup
      · rw [List.append_nil] at split ⊢
        rw [List.append_nil] at nodup
        refine List.nodup_append.mpr ⟨nodup, restarts.sublist sublist, fun a ha b hb heq => ?_⟩
        exact apart b (sublist.subset hb) (split ▸ heq ▸ ha)
    covers := fun t ht => by
      have hmem : t.container ∈ finished.map PlannedTarget.container ++ notCompleted :=
        split ▸ List.mem_map_of_mem ht
      rw [hclaimed]
      rcases List.mem_append.mp hmem with hmem | hmem
      · exact List.mem_append_left _ (List.mem_append_left _ hmem)
      · exact List.mem_append_right _ hmem
    imageTargets := himages.trans split
    verdicts := by
      rw [himages, rolloutVerdicts_of_reports reports]
      exact deserves_of_reports reports restarted p.project aborted notCompleted p.skipped
        fun c hc hmem => (List.nodup_append.mp nodup).2.2 c hmem c hc rfl }

theorem actsOnce_of_distinct (produced : Produces (execute docker p cfg ts) events (some report))
    (targets : (p.targets.map PlannedTarget.container).Nodup)
    (restarts : (p.restartsFor p.allTargetServices).Nodup)
    (apart : ∀ container ∈ p.restartsFor p.allTargetServices,
      container ∉ p.targets.map PlannedTarget.container) : ActsOnce p report := by
  obtain ⟨first, progress, rest, rfl, hfirst, hrest⟩ := produced.of_bind_some
  rcases produces_runTargets hfirst rfl with ⟨steps, ran, rfl⟩ |
      ⟨finished, target, todo, before, run, steps, reason, split, -, ran, -, rfl⟩
  · obtain ⟨reported, restarted, last, rfl, hrestarted, hlast⟩ := hrest.of_bind_some
    obtain ⟨-, rfl⟩ := hlast.of_done
    obtain ⟨containers, rfl, sublist⟩ := steps_of_runRestarts hrestarted
    exact actsOnce_of_reports targets restarts apart ran.reports sublist (List.append_nil _) none
      (.inr rfl)
  · obtain ⟨-, rfl⟩ := hrest.of_done
    have hremaining : remaining p.targets steps = (target :: todo).map PlannedTarget.container := by
      rw [split] at targets ⊢
      exact remaining_eq targets ran.reports
    have whole : finished.map PlannedTarget.container ++ remaining p.targets steps =
        p.targets.map PlannedTarget.container := by
      rw [hremaining, split, List.map_append]
    have acts := actsOnce_of_reports targets restarts apart ran.reports (List.nil_sublist _) whole
      (some reason) (.inl rfl)
    rw [List.map_nil, List.append_nil] at acts
    exact acts

end Report

/-- **No container is acted on twice by a rollout**, for every plan of a listing with unique
names and every run of it. -/
theorem execute_actsOnce {project trigger : String} {members : List ProjectMember}
    {tag own : Option String} {defaults : PolicyDefaults} {docker : Docker} {cfg : RolloutConfig}
    {ts : TsProvider} {events : List CallEvent} {report : RolloutReport}
    (nodup : (members.map ProjectMember.name).Nodup)
    (produced : Produces
      (execute docker (plan project members trigger tag defaults own) cfg ts) events
      (some report)) :
    ActsOnce (plan project members trigger tag defaults own) report :=
  actsOnce_of_distinct produced (nodup_targets nodup) (nodup_restartsFor nodup _)
    fun _ => restarts_apart nodup

/-- The rollout of the project whose migration exited acts on both containers once. -/
theorem execute_actsOnce_exited :
    ∃ report, exitedRun.out = some report ∧ ActsOnce exitedPlan report := by
  obtain ⟨report, hreport⟩ := Option.isSome_iff_exists.mp
    (show exitedRun.out.isSome = true by decide +kernel)
  have produced : Produces (execute ⟨"1.44", none, 1⟩ exitedPlan .default (.fixed 5))
      exitedRun.trace (some report) := by
    rw [← hreport]
    exact play_produces _ _ 0
  exact ⟨report, hreport, execute_actsOnce (by decide) produced⟩

end Freshdock.Rollout
