import Freshdock.Scheduler.Labelled

/-!
# Only what the labels ask for

Some of what a tick does has to be asked for (`Call.elective`): a command that is run in a
container, the removal of an image, the pruning of the dangling ones, and a notification. Each of
these is done on behalf of a container that was listed, by the policy of that container's own labels:
the command is its hook, its replaced image is removed because it has cleanup, and the notification
is about it because it has notify (`AskedFor`).

**Not before.** An image is removed, and a hook is run in a new container, once that container was
reported well (`Renewed`).
-/

set_option autoImplicit false

namespace Freshdock.Scheduler

open Interaction Docker Health
open Labels (Hook LifecycleHooks Policy)

/-! ## What is asked for -/

section Facts

variable (seen : CallEvent → Prop) (settings : ResolvedSettings)

/-- The call is asked for by the policy of the container. -/
def AskedFor (row : ContainerSummary) (policy : Policy) : Call → Prop
  | .exec target command timeout =>
      (policy.hooks.preUpdate = some ⟨command, timeout⟩ ∧ target = containerName row) ∨
        (policy.hooks.postUpdate = some ⟨command, timeout⟩ ∧
          ∃ spec, Renewed seen (containerName row) target spec)
  | .removeImage id force =>
      policy.cleanup = true ∧ force = false ∧
        ∃ newId spec, Renewed seen (containerName row) newId spec ∧ spec.imageId = some id
  | .pruneImages =>
      settings.pruneDangling = true ∧ ∃ newId spec, Renewed seen (containerName row) newId spec
  | .dispatch event => policy.notify = true ∧ About seen row event
  | _ => True

/-- What has to be asked for is asked for by the labels of a listed container. -/
def OnBehalf (e : CallEvent) : Prop :=
  e.call.elective = true → ∃ row policy,
    Labelled seen settings row policy ∧ AskedFor seen settings row policy e.call

end Facts

variable {seen : CallEvent → Prop} {settings : ResolvedSettings}

/-- What is asked for does not show what else is. -/
theorem AskedFor.mono {seen' : CallEvent → Prop}
    (more : ∀ e, e.call.elective = false → seen e → seen' e) {row : ContainerSummary}
    {policy : Policy} {c : Call} (h : AskedFor seen settings row policy c) :
    AskedFor seen' settings row policy c := by
  have shown (e : CallEvent) (he : e.call.shows = true) (h : seen e) : seen' e :=
    more e (Call.free_of_shows he) h
  cases c with
  | exec target command timeout =>
      rcases h with pre | ⟨hook, spec, renewed⟩
      · exact .inl pre
      · exact .inr ⟨hook, spec, renewed.mono shown⟩
  | removeImage id force =>
      obtain ⟨cleanup, gentle, newId, spec, renewed, himage⟩ := h
      exact ⟨cleanup, gentle, newId, spec, renewed.mono shown, himage⟩
  | pruneImages =>
      obtain ⟨prune, newId, spec, renewed⟩ := h
      exact ⟨prune, newId, spec, renewed.mono shown⟩
  | dispatch event => exact ⟨h.1, h.2.mono more⟩
  | _ => exact trivial

/-! ## Updates -/

/-- Nobody has to ask for work on containers. -/
theorem behalf_of_works {α : Type} {p : Prog α} (works : Works p) :
    Emits seen (OnBehalf seen settings) p fun _ => True :=
  emits_of_only works (fun e hcall helective => by
    simp [Call.works, helective] at hcall) fun _ _ _ _ => trivial

theorem reads_onBehalf : Reads (OnBehalf seen settings) := by
  intro c reply _ free elective
  rw [free] at elective
  cases elective

section Updates

variable {docker : Docker} {row : ContainerSummary} {policy : Policy} {hooks : LifecycleHooks}
  {cycle : CycleResult} {spec : ContainerSpec} {ts : TsProvider}
  (labelled : Labelled seen settings row policy)

include labelled

/-- A call that the labels of a container ask for. -/
theorem behalf_asked {c : Call} (asked : AskedFor seen settings row policy c) :
    Emits seen (OnBehalf seen settings) (request c) fun _ => True :=
  emits_request (fun _ _ => ⟨row, policy, labelled, asked⟩) fun _ _ => trivial

/-- The cycle of an update runs the container's own hook. -/
theorem behalf_recreateOne (hook : ∀ h ∈ hooks.preUpdate, policy.hooks.preUpdate = some h) :
    Emits seen (OnBehalf seen settings) (recreateOne docker (containerName row) hooks ts).run
      fun _ => True := by
  refine @emits_try_bind _ _ _ _ _ seen _ (fun _ => True) _ _ _ ?_ fun cleared _ => ?_
  · refine @emits_try_bind _ _ _ _ _ seen _ (fun _ => True) _ _ _
      ((behalf_of_works (works_inspect _)).weaken fun r _ => by cases r <;> trivial) fun spec _ => ?_
    refine @emits_try_bind _ _ _ _ _ seen _ (fun _ => True) _ _ _
      (emits_done (by cases docker.preflightRecreate spec <;> trivial)) fun _ _ => ?_
    refine @emits_try_bind _ _ _ _ _ seen _ (fun _ => True) _ _ _
      ((behalf_of_works (works_pull _)).weaken fun r _ => by cases r <;> trivial) fun _ _ => ?_
    exact emits_lift_bind (emits_runPreUpdateHook _ fun h hh reply _ =>
      ⟨row, policy, labelled, .inl ⟨hook h hh, rfl⟩⟩) fun skip _ => emits_done trivial
  · obtain ⟨spec, _ | reason⟩ := cleared
    · refine emits_lift_bind (behalf_of_works (works_dependentsOf docker _)) fun _ _ => ?_
      exact emits_try_bind (fun _ => True) (emits_map ((behalf_of_works
        (works_swapContainer _ _ _ _ ts)).weaken fun r _ => by cases r <;> exact trivial))
        fun _ _ => emits_done trivial
    · exact emits_done trivial

section Settle

variable (finished : Finished seen (containerName row) cycle spec)
  (renewed : Renewed seen (containerName row) cycle.newId spec)

include finished renewed

/-- The cleanup that is asked for, of a container that was renewed. -/
theorem behalf_runCleanup : Emits seen (OnBehalf seen settings)
    (runCleanup ⟨policy.cleanup, settings.pruneDangling⟩ cycle.oldImageId) fun _ => True := by
  refine @emits_bind _ _ _ _ _ _ _ _ (fun _ => True) _ ?_ fun _ _ => ?_
  · unfold removeReplacedImage
    split
    · next id hcleanup hid =>
      have asked : AskedFor seen settings row policy (.removeImage id false) :=
        ⟨hcleanup, rfl, cycle.newId, spec, renewed, finished.oldImageId ▸ hid⟩
      exact emits_bind (behalf_asked labelled asked) fun _ _ => emits_done trivial
    · exact emits_done trivial
  · dsimp only
    split
    · next hprune =>
      have asked : AskedFor seen settings row policy .pruneImages :=
        ⟨hprune, cycle.newId, spec, renewed⟩
      exact emits_bind (behalf_asked labelled asked) fun _ _ => emits_done trivial
    · exact emits_done trivial

theorem behalf_settleUpdate : Emits seen (OnBehalf seen settings)
    (settleUpdate cycle ⟨policy.cleanup, settings.pruneDangling⟩ policy.hooks.postUpdate ts)
      fun _ => True := by
  refine emits_bind (behalf_of_works (works_reattachDependents _ _ ts _)) fun _ _ => ?_
  refine emits_bind (behalf_of_works (works_call rfl)) fun _ _ => ?_
  refine @emits_bind _ _ _ _ _ _ _ _ (fun _ => True) _ ?_ fun _ _ =>
    emits_bind (behalf_runCleanup labelled finished renewed) fun _ _ => emits_done trivial
  cases hpost : policy.hooks.postUpdate with
  | none => exact emits_done trivial
  | some hook =>
      have asked : AskedFor seen settings row policy (.exec cycle.newId hook.command hook.timeout) :=
        .inr ⟨hpost, spec, renewed⟩
      exact emits_bind (behalf_asked labelled asked) fun _ _ => emits_done trivial

theorem behalf_settleOneShot : Emits seen (OnBehalf seen settings)
    (settleOneShot cycle ⟨policy.cleanup, settings.pruneDangling⟩ ts) fun _ => True := by
  refine emits_bind (behalf_of_works (works_reattachDependents _ _ ts _)) fun _ _ => ?_
  refine emits_bind (behalf_of_works (works_call rfl)) fun _ _ => ?_
  exact emits_bind (behalf_runCleanup labelled finished renewed) fun _ _ => emits_done trivial

end Settle

end Updates

/-! ## Ticks -/

theorem tickKeeps_onBehalf {docker : Docker} :
    TickKeeps seen settings (OnBehalf seen settings) docker where
  reads := reads_onBehalf
  stops _ _ _ _ elective := by cases elective
  starts _ _ elective := by cases elective
  notifies row policy event reply labelled hnotify about _ :=
    ⟨row, policy, labelled, hnotify, about⟩
  updates row policy cfg ts labelled :=
    emits_update reads_onBehalf (behalf_recreateOne labelled fun _ h => h)
      (fun cycle spec finished renewed => behalf_settleUpdate labelled finished renewed)
      fun cycle spec report reason _ _ _ => behalf_of_works (works_undoUpdate cycle reason ts)
  reruns row policy timeout pollInterval ts labelled :=
    emits_rerun reads_onBehalf (behalf_recreateOne labelled fun _ h => by cases h)
      fun cycle spec finished renewed => behalf_settleOneShot labelled finished renewed

/-- **Only what the labels ask for is done.** A command that a tick runs in a container, an image
that it removes, a pruning and a notification are asked for by the labels of a container that was
listed before. -/
theorem labels_are_asked {docker : Docker} {cfg : SchedulerConfig} {memory : Memory}
    {events before after : List CallEvent} {out : Option Memory} {e : CallEvent}
    (h : Produces (runTick docker cfg settings memory) events out)
    (place : events = before ++ e :: after) (elective : e.call.elective = true) :
    ∃ row policy, Labelled (· ∈ before) settings row policy ∧
      AskedFor (· ∈ before) settings row policy e.call := by
  have behalf : OnBehalf (· ∈ before ++ [e]) settings e :=
    @emits_at_place _ _ _ (fun seen => OnBehalf seen settings) _ _
      (fun _ => tickKeeps_onBehalf.runTick) _ _ _ _ _ h place
  obtain ⟨row, policy, labelled, asked⟩ := behalf elective
  have more (e' : CallEvent) (free : e'.call.elective = false) (he : e' ∈ before ++ [e]) :
      e' ∈ before := by
    rcases List.mem_append.mp he with he | he
    · exact he
    · obtain rfl := List.mem_singleton.mp he
      rw [elective] at free
      cases free
  exact ⟨row, policy, labelled.mono more, asked.mono more⟩

/-- The rollout that stops at `api` is notified of because `api` asks for it. -/
theorem labels_are_asked_aborted :
    ∃ before row policy, before.length = 21 ∧ before <+: crashingTick.trace ∧
      Labelled (· ∈ before) .default row policy ∧
      AskedFor (· ∈ before) .default row policy (.dispatch (.rolloutAborted "stack"
        "api failed its health gate and was rolled back" [] ["api", "web"])) := by
  have place := place_of_getElem? (show crashingTick.trace[21]? = some ⟨.dispatch (.rolloutAborted
    "stack" "api failed its health gate and was rolled back" [] ["api", "web"]), some ()⟩ from rfl)
  have run : Produces (runTick stackDocker stackConfig .default .empty) crashingTick.trace
      crashingTick.out := Fleet.produces_tick _ _ _ _ _
  obtain ⟨row, policy, labelled, asked⟩ := labels_are_asked run place rfl
  exact ⟨_, row, policy, rfl, List.take_prefix 21 _, labelled, asked⟩

end Freshdock.Scheduler
