import Freshdock.Scheduler.Notices

/-!
# What an update does after its gate

A guarantee of an update is one of its cycle, and of what follows the gate: the repairs, removals
and hooks of a container that came out well (`Renewed`), and the rollback of one that did not. Each
of these may rely on what the gate was told (`emits_update`, `emits_rerun`).
-/

set_option autoImplicit false

namespace Freshdock.Scheduler

open Interaction Docker Health
open Labels (LifecycleHooks)

section Facts

variable (seen : CallEvent → Prop)

/-- The container was read, created anew from that as `newId`, and started. -/
structure Remade (name newId : String) (spec : ContainerSpec) : Prop where
  inspected : Inspected seen name spec
  created : CreatedFrom seen .update spec.name spec spec.imageRef newId
  started : seen ⟨.startContainer .update newId, some (.ok ())⟩

/-- A finished cycle, of the container that was read as `spec`. -/
structure Finished (name : String) (cycle : CycleResult) (spec : ContainerSpec) : Prop where
  remade : Remade seen name cycle.newId spec
  oldImageId : cycle.oldImageId = spec.imageId

/-- The container was remade from the spec, and the new one was reported healthy, up without a
healthcheck, or, of a one-shot, exited with 0. -/
def Renewed (name newId : String) (spec : ContainerSpec) : Prop :=
  Remade seen name newId spec ∧ ∃ report, seen (probed newId report) ∧
    (Well report ∨ stateOf report = .ok (.exited 0))

end Facts

/-- What moves no container, and need not be asked for, keeps the guarantee. -/
def Reads (guar : CallEvent → Prop) : Prop :=
  ∀ (c : Call) (reply : Option c.Reply), c.moves = none → c.elective = false → guar ⟨c, reply⟩

variable {seen guar : CallEvent → Prop}

section Mono

variable {seen' : CallEvent → Prop} (more : ∀ e, e.call.shows = true → seen e → seen' e)

include more

theorem Remade.mono {name newId : String} {spec : ContainerSpec}
    (h : Remade seen name newId spec) : Remade seen' name newId spec where
  inspected := by
    obtain ⟨resp, hresp, hread⟩ := h.inspected
    exact ⟨resp, more _ rfl hresp, hread⟩
  created := more _ rfl h.created
  started := more _ rfl h.started

theorem Renewed.mono {name newId : String} {spec : ContainerSpec}
    (h : Renewed seen name newId spec) : Renewed seen' name newId spec := by
  obtain ⟨remade, report, hprobed, well⟩ := h
  exact ⟨remade.mono more, report, more _ rfl hprobed, well⟩

end Mono

/-! ## What the events tell, without their order -/

section Seen

variable {events : List CallEvent} (hseen : ∀ e ∈ events, seen e)

include hseen

/-- What the calls of a cycle tell was seen. -/
theorem Finished.of_cycledIn {name : String} {cycle : CycleResult} {spec : ContainerSpec}
    (h : CycledIn events name cycle spec) : Finished seen name cycle spec where
  remade := by
    obtain ⟨resp, hresp, hread⟩ := h.remade.inspected
    exact ⟨⟨resp, hseen _ hresp, hread⟩, hseen _ h.remade.swapped.created,
      hseen _ h.remade.swapped.started⟩
  oldImageId := h.oldImageId

theorem probed_of_lastReport {id : String} {report : Report} (h : LastReport events id report) :
    seen (probed id report) := by
  obtain ⟨before, after, rfl, -⟩ := h
  exact hseen _ (by simp)

end Seen

/-- Reading keeps the guarantee, and what it finds is known. -/
theorem emits_reading (reads : Reads guar) {α : Type} {p : Prog α} {post : α → Prop}
    (works : Works p) (h : ∀ free : CallEvent → Prop, Quiet free → Emits seen free p post) :
    Emits seen guar p post := by
  have quiet : Quiet fun e => e.call.elective = false → guar e := fun c reply hquiet free =>
    reads c reply (by cases c <;> first | rfl | cases hquiet) free
  intro events out produced kept
  have emits := h _ quiet events out produced kept
  refine ⟨fun e he => emits.1 e he ?_, emits.2⟩
  have hworks := works.events produced e he
  simp only [Call.works, Bool.and_eq_true, Bool.not_eq_true'] at hworks
  exact hworks.2

section Gates

variable {docker : Docker} {name : String} {cleanup : Cleanup} {hooks : LifecycleHooks}
  {ts : TsProvider} (reads : Reads guar)

include reads

/-- **An update keeps what its cycle, its settling and its undoing keep.** -/
theorem emits_update {cfg : HealthConfig}
    (cycled : Emits seen guar (recreateOne docker name hooks ts).run fun _ => True)
    (settled : ∀ cycle spec, Finished seen name cycle spec → Renewed seen name cycle.newId spec →
      Emits seen guar (settleUpdate cycle cleanup hooks.postUpdate ts) fun _ => True)
    (undone : ∀ cycle spec report reason, Finished seen name cycle spec →
      seen (probed cycle.newId report) → ¬ Well report →
      Emits seen guar (undoUpdate cycle reason ts).run fun _ => True) :
    Emits seen guar (recreateWithHealth docker name cfg cleanup hooks ts).run fun _ => True := by
  refine @emits_except_bind _ _ _ _ _ seen guar _ _
    (fun outcome => ∀ cycle, outcome = .completed cycle → ∃ spec, Finished seen name cycle spec) _
    (cycled.knowing fun events r h hseen outcome hr cycle houtcome => ?_) (fun _ => trivial)
    fun outcome finished => ?_
  · subst hr houtcome
    obtain ⟨spec, cycled⟩ := cycledIn_of_recreateOne h
    exact ⟨spec, .of_cycledIn hseen cycled⟩
  cases outcome with
  | skipped reason => exact emits_done trivial
  | completed cycle =>
      obtain ⟨spec, hcycle⟩ := finished cycle rfl
      refine emits_lift_bind ((emits_reading reads (works_waitForHealth docker _ cfg)
        fun _ quiet => emits_waitForHealth quiet docker _ cfg).knowing
          fun _ verdict h hseen => (verdict_of_waitForHealth h).imp fun report told =>
            And.intro (probed_of_lastReport hseen told.1) told.2) fun verdict hverdict => ?_
      obtain ⟨report, hprobed, suits⟩ := hverdict
      cases suits with
      | crashed hstate => exact undone cycle spec report _ hcycle hprobed (by simp [Well, hstate])
      | timeout hwell => exact undone cycle spec report _ hcycle hprobed hwell
      | healthy hwell =>
          exact emits_lift (settled cycle spec hcycle ⟨hcycle.remade, report, hprobed, .inl hwell⟩)

/-- **The re-run of a one-shot keeps what its cycle and its settling keep.** -/
theorem emits_rerun {timeout pollInterval : Duration}
    (cycled : Emits seen guar (recreateOne docker name .default ts).run fun _ => True)
    (settled : ∀ cycle spec, Finished seen name cycle spec → Renewed seen name cycle.newId spec →
      Emits seen guar (settleOneShot cycle cleanup ts) fun _ => True) :
    Emits seen guar (recreateOneShot docker name timeout pollInterval cleanup hooks ts).run
      fun _ => True := by
  refine @emits_except_bind _ _ _ _ _ seen guar _ _
    (fun outcome => ∀ cycle, outcome = .completed cycle → ∃ spec, Finished seen name cycle spec) _
    (cycled.knowing fun events r h hseen outcome hr cycle houtcome => ?_) (fun _ => trivial)
    fun outcome finished => emits_lift ?_
  · subst hr houtcome
    obtain ⟨spec, cycled⟩ := cycledIn_of_recreateOne h
    exact ⟨spec, .of_cycledIn hseen cycled⟩
  cases outcome with
  | skipped reason => exact emits_done trivial
  | completed cycle =>
      obtain ⟨spec, hcycle⟩ := finished cycle rfl
      refine @emits_bind _ _ _ _ _ _ _ _
        (fun exit => ∀ code, exit = .exited code → ∃ report,
          seen (probed cycle.newId report) ∧ stateOf report = .ok (.exited code)) _
        ((emits_reading reads (works_waitForExit docker _ timeout pollInterval)
          fun _ quiet => emits_waitForExit quiet docker _ _ _).knowing
            fun _ exit h hseen code hexit => ?_) fun exit hexit => ?_
      · subst hexit
        obtain ⟨report, last, hstate⟩ := verdict_of_waitForExit h
        exact ⟨report, probed_of_lastReport hseen last, hstate⟩
      cases exit with
      | timedOut => exact emits_done trivial
      | exited code =>
          simp only [concludeOneShot]
          split
          · next hzero =>
            subst hzero
            obtain ⟨report, hprobed, hstate⟩ := hexit 0 rfl
            exact settled cycle spec hcycle ⟨hcycle.remade, report, hprobed, .inr hstate⟩
          · exact emits_done trivial

end Gates

end Freshdock.Scheduler
