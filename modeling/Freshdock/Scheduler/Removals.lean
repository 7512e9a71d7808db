import Freshdock.Scheduler.Notices

/-!
# What is removed

A container is removed for one of three reasons (`Warrant`): it was created in place of another and
rejected by its gate; it is the archive of a container whose replacement was found well after that;
or it is the archive of a dependent that was repaired. So whatever an update removes, it made
itself: it created the container, or gave it its archive name, and what is to run in its place was
started before.

**The history.** Whether a removal is warranted depends on what went before it in the same update.
The rules follow the update and hand its history on, from the cycle to the gate and from the gate to
what it leads to (`after_recreateWithHealth`, `after_recreateOneShot`).
-/

set_option autoImplicit false

namespace Freshdock.Scheduler

open Interaction Docker Health
open Labels (Hook LifecycleHooks)

/-- The remade container was found well by its last report, or, of a one-shot, exited with 0. -/
def PassedGate (name archive newId : String) (part : List CallEvent) : Prop :=
  ∃ spec report, JudgedBy name archive newId spec report part ∧
    (Well report ∨ stateOf report = .ok (.exited 0))

/-- Why a container may be removed, and how. -/
inductive Warrant (log : List CallEvent) : Role → String → Bool → Prop where
  /-- The last report of the container is of one that is not well. -/
  | rejected {name archive newId : String} {spec : ContainerSpec} {report : Report} :
      JudgedBy name archive newId spec report log → ¬ Well report → Warrant log .update newId true
  | replaced {name archive newId : String} :
      Within (PassedGate name archive newId) log → Warrant log .update archive false
  | repaired {name archive newId image : String} {spec : ContainerSpec} :
      SwappedIn log .repair name archive newId image spec → Warrant log .repair archive false

/-- What needs an account is accounted for by the log: a notification is shown by it, and a removal
is warranted. -/
def Accounted (docker : Docker) (timeout : Duration) (log : List CallEvent) : CallEvent → Prop
  | ⟨.dispatch event, _⟩ => Shown docker timeout log event
  | ⟨.removeContainer role id force, _⟩ => Warrant log role id force
  | _ => True

/-! ## Events that need no account -/

/-- An event that removes no container. -/
def NotRemoval (e : CallEvent) : Prop :=
  ∀ role id force, e.call ≠ .removeContainer role id force

theorem quiet_notRemoval : Docker.Quiet NotRemoval := by
  intro c reply quiet role id force hcall
  subst hcall
  cases quiet

/-- A swap removes nothing. -/
theorem swapKeeps_notRemoval (role : Role) (name : String) (spec : ContainerSpec) (image : String) :
    SwapKeeps (fun _ => True) NotRemoval role name spec image where
  stop _ _ _ _ _ _ h := by cases h
  rename _ _ _ _ _ h := by cases h
  create _ _ _ _ h := by cases h
  start _ _ _ _ _ _ h := by cases h

variable {docker : Docker} {timeout : Duration} {prior : List CallEvent}

theorem accounted_of_operates {e : CallEvent} (operates : e.call.operates = true)
    (kept : NotRemoval e) : Accounted docker timeout prior e := by
  obtain ⟨c, reply⟩ := e
  cases c with
  | dispatch event => cases operates
  | removeContainer role id force => exact absurd rfl (kept role id force)
  | _ => exact trivial

/-- A part of an operation that removes nothing. -/
theorem after_working {α : Type} {p : Prog α} {told : α → Prop} {post : α → List CallEvent → Prop}
    (operates : Operates p) (emits : Emits (fun _ => True) NotRemoval p told)
    (facts : ∀ events a, Produces p events (some a) → post a (prior ++ events)) :
    After prior (Accounted docker timeout) p post := by
  intro events out produced
  refine ⟨heeded_of_always fun e he log => accounted_of_operates (operates.events produced e he)
    ((emits events out produced fun _ _ => trivial).1 e he), fun a ha => ?_⟩
  subst ha
  exact facts events a produced

/-- One call that needs no account. -/
theorem after_call {c : Call} {post : c.Reply → List CallEvent → Prop}
    (operates : c.operates = true) (kept : ∀ role id force, c ≠ .removeContainer role id force)
    (answer : ∀ r, post r (prior ++ [⟨c, some r⟩])) :
    After prior (Accounted docker timeout) (request c) post :=
  after_request (fun _ => accounted_of_operates operates kept) answer

/-- A removal that is warranted. -/
theorem after_remove {role : Role} {id : String} {force : Bool}
    (warrant : Warrant prior role id force) :
    After prior (Accounted docker timeout) (remove role id force).run fun _ _ => True :=
  after_request (fun _ => warrant) fun _ => trivial

/-! ## Repairs -/

/-- The end of a repair removes the archive of what was repaired. -/
theorem after_finishReattach {dependent image : String} {spec : ContainerSpec}
    {swapped : Except SwapError (String × String)}
    (done : ∀ archive newId, swapped = .ok (archive, newId) →
      SwappedIn prior .repair dependent archive newId image spec) :
    After prior (Accounted docker timeout) (finishReattach dependent swapped).run
      fun _ _ => True := by
  match swapped, done with
  | .ok (archive, newId), done =>
      exact after_lift_seq (after_remove (.repaired (done archive newId rfl)))
        fun _ _ => after_done trivial
  | .error (.stop error), _ => exact after_done trivial
  | .error (.afterStop error none), _ => exact after_done trivial
  | .error (.afterStop error (some archive)), _ =>
      refine after_lift_seq ?_ fun _ _ => after_done trivial
      refine after_seq (after_call rfl (fun _ _ _ h => by cases h) fun _ => trivial) fun renamed _ => ?_
      cases renamed with
      | error e => exact after_done trivial
      | ok _ =>
          exact after_seq (after_call rfl (fun _ _ _ h => by cases h) fun _ => trivial)
            fun _ _ => after_done trivial

/-- **Repairs remove the archives of what they repaired.** -/
theorem after_reattachDependents (owner : String) (newOwnerId : Option String) (ts : TsProvider)
    (dependents : List String) :
    After prior (Accounted docker timeout) (reattachDependents owner newOwnerId ts dependents)
      fun _ _ => True := by
  have hushed : Hushed NotRemoval := quiet_notRemoval.hushed
  induction dependents generalizing prior with
  | nil => exact after_done trivial
  | cons dependent dependents ih =>
      refine after_seq ?_ fun _ _ => ih
      refine after_except_seq (after_working (operates_of_works (works_inspect dependent))
        (emits_inspect hushed dependent) fun _ _ _ => trivial) (fun _ _ => trivial)
        fun inspected _ => ?_
      refine after_lift_seq (after_working (operates_of_works (works_repairImage _))
        (emits_repairImage hushed _) fun _ _ _ => trivial) fun image _ => ?_
      refine @after_lift_bind _ _ _ _ _ _ _ _ _
        (fun swapped log => ∀ archive newId, swapped = .ok (archive, newId) →
          SwappedIn log .repair dependent archive newId image (repairSpec inspected owner newOwnerId)) _
        (after_working (operates_of_works (works_swapContainer _ _ _ _ ts))
          (emits_swapContainer hushed (swapKeeps_notRemoval _ _ _ _) ts)
          fun events r h archive newId hr => ?_) fun swapped log done => after_finishReattach done
      subst hr
      exact (swapCalls_of_swapContainer h).sublist.trans (List.sublist_append_right _ _)

/-! ## Updates -/

section Updates

variable {name : String} {hooks : LifecycleHooks} {cycle : CycleResult} {cleanup : Cleanup}
  {ts : TsProvider}

/-- A cycle removes nothing, and what it did can be told. -/
theorem after_recreateOne :
    After prior (Accounted docker timeout) (recreateOne docker name hooks ts).run
      fun r log => ∀ outcome, r = .ok outcome →
        ∀ cycle, outcome = .completed cycle → ∃ spec, CycledIn log name cycle spec := by
  refine after_working (operates_recreateOne docker name hooks ts)
    (emits_recreateOne quiet_notRemoval.hushed docker name hooks ts
      (fun _ _ _ _ _ _ h => by cases h) (fun _ _ _ _ _ _ h => by cases h)
      fun _ _ => swapKeeps_notRemoval _ _ _ _) fun events r h outcome hr cycle hcycle => ?_
  subst hr hcycle
  obtain ⟨spec, cycled⟩ := cycledIn_of_recreateOne h
  exact ⟨spec, cycled.mono (List.sublist_append_right _ _)⟩

theorem after_postUpdateHook (newId : String) (hook : Option Hook) :
    After prior (Accounted docker timeout) (runPostUpdateHook newId hook) fun _ _ => True :=
  after_working (operates_postUpdateHook newId hook)
    (emits_runPostUpdateHook _ _ fun _ _ _ _ _ _ h => by cases h) fun _ _ _ => trivial

theorem after_runCleanup (imageId : Option String) :
    After prior (Accounted docker timeout) (runCleanup cleanup imageId) fun _ _ => True :=
  after_working (operates_runCleanup cleanup imageId)
    (emits_runCleanup _ _ (fun _ _ _ _ _ h => by cases h) fun _ _ _ _ h => by cases h)
    fun _ _ _ => trivial

section Settle

variable (passed : Within (PassedGate name cycle.oldName cycle.newId) prior)

include passed

/-- After the repairs the archive of a container that passed its gate is removed. -/
theorem after_settled {newOwnerId : Option String} {dependents : List String} {α : Type}
    {rest : Prog α}
    (later : ∀ log, After log (Accounted docker timeout) rest fun _ _ => True) :
    After prior (Accounted docker timeout) (do
      reattachDependents cycle.ownerName newOwnerId ts dependents
      let _ ← (remove .update cycle.oldName false).run
      rest) fun _ _ => True := by
  refine after_bind ((after_reattachDependents _ _ ts _).frame passed fun log more h =>
    h.mono (List.prefix_append _ _).isInfix) fun _ log kept => ?_
  exact after_seq (after_remove (.replaced kept.1)) fun _ log => later log

theorem after_settleUpdate :
    After prior (Accounted docker timeout) (settleUpdate cycle cleanup hooks.postUpdate ts)
      fun _ _ => True :=
  after_settled passed fun _ => after_seq (after_postUpdateHook _ _) fun _ _ =>
    after_seq (after_runCleanup _) fun _ _ => after_done trivial

theorem after_settleOneShot :
    After prior (Accounted docker timeout) (settleOneShot cycle cleanup ts) fun _ _ => True :=
  after_settled passed fun _ => after_seq (after_runCleanup _) fun _ _ => after_done trivial

end Settle

/-- A rollback removes the container that its gate rejected. -/
theorem after_undoUpdate {reason : RollbackReason} {spec : ContainerSpec} {report : Report}
    (judged : JudgedBy name cycle.oldName cycle.newId spec report prior) (failed : ¬ Well report) :
    After prior (Accounted docker timeout) (undoUpdate cycle reason ts).run fun _ _ => True := by
  refine after_except_seq ?_ (fun _ _ => trivial) fun event _ =>
    after_lift_seq (after_reattachDependents _ _ ts _) fun _ _ => after_done trivial
  refine @after_lift_bind _ _ _ _ _ _ _ _ _
    (fun _ log => JudgedBy name cycle.oldName cycle.newId spec report log) _
    (after_call rfl (fun _ _ _ h => by cases h) fun stopped => ?_) fun _ log judged => ?_
  · -- stopping the container reports nothing of it
    obtain ⟨before, after, rfl, remade, hafter⟩ := judged
    refine ⟨before, after ++ [_], by simp; rfl, remade, ?_⟩
    rw [reports_append, hafter]
    rfl
  refine after_except_seq (after_remove (.rejected judged failed)) (fun _ _ => trivial) fun _ _ => ?_
  refine after_except_seq (after_call rfl (fun _ _ _ h => by cases h) fun _ => trivial)
    (fun _ _ => trivial) fun _ _ => ?_
  exact after_except_seq (after_call rfl (fun _ _ _ h => by cases h) fun _ => trivial)
    (fun _ _ => trivial) fun _ _ => after_done trivial

/-- **An update removes what its gate rejected, or the archive of what its gate let pass.** -/
theorem after_recreateWithHealth {cfg : HealthConfig} :
    After prior (Accounted docker timeout)
      (recreateWithHealth docker name cfg cleanup hooks ts).run fun _ _ => True := by
  refine after_except_bind after_recreateOne (fun _ _ => trivial) fun outcome log cycled => ?_
  cases outcome with
  | skipped reason => exact after_done trivial
  | completed cycle =>
      obtain ⟨spec, cycled⟩ := cycled cycle rfl
      refine @after_lift_bind _ _ _ _ _ _ _ _ _
        (fun verdict log => ∃ report,
          JudgedBy name cycle.oldName cycle.newId spec report log ∧ Suits report verdict) _
        (after_working (operates_of_works (works_waitForHealth docker _ cfg))
          (emits_waitForHealth quiet_notRemoval.hushed docker _ cfg) fun events verdict h => ?_)
        fun verdict log judged => ?_
      · obtain ⟨report, last, suits⟩ := verdict_of_waitForHealth h
        exact ⟨report, judgedBy_of_cycledIn cycled last, suits⟩
      obtain ⟨report, judged, suits⟩ := judged
      cases suits with
      | healthy hwell =>
          exact after_lift (after_settleUpdate (within_self ⟨spec, report, judged, .inl hwell⟩))
      | crashed hstate => exact after_undoUpdate judged (by simp [Well, hstate])
      | timeout hwell => exact after_undoUpdate judged hwell

/-- **The re-run of a one-shot removes the archive of one that exited with 0.** -/
theorem after_recreateOneShot {limit pollInterval : Duration} :
    After prior (Accounted docker timeout)
      (recreateOneShot docker name limit pollInterval cleanup hooks ts).run fun _ _ => True := by
  refine after_except_bind after_recreateOne (fun _ _ => trivial)
    fun outcome log cycled => after_lift ?_
  cases outcome with
  | skipped reason => exact after_done trivial
  | completed cycle =>
      obtain ⟨spec, cycled⟩ := cycled cycle rfl
      refine @after_bind _ _ _ _ _ _ _ _
        (fun exit log => ∀ code, exit = .exited code → ∃ report,
          JudgedBy name cycle.oldName cycle.newId spec report log ∧
            stateOf report = .ok (.exited code)) _
        (after_working (operates_of_works (works_waitForExit docker _ limit pollInterval))
          (emits_waitForExit quiet_notRemoval.hushed docker _ limit pollInterval)
          fun events exit h code hcode => ?_) fun exit log judged => ?_
      · subst hcode
        obtain ⟨report, last, hstate⟩ := verdict_of_waitForExit h
        exact ⟨report, judgedBy_of_cycledIn cycled last, hstate⟩
      cases exit with
      | timedOut => exact after_done trivial
      | exited code =>
          simp only [concludeOneShot]
          split
          · next hzero =>
            subst hzero
            obtain ⟨report, judged, hstate⟩ := judged 0 rfl
            exact after_settleOneShot (within_self ⟨spec, report, judged, .inr hstate⟩)
          · exact after_done trivial

end Updates

end Freshdock.Scheduler
