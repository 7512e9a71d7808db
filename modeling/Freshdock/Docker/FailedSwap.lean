import Freshdock.Docker.DaemonCycle
import Freshdock.Docker.Obliging

/-!
# A replacement that cannot be created or started

`recreateWithHealth` hands a failed swap to its caller as it is: the rollback is reached from
the health gate only. So an update whose create or start fails after the stop and the rename
leaves the previous container stopped under its archive name, on every daemon, also on one that
would take the calls that undo the swap.
-/

set_option autoImplicit false

namespace Freshdock.Docker

open Interaction Registry
open Labels (LifecycleHooks)

/-! ## Failed swaps -/

/-- The create of the replacement failed, or the start of the one that was created. -/
def ReplacementFailed (prev : Container) (trace : List CallEvent) : Option String → Prop
  | none => ∃ body e, ⟨.createContainer .update prev.name body, some (.error e)⟩ ∈ trace
  | some id => (∃ body, ⟨.createContainer .update prev.name body, some (.ok id)⟩ ∈ trace) ∧
      ∃ e, ⟨.startContainer .update id, some (.error e)⟩ ∈ trace

/-- The stop and the rename succeeded, and then the create or the start of the replacement
failed. `replacement` is what was created. -/
structure FailedSwap (prev : Container) (archive : String) (replacement : Option String)
    (trace : List CallEvent) : Prop where
  stopped : ∃ signal timeout,
    ⟨.stopContainer .update prev.name signal timeout, some (.ok ())⟩ ∈ trace
  renamed : ⟨.renameContainer .update prev.name archive, some (.ok ())⟩ ∈ trace
  failed : ReplacementFailed prev trace replacement

/-- The calls that undo a swap. -/
def undoSwap (archive name : String) (replacement : Option String) : Op Unit := do
  match replacement with
  | some id => remove .update id true
  | none => pure ()
  renameTo .update archive name
  start .update name

/-- The daemon would carry them out. -/
def UndoAccepted (oracle : Oracle) (w : World) (prev : Container) (archive : String)
    (replacement : Option String) : Prop :=
  (play oracle.answer (undoSwap archive prev.name replacement).run w).out = some (.ok ())

/-! ## The result -/

variable {oracle : Oracle} {docker : Docker} {name : String} {w : World} {prev : Container}

/-- The id of a created container is not its name. -/
theorem id_ne_name_of_created {α : Type} (p : Prog α) {role : Role} {name id : String}
    {body : ContainerCreateBody}
    (h : ⟨.createContainer role name body, some (.ok id)⟩ ∈ (play oracle.answer p w).trace) :
    id ≠ name := by
  let apart (e : CallEvent) : Prop := ∀ role name body id,
    e = ⟨.createContainer role name body, some (.ok id)⟩ → id ≠ name
  refine @play_events _ _ _ _ oracle.answer apart ?_ p w _ h role name body id rfl
  intro call w role name body id heq
  obtain ⟨rfl, hreply⟩ := Event.mk.inj heq
  have hanswer : (perform (oracle.fault w.calls) w.tick
      (w.tick.create (oracle.id w.calls) name)).1 = some (.ok id) := eq_of_heq hreply
  rw [World.create] at hanswer
  split at hanswer
  · next hnew =>
    obtain ⟨-, -, hne⟩ := World.fresh_iff.mp (Bool.and_eq_true_iff.mp hnew).2
    rcases @perform_ok String (oracle.fault w.calls) w.tick
      (w.tick.add (oracle.id w.calls) name) (oracle.id w.calls) with ⟨-, hfail⟩ | ⟨-, hvalue⟩
    · exact absurd hanswer (hfail id)
    · exact hvalue id hanswer ▸ hne
  · exact absurd hanswer ((perform_error _).2 id)

/-- An update in which a create or a start of the replacement failed leaves the container
archived. -/
theorem shelved_of_fails (valid : w.Valid) (hname : w.resolve name = some prev)
    (cfg : HealthConfig) (cleanup : Cleanup) (hooks : LifecycleHooks) (ts : TsProvider) :
    Ensures oracle.answer (recreateWithHealth docker name cfg cleanup hooks ts).run w
      fun _ trace w' => (∃ e ∈ trace, Fails .update prev.name e) →
        w'.Valid ∧ ∃ archive, Shelved prev archive w' := by
  refine ensures_except_bind _ (ensures_recreateOne valid hname hooks ts) ?_ ?_ ?_
  · intro trace w' h hfails
    obtain ⟨⟨e, he⟩, -⟩ := h.faults hfails
    cases he
  · intro e trace w' h hfails
    exact ⟨h.valid, (h.faults hfails).2⟩
  intro outcome trace w₁ h
  have unfailed : ¬ ∃ e ∈ trace, Fails .update prev.name e := by
    intro hfails
    obtain ⟨⟨e, he⟩, -⟩ := h.faults hfails
    cases he
  cases outcome with
  | skipped reason =>
      refine ensures_done fun hfails => absurd ?_ unfailed
      simpa using hfails
  | completed cycle =>
      refine (ensures_gateUpdate_spares docker cfg cleanup hooks ts cycle).weaken ?_
      rintro out more w₂ hmore ⟨e, he, hfails⟩
      exfalso
      rcases List.mem_append.mp he with he | he
      · exact unfailed ⟨e, he, hfails⟩
      · have hspares := hmore e he
        rw [(h.completed cycle rfl).ownerName] at hspares
        exact not_fails_of_spares hspares hfails

/-- **An update whose replacement could not be created or started never restores the previous
container: it ends stopped, under an archive name.** -/
theorem not_restored_of_failedSwap (valid : w.Valid) (hname : w.resolve name = some prev)
    (cfg : HealthConfig) (cleanup : Cleanup) (hooks : LifecycleHooks) (ts : TsProvider)
    {archive : String} {replacement : Option String}
    (failed : FailedSwap prev archive replacement
      (updateRun oracle docker name cfg cleanup hooks ts w).trace) :
    ¬ Restored prev (updateRun oracle docker name cfg cleanup hooks ts w).state ∧
      ∃ archive, Shelved prev archive (updateRun oracle docker name cfg cleanup hooks ts w).state := by
  have hfails : ∃ e ∈ (updateRun oracle docker name cfg cleanup hooks ts w).trace,
      Fails .update prev.name e := by
    have hfailed := failed.failed
    cases replacement with
    | none =>
        obtain ⟨body, e, he⟩ := hfailed
        exact ⟨_, he, rfl⟩
    | some id =>
        obtain ⟨⟨body, hcreated⟩, e, he⟩ := hfailed
        exact ⟨_, he, rfl, id_ne_name_of_created _ hcreated⟩
  obtain ⟨valid', archive', shelved⟩ :=
    @shelved_of_fails oracle docker name w prev valid hname cfg cleanup hooks ts hfails
  refine ⟨fun restored => ?_, archive', shelved⟩
  have heq := valid'.eq_of_id shelved.stopped restored rfl
  cases congrArg Container.running heq

/-! ## A daemon that would undo the swap -/

/-- Refuses the eighth call, an update's create, and carries out every other. -/
def refusingDaemon : Oracle where
  fault calls := if calls = 7 then .refused World.conflict else .none
  report _ := inspectReport "" "app:2" (fun _ => none)
    ⟨some .running, some true, none, none, none⟩
  shown _ _ := false
  row _ _ := ⟨none, none, none, none, none, none, none⟩
  hook _ := .completed 0
  image _ := ⟨none, none⟩
  id _ := "2b"
  clock _ := 0
  unixTime _ := 0

def web : Container := ⟨"1a", "web", true⟩

def webWorld : World := ⟨[web], ["1a"], 0⟩

def webRun : Run Call Call.Reply World (Except DockerError RecreateOutcome) :=
  updateRun refusingDaemon ⟨"1.44", none, 5⟩ "web" HealthConfig.default ⟨false, false⟩
    LifecycleHooks.default (.fixed 5) webWorld

theorem webWorld_valid : webWorld.Valid := by
  constructor <;> decide

theorem webRun_failedSwap : FailedSwap web "web-old-5" none webRun.trace where
  stopped := ⟨none, none, @List.mem_of_getElem? _ _ 4 _ rfl⟩
  renamed := @List.mem_of_getElem? _ _ 6 _ rfl
  failed := ⟨_, _, @List.mem_of_getElem? _ _ 7 _ rfl⟩

/-- **The create is refused, the daemon would undo the swap, and `web` ends stopped under its
archive name.** -/
theorem webRun_not_restored :
    webWorld.Valid ∧ webWorld.resolve "web" = some web ∧
      FailedSwap web "web-old-5" none webRun.trace ∧
      webRun.out = some (.error World.conflict) ∧
      UndoAccepted refusingDaemon webRun.state web "web-old-5" none ∧
      webRun.state.containers = [⟨"1a", "web-old-5", false⟩] ∧ ¬ Restored web webRun.state := by
  have hstate : webRun.state.containers = [⟨"1a", "web-old-5", false⟩] := rfl
  refine ⟨webWorld_valid, rfl, webRun_failedSwap, rfl, rfl, hstate, ?_⟩
  rw [Restored, hstate]
  decide

theorem not_restored_of_failedSwap_web :
    ¬ Restored web webRun.state ∧ ∃ archive, Shelved web archive webRun.state :=
  not_restored_of_failedSwap webWorld_valid rfl HealthConfig.default ⟨false, false⟩
    LifecycleHooks.default (.fixed 5) webRun_failedSwap

end Freshdock.Docker
