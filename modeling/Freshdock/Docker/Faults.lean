import Freshdock.Interaction.History
import Freshdock.Rollout

/-!
# Why an operation fails

An operation makes up no errors, and it makes no call after the one that failed. Its last call was
refused with the error, or was an inspect of a container that cannot be read or that the daemon could
not create (`Cause`). So the error of an update, of a re-run and of a plan names what became of the last
of their calls (`explained_recreateWithHealth`, `explained_recreateOneShot`, `explained_planFor`).
-/

set_option autoImplicit false

namespace Freshdock.Docker

open Interaction Registry
open Labels (LifecycleHooks)
open Compose (ProjectMember)

/-- The error that the daemon refused a call with. -/
def refusal : CallEvent → Option DockerError
  | ⟨.inspectContainer _, some (.error e)⟩ => some e
  | ⟨.listRunning, some (.error e)⟩ => some e
  | ⟨.listProjectContainers _, some (.error e)⟩ => some e
  | ⟨.createImage _, some (.error e)⟩ => some e
  | ⟨.stopContainer .., some (.error e)⟩ => some e
  | ⟨.renameContainer .., some (.error e)⟩ => some e
  | ⟨.createContainer .., some (.error e)⟩ => some e
  | ⟨.startContainer .., some (.error e)⟩ => some e
  | ⟨.removeContainer .., some (.error e)⟩ => some e
  | ⟨.exec .., some (.error e)⟩ => some e
  | ⟨.inspectImage _, some (.error e)⟩ => some e
  | ⟨.removeImage .., some (.error e)⟩ => some e
  | ⟨.pruneImages, some (.error e)⟩ => some e
  | _ => none

/-- The last event of the log is the one that the error comes from. -/
inductive Cause (docker : Docker) (log : List CallEvent) : DockerError → Prop where
  | refused {before : List CallEvent} {e : CallEvent} {error : DockerError} :
      log = before ++ [e] → refusal e = some error → Cause docker log error
  | unreadable {before : List CallEvent} {ref : String} {resp : ContainerInspectResponse}
      {error : SpecError} :
      log = before ++ [⟨.inspectContainer ref, some (.ok resp)⟩] →
      ContainerSpec.fromInspect resp = .error error → Cause docker log (.spec error)
  | preflight {before : List CallEvent} {ref : String} {resp : ContainerInspectResponse}
      {spec : ContainerSpec} {error : DockerError} :
      log = before ++ [⟨.inspectContainer ref, some (.ok resp)⟩] →
      ContainerSpec.fromInspect resp = .ok spec → docker.preflightRecreate spec = .error error →
      Cause docker log error

/-- The log ends with an inspect that was read as the spec. -/
def JustInspected (log : List CallEvent) (spec : ContainerSpec) : Prop :=
  ∃ before ref resp, log = before ++ [⟨.inspectContainer ref, some (.ok resp)⟩] ∧
    ContainerSpec.fromInspect resp = .ok spec

/-- Nothing is asked of the events. -/
abbrev Unasked (_log : List CallEvent) (_e : CallEvent) : Prop := True

/-- After `prior`, every error of the operation comes from the last event. -/
def Explained (docker : Docker) (prior : List CallEvent) {α : Type} (op : Op α) : Prop :=
  After prior Unasked op.run fun r log => ∀ e, r = .error e → Cause docker log e

section Rules

variable {docker : Docker} {prior : List CallEvent} {α β : Type}

theorem explained_pure (a : α) : Explained docker prior (pure a : Op α) :=
  after_done fun e h => by cases h

theorem explained_lift (p : Prog α) : Explained docker prior (Op.lift p) :=
  after_lift ((after_free fun _ _ => trivial).weaken fun _ _ _ e h => by cases h)

theorem explained_bind {op : Op α} {k : α → Op β} (first : Explained docker prior op)
    (rest : ∀ a log, Explained docker log (k a)) : Explained docker prior (op >>= k) := by
  refine @after_try_bind _ _ _ _ _ _ _ _ _ (fun _ _ => True) _ (first.weaken fun r log hr => ?_)
    fun a log _ => rest a log
  cases r with
  | error e => exact fun e' he => by cases he; exact hr e rfl
  | ok a => exact trivial

theorem explained_lift_bind {p : Prog α} {k : α → Op β}
    (rest : ∀ a log, Explained docker log (k a)) : Explained docker prior (Op.lift p >>= k) :=
  after_lift_seq (after_free fun _ _ => trivial) rest

/-- A call that may be refused. -/
theorem explained_call {p : Prog (Except DockerError α)}
    (refused : ∀ events error, Produces p events (some (.error error)) →
      ∃ before e, events = before ++ [e] ∧ refusal e = some error) :
    Explained docker prior (Op.call p) := by
  refine fun events out produced => ⟨heeded_of_always fun _ _ _ => trivial, fun r hr error he => ?_⟩
  subst hr he
  obtain ⟨before, e, rfl, hrefusal⟩ := refused events error produced
  exact .refused (List.append_assoc prior before [e]).symm hrefusal

theorem refused_of_request {c : Call} {reply : c.Reply} {events : List CallEvent}
    {error : DockerError} (h : Produces (request c) events (some reply))
    (hrefusal : refusal ⟨c, some reply⟩ = some error) :
    ∃ before e, events = before ++ [e] ∧ refusal e = some error :=
  ⟨[], _, h.of_request, hrefusal⟩

/-- An inspect that fails was refused, or its answer cannot be read. -/
theorem explained_inspect (docker : Docker) (prior : List CallEvent) (name : String) :
    After prior Unasked (inspect name).run fun r log =>
      match r with
      | .ok spec => JustInspected log spec
      | .error e => Cause docker log e := by
  refine @after_try_bind _ _ _ _ _ _ _ _ _
    (fun resp log => ∃ before, log = before ++ [⟨.inspectContainer name, some (.ok resp)⟩]) _
    (after_request (fun _ => trivial) fun reply => ?_) fun resp log hresp => after_done ?_
  · cases reply with
    | error e => exact .refused rfl rfl
    | ok resp => exact ⟨prior, rfl⟩
  · obtain ⟨before, rfl⟩ := hresp
    cases hread : ContainerSpec.fromInspect resp with
    | error e => exact .unreadable rfl hread
    | ok spec => exact ⟨before, name, resp, rfl, hread⟩

end Rules

section Operations

variable {docker : Docker} {prior : List CallEvent}

/-- The error of a pull is that of its last try. -/
theorem explained_pull (image : ImageRef) : Explained docker prior (pull image) := by
  have once (log : List CallEvent) :
      Explained docker log (Op.call (request (.createImage image))) :=
    explained_call fun _ _ h => refused_of_request h rfl
  change After prior Unasked (retryRateLimited (request (.createImage image)) pullRetryDelays) _
  generalize pullRetryDelays = delays
  induction delays generalizing prior with
  | nil => exact once prior
  | cons delay delays ih =>
      refine after_bind (once prior) fun result log explained => ?_
      match result, explained with
      | .ok _, explained => exact after_done explained
      | .error e, explained =>
          dsimp only
          split
          · exact after_seq (after_free fun _ _ => trivial) fun _ _ => ih
          · exact after_done explained

/-- A step of a swap. -/
theorem explained_swapStep {α : Type} {onError : DockerError → SwapError} {op : Op α}
    (inner : ∀ e, (onError e).intoInner = e) (h : Explained docker prior op) :
    After prior Unasked (swapStep onError op).run
      fun r log => ∀ e, r = .error e → Cause docker log e.intoInner := by
  refine after_map (h.weaken fun r log hr e he => ?_)
  cases r with
  | ok a => cases he
  | error error =>
      cases he
      rw [inner]
      exact hr error rfl

theorem explained_renameToOld (role : Role) (name : String) (ts : Int) :
    Explained docker prior (renameToOld role name ts) :=
  explained_lift_bind fun _ _ =>
    explained_bind (explained_call fun _ _ h => refused_of_request h rfl)
      fun _ _ => explained_pure _

/-- The error of a swap is that of the call at which it broke down. -/
theorem explained_swapContainer (docker : Docker) (prior : List CallEvent) (role : Role)
    (name : String) (spec : ContainerSpec) (image : String) (ts : TsProvider) :
    After prior Unasked (swapContainer role name spec image ts).run
      fun r log => ∀ e, r = .error e → Cause docker log e.intoInner := by
  have step {α β : Type} {prior : List CallEvent} {onError : DockerError → SwapError} {op : Op α}
      {k : α → Fallible Call Call.Reply SwapError β} (inner : ∀ e, (onError e).intoInner = e)
      (explained : Explained docker prior op)
      (rest : ∀ a log, After log Unasked (k a).run
        fun r log => ∀ e, r = .error e → Cause docker log e.intoInner) :
      After prior Unasked (swapStep onError op >>= k).run
        fun r log => ∀ e, r = .error e → Cause docker log e.intoInner := by
    refine @after_try_bind _ _ _ _ _ _ _ _ _ (fun _ _ => True) _
      ((explained_swapStep inner explained).weaken fun r log hr => ?_) fun a log _ => rest a log
    cases r with
    | error e => exact fun e' he => by cases he; exact hr e rfl
    | ok a => exact trivial
  refine step (fun _ => rfl) (explained_call fun _ _ h => refused_of_request h rfl) fun _ _ => ?_
  refine after_lift_seq (after_free fun _ _ => trivial) fun tsUnix _ => ?_
  refine step (fun _ => rfl) (explained_renameToOld role name tsUnix) fun archive _ => ?_
  refine step (fun _ => rfl) (explained_call fun _ _ h => refused_of_request h rfl)
    fun newId _ => ?_
  exact step (fun _ => rfl) (explained_call fun _ _ h => refused_of_request h rfl)
    fun _ _ => after_done fun e h => by cases h

/-! ## Updates -/

variable {name : String} {hooks : LifecycleHooks} {ts : TsProvider}

/-- What refuses an update while the container is untouched. -/
theorem explained_clearUpdate : Explained docker prior (clearUpdate docker name hooks) := by
  refine @after_try_bind _ _ _ _ _ _ _ _ _ (fun spec log => JustInspected log spec) _
    ((explained_inspect docker prior name).weaken fun r log hr => ?_) fun spec log inspected => ?_
  · cases r with
    | ok spec => exact hr
    | error e => exact fun e' he => by cases he; exact hr
  refine @after_try_bind _ _ _ _ _ _ _ _ _ (fun _ _ => True) _ (after_done ?_) fun _ log _ => ?_
  · cases hpreflight : docker.preflightRecreate spec with
    | ok _ => exact trivial
    | error e =>
        intro e' he
        cases he
        obtain ⟨before, ref, resp, hlog, hread⟩ := inspected
        exact .preflight hlog hread hpreflight
  exact explained_bind (explained_pull _) fun _ _ => explained_lift_bind fun _ _ => explained_pure _

theorem explained_recreateOne : Explained docker prior (recreateOne docker name hooks ts) := by
  refine explained_bind explained_clearUpdate fun cleared log => ?_
  obtain ⟨spec, _ | reason⟩ := cleared
  · refine explained_lift_bind fun dependents log => explained_bind ?_ fun _ _ => explained_pure _
    refine after_map ((explained_swapContainer docker log _ _ _ _ ts).weaken fun r log hr e he => ?_)
    cases r with
    | ok _ => cases he
    | error error =>
        cases he
        exact hr error rfl
  · exact explained_pure _

/-- The error of a rollback is that of the call at which it stopped. -/
theorem explained_rollback {owner newId archive : String} {images : String × String}
    {reason : RollbackReason} :
    Explained docker prior (rollback owner newId archive images reason) := by
  refine explained_lift_bind fun _ _ => ?_
  refine explained_bind (explained_call fun _ _ h => refused_of_request h rfl) fun _ _ => ?_
  refine explained_bind (explained_call fun _ _ h => refused_of_request h rfl) fun _ _ => ?_
  exact explained_bind (explained_call fun _ _ h => refused_of_request h rfl)
    fun _ _ => explained_pure _

/-- **The error of an update comes from the last of its calls.** -/
theorem explained_recreateWithHealth {cfg : HealthConfig} {cleanup : Cleanup} :
    Explained docker prior (recreateWithHealth docker name cfg cleanup hooks ts) := by
  have undone (cycle : CycleResult) (reason : RollbackReason) (log : List CallEvent) :
      Explained docker log (undoUpdate cycle reason ts) :=
    explained_bind explained_rollback fun _ _ => explained_lift_bind fun _ _ => explained_pure _
  refine explained_bind explained_recreateOne fun outcome log => ?_
  cases outcome with
  | skipped reason => exact explained_pure _
  | completed cycle =>
      refine explained_lift_bind fun verdict log => ?_
      cases verdict with
      | healthy => exact explained_lift _
      | timeout => exact undone cycle _ log
      | crashed => exact undone cycle _ log

/-- **The error of a re-run comes from the last of its calls.** -/
theorem explained_recreateOneShot {timeout pollInterval : Duration} {cleanup : Cleanup} :
    Explained docker prior (recreateOneShot docker name timeout pollInterval cleanup hooks ts) :=
  explained_bind explained_recreateOne fun _ _ => explained_lift _

/-! ## Plans -/

theorem explained_resolveMemberImages (members : List ProjectMember) :
    Explained docker prior (resolveMemberImages members) := by
  induction members generalizing prior with
  | nil => exact explained_pure _
  | cons member members ih =>
      refine explained_bind ?_ fun _ _ => explained_bind ih fun _ _ => explained_pure _
      unfold resolveMemberImage
      split
      · refine explained_bind ((explained_inspect docker prior member.id).weaken fun r log hr e he => ?_)
          fun _ _ => explained_pure _
        subst he
        exact hr
      · exact explained_pure _

/-- **The error of a plan comes from the last of its calls.** -/
theorem explained_planFor {project trigger : String} {tag own : Option String}
    {defaults : Labels.PolicyDefaults} :
    Explained docker prior (Rollout.planFor project trigger tag defaults own) := by
  refine explained_bind (explained_bind (explained_call fun _ _ h => refused_of_request h rfl)
    fun _ _ => explained_resolveMemberImages _) fun _ _ => explained_pure _

end Operations

end Freshdock.Docker
