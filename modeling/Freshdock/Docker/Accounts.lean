import Freshdock.Docker.Cycle
import Freshdock.Health.Reports

/-!
# What the calls of an update tell

The calls of an update that returned tell what it did, in their order. A container that was remade
(`RemadeIn`) was read, given its archive name, created anew from what was read, and started. Only
after that was the new container judged by its gate, and the verdict follows from the last report
that the gate was given (`verdict_of_waitForHealth`). Nothing that happened before or after takes
any of that back.
-/

set_option autoImplicit false

namespace Freshdock.Docker

open Interaction Health
open Labels (LifecycleHooks)

/-! ## Containers that were remade -/

/-- The calls of a swap that succeeded, from the archiving on. -/
def swapCalls (role : Role) (name archive newId image : String) (spec : ContainerSpec) :
    List CallEvent :=
  ⟨.renameContainer role name archive, some (.ok ())⟩ :: replaced role name spec image newId

/-- The container was archived, and then another one was created in its place and started. -/
def SwappedIn (log : List CallEvent) (role : Role) (name archive newId image : String)
    (spec : ContainerSpec) : Prop :=
  (swapCalls role name archive newId image spec).Sublist log

/-- The container was read as `spec`, archived, created anew from that, and started. -/
def RemadeIn (log : List CallEvent) (name archive newId : String) (spec : ContainerSpec) : Prop :=
  ∃ resp, ContainerSpec.fromInspect resp = .ok spec ∧
    (⟨.inspectContainer name, some (.ok resp)⟩ ::
      swapCalls .update spec.name archive newId spec.imageRef spec).Sublist log

/-- A finished cycle, of the container that was read as `spec`. -/
structure CycledIn (log : List CallEvent) (name : String) (cycle : CycleResult)
    (spec : ContainerSpec) : Prop where
  remade : RemadeIn log name cycle.oldName cycle.newId spec
  ownerName : cycle.ownerName = spec.name
  oldImageRef : cycle.oldImageRef = spec.imageRef
  newImageRef : cycle.newImageRef = spec.imageRef
  oldImageId : cycle.oldImageId = spec.imageId

section Mono

variable {log log' : List CallEvent} (more : log.Sublist log')

include more

theorem RemadeIn.mono {name archive newId : String} {spec : ContainerSpec}
    (h : RemadeIn log name archive newId spec) : RemadeIn log' name archive newId spec := by
  obtain ⟨resp, hread, calls⟩ := h
  exact ⟨resp, hread, calls.trans more⟩

theorem CycledIn.mono {name : String} {cycle : CycleResult} {spec : ContainerSpec}
    (h : CycledIn log name cycle spec) : CycledIn log' name cycle spec :=
  { h with remade := h.remade.mono more }

end Mono

section Remade

variable {log : List CallEvent} {name archive newId : String} {spec : ContainerSpec}

theorem RemadeIn.inspected (h : RemadeIn log name archive newId spec) :
    Inspected (· ∈ log) name spec := by
  obtain ⟨resp, hread, calls⟩ := h
  exact ⟨resp, calls.subset List.mem_cons_self, hread⟩

theorem RemadeIn.swapped (h : RemadeIn log name archive newId spec) :
    SwappedIn log .update spec.name archive newId spec.imageRef spec := by
  obtain ⟨resp, hread, calls⟩ := h
  exact (List.sublist_cons_self _ _).trans calls

theorem SwappedIn.created {role : Role} {image : String}
    (h : SwappedIn log role name archive newId image spec) :
    CreatedFrom (· ∈ log) role name spec image newId :=
  h.subset (by simp [swapCalls, replaced])

theorem SwappedIn.started {role : Role} {image : String}
    (h : SwappedIn log role name archive newId image spec) :
    ⟨.startContainer role newId, some (.ok ())⟩ ∈ log :=
  h.subset (by simp [swapCalls, replaced])

end Remade

/-! ## Cycles -/

/-- **A swap that succeeded ends with the archiving, the create and the start.** -/
theorem swapCalls_of_swapContainer {role : Role} {name image archive newId : String}
    {spec : ContainerSpec} {ts : TsProvider} {events : List CallEvent}
    (h : Produces (swapContainer role name spec image ts).run events
      (some (.ok (archive, newId)))) :
    (swapCalls role name archive newId image spec).IsSuffix events := by
  obtain ⟨stopped, _, rest, rfl, -, h⟩ := h.of_except_bind_ok
  obtain ⟨read, tsUnix, rest, rfl, -, h⟩ := h.of_lift_bind_some
  obtain ⟨renamed, archive', rest, rfl, hrename, h⟩ := h.of_except_bind_ok
  obtain ⟨created, id, rest, rfl, hcreate, h⟩ := h.of_except_bind_ok
  obtain ⟨started, _, rest, rfl, hstart, h⟩ := h.of_except_bind_ok
  obtain ⟨rfl, hresult⟩ := Produces.of_done h
  cases hresult
  obtain rfl := (of_call (of_swapStep hcreate)).of_request
  obtain rfl := (of_call (of_swapStep hstart)).of_request
  obtain ⟨chosen, name', called, rfl, -, hcalled⟩ := (of_swapStep hrename).of_lift_bind_some
  obtain ⟨call, _, last, rfl, hcall, hlast⟩ := hcalled.of_except_bind_ok
  obtain ⟨rfl, hname⟩ := Produces.of_done hlast
  cases hname
  obtain rfl := (of_call hcall).of_request
  exact ⟨stopped ++ (read ++ chosen), by simp [swapCalls, replaced]⟩

/-- **What a finished cycle did.** -/
theorem cycledIn_of_recreateOne {docker : Docker} {name : String} {hooks : LifecycleHooks}
    {ts : TsProvider} {events : List CallEvent} {cycle : CycleResult}
    (h : Produces (recreateOne docker name hooks ts).run events (some (.ok (.completed cycle)))) :
    ∃ spec, CycledIn events name cycle spec := by
  obtain ⟨first, ⟨spec, skip⟩, rest, rfl, hclear, hrest⟩ := h.of_except_bind_ok
  obtain ⟨resp, cleared, rfl, hread⟩ := produces_clearUpdate hclear
  cases skip with
  | some reason =>
      obtain ⟨-, hresult⟩ := Produces.of_done hrest
      cases hresult
  | none =>
      obtain ⟨listed, dependents, rest, rfl, -, hcomplete⟩ := hrest.of_lift_bind_some
      obtain ⟨swapped, ⟨archive, id⟩, rest, rfl, hmapped, hdone⟩ := hcomplete.of_except_bind_ok
      obtain ⟨rfl, hresult⟩ := Produces.of_done hdone
      cases hresult
      obtain ⟨r, hr, hswap⟩ := Produces.of_map hmapped
      cases r with
      | error e => cases hr
      | ok swapped =>
          cases hr
          obtain ⟨before, rfl⟩ := swapCalls_of_swapContainer hswap
          refine ⟨spec, ⟨resp, hread, ?_⟩, rfl, rfl, rfl, rfl⟩
          rw [List.cons_append]
          refine List.Sublist.cons_cons _ ?_
          simp only [List.append_nil, ← List.append_assoc]
          exact List.sublist_append_right _ _

/-! ## Verdicts -/

/-- A report of a container that is well: healthy, or up without a healthcheck. -/
def Well (r : Report) : Prop :=
  stateOf r = .ok .healthHealthy ∨ stateOf r = .ok .runningNoHealthcheck

/-- A report that the verdict follows from. -/
inductive Suits (r : Report) : HealthOutcome → Prop where
  | healthy : Well r → Suits r .healthy
  | crashed {code : Int} : stateOf r = .ok (.exited code) → Suits r .crashed
  | timeout : ¬ Well r → Suits r .timeout

/-- The last report of the container. -/
def LastReport (log : List CallEvent) (id : String) (report : Report) : Prop :=
  ∃ before after, log = before ++ probed id report :: after ∧ reports id after = []

/-- What came before does not change which report is the last. -/
theorem LastReport.after {log : List CallEvent} {id : String} {report : Report}
    (h : LastReport log id report) (first : List CallEvent) :
    LastReport (first ++ log) id report := by
  obtain ⟨before, after, rfl, hafter⟩ := h
  exact ⟨first ++ before, after, by simp, hafter⟩

/-- Polling again asks the clock last, or sleeps and goes on. -/
theorem produces_orPollAgain {α : Type} {start limit pollInterval : Duration} {verdict v : α}
    {again : Prog α} {events : List CallEvent}
    (h : Produces (orPollAgain start limit pollInterval verdict again) events (some v)) :
    (∃ now : Nat, events = [⟨.now, some now⟩] ∧ v = verdict ∧ limit ≤ now - start) ∨
      ∃ now : Nat, ∃ rest, events = ⟨.now, some now⟩ :: ⟨.sleep pollInterval, some ()⟩ :: rest ∧
        Produces again rest (some v) := by
  cases h with
  | answered _ _ now h =>
      change Produces (if limit ≤ (show Nat from now) - start then pure verdict else _) _ _ at h
      split at h
      · next hlimit =>
        obtain ⟨rfl, rfl⟩ := h.of_done
        exact .inl ⟨now, rfl, rfl, hlimit⟩
      · cases h with
        | answered _ _ slept h => exact .inr ⟨now, _, rfl, h⟩

/-- **The verdict of the health gate follows from the last report.** -/
theorem verdict_of_pollHealth {id : String} {cfg : HealthConfig} {start : Duration} {polls : Nat}
    {errorDeadline : Duration} {events : List CallEvent} {v : HealthOutcome}
    (h : Produces (pollHealth id cfg start polls errorDeadline) events (some v)) :
    ∃ report, LastReport events id report ∧ Suits report v := by
  induction polls generalizing events errorDeadline with
  | zero => cases h
  | succ polls ih =>
      obtain ⟨first, probe, rest, rfl, hfirst, hrest⟩ := h.of_bind_some
      obtain ⟨report, rfl, rfl⟩ := produces_probeState hfirst
      -- the loop ends with the verdict of its deadline, or goes on
      have goesOn {limit : Duration} {verdict : HealthOutcome} {deadline : Duration}
          (suits : Suits report verdict)
          (hloop : Produces (orPollAgain start limit cfg.pollInterval verdict
            (pollHealth id cfg start polls deadline)) rest (some v)) :
          ∃ r, LastReport ([probed id report] ++ rest) id r ∧ Suits r v := by
        rcases produces_orPollAgain hloop with ⟨now, rfl, rfl, -⟩ | ⟨now, more, rfl, hmore⟩
        · exact ⟨report, ⟨[], _, rfl, rfl⟩, suits⟩
        · obtain ⟨r, last, hsuits⟩ := ih hmore
          exact ⟨r, last.after [probed id report, ⟨.now, some now⟩, ⟨.sleep _, some ()⟩], hsuits⟩
      have ended {verdict : HealthOutcome} (suits : Suits report verdict)
          (h : Produces (.done verdict : Prog HealthOutcome) rest (some v)) :
          ∃ r, LastReport ([probed id report] ++ rest) id r ∧ Suits r v := by
        obtain ⟨rfl, rfl⟩ := h.of_done
        exact ⟨report, ⟨[], [], rfl, rfl⟩, suits⟩
      cases hstate : stateOf report with
      | error e =>
          rw [hstate] at hrest
          exact goesOn (.timeout (by simp [Well, hstate])) hrest
      | ok state =>
          rw [hstate] at hrest
          cases state with
          | healthHealthy => exact ended (.healthy (.inl hstate)) hrest
          | exited code => exact ended (.crashed hstate) hrest
          | healthStarting => exact goesOn (.timeout (by simp [Well, hstate])) hrest
          | healthUnhealthy => exact goesOn (.timeout (by simp [Well, hstate])) hrest
          | runningNoHealthcheck => exact goesOn (.healthy (.inr hstate)) hrest

theorem verdict_of_waitForHealth {docker : Docker} {id : String} {cfg : HealthConfig}
    {events : List CallEvent} {v : HealthOutcome}
    (h : Produces (waitForHealth docker id cfg) events (some v)) :
    ∃ report, LastReport events id report ∧ Suits report v := by
  obtain ⟨now, start, polling, rfl, -, hpolling⟩ := h.of_bind_some
  obtain ⟨report, last, suits⟩ := verdict_of_pollHealth hpolling
  exact ⟨report, last.after now, suits⟩

/-- A gate that waited for an exit to its timeout: the clock passed the timeout, and no report of
the container was one of an exit. -/
def WaitedFor (id : String) (timeout : Duration) (gate : List CallEvent) : Prop :=
  ∃ start last : Nat, ∃ polling,
    gate = ⟨.now, some start⟩ :: polling ++ [⟨.now, some last⟩] ∧ timeout ≤ last - start ∧
      ∀ r ∈ reports id polling, exitReported (stateOf r) = none

/-- What the one-shot gate was told. -/
def ExitSuits (id : String) (timeout : Duration) (gate : List CallEvent) : ExitOutcome → Prop
  | .exited code => ∃ report, LastReport gate id report ∧ stateOf report = .ok (.exited code)
  | .timedOut => WaitedFor id timeout gate

/-- **The verdict of the one-shot gate follows from its reports.** -/
theorem verdict_of_pollExit {id : String} {timeout pollInterval start : Duration} {polls : Nat}
    {events : List CallEvent} {exit : ExitOutcome}
    (h : Produces (pollExit id timeout pollInterval start polls) events (some exit)) :
    match exit with
    | .exited code => ∃ report, LastReport events id report ∧ stateOf report = .ok (.exited code)
    | .timedOut => ∃ (last : Nat) (polling : List CallEvent),
        events = polling ++ [⟨.now, some last⟩] ∧ timeout ≤ last - start ∧
          ∀ r ∈ reports id polling, exitReported (stateOf r) = none := by
  induction polls generalizing events with
  | zero => cases h
  | succ polls ih =>
      obtain ⟨first, probe, rest, rfl, hfirst, hrest⟩ := h.of_bind_some
      obtain ⟨report, rfl, rfl⟩ := produces_probeState hfirst
      cases hexit : exitReported (stateOf report) with
      | some code =>
          rw [hexit] at hrest
          obtain ⟨rfl, rfl⟩ := hrest.of_done
          exact ⟨report, ⟨[], [], rfl, rfl⟩, state_of_exitReported hexit⟩
      | none =>
          rw [hexit] at hrest
          rcases produces_orPollAgain hrest with ⟨now, rfl, rfl, hlimit⟩ | ⟨now, more, rfl, hmore⟩
          · refine ⟨now, [probed id report], rfl, hlimit, ?_⟩
            rw [reports_probed]
            simpa [reports] using hexit
          · have later := ih hmore
            cases exit with
            | exited code =>
                obtain ⟨r, last, hstate⟩ := later
                exact ⟨r, last.after [probed id report, ⟨.now, some now⟩, ⟨.sleep _, some ()⟩], hstate⟩
            | timedOut =>
                obtain ⟨last, polling, rfl, hlimit, none⟩ := later
                refine ⟨last,
                  probed id report :: ⟨.now, some now⟩ :: ⟨.sleep _, some ()⟩ :: polling, rfl, hlimit, ?_⟩
                rw [reports_probed]
                exact List.forall_mem_cons.mpr ⟨hexit, none⟩

theorem verdict_of_waitForExit {docker : Docker} {id : String} {timeout pollInterval : Duration}
    {events : List CallEvent} {exit : ExitOutcome}
    (h : Produces (waitForExit docker id timeout pollInterval) events (some exit)) :
    ExitSuits id timeout events exit := by
  obtain ⟨now, start, polling, rfl, hnow, hpolling⟩ := h.of_bind_some
  obtain rfl := hnow.of_request
  have told := verdict_of_pollExit hpolling
  cases exit with
  | exited code =>
      obtain ⟨report, last, hstate⟩ := told
      exact ⟨report, last.after [⟨.now, some start⟩], hstate⟩
  | timedOut =>
      obtain ⟨last, gate, rfl, hlimit, none⟩ := told
      exact ⟨start, last, gate, rfl, hlimit, none⟩

end Freshdock.Docker
