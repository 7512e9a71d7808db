import Freshdock.Docker.Moves

/-!
# The order of a cycle

A cycle that completed ends with the create of the replacement and its start, and created
nothing before. The replacement's id is the one the create returned.
-/

set_option autoImplicit false

namespace Freshdock.Docker

open Interaction Registry
open Labels (LifecycleHooks)

/-- A call that creates a container. -/
def Creates : Call → Bool
  | .createContainer .. => true
  | _ => false

/-- An event that creates nothing. -/
def NotCreate (e : CallEvent) : Prop := Creates e.call = false

theorem quiet_notCreate : Quiet NotCreate := by
  intro call reply hquiet
  cases call <;> first | rfl | cases hquiet

/-- The events that end a swap: `create` from the spec, and `start` of what it created. -/
def replaced (role : Role) (name : String) (spec : ContainerSpec) (image id : String) :
    List CallEvent :=
  [⟨.createContainer role name (spec.toCreateBody image), some (.ok id)⟩,
    ⟨.startContainer role id, some (.ok ())⟩]

/-- No event of a program that keeps to `NotCreate` is a create. -/
theorem notCreate_of_emits {α : Type} {p : Prog α} {post : α → Prop}
    (h : Emits (fun _ => True) NotCreate p post) {events : List CallEvent} {out : Option α}
    (produced : Produces p events out) : ∀ e ∈ events, NotCreate e :=
  (h events out produced fun _ _ => trivial).1

theorem of_swapStep {α : Type} {onError : DockerError → SwapError} {op : Op α}
    {events : List CallEvent} {a : α}
    (h : Produces (swapStep onError op).run events (some (.ok a))) :
    Produces op.run events (some (.ok a)) := by
  obtain ⟨r, hr, hop⟩ := Produces.of_map h
  cases r with
  | error e => cases hr
  | ok b =>
      cases hr
      exact hop

/-- A call whose success ended the program. -/
theorem of_call {α : Type} {p : Prog (Except DockerError α)} {events : List CallEvent}
    {r : Except DockerError α} (h : Produces (Op.call p).run events (some r)) :
    Produces p events (some r) := h

/-- **A swap that succeeded stops the container first, and ends with the create of the
replacement and its start.** -/
theorem produces_swapContainer {role : Role} {name image : String} {spec : ContainerSpec}
    {ts : TsProvider} {events : List CallEvent} {archive id : String}
    (h : Produces (swapContainer role name spec image ts).run events (some (.ok (archive, id)))) :
    ∃ before, events = before ++ replaced role name spec image id ∧
      (∀ e ∈ before, NotCreate e) ∧
      ∃ signal timeout, ⟨.stopContainer role name signal timeout, some (.ok ())⟩ ∈ before := by
  obtain ⟨stopped, _, rest, rfl, hstop, h⟩ := h.of_except_bind_ok
  obtain ⟨read, tsUnix, rest, rfl, hread, h⟩ := h.of_lift_bind_some
  obtain ⟨renamed, archive', rest, rfl, hrename, h⟩ := h.of_except_bind_ok
  obtain ⟨created, id', rest, rfl, hcreate, h⟩ := h.of_except_bind_ok
  obtain ⟨started, _, rest, rfl, hstart, h⟩ := h.of_except_bind_ok
  obtain ⟨rfl, hresult⟩ := Produces.of_done h
  cases hresult
  obtain rfl := (of_call (of_swapStep hstop)).of_request
  obtain rfl := (of_call (of_swapStep hcreate)).of_request
  obtain rfl := (of_call (of_swapStep hstart)).of_request
  have stillRead := notCreate_of_emits (emits_ts quiet_notCreate ts) hread
  have stillRenamed := notCreate_of_emits
    (emits_renameToOld quiet_notCreate role name tsUnix fun _ _ => rfl) (of_swapStep hrename)
  refine ⟨[_] ++ (read ++ renamed), by simp only [List.append_assoc]; rfl, fun e he => ?_,
    _, _, List.mem_append_left _ (List.mem_singleton.mpr rfl)⟩
  rcases List.mem_append.mp he with he | he
  · obtain rfl := List.mem_singleton.mp he
    rfl
  · rcases List.mem_append.mp he with he | he
    · exact stillRead e he
    · exact stillRenamed e he

/-- An inspect that was read made one call, and its response reads as the spec. -/
theorem produces_inspect {name : String} {events : List CallEvent} {spec : ContainerSpec}
    (h : Produces (inspect name).run events (some (.ok spec))) :
    ∃ resp, events = [⟨.inspectContainer name, some (.ok resp)⟩] ∧
      ContainerSpec.fromInspect resp = .ok spec := by
  obtain ⟨first, resp, rest, rfl, hfirst, hrest⟩ := h.of_except_bind_ok
  obtain rfl := (of_call hfirst).of_request
  obtain ⟨rfl, hresult⟩ := Produces.of_done hrest
  refine ⟨resp, rfl, ?_⟩
  cases hread : ContainerSpec.fromInspect resp with
  | error e =>
      rw [hread] at hresult
      cases hresult
  | ok spec' =>
      rw [hread] at hresult
      cases hresult
      rfl

/-- An update that was cleared began with the inspect. -/
theorem produces_clearUpdate {docker : Docker} {name : String} {hooks : LifecycleHooks}
    {events : List CallEvent} {cleared : ContainerSpec × Option HookSkipReason}
    (h : Produces (clearUpdate docker name hooks).run events (some (.ok cleared))) :
    ∃ resp rest, events = ⟨.inspectContainer name, some (.ok resp)⟩ :: rest ∧
      ContainerSpec.fromInspect resp = .ok cleared.1 := by
  obtain ⟨first, spec, rest, rfl, hfirst, hrest⟩ := h.of_except_bind_ok
  obtain ⟨resp, rfl, hread⟩ := produces_inspect hfirst
  obtain ⟨preflight, _, pulling, rfl, hpreflight, hpulling⟩ := hrest.of_except_bind_ok
  obtain ⟨pulled, _, hooked, rfl, hpull, hhooked⟩ := hpulling.of_except_bind_ok
  obtain ⟨ran, skip, last, rfl, hran, hlast⟩ := hhooked.of_lift_bind_some
  obtain ⟨rfl, hresult⟩ := Produces.of_done hlast
  cases hresult
  exact ⟨resp, _, rfl, hread⟩

/-- **A cycle that completed begins with the inspect, stops the container, and ends with the
create of the replacement and its start.** -/
theorem produces_recreateOne {docker : Docker} {name : String} {hooks : LifecycleHooks}
    {ts : TsProvider} {events : List CallEvent} {cycle : CycleResult}
    (h : Produces (recreateOne docker name hooks ts).run events (some (.ok (.completed cycle)))) :
    ∃ resp spec before, ContainerSpec.fromInspect resp = .ok spec ∧
      events = ⟨.inspectContainer name, some (.ok resp)⟩ :: before ++
        replaced .update spec.name spec spec.imageRef cycle.newId ∧
      (∀ e ∈ before, NotCreate e) ∧
      ∃ signal timeout, ⟨.stopContainer .update spec.name signal timeout, some (.ok ())⟩ ∈
        before := by
  obtain ⟨first, ⟨spec, skip⟩, rest, rfl, hclear, hrest⟩ := h.of_except_bind_ok
  obtain ⟨resp, cleared, rfl, hread⟩ := produces_clearUpdate hclear
  have stillCleared := notCreate_of_emits
    (emits_clearUpdate quiet_notCreate.hushed docker name hooks (fun _ _ _ => rfl) fun _ _ _ => rfl) hclear
  cases skip with
  | some reason =>
      obtain ⟨-, hresult⟩ := Produces.of_done hrest
      cases hresult
  | none =>
      obtain ⟨listed, dependents, rest, rfl, hlisted, hcomplete⟩ := hrest.of_lift_bind_some
      have stillListed := notCreate_of_emits (emits_dependentsOf quiet_notCreate docker name) hlisted
      obtain ⟨swapped, ⟨archive, id⟩, rest, rfl, hmapped, hdone⟩ := hcomplete.of_except_bind_ok
      obtain ⟨rfl, hresult⟩ := Produces.of_done hdone
      cases hresult
      obtain ⟨r, hr, hswap⟩ := Produces.of_map hmapped
      cases r with
      | error e => cases hr
      | ok swapped =>
          cases hr
          obtain ⟨before, rfl, hbefore, signal, timeout, hstop⟩ := produces_swapContainer hswap
          refine ⟨resp, spec, cleared ++ (listed ++ before), hread, by simp, fun e he => ?_,
            signal, timeout, by simp [hstop]⟩
          rcases List.mem_append.mp he with he | he
          · exact stillCleared e (List.mem_cons_of_mem _ he)
          · rcases List.mem_append.mp he with he | he
            · exact stillListed e he
            · exact hbefore e he

end Freshdock.Docker
