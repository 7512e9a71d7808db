import Freshdock.Health

/-!
# Reports

A gate sees a container through the replies to its probes. This file reads a run of a gate as
the list of reports it was given, in both directions: what a run says about its reports, and
the runs that a sequence of reports (a script) leads to.

**Two fields for one fact.** A report says whether the container is up in its status and in
its running flag, and a gate takes either for up.
-/

set_option autoImplicit false

namespace Freshdock.Health

open Interaction Docker

/-! ## Reports -/

/-- The reply to one probe. -/
abbrev Report : Type := Except DockerError ContainerInspectResponse

/-- A probe of `id` and the report it was given. -/
def probed (id : String) (report : Report) : CallEvent := ⟨.inspectContainer id, some report⟩

/-- The reply of an event that is a probe of `id`. -/
def reportOf (id : String) : CallEvent → Option Report
  | ⟨.inspectContainer ref, some report⟩ => if ref = id then some report else none
  | _ => none

/-- What the probes of `id` were told. -/
def reports (id : String) (events : List CallEvent) : List Report := events.filterMap (reportOf id)

/-- The gate's reading of a report. -/
def stateOf (r : Report) : Except DockerError ContainerRuntimeState :=
  r.map fun resp => classifyRuntimeState resp.state

/-- Up by the status or by the running flag. -/
def Up (s : ContainerState) : Prop := s.status = some .running ∨ s.running = some true

theorem isRunning_iff (s : ContainerState) : isRunning s = true ↔ Up s := by
  simp [isRunning, Up]

/-- Only a report that the container is over is read as an exit. -/
theorem state_of_exitReported {r : Report} {code : Int}
    (h : exitReported (stateOf r) = some code) : stateOf r = .ok (.exited code) := by
  unfold exitReported at h
  split at h
  · next heq =>
    cases h
    exact heq
  · cases h

/-! ## From runs to reports -/

theorem reports_append (id : String) (first rest : List CallEvent) :
    reports id (first ++ rest) = reports id first ++ reports id rest :=
  List.filterMap_append ..

theorem reports_probed (id : String) (report : Report) (rest : List CallEvent) :
    reports id (probed id report :: rest) = report :: reports id rest := by
  have hreport : reportOf id (probed id report) = some report := if_pos rfl
  rw [reports, List.filterMap_cons_some hreport, reports]

/-- A probe's run is one report, and its value is the gate's reading of it. -/
theorem produces_probeState {id : String} {events : List CallEvent}
    {r : Except DockerError ContainerRuntimeState}
    (h : Produces (probeState id).run events (some r)) :
    ∃ report, events = [probed id report] ∧ r = stateOf report := by
  rw [probeState, ExceptT.run_bind] at h
  obtain ⟨first, report, rest, rfl, hfirst, hrest⟩ := h.of_bind_some
  obtain rfl := hfirst.of_request
  cases report with
  | error e =>
      obtain ⟨rfl, rfl⟩ := hrest.of_done
      exact ⟨.error e, rfl, rfl⟩
  | ok resp =>
      obtain ⟨rfl, rfl⟩ := hrest.of_done
      exact ⟨.ok resp, rfl, rfl⟩

/-- Polling again asks only the clock before it goes on. -/
theorem produces_orPollAgain {α : Type} {id : String} {start limit pollInterval : Duration}
    {verdict v : α} {again : Prog α} {events : List CallEvent}
    (h : Produces (orPollAgain start limit pollInterval verdict again) events (some v)) :
    (v = verdict ∧ reports id events = []) ∨
      ∃ rest, Produces again rest (some v) ∧ reports id events = reports id rest := by
  cases h with
  | answered _ _ now h =>
      change Produces (if limit ≤ (show Nat from now) - start then pure verdict else _) _ _ at h
      split at h
      · obtain ⟨rfl, rfl⟩ := h.of_done
        exact .inl ⟨rfl, rfl⟩
      · cases h with
        | answered _ _ slept h => exact .inr ⟨_, h, rfl⟩

/-! ## From reports to runs -/

/-- The first `n` reports of a script. -/
def told (script : Nat → Report) (n : Nat) : List Report := (List.range n).map script

theorem told_succ (script : Nat → Report) (n : Nat) :
    told script (n + 1) = script 0 :: told (fun k => script (k + 1)) n := by
  rw [told, told, List.range_succ_eq_map, List.map_cons, List.map_map]
  rfl

/-- A report in a script's telling is the script's report of that place. -/
theorem told_split {script : Nat → Report} {n : Nat} {front more : List Report} {last : Report}
    (h : told script n = front ++ last :: more) :
    front = told script front.length ∧ last = script front.length ∧ front.length < n := by
  induction front generalizing script n with
  | nil =>
      cases n with
      | zero => cases h
      | succ n =>
          rw [told_succ] at h
          cases h
          exact ⟨rfl, rfl, Nat.succ_pos n⟩
  | cons r front ih =>
      cases n with
      | zero => cases h
      | succ n =>
          rw [told_succ] at h
          obtain ⟨rfl, htail⟩ := List.cons.inj h
          obtain ⟨hfront, hlast, hlength⟩ := ih htail
          refine ⟨?_, hlast, Nat.succ_lt_succ hlength⟩
          rw [List.length_cons, told_succ, ← hfront]

theorem mem_told {script : Nat → Report} {n : Nat} {r : Report} :
    r ∈ told script n ↔ ∃ k < n, script k = r := by
  simp [told]

theorem produces_probe (id : String) (report : Report) :
    Produces (probeState id).run [probed id report] (some (stateOf report)) := by
  rw [probeState, ExceptT.run_bind]
  cases report with
  | error e => exact .answered _ _ _ (.done _)
  | ok resp => exact .answered _ _ _ (.done _)

theorem produces_reply (c : Call) (reply : c.Reply) :
    Produces (request c) [⟨c, some reply⟩] (some reply) :=
  Produces.request c reply

/-- Until the clock moves, an undecided report is followed by the next one. -/
theorem produces_again {α : Type} {verdict v : α} {again : Prog α} {events : List CallEvent}
    (h : Produces again events (some v)) :
    Produces (orPollAgain 0 1 0 verdict again)
      (⟨.now, some (0 : Nat)⟩ :: ⟨.sleep 0, some ()⟩ :: events) (some v) := by
  refine (produces_reply .now (0 : Nat)).bind ?_
  rw [if_neg (by decide)]
  exact Produces.answered (Call.sleep 0) (fun _ => again) () h

end Freshdock.Health
