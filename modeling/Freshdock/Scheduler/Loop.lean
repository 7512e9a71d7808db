import Freshdock.Scheduler.Fleet
import Freshdock.Scheduler.Footprint

/-!
# The loop of the scheduler

The scheduler ticks until it is told to shut down. The request is noticed between the containers, not
within one: every visit that was begun is finished by then, and nothing is begun afterwards
(`shutdown_between_visits`). What the loop leaves is what its ticks leave (`reaches_of_runLoop`).
-/

set_option autoImplicit false

namespace Freshdock.Scheduler

open Interaction Docker
open Cron (Instant)
open Labels (Policy)

/-- What wakes the scheduler up: its ticker, a new value of the request to stop, or that nobody is left
to make one. -/
inductive Wake where
  | ticked
  | changed
  | dropped

/-- The scheduler, woken up by these in turn. -/
def runLoop (docker : Docker) (cfg : SchedulerConfig) (settings : ResolvedSettings) :
    List Wake → Memory → Prog Memory
  | [], _ => .stalled
  | .ticked :: wakes, memory => do
      let stopping : Bool ← request .shutdownRequested
      if stopping then pure memory
      else do
        let memory ← runTick docker cfg settings memory
        runLoop docker cfg settings wakes memory
  | .changed :: wakes, memory => do
      let stopping : Bool ← request .shutdownRequested
      if stopping then pure memory
      else runLoop docker cfg settings wakes memory
  | .dropped :: _, memory => pure memory

section Loop

variable {docker : Docker} {cfg : SchedulerConfig} {settings : ResolvedSettings}
  {events before after : List CallEvent}

/-! ## Visits are not interrupted -/

/-- The program does not ask whether to stop. -/
abbrev Uninterrupted {α : Type} (p : Prog α) : Prop := p.Only fun c => c ≠ .shutdownRequested

theorem uninterrupted_of_updates {α : Type} {p : Prog α} (h : Updates p) : Uninterrupted p :=
  h.mono fun c hc hsame => by
    subst hsame
    cases hc

theorem uninterrupted_actOnProbe {now : Instant} {name : String} {policy : Policy}
    {labels : LabelMap} {target : Probe.ProbeTarget} {lastFailed lastNotified : Option String}
    {outcome : Probe.ProbeOutcome} :
    Uninterrupted (actOnProbe docker cfg now name policy labels target lastFailed lastNotified
      settings outcome) := by
  unfold actOnProbe
  split
  · split
    · trivial
    · trivial
    · unfold actOnUpdate
      split
      · unfold reportAvailable
        split
        · exact (Program.only_request fun h => by cases h).bind fun _ => trivial
        · trivial
      · trivial
      all_goals
        split
        · trivial
        · exact (uninterrupted_of_updates (updates_applyUpdate ..)).bind fun _ => trivial
  all_goals trivial

/-- **A visit does not ask whether to stop.** -/
theorem uninterrupted_visit {now : Instant} (c : ContainerSummary) (sweep : Sweep) :
    Uninterrupted (visit docker cfg now settings c sweep) := by
  unfold visit
  dsimp only
  split
  · trivial
  split
  · trivial
  split
  · trivial
  split
  · trivial
  split
  · trivial
  unfold visitEnabled
  dsimp only
  split
  · refine (uninterrupted_of_updates (updates_of_operates (operates_of_works (works_resolveTarget c)))).bind
      fun target => ?_
    cases target with
    | error e => trivial
    | ok target =>
        refine Program.Only.bind ?_ fun _ => trivial
        refine Program.Only.bind ?_ fun _ => uninterrupted_actOnProbe
        unfold Probe.probeImage
        split
        · trivial
        · refine (Program.only_request fun h => by cases h).bind fun _ => ?_
          exact (Program.only_request fun h => by cases h).bind fun _ => trivial
  · trivial

/-! ## Whole visits -/

variable (docker cfg settings) in
/-- Visits that were finished, and what is asked between them. -/
inductive Settled : List CallEvent → Prop where
  | nil : Settled []
  | asked {events : List CallEvent} (reply : Option (Call.shutdownRequested).Reply) :
      Settled events → Settled (⟨.shutdownRequested, reply⟩ :: events)
  | listed {events : List CallEvent} (reply : Option (Call.listRunning).Reply) :
      Settled events → Settled (⟨.listRunning, reply⟩ :: events)
  | timed {events : List CallEvent} (reply : Option (Call.localTime).Reply) :
      Settled events → Settled (⟨.localTime, reply⟩ :: events)
  | visited {now : Instant} {c : ContainerSummary} {sweep s : Sweep}
      {part events : List CallEvent} : Produces (visit docker cfg now settings c sweep) part (some s) →
      Settled events → Settled (part ++ events)

theorem Settled.append {rest : List CallEvent} (h : Settled docker cfg settings events)
    (h' : Settled docker cfg settings rest) : Settled docker cfg settings (events ++ rest) := by
  induction h with
  | nil => exact h'
  | asked reply _ ih => exact .asked reply ih
  | listed reply _ ih => exact .listed reply ih
  | timed reply _ ih => exact .timed reply ih
  | visited hvisit _ ih =>
      rw [List.append_assoc]
      exact .visited hvisit ih

/-- The request to stop, seen. -/
abbrev stop : CallEvent := ⟨.shutdownRequested, some true⟩

/-- A request to stop is not seen within a program that does not ask for it, but after it. -/
theorem stop_after {α β : Type} {p : Prog α} {k : α → Prog β} {out : Option β}
    (quiet : Uninterrupted p) (h : Produces (p >>= k) (before ++ stop :: after) out) :
    ∃ first a before', before = first ++ before' ∧ Produces p first (some a) ∧
      Produces (k a) (before' ++ stop :: after) out := by
  have unseen {events : List CallEvent} {out : Option α} (h : Produces p events out) :
      stop ∉ events := fun hstop => quiet.events h _ hstop rfl
  rcases h.of_bind with ⟨-, hp⟩ | ⟨first, a, rest, place, hp, hk⟩
  · exact absurd (by simp) (unseen hp)
  · rcases place_of_append place.symm with ⟨after', rfl⟩ | ⟨before', rfl, rfl⟩
    · exact absurd (by simp) (unseen hp)
    · exact ⟨first, a, before', rfl, hp, hk⟩

/-- A sweep that is finished is made of whole visits. -/
theorem settled_of_sweep {now : Instant} {rows : List ContainerSummary} {sweep : Sweep}
    {r : Sweep × Bool}
    (h : Produces (sweepContainers docker cfg now settings rows sweep) events (some r)) :
    Settled docker cfg settings events := by
  induction rows generalizing sweep events with
  | nil =>
      obtain ⟨rfl, -⟩ := h.of_done
      exact .nil
  | cons c rows ih =>
      cases h with
      | answered _ _ stopping h =>
          cases stopping with
          | true =>
              obtain ⟨rfl, -⟩ := Produces.of_done h
              exact .asked _ .nil
          | false =>
              change Produces (visit docker cfg now settings c sweep >>= fun sweep =>
                sweepContainers docker cfg now settings rows sweep) _ (some r) at h
              obtain ⟨first, s', rest, rfl, hvisit, hrest⟩ := h.of_bind_some
              exact .asked _ (.visited hvisit (ih hrest))

/-- A sweep in which the request to stop is seen ends there, after whole visits. -/
theorem settled_before_stop {now : Instant} {rows : List ContainerSummary} {sweep : Sweep}
    {out : Option (Sweep × Bool)}
    (h : Produces (sweepContainers docker cfg now settings rows sweep) (before ++ stop :: after)
      out) : Settled docker cfg settings before ∧ after = [] := by
  induction rows generalizing sweep before with
  | nil =>
      have none := (produces_done_iff.mp h).1
      simp at none
  | cons c rows ih =>
      cases before with
      | nil =>
          cases h with
          | answered _ _ _ h => exact ⟨.nil, (produces_done_iff.mp h).1⟩
      | cons e before =>
          rw [List.cons_append] at h
          generalize hrest : before ++ stop :: after = rest at h
          cases h with
          | unanswered => simp at hrest
          | answered _ _ stopping h =>
              subst hrest
              cases stopping with
              | true =>
                  have none := (produces_done_iff.mp h).1
                  simp at none
              | false =>
                  change Produces (visit docker cfg now settings c sweep >>= fun sweep =>
                    sweepContainers docker cfg now settings rows sweep) (before ++ stop :: after)
                    out at h
                  obtain ⟨part, s', before', rfl, hvisit, hrest⟩ :=
                    stop_after (uninterrupted_visit c sweep) h
                  obtain ⟨settled, hafter⟩ := ih hrest
                  exact ⟨.asked _ (.visited hvisit settled), hafter⟩

/-- A tick that is finished is made of whole visits. -/
theorem settled_of_tick {memory memory' : Memory}
    (h : Produces (runTick docker cfg settings memory) events (some memory')) :
    Settled docker cfg settings events := by
  obtain ⟨first, listed, rest, rfl, hlist, hrest⟩ := h.of_bind_some
  obtain rfl := Produces.of_request (c := Call.listRunning) hlist
  cases listed with
  | error e =>
      obtain ⟨rfl, -⟩ := hrest.of_done
      exact .listed _ .nil
  | ok rows =>
      obtain ⟨clock, now, swept, rfl, htime, hswept⟩ := hrest.of_bind_some
      obtain rfl := htime.of_request
      obtain ⟨all, r, last, rfl, hsweep, hlast⟩ := hswept.of_bind_some
      obtain ⟨rfl, -⟩ := hlast.of_done
      rw [List.append_nil]
      exact .listed _ (.timed _ (settled_of_sweep hsweep))

/-- A tick in which the request to stop is seen ends there, after whole visits. -/
theorem settled_before_stop_of_tick {memory : Memory} {out : Option Memory}
    (h : Produces (runTick docker cfg settings memory) (before ++ stop :: after) out) :
    Settled docker cfg settings before ∧ after = [] := by
  obtain ⟨first, listed, before, rfl, hlist, hrest⟩ :=
    stop_after (Program.only_request fun h => by cases h) h
  obtain rfl := Produces.of_request (c := Call.listRunning) hlist
  cases listed with
  | error e =>
      have none := (produces_done_iff.mp hrest).1
      simp at none
  | ok rows =>
      change Produces (request .localTime >>= fun now =>
        sweepContainers docker cfg now settings rows ⟨memory, [], []⟩ >>= fun r =>
          pure (r.1.finish r.2)) (before ++ stop :: after) out at hrest
      obtain ⟨clock, now, before, rfl, htime, hswept⟩ :=
        stop_after (Program.only_request fun h => by cases h) hrest
      obtain rfl := htime.of_request
      have stopped {out : Option (Sweep × Bool)} (h : Produces (sweepContainers docker cfg now
          settings rows ⟨memory, [], []⟩) (before ++ stop :: after) out) :
          Settled docker cfg settings ([⟨.listRunning, some (.ok rows)⟩] ++
            ([⟨.localTime, some now⟩] ++ before)) ∧ after = [] := by
        obtain ⟨settled, hafter⟩ := settled_before_stop h
        exact ⟨.listed (some (.ok rows)) (.timed (some now) settled), hafter⟩
      rcases hswept.of_bind with ⟨-, hsweep⟩ | ⟨all, r, last, place, hsweep, hlast⟩
      · exact stopped hsweep
      · obtain ⟨rfl, -⟩ := produces_done_iff.mp hlast
        rw [List.append_nil] at place
        exact stopped (place ▸ hsweep)

/-! ## The loop -/

/-- What the loop leaves, its ticks leave. -/
theorem reaches_of_runLoop {wakes : List Wake} {memory memory' : Memory}
    (h : Produces (runLoop docker cfg settings wakes memory) events (some memory')) :
    Reaches docker cfg settings (fun _ _ => True) memory memory' := by
  induction wakes generalizing memory events with
  | nil => cases h
  | cons wake wakes ih =>
      cases wake with
      | dropped =>
          obtain ⟨-, rfl⟩ := Produces.of_done h
          exact .refl
      | changed =>
          cases h with
          | answered _ _ stopping h =>
              cases stopping with
              | true =>
                  obtain ⟨-, rfl⟩ := Produces.of_done h
                  exact .refl
              | false => exact ih h
      | ticked =>
          cases h with
          | answered _ _ stopping h =>
              cases stopping with
              | true =>
                  obtain ⟨-, rfl⟩ := Produces.of_done h
                  exact .refl
              | false =>
                  change Produces (runTick docker cfg settings memory >>= fun memory =>
                    runLoop docker cfg settings wakes memory) _ (some memory') at h
                  obtain ⟨tick, memory₁, rest, rfl, htick, hrest⟩ := h.of_bind_some
                  exact .head ⟨tick, htick, trivial⟩ (ih hrest)

/-- Once the request to stop stays, the loop does nothing. -/
theorem asks_of_stopped {wakes : List Wake} {memory : Memory} {out : Option Memory}
    (h : Produces (runLoop docker cfg settings wakes memory) events out)
    (stays : ∀ r, ⟨.shutdownRequested, some r⟩ ∈ events → r = true) :
    ∀ e ∈ events, e.call = .shutdownRequested := by
  cases wakes with
  | nil =>
      cases h
      simp
  | cons wake wakes =>
      cases wake with
      | dropped =>
          obtain ⟨rfl, -⟩ := produces_done_iff.mp h
          simp
      | changed | ticked =>
          cases h with
          | cut => simp
          | unanswered => simp
          | answered _ _ stopping h =>
              obtain rfl : stopping = true := stays stopping List.mem_cons_self
              obtain ⟨rfl, -⟩ := produces_done_iff.mp h
              simp

/-- A request to stop that is seen at a wake-up is seen by the wake-up itself, or after it. -/
theorem stop_of_wake {wake : Wake} {wakes : List Wake} {memory : Memory} {out : Option Memory}
    (h : Produces (runLoop docker cfg settings (wake :: wakes) memory) (before ++ stop :: after)
      out) :
    (before = [] ∧ after = []) ∨ ∃ before', before = ⟨.shutdownRequested, some false⟩ :: before' ∧
      ((wake = .changed ∧
          Produces (runLoop docker cfg settings wakes memory) (before' ++ stop :: after) out) ∨
        (wake = .ticked ∧ Produces (runTick docker cfg settings memory >>= fun memory =>
          runLoop docker cfg settings wakes memory) (before' ++ stop :: after) out)) := by
  cases wake with
  | dropped =>
      have none := (produces_done_iff.mp h).1
      simp at none
  | changed | ticked =>
      cases before with
      | nil =>
          cases h with
          | answered _ _ _ h => exact .inl ⟨rfl, (produces_done_iff.mp h).1⟩
      | cons e before =>
          rw [List.cons_append] at h
          generalize hrest : before ++ stop :: after = rest at h
          cases h with
          | unanswered => simp at hrest
          | answered _ _ stopping h =>
              subst hrest
              cases stopping with
              | true =>
                  have none := (produces_done_iff.mp h).1
                  simp at none
              | false =>
                  refine .inr ⟨before, rfl, ?_⟩
                  simp only [reduceCtorEq, true_and, false_and, or_false, false_or]
                  exact h

/-- **The loop is shut down between visits.** Where a request to stop is seen, every visit that was
begun is finished; once it stays, nothing is done any more; and what is left is what ticks leave. -/
theorem shutdown_between_visits {wakes : List Wake} {memory : Memory} {out : Option Memory}
    (h : Produces (runLoop docker cfg settings wakes memory) (before ++ stop :: after) out)
    (stays : ∀ r, ⟨.shutdownRequested, some r⟩ ∈ after → r = true) :
    Settled docker cfg settings before ∧ (∀ e ∈ after, e.call = .shutdownRequested) ∧
      ∀ memory', out = some memory' →
        Reaches docker cfg settings (fun _ _ => True) memory memory' := by
  refine and_assoc.mp ⟨?_, fun memory' hout => reaches_of_runLoop (hout ▸ h)⟩
  induction wakes generalizing memory before with
  | nil => cases before <;> cases h
  | cons wake wakes ih =>
      rcases stop_of_wake h with ⟨rfl, rfl⟩ | ⟨before, rfl, ⟨-, h⟩ | ⟨-, h⟩⟩
      · exact ⟨.nil, by simp⟩
      · obtain ⟨settled, hasks⟩ := ih h
        exact ⟨.asked _ settled, hasks⟩
      rcases h.of_bind with ⟨-, htick⟩ | ⟨tick, memory', rest, place, htick, hrest⟩
      · obtain ⟨settled, rfl⟩ := settled_before_stop_of_tick htick
        exact ⟨.asked _ settled, by simp⟩
      rcases place_of_append place.symm with ⟨after', rfl⟩ | ⟨before', rfl, rfl⟩
      · obtain ⟨settled, rfl⟩ := settled_before_stop_of_tick htick
        have hafter : after = rest := by simpa using place
        rw [hafter] at stays ⊢
        exact ⟨.asked _ settled, asks_of_stopped hrest stays⟩
      · obtain ⟨settled, hasks⟩ := ih hrest
        exact ⟨.asked _ ((settled_of_tick htick).append settled), hasks⟩

end Loop

/-- A fleet that is told to shut down after so many times that this is asked. -/
def stoppingAfter (asks : Nat) (fleet : Fleet) : Handler Call Call.Reply (Nat × Nat)
  | .shutdownRequested, (asked, creates) => (some (asks ≤ asked : Bool), asked + 1, creates)
  | call, (asked, creates) => ((fleet.answer call creates).1, asked, (fleet.answer call creates).2)

/-- The ticker, then the request to stop, then whatever comes. -/
def stackWakes : List Wake := [.ticked, .changed, .ticked]

/-- The stack, told to shut down while `api` is updated. -/
def stoppedRun : Run Call Call.Reply (Nat × Nat) Memory :=
  play (stoppingAfter 2 (stackFleet [memberRow "api" "live", memberRow "web" "live"] 0))
    (runLoop stackDocker stackConfig .default stackWakes .empty) (0, 0)

/-- The update of `api` is finished, and `web` is not visited. -/
theorem shutdown_between_visits_updating :
    Settled stackDocker stackConfig .default (stoppedRun.trace.take 22) ∧
      stoppedRun.trace.drop 22 = [stop, stop] := by
  have place := place_of_getElem? (show stoppedRun.trace[22]? = some stop from rfl)
  have last : stoppedRun.trace.drop 23 = [stop] := rfl
  have run : Produces (runLoop stackDocker stackConfig .default stackWakes .empty) stoppedRun.trace
      stoppedRun.out := play_produces _ _ _
  rw [place, last] at run
  refine ⟨(shutdown_between_visits run fun r hr => ?_).1, rfl⟩
  exact Option.some.inj (Event.reply_inj (List.mem_singleton.mp hr))

end Freshdock.Scheduler
