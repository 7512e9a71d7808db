import Freshdock.Scheduler.Visits

/-!
# Schedule states

A visit works on the state of one name: it seeds the state when none is kept, and leaves what its
course makes of it (`Next`). The states of the other names are not touched (`states_of_visit`).

**Along ticks.** What seeding and every step establish of a state holds of all states that are
kept (`states_of_visits`). The state that a tick leaves for a container that is listed once is the one
that its visit left (`state_of_tick`).
-/

set_option autoImplicit false

namespace Freshdock.Scheduler

open Interaction Docker SelfId
open Labels (Policy)
open Cron (Instant)

/-- What a visit leaves of the schedule state it works on. -/
inductive Next (cfg : SchedulerConfig) (now : Instant) (policy : Policy) (state : ContainerState) :
    Handling → ContainerState → Prop where
  | waited : due policy state now cfg.pollInterval = false →
      Next cfg now policy state .waited state
  | notInspected : due policy state now cfg.pollInterval = true →
      Next cfg now policy state .notInspected (inspectFailed policy now state)
  | processed (notified : Option String) : due policy state now cfg.pollInterval = true →
      Next cfg now policy state .processed
        { advance cfg.zone policy now state with lastNotifiedDigest := notified }

/-- The step of a state keeps its schedule. -/
theorem Next.cron {cfg : SchedulerConfig} {now : Instant} {policy : Policy}
    {state state' : ContainerState} {handling : Handling}
    (h : Next cfg now policy state handling state') : state'.cron = state.cron := by
  cases h with
  | waited _ => rfl
  | notInspected _ =>
      unfold inspectFailed
      split <;> rfl
  | processed notified _ =>
      unfold advance
      cases policy.mode <;> rfl

/-- The states are those of the other sweep, but for one name. -/
def OtherStates (name : String) (sweep sweep' : Sweep) : Prop :=
  ∀ name', name' ≠ name → sweep'.memory.states.get? name' = sweep.memory.states.get? name'

theorem states_remember (memory : Memory) (outcome : Option UpdateOutcome) :
    (memory.remember outcome).states = memory.states := by
  rcases outcome with _ | _ | _ <;> rfl

theorem otherStates_setState (sweep : Sweep) (name : String) (state : ContainerState) :
    OtherStates name sweep (sweep.setState name state) := fun _ hne =>
  SortedMap.get?_insert_of_ne _ _ hne

section Visit

variable {docker : Docker} {cfg : SchedulerConfig} {now : Instant} {settings : ResolvedSettings}
  {c : ContainerSummary} {sweep sweep' : Sweep} {policy : Policy} {handling : Handling}
  {events : List CallEvent}

/-- A finished course leaves the next state of its container. -/
theorem next_of_course
    (h : Course docker cfg now settings c sweep policy handling events (some sweep')) :
    (∃ state', Next cfg now policy (stateFor cfg now policy (containerName c) sweep) handling state' ∧
      sweep'.memory.states.get? (containerName c) = some state') ∧
      OtherStates (containerName c) sweep sweep' := by
  have others := otherStates_setState (sweep.markLive (containerName c)) (containerName c)
    (stateFor cfg now policy (containerName c) sweep)
  cases h with
  | waited hdue hout =>
      rw [hout sweep' rfl]
      exact ⟨⟨_, .waited hdue, SortedMap.get?_insert_self _ _ _⟩, others⟩
  | notInspected hdue _ hout =>
      obtain ⟨e, -, rfl⟩ := hout sweep' rfl
      refine ⟨⟨_, .notInspected hdue, SortedMap.get?_insert_self _ _ _⟩, fun name hne => ?_⟩
      exact (otherStates_setState _ _ _ name hne).trans (others name hne)
  | processed hdue _ _ hout =>
      obtain ⟨r, -, rfl⟩ := hout sweep' rfl
      simp only [settled, Sweep.record, states_remember, OtherStates]
      refine ⟨⟨_, .processed r.2 hdue, SortedMap.get?_insert_self _ _ _⟩, fun name hne => ?_⟩
      exact (otherStates_setState _ _ _ name hne).trans (others name hne)

/-- **A finished visit leaves the states as they are, or the next state of its container.** -/
theorem states_of_visit (h : Produces (visit docker cfg now settings c sweep) events (some sweep')) :
    ((∀ policy, ¬ Considered cfg settings c sweep policy) ∧
      sweep'.memory.states = sweep.memory.states) ∨
    ∃ policy handling state', Considered cfg settings c sweep policy ∧
      Course docker cfg now settings c sweep policy handling events (some sweep') ∧
      Next cfg now policy (stateFor cfg now policy (containerName c) sweep) handling state' ∧
      sweep'.memory.states.get? (containerName c) = some state' ∧
      OtherStates (containerName c) sweep sweep' := by
  rcases produces_visit h with ⟨passed, -, hout⟩ | ⟨policy, handling, considered, course⟩
  · refine .inl ⟨passed, ?_⟩
    rcases hout sweep' rfl with rfl | rfl <;> rfl
  · obtain ⟨⟨state', next, hstate⟩, others⟩ := next_of_course course
    exact .inr ⟨policy, handling, state', considered, course, next, hstate, others⟩

/-- A visit does not touch the state of another container. -/
theorem otherStates_of_visit
    (h : Produces (visit docker cfg now settings c sweep) events (some sweep')) :
    OtherStates (containerName c) sweep sweep' := by
  rcases states_of_visit h with ⟨-, hsame⟩ | ⟨_, _, _, -, -, -, -, others⟩
  · intro name _
    rw [hsame]
  · exact others

/-- A state that is kept stays kept. -/
theorem state_kept_of_visit
    (h : Produces (visit docker cfg now settings c sweep) events (some sweep')) {name : String}
    (kept : (sweep.memory.states.get? name).isSome) :
    (sweep'.memory.states.get? name).isSome := by
  by_cases hname : name = containerName c
  · subst hname
    rcases states_of_visit h with ⟨-, hsame⟩ | ⟨_, _, _, -, -, -, hstate, -⟩
    · rwa [hsame]
    · rw [hstate]
      rfl
  · rwa [otherStates_of_visit h name hname]

end Visit

/-! ## Ticks -/

/-- A sweep that did not visit all containers was shut down. -/
theorem shutdown_of_incomplete {docker : Docker} {cfg : SchedulerConfig} {settings : ResolvedSettings}
    {now : Instant} {rows : List ContainerSummary} {sweep sweep' : Sweep} {events : List CallEvent}
    (h : Produces (sweepContainers docker cfg now settings rows sweep) events
      (some (sweep', false))) : ⟨.shutdownRequested, some true⟩ ∈ events := by
  induction rows generalizing sweep events with
  | nil =>
      obtain ⟨-, hout⟩ := h.of_done
      cases hout
  | cons c rows ih =>
      obtain ⟨asked, stopping, rest, rfl, hasked, hrest⟩ := h.of_bind_some
      obtain rfl := hasked.of_request
      cases stopping with
      | true => exact List.mem_append_left _ List.mem_cons_self
      | false =>
          change Produces (visit docker cfg now settings c sweep >>= fun sweep =>
            sweepContainers docker cfg now settings rows sweep) _ _ at hrest
          obtain ⟨first, s, more, rfl, -, hmore⟩ := hrest.of_bind_some
          exact List.mem_append_right _ (List.mem_append_right _ (ih hmore))

/-- The wall clock of a tick: its answer follows the listing. -/
def TimeOf (events : List CallEvent) (now : Instant) : Prop :=
  events[1]? = some ⟨.localTime, some now⟩

/-- The tick lists the row. -/
def Listed (events : List CallEvent) (row : ContainerSummary) : Prop :=
  ∃ rows, events.head? = some ⟨.listRunning, some (.ok rows)⟩ ∧ row ∈ rows

section Tick

variable {docker : Docker} {cfg : SchedulerConfig} {settings : ResolvedSettings}
  {memory memory' : Memory} {events : List CallEvent}

/-- A visit of the tick seeds a state for the name. -/
def Seeds (docker : Docker) (cfg : SchedulerConfig) (settings : ResolvedSettings)
    (memory : Memory) (events : List CallEvent) (now : Instant) (name : String) (policy : Policy) :
    Prop :=
  ∃ row s part, TickVisit docker cfg settings memory events now row s part ∧
    containerName row = name ∧ Considered cfg settings row s policy ∧
    s.memory.states.get? name = none

/-- A visit of the tick goes on with the state: it is due, and the container can be inspected. -/
def Fires (docker : Docker) (cfg : SchedulerConfig) (settings : ResolvedSettings)
    (memory : Memory) (events : List CallEvent) (now : Instant) (name : String) (policy : Policy)
    (state : ContainerState) : Prop :=
  ∃ row s part, TickVisit docker cfg settings memory events now row s part ∧
    containerName row = name ∧ Considered cfg settings row s policy ∧
    stateFor cfg now policy name s = state ∧ due policy state now cfg.pollInterval = true ∧
    ∃ first target rest, part = first ++ rest ∧
      Produces (Probe.resolveTarget row).run first (some (.ok target))

/-- **The rule for the states of a tick.** What seeding establishes and every step preserves holds of
all states that a tick leaves. -/
theorem states_of_visits (inv : String → ContainerState → Prop)
    (h : Produces (runTick docker cfg settings memory) events (some memory'))
    (seed : ∀ now name policy, Seeds docker cfg settings memory events now name policy →
      inv name (seedState cfg.zone policy now))
    (next : ∀ now name policy state handling state', inv name state →
      (handling = .processed → Fires docker cfg settings memory events now name policy state) →
      Next cfg now policy state handling state' → inv name state')
    (start : ∀ name state, memory.states.get? name = some state → inv name state) :
    ∀ name state, memory'.states.get? name = some state → inv name state := by
  rcases produces_runTick h with ⟨-, hout⟩ | ⟨rows, now, rest, swept, rfl, hswept, hout⟩
  · rw [(hout memory' rfl).1]
    exact start
  obtain ⟨s, complete, rfl, rfl⟩ := hout memory' rfl
  have sweep := @sweep_rule docker cfg settings now
    (fun s => ∀ name state, s.memory.states.get? name = some state → inv name state) (fun _ => True)
    (fun _ => trivial) rows ⟨memory, [], []⟩ rest _ hswept
    (fun row s part out' within kept hvisit => by
      refine ⟨fun _ _ => trivial, fun s' hs' name state hstate => ?_⟩
      subst hs'
      have visited : TickVisit docker cfg settings memory _ now row s part :=
        ⟨rows, rest, rfl, within⟩
      rcases states_of_visit hvisit with ⟨-, hsame⟩ |
          ⟨policy, handling, state', considered, course, hnext, hstate', others⟩
      · rw [hsame] at hstate
        exact kept name state hstate
      · by_cases hname : name = containerName row
        · subst hname
          obtain rfl : state' = state := Option.some.inj (hstate'.symm.trans hstate)
          refine next now _ policy _ handling state' ?_ (fun hprocessed => ?_) hnext
          · unfold stateFor
            cases hbefore : s.memory.states.get? (containerName row) with
            | none => exact seed now _ policy ⟨row, s, part, visited, rfl, considered, hbefore⟩
            | some before => exact kept _ before hbefore
          · subst hprocessed
            cases course with
            | @processed first rest' target _ _ hdue hresolve _ _ =>
                exact ⟨row, s, _, visited, rfl, considered, rfl, hdue, first, target, rest', rfl,
                  hresolve⟩
        · rw [others name hname] at hstate
          exact kept name state hstate) start
  intro name state hstate
  cases complete with
  | false => exact sweep.2 (s, false) rfl name state hstate
  | true =>
      change (s.memory.states.retain s.live.contains).get? name = some state at hstate
      rw [SortedMap.get?_retain] at hstate
      split at hstate
      · exact sweep.2 (s, true) rfl name state hstate
      · cases hstate

/-- What is seeded is seeded for a listed container, by its labels. -/
theorem Seeds.row {now : Instant} {name : String} {policy : Policy}
    (h : Seeds docker cfg settings memory events now name policy) :
    ∃ row, Listed events row ∧ containerName row = name ∧ ShowsEnabled settings row policy := by
  obtain ⟨row, s, part, ⟨rows, rest, rfl, within⟩, hname, considered, -⟩ := h
  exact ⟨row, ⟨rows, rfl, within.row_mem⟩, hname, considered.parsed, considered.enabled,
    considered.mode⟩

/-- A tick that is not told to shut down sweeps all that it listed. -/
theorem swept_of_listed (h : Produces (runTick docker cfg settings memory) events (some memory'))
    (whole : ⟨.shutdownRequested, some true⟩ ∉ events) {row : ContainerSummary}
    (listed : Listed events row) :
    ∃ rows now rest sweep,
      events = ⟨.listRunning, some (.ok rows)⟩ :: ⟨.localTime, some now⟩ :: rest ∧ row ∈ rows ∧
      Produces (sweepContainers docker cfg now settings rows ⟨memory, [], []⟩) rest
        (some (sweep, true)) ∧ memory' = sweep.finish true := by
  obtain ⟨rows', hhead, hrow⟩ := listed
  rcases produces_runTick h with ⟨-, hout⟩ | ⟨rows, now, rest, swept, rfl, hswept, hout⟩
  · obtain ⟨-, e, rfl⟩ := hout memory' rfl
    cases Event.reply_inj (Option.some.inj hhead)
  obtain rfl := Except.ok.inj (Option.some.inj (Event.reply_inj (Option.some.inj hhead)))
  obtain ⟨sweep, complete, rfl, rfl⟩ := hout memory' rfl
  cases complete with
  | false =>
      exact absurd (List.mem_cons_of_mem _ (List.mem_cons_of_mem _ (shutdown_of_incomplete hswept)))
        whole
  | true => exact ⟨rows, now, rest, sweep, rfl, hrow, hswept, rfl⟩

/-- **A state is kept for a container that the tick comes to**, that is: one that is not passed by
when no state is kept for it yet. -/
theorem exists_state_of_tick (h : Produces (runTick docker cfg settings memory) events (some memory'))
    (whole : ⟨.shutdownRequested, some true⟩ ∉ events) {row : ContainerSummary} {policy : Policy}
    (listed : Listed events row) (enabled : ShowsEnabled settings row policy)
    (notArchive : isArchiveName (containerName row) = false)
    (notSelf : (policy.autoEnabled && isOwnContainer cfg.ownIdPrefix row.id) = false)
    (notClaimed : memory.states.get? (containerName row) = none → ∀ now s part,
      TickVisit docker cfg settings memory events now row s part →
      containerName row ∉ s.handled) :
    ∃ state, memory'.states.get? (containerName row) = some state := by
  obtain ⟨rows, now, rest, s, rfl, hrow, hswept, rfl⟩ := swept_of_listed h whole listed
  have hlive := live_of_complete hswept hrow notArchive enabled
  have hkept : (s.memory.states.get? (containerName row)).isSome := by
    cases hstate : memory.states.get? (containerName row) with
    | some state =>
        refine (sweep_rule (fun s => (s.memory.states.get? (containerName row)).isSome)
          (fun _ => True) (fun _ => trivial) hswept (fun c s part out' _ kept hvisit => ?_)
          (by rw [hstate]; rfl)).2 _ rfl
        refine ⟨fun _ _ => trivial, fun s' hs' => ?_⟩
        subst hs'
        exact state_kept_of_visit hvisit kept
    | none =>
        refine (sweep_establishes (fun c s => c = row →
          (s.memory.states.get? (containerName row)).isSome) hswept
          (fun c s part s' within hvisit hc => ?_)
          (fun c c' s part s' _ hvisit kept hc => state_kept_of_visit hvisit (kept hc))).1
          row hrow rfl
        subst hc
        have considered : Considered cfg settings c s policy :=
          ⟨notArchive, notClaimed hstate now s part ⟨rows, rest, rfl, within⟩, enabled.1,
            enabled.2.1, enabled.2.2, notSelf⟩
        rcases states_of_visit hvisit with ⟨passed, -⟩ | ⟨_, _, _, -, -, -, hstate', -⟩
        · exact absurd considered (passed policy)
        · rw [hstate']
          rfl
  obtain ⟨state, hstate⟩ := Option.isSome_iff_exists.mp hkept
  refine ⟨state, ?_⟩
  change (s.memory.states.retain s.live.contains).get? _ = some state
  rw [SortedMap.get?_retain, if_pos (by simpa using hlive)]
  exact hstate

/-- A visit that finished splits the sweep in two. -/
theorem VisitIn.split {now : Instant} {rows : List ContainerSummary} {sweep sweep' s s' : Sweep}
    {complete : Bool} {part : List CallEvent} {c : ContainerSummary}
    (within : VisitIn docker cfg settings now rows sweep events c s part)
    (hvisit : Produces (visit docker cfg now settings c s) part (some s'))
    (h : Produces (sweepContainers docker cfg now settings rows sweep) events
      (some (sweep', complete))) :
    ∃ before after first rest, rows = before ++ c :: after ∧
      Produces (sweepContainers docker cfg now settings before sweep) first (some (s, true)) ∧
      Produces (sweepContainers docker cfg now settings after s') rest (some (sweep', complete)) := by
  induction within with
  | @here c rows sweep part rest _ _ =>
      cases h with
      | answered _ _ _ h =>
          change Produces (visit docker cfg now settings c sweep >>= fun sweep =>
            sweepContainers docker cfg now settings rows sweep) _ _ at h
          obtain ⟨first, s'', more, hevents, hvisit', hmore⟩ := h.of_bind_some
          obtain ⟨rfl, rfl, rfl⟩ := hvisit.unique hvisit' hevents
          exact ⟨[], rows, [], rest, rfl, .done _, hmore⟩
  | @later c c' rows sweep s₁ s part₁ rest part hfirst within ih =>
      cases h with
      | answered _ _ _ h =>
          change Produces (visit docker cfg now settings c sweep >>= fun sweep =>
            sweepContainers docker cfg now settings rows sweep) _ _ at h
          obtain ⟨first, s₂, more, hevents, hvisit', hmore⟩ := h.of_bind_some
          obtain ⟨rfl, rfl, rfl⟩ := hfirst.unique hvisit' hevents
          obtain ⟨before, after, first, last, rfl, hbefore, hafter⟩ := ih hvisit hmore
          have hstep : Produces (sweepContainers docker cfg now settings (c :: before) sweep)
              (⟨.shutdownRequested, some false⟩ :: (part₁ ++ first)) (some (s, true)) := by
            refine (@Produces.request Call Call.Reply .shutdownRequested false).bind ?_
            exact hfirst.bind hbefore
          exact ⟨c :: before, after, _, last, rfl, hstep, hafter⟩

/-- **The rule for what follows a visit.** What the finished visit leaves, and what every visit of
the sweep preserves, holds at the end of the sweep. -/
theorem VisitIn.rule_after (inv : Sweep → Prop) {now : Instant} {rows : List ContainerSummary}
    {sweep sweep' s s' : Sweep} {complete : Bool} {part : List CallEvent} {c : ContainerSummary}
    (within : VisitIn docker cfg settings now rows sweep events c s part)
    (hvisit : Produces (visit docker cfg now settings c s) part (some s'))
    (h : Produces (sweepContainers docker cfg now settings rows sweep) events
      (some (sweep', complete)))
    (step : ∀ c₂ s₂ part₂ s₃, VisitIn docker cfg settings now rows sweep events c₂ s₂ part₂ →
      inv s₂ → Produces (visit docker cfg now settings c₂ s₂) part₂ (some s₃) → inv s₃)
    (start : inv s') : inv sweep' := by
  induction within with
  | @here c rows sweep part rest _ _ =>
      cases h with
      | answered _ _ _ h =>
          have hmore := Produces.after (k := fun s => sweepContainers docker cfg now settings rows s)
            h hvisit
          refine (sweep_rule inv (fun _ => True) (fun _ => trivial) hmore
            (fun c₂ s₂ part₂ out within₂ kept h₂ => ⟨fun _ _ => trivial, fun s₃ hs₃ => ?_⟩)
            start).2 _ rfl
          subst hs₃
          exact step c₂ s₂ part₂ s₃ (.later hvisit within₂) kept h₂
  | @later c c' rows sweep s₁ s part₁ rest part hfirst within ih =>
      cases h with
      | answered _ _ _ h =>
          have hmore := Produces.after (k := fun s => sweepContainers docker cfg now settings rows s)
            h hfirst
          exact ih hvisit hmore fun c₂ s₂ part₂ s₃ within₂ => step c₂ s₂ part₂ s₃
            (.later hfirst within₂)

/-- A sweep does not touch the states of the containers that it does not visit. -/
theorem state_of_sweep {now : Instant} {rows : List ContainerSummary} {sweep sweep' : Sweep}
    {complete : Bool} {name : String} (other : ∀ row ∈ rows, containerName row ≠ name)
    (h : Produces (sweepContainers docker cfg now settings rows sweep) events
      (some (sweep', complete))) :
    sweep'.memory.states.get? name = sweep.memory.states.get? name :=
  (sweep_rule (fun s => s.memory.states.get? name = sweep.memory.states.get? name)
    (fun _ => True) (fun _ => trivial) h (fun row s part out' within hsame hvisit => by
      refine ⟨fun _ _ => trivial, fun s' hs' => ?_⟩
      subst hs'
      rw [otherStates_of_visit hvisit name (other row within.row_mem).symm, hsame]) rfl).2 _ rfl

end Tick

end Freshdock.Scheduler
