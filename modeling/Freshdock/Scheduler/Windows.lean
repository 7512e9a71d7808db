import Freshdock.Cron.Matches
import Freshdock.Scheduler.Fleet

/-!
# Windows

A container in a calendar mode fires once for each window, that is: at the first tick at or after a
match of its schedule, and not again until the next match. The scheduler keeps the next fire of the
container; its meaning is the least match since the container was processed last, or was seeded.

**Histories.** A history is a sequence of ticks that all visit the container, each with its time and
with what it did with the container: the container was not due, could not be inspected, or was
processed (`Handles`, `exists_handles`). With a fixed offset the history of a container determines
when it is due (`fires_once_per_window`).
-/

set_option autoImplicit false

namespace Freshdock.Scheduler

open Interaction Docker SelfId
open Labels (Policy)
open Cron (CronExpr Instant Zone HasMatch IsMatch)

/-! ## What a tick did with a container -/

/-- The tick visited the container, which has this policy, and its visit took this course. -/
def Handles (docker : Docker) (cfg : SchedulerConfig) (settings : ResolvedSettings) (name : String)
    (policy : Policy) (memory : Memory) (events : List CallEvent) (now : Instant)
    (handling : Handling) : Prop :=
  ∃ row s part s', TickVisit docker cfg settings memory events now row s part ∧
    containerName row = name ∧ Produces (visit docker cfg now settings row s) part (some s') ∧
    Considered cfg settings row s policy ∧
    Course docker cfg now settings row s policy handling part (some s')

/-- The tick is listed no name twice. -/
def NamesOnce (events : List CallEvent) : Prop :=
  ∀ rows, events.head? = some ⟨.listRunning, some (.ok rows)⟩ → (rows.map containerName).Nodup

section Tick

variable {docker : Docker} {cfg : SchedulerConfig} {settings : ResolvedSettings} {name : String}
  {policy : Policy} {memory memory' : Memory} {events : List CallEvent} {now : Instant}
  {handling : Handling}

/-- A sweep that visited all visited each. -/
theorem exists_visit_of_sweep {rows : List ContainerSummary} {sweep sweep' : Sweep}
    (h : Produces (sweepContainers docker cfg now settings rows sweep) events (some (sweep', true)))
    {row : ContainerSummary} (hrow : row ∈ rows) :
    ∃ s part s', VisitIn docker cfg settings now rows sweep events row s part ∧
      Produces (visit docker cfg now settings row s) part (some s') := by
  induction rows generalizing sweep events with
  | nil => cases hrow
  | cons c rows ih =>
      obtain ⟨asked, stopping, rest, rfl, hasked, hrest⟩ := h.of_bind_some
      obtain rfl := hasked.of_request
      cases stopping with
      | true =>
          obtain ⟨-, hout⟩ := hrest.of_done
          cases hout
      | false =>
          change Produces (visit docker cfg now settings c sweep >>= fun sweep =>
            sweepContainers docker cfg now settings rows sweep) _ _ at hrest
          obtain ⟨first, s₁, more, rfl, hvisit, hmore⟩ := hrest.of_bind_some
          rw [List.singleton_append, ← List.cons_append]
          rcases List.mem_cons.mp hrow with rfl | hrow
          · exact ⟨sweep, first, s₁, .here hvisit, hvisit⟩
          · obtain ⟨s, part, s', within, hvisit'⟩ := ih hmore hrow
            exact ⟨s, part, s', .later hvisit within, hvisit'⟩

/-- **A tick that comes to a container handles it**: it waits, is not inspected, or is processed. -/
theorem exists_handles (h : Produces (runTick docker cfg settings memory) events (some memory'))
    (whole : ⟨.shutdownRequested, some true⟩ ∉ events) {row : ContainerSummary}
    (listed : Listed events row) (named : containerName row = name)
    (considered : ∀ now s part, TickVisit docker cfg settings memory events now row s part →
      Considered cfg settings row s policy) :
    ∃ now handling, TimeOf events now ∧
      Handles docker cfg settings name policy memory events now handling := by
  obtain ⟨rows, now, rest, sweep, rfl, hrow, hswept, rfl⟩ := swept_of_listed h whole listed
  obtain ⟨s, part, s', within, hvisit⟩ := exists_visit_of_sweep hswept hrow
  have visited : TickVisit docker cfg settings memory _ now row s part :=
    ⟨_, rest, rfl, within⟩
  have hconsidered := considered now s part visited
  rcases produces_visit hvisit with ⟨passed, -⟩ | ⟨policy', handling, considered', course⟩
  · exact absurd hconsidered (passed policy)
  · obtain rfl : policy = policy' := Except.ok.inj (hconsidered.parsed.symm.trans considered'.parsed)
    exact ⟨now, handling, rfl, row, s, part, s', visited, named, hvisit, hconsidered, course⟩

/-- **The state of a container that was handled is the next one.** -/
theorem next_of_handles (h : Produces (runTick docker cfg settings memory) events (some memory'))
    (once : NamesOnce events)
    (handles : Handles docker cfg settings name policy memory events now handling) :
    ∃ state', Next cfg now policy
        ((memory.states.get? name).getD (seedState cfg.zone policy now)) handling state' ∧
      memory'.states.get? name = some state' := by
  obtain ⟨row, s, part, s', ⟨rows, rest, rfl, within⟩, rfl, hvisit, considered, course⟩ := handles
  obtain ⟨sweep, complete, hswept, rfl⟩ := swept_of_runTick h
  obtain ⟨before, after, first, last, rfl, hbefore, hafter⟩ := within.split hvisit hswept
  have hnames := once _ rfl
  rw [List.map_append, List.map_cons, List.nodup_append] at hnames
  have hstart : s.memory.states.get? (containerName row) =
      memory.states.get? (containerName row) :=
    state_of_sweep (fun row' hrow' hname => hnames.2.2 _ (List.mem_map_of_mem hrow') _
      List.mem_cons_self hname) hbefore
  have hend : sweep.memory.states.get? (containerName row) =
      s'.memory.states.get? (containerName row) :=
    state_of_sweep (fun row' hrow' hname => (List.nodup_cons.mp hnames.2.1).1
      (hname ▸ List.mem_map_of_mem hrow')) hafter
  obtain ⟨⟨state', next, hstate⟩, -⟩ := next_of_course course
  unfold stateFor at next
  rw [hstart] at next
  refine ⟨state', next, ?_⟩
  have hkept := hend.trans hstate
  cases complete with
  | false => exact hkept
  | true =>
      have hlive := live_of_complete hswept (c := row) (by simp) considered.notArchive
        ⟨considered.parsed, considered.enabled, considered.mode⟩
      change (sweep.memory.states.retain sweep.live.contains).get? _ = some state'
      rw [SortedMap.get?_retain, if_pos (by simpa using hlive)]
      exact hkept

end Tick

/-! ## Histories -/

/-- Ticks that all visit the container, each with its time and with what it did. They begin with
no state for the container. -/
inductive History (docker : Docker) (cfg : SchedulerConfig) (settings : ResolvedSettings)
    (name : String) (policy : Policy) : List (Int × Handling) → Memory → Prop where
  | start {memory : Memory} : memory.states.get? name = none →
      History docker cfg settings name policy [] memory
  | tick {past : List (Int × Handling)} {memory memory' : Memory} {events : List CallEvent}
      {now : Int} {handling : Handling} :
      History docker cfg settings name policy past memory →
      Produces (runTick docker cfg settings memory) events (some memory') → NamesOnce events →
      Handles docker cfg settings name policy memory events now handling →
      History docker cfg settings name policy (past ++ [(now, handling)]) memory'

/-- The time of a tick that the windows are counted from: the last that processed the container, or
the first. -/
def countedFrom : Option Int → Int × Handling → Option Int
  | none, (now, _) => some now
  | some _, (now, .processed) => some now
  | some since, _ => some since

/-- The last tick that processed the container, or the first. -/
def lastFired (past : List (Int × Handling)) : Option Int := past.foldl countedFrom none

theorem lastFired_append (past : List (Int × Handling)) (tick : Int × Handling) :
    lastFired (past ++ [tick]) = countedFrom (lastFired past) tick := by
  simp [lastFired, List.foldl_append]

theorem lastFired_eq_none {past : List (Int × Handling)} : lastFired past = none ↔ past = [] := by
  rcases List.eq_nil_or_concat past with rfl | ⟨past, ⟨now, handling⟩, rfl⟩
  · simp [lastFired]
  · rw [List.concat_eq_append, lastFired_append]
    cases lastFired past <;> cases handling <;> simp [countedFrom]

section Windows

variable {docker : Docker} {cfg : SchedulerConfig} {settings : ResolvedSettings} {name : String}
  {policy : Policy} {e : CronExpr}

/-- A history up to a tick, and the tick. -/
theorem History.split {before after : List (Int × Handling)} {tick : Int × Handling}
    {memory : Memory}
    (h : History docker cfg settings name policy (before ++ tick :: after) memory) :
    ∃ memory₀ memory₁ events, History docker cfg settings name policy before memory₀ ∧
      Produces (runTick docker cfg settings memory₀) events (some memory₁) ∧ NamesOnce events ∧
      Handles docker cfg settings name policy memory₀ events tick.1 tick.2 := by
  generalize hpast : before ++ tick :: after = past at h
  induction h generalizing after with
  | start _ => exact absurd hpast (by simp)
  | @tick past memory memory' events now handling h htick once handles ih =>
      rcases List.eq_nil_or_concat after with rfl | ⟨after, last, rfl⟩
      · obtain ⟨rfl, htick'⟩ := List.append_inj' hpast rfl
        cases htick'
        exact ⟨memory, memory', events, h, htick, once, handles⟩
      · rw [List.concat_eq_append, ← List.cons_append, ← List.append_assoc] at hpast
        exact ih (List.append_inj' hpast rfl).1

/-! ### Calendar modes -/

theorem isCronMode_of_schedule (schedule : cronFor policy = some e) :
    isCronMode policy.mode = true := by
  unfold cronFor at schedule
  split at schedule
  · assumption
  · cases schedule

theorem due_of_schedule (schedule : cronFor policy = some e) {state : ContainerState} {f now : Int}
    (hfire : state.nextFire = some f) {poll : Duration} :
    due policy state now poll = true ↔ f ≤ now := by
  have hmode := isCronMode_of_schedule schedule
  unfold due
  cases hpolicy : policy.mode with
  | live | watch | off =>
      rw [hpolicy] at hmode
      cases hmode
  | nightly | weekly | monthly =>
      simp only [hfire]
      exact decide_eq_true_iff

theorem advance_of_schedule (schedule : cronFor policy = some e) {zone : Zone} {now : Int}
    {state : ContainerState} :
    advance zone policy now state =
      { state with nextFire := state.cron.bind fun e => e.nextAfter zone now } := by
  have hmode := isCronMode_of_schedule schedule
  unfold advance
  cases hpolicy : policy.mode with
  | live | watch | off =>
      rw [hpolicy] at hmode
      cases hmode
  | nightly | weekly | monthly => rfl

theorem inspectFailed_of_schedule (schedule : cronFor policy = some e) {now : Int}
    {state : ContainerState} : inspectFailed policy now state = state := by
  have hmode := isCronMode_of_schedule schedule
  unfold inspectFailed
  cases hpolicy : policy.mode with
  | live | watch | off =>
      rw [hpolicy] at hmode
      cases hmode
  | nightly | weekly | monthly => rfl

/-! ### The next fire -/

/-- The state has the schedule, and its next fire is the least match after `since`. -/
def NextSince (zone : Zone) (e : CronExpr) (since : Int) (state : ContainerState) : Prop :=
  state.cron = some e ∧ ∃ f : Int, state.nextFire = some f ∧
    IsLeast {m | IsMatch e zone m ∧ since < m} f

/-- The state that a history leaves: the next fire is counted from the last one. -/
def Waiting (zone : Zone) (e : CronExpr) (past : List (Int × Handling))
    (state : Option ContainerState) : Prop :=
  (lastFired past = none ∧ state = none) ∨
    ∃ since state', lastFired past = some since ∧ state = some state' ∧ NextSince zone e since state'

/-- The next match after `now` is found, and is the next fire counted from `now`. -/
theorem nextSince_now (fixed : cfg.zone.Fixed) {now : Int} (matched : HasMatch e cfg.zone now)
    {state : ContainerState} (hcron : state.cron = some e)
    (hfire : state.nextFire = e.nextAfter cfg.zone now) : NextSince cfg.zone e now state := by
  obtain ⟨f, hf⟩ := Option.isSome_iff_exists.mp (Cron.nextAfter_isSome_iff.mpr
    ⟨_, Cron.floorsTo_of_fixed fixed now, matched⟩)
  exact ⟨hcron, f, hfire.trans hf, Cron.nextAfter_isLeast fixed hf⟩

/-- A state is due exactly when a match has passed since the time that its next fire is counted
from. -/
theorem due_iff_match (schedule : cronFor policy = some e) {zone : Zone} {since now : Int}
    {state : ContainerState} (next : NextSince zone e since state) {poll : Duration} :
    due policy state now poll = true ↔ ∃ m : Int, IsMatch e zone m ∧ since < m ∧ m ≤ now := by
  obtain ⟨-, f, hfire, ⟨hmatch, hafter⟩, hleast⟩ := next
  rw [due_of_schedule schedule hfire]
  constructor
  · intro hle
    exact ⟨f, hmatch, hafter, hle⟩
  · rintro ⟨m, hm, hsince, hle⟩
    exact le_trans (hleast ⟨hm, hsince⟩) hle

/-- **What a tick does with the container, and the state that it leaves.** -/
theorem waiting_next (fixed : cfg.zone.Fixed) (schedule : cronFor policy = some e) {now : Int}
    (matched : HasMatch e cfg.zone now) {past : List (Int × Handling)}
    {state : Option ContainerState} {state' : ContainerState} {handling : Handling}
    (waiting : Waiting cfg.zone e past state)
    (next : Next cfg now policy (state.getD (seedState cfg.zone policy now)) handling state') :
    Waiting cfg.zone e (past ++ [(now, handling)]) (some state') ∧
      (lastFired past = none → handling = .waited) ∧
      ∀ since, lastFired past = some since →
        (handling ≠ .waited ↔ ∃ m : Int, IsMatch e cfg.zone m ∧ since < m ∧ m ≤ now) := by
  unfold Waiting
  rw [lastFired_append]
  rcases waiting with ⟨hnone, rfl⟩ | ⟨since, state, hsince, rfl, hnext⟩
  · -- the state is seeded, and its next fire is after `now`
    have seeded : NextSince cfg.zone e now (seedState cfg.zone policy now) := by
      refine nextSince_now fixed matched schedule ?_
      change (cronFor policy).bind _ = _
      rw [schedule]
      rfl
    have notDue : due policy (seedState cfg.zone policy now) now cfg.pollInterval ≠ true := by
      rw [Ne, due_iff_match schedule seeded]
      rintro ⟨m, -, hafter, hle⟩
      omega
    cases next with
    | waited _ =>
        refine ⟨.inr ⟨now, _, by rw [hnone]; rfl, rfl, seeded⟩, fun _ => rfl, fun since hsince => ?_⟩
        cases hnone.symm.trans hsince
    | notInspected hdue => exact absurd hdue notDue
    | processed _ hdue => exact absurd hdue notDue
  · rw [hsince]
    have hdue := @due_iff_match policy e schedule cfg.zone since now state hnext cfg.pollInterval
    cases next with
    | waited hwaited =>
        refine ⟨.inr ⟨since, state, rfl, rfl, hnext⟩, nofun, fun since' hsince' => ?_⟩
        obtain rfl := Option.some.inj hsince'
        rw [← hdue, show due policy state now cfg.pollInterval = false from hwaited]
        simp
    | notInspected hready =>
        refine ⟨.inr ⟨since, _, rfl, rfl, ?_⟩, nofun, fun since' hsince' => ?_⟩
        · rw [inspectFailed_of_schedule schedule]
          exact hnext
        · obtain rfl := Option.some.inj hsince'
          exact iff_of_true nofun (hdue.mp hready)
    | processed notified hready =>
        refine ⟨.inr ⟨now, _, rfl, rfl, ?_⟩, nofun, fun since' hsince' => ?_⟩
        · rw [advance_of_schedule schedule]
          refine nextSince_now fixed matched hnext.1 ?_
          change state.cron.bind _ = _
          rw [hnext.1]
          rfl
        · obtain rfl := Option.some.inj hsince'
          exact iff_of_true nofun (hdue.mp hready)

/-- Along a history the next fire is counted from the last one. -/
theorem waiting_of_history (fixed : cfg.zone.Fixed) (schedule : cronFor policy = some e)
    {past : List (Int × Handling)} {memory : Memory}
    (h : History docker cfg settings name policy past memory)
    (matched : ∀ tick ∈ past, HasMatch e cfg.zone tick.1) :
    Waiting cfg.zone e past (memory.states.get? name) := by
  induction h with
  | start hnone => exact .inl ⟨rfl, hnone⟩
  | @tick past memory memory' events now handling h htick once handles ih =>
      obtain ⟨state', next, hstate⟩ := next_of_handles htick once handles
      rw [hstate]
      exact (waiting_next fixed schedule (matched (now, handling) (by simp))
        (ih fun tick htick => matched tick (List.mem_append_left _ htick)) next).1

/-- When a tick of a history finds the container due. -/
theorem due_at (fixed : cfg.zone.Fixed) (schedule : cronFor policy = some e)
    {before after : List (Int × Handling)} {now : Int} {handling : Handling} {memory : Memory}
    (history : History docker cfg settings name policy (before ++ (now, handling) :: after) memory)
    (matched : ∀ tick ∈ before ++ (now, handling) :: after, HasMatch e cfg.zone tick.1) :
    (lastFired before = none → handling = .waited) ∧
      ∀ since, lastFired before = some since →
        (handling ≠ .waited ↔ ∃ m : Int, IsMatch e cfg.zone m ∧ since < m ∧ m ≤ now) := by
  obtain ⟨memory₀, memory₁, events, hbefore, htick, once, handles⟩ := history.split
  obtain ⟨state', next, -⟩ := next_of_handles htick once handles
  exact (waiting_next fixed schedule (matched (now, handling) (by simp))
    (waiting_of_history fixed schedule hbefore fun tick htick =>
      matched tick (List.mem_append_left _ htick)) next).2

/-- **A calendar container fires once for each window that passed**: it waits at the first tick, it
is processed at a later one exactly when a match has passed since it was processed last, and a
window whose inspect failed is still open at the next tick. -/
theorem fires_once_per_window (fixed : cfg.zone.Fixed) (schedule : cronFor policy = some e)
    {past : List (Int × Handling)} {memory : Memory}
    (history : History docker cfg settings name policy past memory)
    (matched : ∀ tick ∈ past, HasMatch e cfg.zone tick.1)
    (nondecreasing : (past.map Prod.fst).Pairwise (· ≤ ·)) {before after : List (Int × Handling)}
    {now : Int} {handling : Handling} (place : past = before ++ (now, handling) :: after) :
    (before = [] → handling = .waited) ∧
    (∀ since, lastFired before = some since → handling ≠ .notInspected →
      (handling = .processed ↔ ∃ m : Int, IsMatch e cfg.zone m ∧ since < m ∧ m ≤ now)) ∧
    (handling = .notInspected → ∀ now' handling' after', after = (now', handling') :: after' →
      handling' ≠ .waited) := by
  subst place
  obtain ⟨first, later⟩ := due_at fixed schedule history matched
  refine ⟨fun hbefore => first (lastFired_eq_none.mpr hbefore), fun since hsince inspected => ?_, ?_⟩
  · rw [← later since hsince]
    cases handling with
    | waited => simp
    | notInspected => exact absurd rfl inspected
    | processed => simp
  · rintro rfl now' handling' after' rfl
    cases hsince : lastFired before with
    | none => cases first hsince
    | some since =>
        obtain ⟨m, hmatch, hafter, hle⟩ := (later since hsince).mp nofun
        -- the window is still counted from `since`, and the next tick is not before this one
        have hpending : lastFired (before ++ [(now, Handling.notInspected)]) = some since := by
          rw [lastFired_append, hsince]
          rfl
        have hnow : now ≤ now' := by
          rw [List.map_append, List.map_cons, List.map_cons, List.pairwise_append] at nondecreasing
          exact List.rel_of_pairwise_cons nondecreasing.2.1 List.mem_cons_self
        rw [← List.singleton_append, ← List.append_assoc] at history matched
        exact ((due_at fixed schedule history matched).2 since hpending).mpr
          ⟨m, hmatch, hafter, hle.trans hnow⟩

end Windows

/-! A container that is updated at four, with ticks at midnight and at five. -/

def five : Int := 5 * Cron.nanosPerHour

/-- A tick of the fleet handles the container. -/
theorem webFleet_handles (time : Int) (memory : Memory)
    (finished : ((webFleet "nightly" time).tick stackDocker stackConfig .default memory).out.isSome =
      true) :
    ∃ handling, Handles stackDocker stackConfig .default "web" webPolicy memory
      ((webFleet "nightly" time).tick stackDocker stackConfig .default memory).trace time handling := by
  obtain ⟨now, handling, htime, handles⟩ := exists_handles (Fleet.produces_after finished)
    Fleet.no_shutdown
    (show Listed _ (memberRow "web" "nightly") from ⟨_, rfl, List.mem_cons_self⟩) rfl
    (fun now s part within => by
      rw [(Fleet.visit_of_single rfl within).2]
      exact ⟨by decide, List.not_mem_nil, webPolicy_parsed, rfl, nofun, rfl⟩)
  rw [Fleet.time_of_tick htime] at handles
  exact ⟨handling, handles⟩

theorem fires_once_per_window_web : ∃ first second memory,
    History stackDocker stackConfig .default "web" webPolicy [(0, first), (five, second)] memory ∧
      first = .waited ∧ (second ≠ .notInspected → second = .processed) := by
  have once (time : Int) (memory : Memory) : NamesOnce
      ((webFleet "nightly" time).tick stackDocker stackConfig .default memory).trace := by
    intro rows hrows
    rw [Fleet.rows_of_tick hrows]
    exact List.nodup_singleton _
  obtain ⟨first, hfirst⟩ := webFleet_handles 0 .empty (by decide +kernel)
  obtain ⟨second, hsecond⟩ := webFleet_handles five
    ((webFleet "nightly" 0).after stackDocker stackConfig .default .empty) (by decide +kernel)
  have history := ((History.start rfl).tick (Fleet.produces_after (by decide +kernel)) (once _ _)
    hfirst).tick (Fleet.produces_after (by decide +kernel)) (once _ _) hsecond
  have atMidnight : HasMatch nightly Zone.utc 0 := ⟨239, by decide, by decide +kernel⟩
  have atFive : HasMatch nightly Zone.utc five := ⟨1379, by decide, by decide +kernel⟩
  have matched : ∀ tick ∈ [] ++ [(0, first)] ++ [(five, second)],
      HasMatch nightly stackConfig.zone tick.1 := by
    intro tick htick
    rcases List.mem_cons.mp htick with rfl | htick
    · exact atMidnight
    · obtain rfl := List.mem_singleton.mp htick
      exact atFive
  have ordered : (([] ++ [(0, first)] ++ [(five, second)] : List (Int × Handling)).map
      Prod.fst).Pairwise (· ≤ ·) := by
    change List.Pairwise (· ≤ ·) [0, five]
    decide
  have atFirst := fires_once_per_window (fun _ _ => rfl) webPolicy_schedule history matched ordered
    (show _ = [] ++ (0, first) :: [(five, second)] from rfl)
  have atSecond := fires_once_per_window (fun _ _ => rfl) webPolicy_schedule history matched ordered
    (show _ = [(0, first)] ++ (five, second) :: [] from rfl)
  refine ⟨first, second, _, history, atFirst.1 rfl, fun inspected => ?_⟩
  refine (atSecond.2.1 0 rfl inspected).mpr ⟨4 * Cron.nanosPerHour, ?_, by decide, by decide⟩
  exact ⟨by decide, by decide +kernel⟩

end Freshdock.Scheduler
