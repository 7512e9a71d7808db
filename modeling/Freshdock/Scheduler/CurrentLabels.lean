import Freshdock.Scheduler.Silent

/-!
# Schedules and current labels

The labels of a container are read in every tick, its schedule only once: the state is seeded when
the container is first seen, and keeps the schedule until the container is no longer listed. When
the labels change the mode or the schedule meanwhile, the state does not follow. As long as the
schedule that is kept is the one that the labels give, it is the one the container fires on
(`follows_labels`).
-/

set_option autoImplicit false

namespace Freshdock.Scheduler

open Interaction Docker SelfId
open Labels (Policy)
open Cron (CronExpr Instant Zone HasMatch Findable nanosPerHour)

/-- The tick lists a container of this name, enabled with this policy. -/
def ListsEnabled (settings : ResolvedSettings) (name : String) (events : List CallEvent)
    (row : ContainerSummary) (policy : Policy) : Prop :=
  Listed events row ∧ containerName row = name ∧ ShowsEnabled settings row policy

/-- The state has the schedule, and a match of it as its next fire. -/
def Scheduled (zone : Zone) (e : CronExpr) (state : ContainerState) : Prop :=
  state.cron = some e ∧ ∃ f : Instant, state.nextFire = some f ∧ e.matchesLocal (zone.local f) = true

/-- **Schedule states follow the labels**: while a container of this name stays
listed, a tick that lists it enabled with a schedule that has a match leaves it scheduled. -/
def FollowsLabels (docker : Docker) (cfg : SchedulerConfig) (settings : ResolvedSettings)
    (name : String) : Prop :=
  ∀ memory memory' events,
    Reaches docker cfg settings (fun _ events => ∃ row, Listed events row ∧ containerName row = name)
      .empty memory →
    Produces (runTick docker cfg settings memory) events (some memory') →
    ∀ row policy e now, ListsEnabled settings name events row policy → cronFor policy = some e →
      TimeOf events now → HasMatch e cfg.zone now →
      ∃ state, memory'.states.get? name = some state ∧ Scheduled cfg.zone e state

/-- A tick in which the schedule that is kept is the one that the labels give. -/
structure KeepsUp (docker : Docker) (cfg : SchedulerConfig) (settings : ResolvedSettings)
    (name : String) (memory : Memory) (events : List CallEvent) : Prop where
  /-- A next match that is asked for can be found. -/
  found : ∀ now e, Searches docker cfg settings memory events now name e → Findable e cfg.zone now
  /-- The state was seeded for the schedule of the labels. -/
  current : ∀ row policy e state, ListsEnabled settings name events row policy →
    cronFor policy = some e → memory.states.get? name = some state → state.cron = some e

/-- A tick that comes to the container: it is not shut down, the name is not listed twice, and the
container is not passed by as an archive, as freshdock itself, or as one that a rollout claimed
before its state was seeded. -/
structure ComesTo (docker : Docker) (cfg : SchedulerConfig) (settings : ResolvedSettings)
    (name : String) (memory : Memory) (events : List CallEvent) : Prop where
  whole : ⟨.shutdownRequested, some true⟩ ∉ events
  once : ∀ row policy row' policy', ListsEnabled settings name events row policy →
    ListsEnabled settings name events row' policy' → row = row'
  notArchive : isArchiveName name = false
  notSelf : ∀ row policy, ListsEnabled settings name events row policy →
    (policy.autoEnabled && isOwnContainer cfg.ownIdPrefix row.id) = false
  notClaimed : memory.states.get? name = none → ∀ now row s part,
    TickVisit docker cfg settings memory events now row s part → containerName row = name →
    name ∉ s.handled

/-! ## States with a next fire -/

/-- The schedule of the state, if it has one, has a next fire that is a match. -/
def Armed (zone : Zone) (state : ContainerState) : Prop :=
  ∀ e, state.cron = some e → Scheduled zone e state

section Step

variable {cfg : SchedulerConfig} {settings : ResolvedSettings} {name : String} {e : CronExpr}
  {now : Instant} {policy : Policy}

theorem scheduled_of_next {state : ContainerState} (hcron : state.cron = some e)
    (hfire : state.nextFire = e.nextAfter cfg.zone now) (found : Findable e cfg.zone now) :
    Scheduled cfg.zone e state := by
  obtain ⟨f, hf⟩ := Option.isSome_iff_exists.mp (Cron.nextAfter_isSome_iff.mpr found)
  exact ⟨hcron, f, hfire.trans hf, Cron.matches_of_nextAfter hf⟩

theorem armed_seed (found : ∀ e, cronFor policy = some e → Findable e cfg.zone now) :
    Armed cfg.zone (seedState cfg.zone policy now) := by
  intro e hcron
  refine scheduled_of_next hcron ?_ (found e hcron)
  change (cronFor policy).bind _ = _
  rw [show cronFor policy = some e from hcron]
  rfl

theorem armed_next {state state' : ContainerState} {handling : Handling}
    (found : ∀ e, handling = .processed → isCronMode policy.mode = true → state.cron = some e →
      Findable e cfg.zone now) (armed : Armed cfg.zone state)
    (h : Next cfg now policy state handling state') : Armed cfg.zone state' := by
  intro e hcron
  have hkept : state.cron = some e := h.cron.symm.trans hcron
  have scheduled := armed e hkept
  cases h with
  | waited _ => exact scheduled
  | notInspected _ =>
      unfold inspectFailed
      split <;> exact scheduled
  | processed notified _ =>
      unfold advance
      cases hmode : policy.mode with
      | live | watch | off => exact scheduled
      | nightly | weekly | monthly =>
          refine scheduled_of_next hkept ?_ (found e rfl (by rw [hmode]; rfl) hkept)
          change state.cron.bind _ = _
          rw [hkept]
          rfl

end Step

/-! ## Ticks -/

section Tick

variable {docker : Docker} {cfg : SchedulerConfig} {settings : ResolvedSettings} {name : String}
  {memory memory' : Memory} {events : List CallEvent}

/-- A tick leaves the state of the container armed. -/
theorem armed_of_tick (keeps : KeepsUp docker cfg settings name memory events)
    (h : Produces (runTick docker cfg settings memory) events (some memory'))
    (armed : ∀ state, memory.states.get? name = some state → Armed cfg.zone state) :
    ∀ state, memory'.states.get? name = some state → Armed cfg.zone state := by
  intro state hstate
  refine states_of_visits (fun name' state => name' = name → Armed cfg.zone state) h ?seed ?next
    ?start name state hstate rfl
  case seed =>
    intro now name' policy seeds hname
    subst hname
    exact armed_seed fun e hcron => keeps.found now e (.seeded seeds hcron)
  case next =>
    intro now name' policy state handling state' kept fires hnext hname
    subst hname
    exact armed_next (fun e hprocessed hmode hcron =>
      keeps.found now e (.fired (fires hprocessed) hmode hcron)) (kept rfl) hnext
  case start =>
    intro name' state hkept hname
    subst hname
    exact armed state hkept

theorem armed_of_reaches
    (ticks : Reaches docker cfg settings (KeepsUp docker cfg settings name) .empty memory) :
    ∀ state, memory.states.get? name = some state → Armed cfg.zone state := by
  induction ticks with
  | refl => exact fun state hstate => by cases hstate
  | tail _ tick ih =>
      obtain ⟨events, htick, keeps⟩ := tick
      exact armed_of_tick keeps htick ih

/-- **The state of a container follows its labels, in runs whose ticks keep up with them.** -/
theorem follows_labels
    (ticks : Reaches docker cfg settings (KeepsUp docker cfg settings name) .empty memory)
    (h : Produces (runTick docker cfg settings memory) events (some memory'))
    (keeps : KeepsUp docker cfg settings name memory events)
    (comes : ComesTo docker cfg settings name memory events) {row : ContainerSummary}
    {policy : Policy} {e : CronExpr} (lists : ListsEnabled settings name events row policy)
    (schedule : cronFor policy = some e) :
    ∃ state, memory'.states.get? name = some state ∧ Scheduled cfg.zone e state := by
  have armed := armed_of_tick keeps h (armed_of_reaches ticks)
  have hcron : ∀ name' state, memory'.states.get? name' = some state → name' = name →
      state.cron = some e := by
    refine states_of_visits _ h ?seed (fun _ _ _ _ _ _ kept _ hnext hname =>
      hnext.cron.trans (kept hname)) ?start
    case seed =>
      intro now name' policy' seeds hname
      subst hname
      obtain ⟨row', listed, hname, enabled⟩ := seeds.row
      obtain rfl := comes.once row policy row' policy' lists ⟨listed, hname, enabled⟩
      obtain rfl : policy = policy' := Except.ok.inj (lists.2.2.1.symm.trans enabled.1)
      exact schedule
    case start =>
      intro name' state hstate hname
      subst hname
      exact keeps.current row policy e state lists schedule hstate
  obtain ⟨listed, rfl, enabled⟩ := lists
  obtain ⟨state, hstate⟩ := exists_state_of_tick h comes.whole listed enabled comes.notArchive
    (comes.notSelf row policy ⟨listed, rfl, enabled⟩)
    fun hnone now s part within => comes.notClaimed hnone now row s part within rfl
  exact ⟨state, hstate, armed state hstate e (hcron _ state hstate rfl)⟩

end Tick

/-! The labels of `web` change its mode from live to nightly. -/

/-- What the first tick leaves, in which `web` is updated at once. -/
def afterLive : Memory := (webFleet "live" 0).after stackDocker stackConfig .default .empty

theorem listsEnabled_web {mode : String} {time : Int} {memory : Memory} {row : ContainerSummary}
    {policy : Policy} (h : ListsEnabled .default "web"
      ((webFleet mode time).tick stackDocker stackConfig .default memory).trace row policy) :
    row = memberRow "web" mode := by
  obtain ⟨⟨rows, hhead, hrow⟩, -⟩ := h
  rw [Fleet.rows_of_tick hhead] at hrow
  exact List.mem_singleton.mp hrow

/-- The state was seeded without a schedule, and keeps none. -/
theorem not_followsLabels : ¬ FollowsLabels stackDocker stackConfig .default "web" := by
  intro follows
  have listed (mode : String) (time : Int) (memory : Memory) :
      Listed ((webFleet mode time).tick stackDocker stackConfig .default memory).trace
        (memberRow "web" mode) :=
    ⟨_, rfl, List.mem_cons_self⟩
  have first : Reaches stackDocker stackConfig .default
      (fun _ events => ∃ row, Listed events row ∧ containerName row = "web") .empty afterLive :=
    .single ⟨_, Fleet.produces_after (by decide +kernel), _, listed _ _ _, rfl⟩
  obtain ⟨state, hstate, hcron, -⟩ := follows afterLive _ _ first
    (@Fleet.produces_after (webFleet "nightly" 60000000000) _ _ _ _ (by decide +kernel))
    (memberRow "web" "nightly") _ nightly 60000000000 ⟨listed _ _ _, rfl, rfl, rfl, nofun⟩
    (by decide +kernel) rfl ⟨238, by decide, by decide +kernel⟩
  have hnone : (((webFleet "nightly" 60000000000).after stackDocker stackConfig .default
      afterLive).states.get? "web").bind ContainerState.cron = none := by
    decide +kernel
  rw [hstate] at hnone
  cases hcron.symm.trans hnone

/-- What a tick at midnight leaves, in which `web` is seeded. -/
def afterMidnight : Memory := (webFleet "nightly" 0).after stackDocker stackConfig .default .empty

/-- Four in the morning. -/
def fourOClock : Int := 4 * nanosPerHour

theorem afterMidnight_state :
    afterMidnight.states.get? "web" = some ⟨none, some fourOClock, some nightly, none⟩ := by
  decide +kernel

theorem listsEnabled_nightly {time : Int} {memory : Memory} {row : ContainerSummary}
    {policy : Policy} (h : ListsEnabled .default "web"
      ((webFleet "nightly" time).tick stackDocker stackConfig .default memory).trace row policy) :
    row = memberRow "web" "nightly" ∧ policy = webPolicy := by
  obtain rfl := listsEnabled_web h
  exact ⟨rfl, (Except.ok.inj (webPolicy_parsed.symm.trans h.2.2.1)).symm⟩

/-- What `web` asks for is the next match of the nightly schedule, at the time of the tick. -/
theorem searches_nightly {time : Int} {memory : Memory} {now : Instant} {e : CronExpr}
    (kept : ∀ state, memory.states.get? "web" = some state → state.cron = some nightly)
    (h : Searches stackDocker stackConfig .default memory
      ((webFleet "nightly" time).tick stackDocker stackConfig .default memory).trace now "web" e) :
    e = nightly ∧ now = time := by
  have seeded {policy : Policy} (considered : Considered stackConfig .default
      (memberRow "web" "nightly") ⟨memory, [], []⟩ policy) : cronFor policy = some nightly := by
    have hpolicy := considered.parsed
    rw [webPolicy_parsed] at hpolicy
    obtain rfl := Except.ok.inj hpolicy
    exact webPolicy_schedule
  refine ⟨?_, Fleet.time_of_tick h.time⟩
  rcases h with ⟨⟨row, s, part, within, -, considered, -⟩, hcron⟩ |
    ⟨⟨row, s, part, within, -, considered, hstate, -⟩, -, hcron⟩
  · obtain ⟨rfl, rfl⟩ := Fleet.visit_of_single rfl within
    exact Option.some.inj (hcron.symm.trans (seeded considered))
  · obtain ⟨rfl, rfl⟩ := Fleet.visit_of_single rfl within
    rw [← hstate, stateFor] at hcron
    cases hmemory : memory.states.get? "web" with
    | none =>
        rw [hmemory] at hcron
        exact Option.some.inj (hcron.symm.trans (seeded considered))
    | some state =>
        rw [hmemory] at hcron
        exact Option.some.inj (hcron.symm.trans (kept state hmemory))

theorem keepsUp_nightly {time : Int} {memory : Memory} (found : Findable nightly Zone.utc time)
    (kept : ∀ state, memory.states.get? "web" = some state → state.cron = some nightly) :
    KeepsUp stackDocker stackConfig .default "web" memory
      ((webFleet "nightly" time).tick stackDocker stackConfig .default memory).trace where
  found now e asks := by
    obtain ⟨rfl, rfl⟩ := searches_nightly kept asks
    exact found
  current row policy e state lists hcron hstate := by
    obtain ⟨-, rfl⟩ := listsEnabled_nightly lists
    rw [← hcron, webPolicy_schedule]
    exact kept state hstate

/-- `web` is seeded at midnight, updated at four in the morning, and then scheduled for the next
one. -/
theorem follows_labels_nightly : ∃ state,
    ((webFleet "nightly" fourOClock).after stackDocker stackConfig .default
      afterMidnight).states.get? "web" = some state ∧ Scheduled Zone.utc nightly state := by
  have found (time : Int) (h : (nightly.nextAfter Zone.utc time).isSome) :
      Findable nightly Zone.utc time := Cron.nextAfter_isSome_iff.mp h
  have kept (state : ContainerState) (h : afterMidnight.states.get? "web" = some state) :
      state.cron = some nightly := by
    obtain rfl := Option.some.inj (afterMidnight_state.symm.trans h)
    rfl
  refine @follows_labels stackDocker stackConfig _ _ _ _ _
    (.single ⟨_, Fleet.produces_after (by decide +kernel), keepsUp_nightly
      (found 0 (by decide +kernel)) fun state h => by cases h⟩)
    (Fleet.produces_after (by decide +kernel))
    (keepsUp_nightly (found fourOClock (by decide +kernel)) kept) ?comes _ _ _
    ⟨⟨_, rfl, List.mem_cons_self⟩, rfl, webPolicy_parsed, rfl, nofun⟩ webPolicy_schedule
  refine ⟨Fleet.no_shutdown, fun row policy row' policy' lists lists' => ?_, by decide,
    fun row policy lists => ?_, fun _ now row s part within _ => ?_⟩
  · rw [(listsEnabled_nightly lists).1, (listsEnabled_nightly lists').1]
  · rw [(listsEnabled_nightly lists).2]
    rfl
  · rw [(Fleet.visit_of_single rfl within).2]
    exact List.not_mem_nil

end Freshdock.Scheduler
