import Freshdock.Cron.Matches
import Freshdock.Scheduler.Fleet

/-!
# Schedules that go silent

The next match of a schedule is searched from the start of the current minute. In an hour that the
clocks show twice the start is not found, and there is no next match. The scheduler asks for the
next match when it seeds a state and when it fires (`Searches`), and keeps the answer: a container
whose state is seeded in such an hour is not due again. When the start of the minute is found
whenever a next match is asked for, every schedule that has a match keeps a next match
(`never_silent`).
-/

set_option autoImplicit false

namespace Freshdock.Scheduler

open Interaction Docker
open Labels (Policy)
open Cron (CronExpr Instant Zone HasMatch Findable SteadyMinute StartResolves nanosPerHour
  nanosPerMinute nanosPerSecond)

/-- **A schedule with matches never goes silent**: the next match is found whenever
there is one, and in every state that ticks lead to, a schedule that had a match at each of them has
a next one. -/
def NeverSilent (docker : Docker) (cfg : SchedulerConfig) (settings : ResolvedSettings) : Prop :=
  (∀ (e : CronExpr) (after : Int), HasMatch e cfg.zone after →
    (e.nextAfter cfg.zone after).isSome) ∧
  ∀ (e : CronExpr) (memory : Memory),
    Reaches docker cfg settings (fun _ events => ∀ now, TimeOf events now → HasMatch e cfg.zone now)
      .empty memory →
    ∀ name state, memory.states.get? name = some state → state.cron = some e → state.nextFire.isSome

/-- The tick asks for the next match of a schedule: it seeds a state for it, or it goes on with a
state that has it. -/
inductive Searches (docker : Docker) (cfg : SchedulerConfig) (settings : ResolvedSettings)
    (memory : Memory) (events : List CallEvent) (now : Instant) (name : String) (e : CronExpr) :
    Prop where
  | seeded {policy : Policy} : Seeds docker cfg settings memory events now name policy →
      cronFor policy = some e → Searches docker cfg settings memory events now name e
  | fired {policy : Policy} {state : ContainerState} :
      Fires docker cfg settings memory events now name policy state →
      isCronMode policy.mode = true → state.cron = some e →
      Searches docker cfg settings memory events now name e

theorem Searches.time {docker : Docker} {cfg : SchedulerConfig} {settings : ResolvedSettings}
    {memory : Memory} {events : List CallEvent} {now : Instant} {name : String} {e : CronExpr}
    (h : Searches docker cfg settings memory events now name e) : TimeOf events now := by
  cases h with
  | seeded seeds _ =>
      obtain ⟨row, s, part, ⟨rows, rest, rfl, -⟩, -⟩ := seeds
      rfl
  | fired fires _ _ =>
      obtain ⟨row, s, part, ⟨rows, rest, rfl, -⟩, -⟩ := fires
      rfl

section Step

variable {cfg : SchedulerConfig} {e : CronExpr} {now : Instant} {policy : Policy}

/-- The schedule of the state is another one, or has a next match. -/
def Awake (e : CronExpr) (state : ContainerState) : Prop :=
  state.cron = some e → state.nextFire.isSome

theorem awake_seed (found : cronFor policy = some e → Findable e cfg.zone now) :
    Awake e (seedState cfg.zone policy now) := by
  intro hcron
  change ((cronFor policy).bind _).isSome = true
  rw [show cronFor policy = some e from hcron]
  exact Cron.nextAfter_isSome_iff.mpr (found hcron)

theorem awake_next {state state' : ContainerState} {handling : Handling}
    (found : handling = .processed → isCronMode policy.mode = true → state.cron = some e →
      Findable e cfg.zone now) (awake : Awake e state)
    (h : Next cfg now policy state handling state') : Awake e state' := by
  intro hcron
  have hkept : state.cron = some e := h.cron.symm.trans hcron
  cases h with
  | waited _ => exact awake hkept
  | notInspected _ =>
      unfold inspectFailed
      split <;> exact awake hkept
  | processed notified _ =>
      unfold advance
      cases hmode : policy.mode with
      | live | watch | off => exact awake hkept
      | nightly | weekly | monthly =>
          change (state.cron.bind _).isSome = true
          rw [hkept]
          exact Cron.nextAfter_isSome_iff.mpr (found rfl (by rw [hmode]; rfl) hkept)

end Step

section Run

variable {docker : Docker} {cfg : SchedulerConfig} {settings : ResolvedSettings}

/-- Along ticks at which the next match is found when it is asked for, states stay awake. -/
theorem awake_of_reaches {e : CronExpr} {memory memory' : Memory}
    (ticks : Reaches docker cfg settings (fun memory events => ∀ now name,
      Searches docker cfg settings memory events now name e → Findable e cfg.zone now) memory memory')
    (start : ∀ name state, memory.states.get? name = some state → Awake e state) :
    ∀ name state, memory'.states.get? name = some state → Awake e state := by
  induction ticks with
  | refl => exact start
  | tail _ tick ih =>
      obtain ⟨events, htick, found⟩ := tick
      refine states_of_visits (fun _ => Awake e) htick (fun now name policy seeds => ?_)
        (fun now name policy state handling state' awake fires hnext => ?_) ih
      · exact awake_seed fun hcron => found now name (.seeded seeds hcron)
      · exact awake_next (fun hprocessed hmode hcron =>
          found now name (.fired (fires hprocessed) hmode hcron)) awake hnext

/-- **A next match is found exactly when the start of the minute is, and schedules do not go silent
along ticks at which it is found whenever it is asked for.** -/
theorem never_silent :
    (∀ (e : CronExpr) (after : Int), HasMatch e cfg.zone after →
      ((e.nextAfter cfg.zone after).isSome ↔ Findable e cfg.zone after) ∧
      (SteadyMinute cfg.zone after →
        ((e.nextAfter cfg.zone after).isSome ↔ StartResolves cfg.zone after))) ∧
    ∀ (e : CronExpr) (memory : Memory),
      Reaches docker cfg settings (fun memory events => ∀ now name,
        Searches docker cfg settings memory events now name e → Findable e cfg.zone now) .empty
        memory →
      ∀ name state, memory.states.get? name = some state → state.cron = some e →
        state.nextFire.isSome := by
  refine ⟨fun e after hmatch => ⟨Cron.nextAfter_isSome_iff, fun steady => ?_⟩,
    fun e memory ticks name state hstate => ?_⟩
  · exact Cron.nextAfter_isSome_iff.trans (Cron.findable_iff_of_steady steady hmatch)
  · exact awake_of_reaches ticks (fun name state h => by cases h) name state hstate

end Run

/-! The clock goes back from two to one: the hour before two is shown twice. -/

/-- The start of the hour that is shown again. -/
def foldStart : Int := 0

def foldOffset (t : Int) : Int := if t < foldStart then 2 * nanosPerHour else nanosPerHour

/-- The instant that a local time resolves to. The first second after the hour that is shown again
is taken for a part of it. -/
def foldFromLocal (shown : Int) : Option Int :=
  if shown < nanosPerHour then some (shown - 2 * nanosPerHour)
  else if shown < 2 * nanosPerHour + nanosPerSecond then none
  else some (shown - nanosPerHour)

theorem foldFromLocal_only (shown t : Int) (h : foldFromLocal shown = some t) (t' : Int)
    (ht' : t' + foldOffset t' = shown) : t' = t := by
  have hpos : 0 < nanosPerHour := by decide
  have hsecond : 0 < nanosPerSecond := by decide
  unfold foldFromLocal at h
  unfold foldOffset foldStart at ht'
  split at h
  · obtain rfl := Option.some.inj h
    split at ht' <;> omega
  · split at h
    · cases h
    · obtain rfl := Option.some.inj h
      split at ht' <;> omega

/-- The offset is another one before the clock goes back. -/
theorem foldOffset_changes : ¬ ∀ t t' : Int, foldOffset t = foldOffset t' := fun fixed =>
  absurd (fixed (-1) 0) (by decide)

def foldZone : Zone where
  offset := foldOffset
  fromLocal := foldFromLocal
  fromLocal_only := foldFromLocal_only
  fromLocal_fixed fixed := absurd fixed foldOffset_changes

def foldConfig : SchedulerConfig := { stackConfig with zone := foldZone }

/-- Half past one, for the second time. -/
def foldTime : Int := 30 * nanosPerMinute

/-- The fleet of a container that is updated at night. -/
def nightlyFleet (time : Int) : Fleet := stackFleet [memberRow "api" "nightly"] time

/-- What the first tick leaves, in the hour that is shown again. -/
def afterFold : Memory := (nightlyFleet foldTime).after stackDocker foldConfig .default .empty

/-- A container that is first seen in the hour that is shown again is left without a next fire. -/
theorem not_neverSilent : ¬ NeverSilent stackDocker foldConfig .default := by
  rintro ⟨-, neverSilent⟩
  -- the schedule matches two hours and a half later
  have hmatch : HasMatch nightly foldZone foldTime := ⟨149, by decide, by decide +kernel⟩
  have ticks : Reaches stackDocker foldConfig .default
      (fun _ events => ∀ now, TimeOf events now → HasMatch nightly foldConfig.zone now) .empty
      afterFold := by
    refine .single ⟨_, Fleet.produces_after (by decide +kernel), fun now htime => ?_⟩
    rw [Fleet.time_of_tick htime]
    exact hmatch
  have hstate : afterFold.states.get? "api" = some ⟨none, none, some nightly, none⟩ := by
    decide +kernel
  have hsome := neverSilent nightly afterFold ticks "api" _ hstate rfl
  cases hsome

/-- Three hours before the clock goes back. -/
def beforeFold : Int := -(3 * nanosPerHour)

/-- What a tick before the fold leaves. -/
def afterEvening : Memory := (nightlyFleet beforeFold).after stackDocker foldConfig .default .empty

theorem afterEvening_state :
    afterEvening.states.get? "api" = some ⟨none, some (3 * nanosPerHour), some nightly, none⟩ := by
  decide +kernel

theorem nightlyPolicy_parsed : Labels.parsePolicy ((memberRow "api" "nightly").labels.getD
    fun _ => none) ResolvedSettings.default.policyDefaults = .ok webPolicy := rfl

/-- In the hour that is shown again, nothing is asked for when the state is kept and not due. -/
theorem not_searches_inFold {now : Instant} {name : String} {e : CronExpr} :
    ¬ Searches stackDocker foldConfig .default afterEvening
      ((nightlyFleet foldTime).tick stackDocker foldConfig .default afterEvening).trace now name e := by
  rintro (⟨⟨row, s, part, within, rfl, -, hnone⟩, -⟩ |
    ⟨⟨row, s, part, within, rfl, considered, hstate, hdue, -⟩, -, -⟩)
  · obtain ⟨rfl, rfl⟩ := Fleet.visit_of_single rfl within
    exact absurd (afterEvening_state.symm.trans hnone) nofun
  · have htime : now = foldTime := by
      obtain ⟨rows, rest, hevents, -⟩ := within
      exact Fleet.time_of_tick (by rw [hevents]; rfl)
    obtain ⟨rfl, rfl⟩ := Fleet.visit_of_single rfl within
    obtain rfl := Except.ok.inj (nightlyPolicy_parsed.symm.trans considered.parsed)
    subst htime hstate
    rw [stateFor, show containerName (memberRow "api" "nightly") = "api" from rfl,
      afterEvening_state] at hdue
    exact absurd hdue (by decide)

/-- A state that is seeded before the fold keeps its next fire through the hour that is shown
again. -/
theorem never_silent_throughFold :
    ((nightly.nextAfter foldZone beforeFold).isSome ↔ Findable nightly foldZone beforeFold) ∧
    ∀ name state, ((nightlyFleet foldTime).after stackDocker foldConfig .default
        afterEvening).states.get? name = some state →
      state.cron = some nightly → state.nextFire.isSome := by
  have hmatch : HasMatch nightly foldZone beforeFold := ⟨359, by decide, by decide +kernel⟩
  have found : Findable nightly foldZone beforeFold :=
    Cron.nextAfter_isSome_iff.mp (by decide +kernel)
  obtain ⟨finds, awake⟩ := @never_silent stackDocker foldConfig .default
  refine ⟨(finds nightly beforeFold hmatch).1, awake nightly _ ?_⟩
  refine .tail (.single ⟨_, Fleet.produces_after (by decide +kernel), fun now name asks => ?_⟩)
    ⟨_, Fleet.produces_after (by decide +kernel), fun now name asks => ?_⟩
  · rw [Fleet.time_of_tick asks.time]
    exact found
  · exact absurd asks not_searches_inFold

end Freshdock.Scheduler
