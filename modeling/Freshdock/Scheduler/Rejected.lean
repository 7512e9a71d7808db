import Freshdock.Scheduler.Fleet

/-!
# Digests that failed are not retried

A container whose update was rolled back is remembered with the digest. The memory keeps its
visits from updating it to that digest (`visit_keeps_rejection`), for as long as it is listed and
enabled. A rollout that another container starts does not ask the memory about its targets: it
can update the container again, and the result holds of ticks that start no such rollout
(`rejected_not_retried`).
-/

set_option autoImplicit false

namespace Freshdock.Scheduler

open Interaction Docker
open Labels (Policy)
open Cron (Instant)
open Rollout (RolloutPlan PlannedTarget)

variable {docker : Docker} {cfg : SchedulerConfig} {settings : ResolvedSettings}
  {c d : String}

/-- What is promised for one tick: names are kept apart, that of the container among them, the
container is listed and enabled, and its upstream serves `d`. -/
structure ServesRejected (docker : Docker) (cfg : SchedulerConfig) (settings : ResolvedSettings)
    (c d : String) (memory : Memory) (events : List CallEvent) : Prop where
  names : ∃ names, c ∈ names ∧ ∀ e ∈ events, NamesKnown names e
  listed : ∀ rows, events.head? = some ⟨.listRunning, some (.ok rows)⟩ →
    ∃ row ∈ rows, containerName row = c ∧ ∃ policy, ShowsEnabled settings row policy
  served : ∀ now row s part, TickVisit docker cfg settings memory events now row s part →
    containerName row = c → ∀ image latest,
      ⟨.fetchDigest image, some (.ok latest)⟩ ∈ part → latest = d

/-- No rollout that the tick starts for another container has `c` among its targets. -/
def SparesRejected (docker : Docker) (cfg : SchedulerConfig) (settings : ResolvedSettings)
    (c : String) (memory : Memory) (events : List CallEvent) : Prop :=
  ∀ now row s front rest policy found done,
    TickVisit docker cfg settings memory events now row s (front ++ rest) →
    Applies docker cfg now settings row s policy found front rest done → containerName row ≠ c →
    ∀ p, Plans cfg settings (containerName row) (row.labels.getD fun _ => none) found.current rest p →
      c ∉ p.targets.map PlannedTarget.container

/-- **A rejected digest is not retried**: from any state in which `c` is remembered
with `d`, while `c` is listed and enabled and its upstream serves `d`, no tick moves `c` as the
target of an update. -/
def NotRetried (docker : Docker) (cfg : SchedulerConfig) (settings : ResolvedSettings)
    (c d : String) : Prop :=
  ∀ memory memory', Reaches docker cfg settings (fun _ _ => True) .empty memory →
    memory.failed.get? c = some d →
    Reaches docker cfg settings (ServesRejected docker cfg settings c d) memory memory' →
    ∀ events out, Produces (runTick docker cfg settings memory') events out →
      ServesRejected docker cfg settings c d memory' events →
      ∀ e ∈ events, e.call.moves ≠ some (.update, c)

/-! ## One visit -/

theorem fetched_mem {image latest : String} {digests : Probe.LocalDigests} {tag : Option String}
    {events : List CallEvent}
    (h : Produces (Probe.probeImage image) events (some (.fetched digests latest tag))) :
    ⟨.fetchDigest (Registry.ImageRef.parse image), some (.ok latest)⟩ ∈ events := by
  unfold Probe.probeImage at h
  split at h
  · obtain ⟨-, hout⟩ := h.of_done
    cases hout
  · obtain ⟨first, inspected, rest, rfl, -, hrest⟩ := h.of_bind_some
    obtain ⟨asked, fetched, last, rfl, hasked, hlast⟩ := hrest.of_bind_some
    obtain rfl := hasked.of_request
    obtain ⟨rfl, hout⟩ := hlast.of_done
    refine List.mem_append_right _ (List.mem_append_left _ (List.mem_singleton.mpr ?_))
    match fetched, hout with
    | .ok latest', hout =>
        cases hout
        rfl

section Step

variable {memory : Memory} {events : List CallEvent}

/-- A container that a rollout may target is no archive. -/
theorem notArchive_of_subject {now : Instant} {row : ContainerSummary} {s : Sweep} {policy : Policy}
    {found : Found} {front rest : List CallEvent} {done : Option Processed} {ref : String}
    (applies : Applies docker cfg now settings row s policy found front rest done)
    (subject : Subject cfg settings (containerName row) (row.labels.getD fun _ => none)
      found.current rest ref) : isArchiveName ref = false := by
  rcases subject with rfl | ⟨p, ⟨info, listing, more, -, -, hplan, -⟩, hmem⟩
  · exact applies.considered.notArchive
  · obtain ⟨t, ht, rfl⟩ := List.mem_map.mp hmem
    obtain ⟨members, -, rfl⟩ := (@Rollout.emits_planFor (fun _ => True) _ quiet_unmoved _ _ _ _ _
      listing _ hplan fun _ _ => trivial).2 _ rfl p rfl
    obtain ⟨origin, -, m, hm, htarget⟩ := Rollout.mem_targets_plan.mp ht
    obtain ⟨-, -, -, -, hname, -⟩ := Rollout.targetOf_eq_some.mp htarget
    rw [hname]
    simpa using (List.mem_filter.mp hm).2

/-- **A visit keeps the rejection and does not move the container.** -/
theorem visit_keeps_rejection (serves : ServesRejected docker cfg settings c d memory events)
    (spares : SparesRejected docker cfg settings c memory events) {now : Instant}
    {row : ContainerSummary} {s : Sweep} {part : List CallEvent} {out : Option Sweep}
    (within : TickVisit docker cfg settings memory events now row s part)
    (remembered : isArchiveName c = false → s.memory.failed.get? c = some d)
    (h : Produces (visit docker cfg now settings row s) part out) :
    (∀ e ∈ part, e.call.moves ≠ some (.update, c)) ∧
      ∀ s', out = some s' → isArchiveName c = false → s'.memory.failed.get? c = some d := by
  rcases visit_cases h with ⟨hunmoved, hout⟩ | ⟨policy, found, front, rest, done, rfl, applies, hout⟩
  · refine ⟨fun e he => by rw [hunmoved e he]; nofun, fun s' hs' hname => ?_⟩
    rw [(hout s' hs').1]
    exact remembered hname
  -- an update is applied, for a container other than `c`: the probe of `c` finds what failed
  have key (subject : Subject cfg settings (containerName row) (row.labels.getD fun _ => none)
      found.current rest c) : False := by
    have hname := notArchive_of_subject applies subject
    by_cases hrow : containerName row = c
    · obtain ⟨first, second, rfl, -, hprobe⟩ := applies.read
      have hlatest := serves.served now row s _ within hrow _ _
        (List.mem_append_left _ (List.mem_append_right _ (fetched_mem hprobe)))
      refine applies.asks.notFailed ?_
      rw [hrow, remembered hname, hlatest]
    · rcases subject with rfl | ⟨p, plans, hmem⟩
      · exact hrow rfl
      · exact spares now row s front rest policy found done within applies hrow p plans hmem
  obtain ⟨names, listed, known⟩ := serves.names
  have hevents := within
  obtain ⟨rows, swept, rfl, visited⟩ := hevents
  have inUse : containerName row ∈ names := (known _ List.mem_cons_self).running rows rfl row
    visited.row_mem applies.considered.notArchive
  have applied := produces_applyUpdate applies.applied
  refine ⟨fun e he hmoves => ?_, fun s' hs' hname => ?_⟩
  · rcases List.mem_append.mp he with he | he
    · rw [applies.unmoved e he] at hmoves
      cases hmoves
    · exact key (applied.moves inUse
        (fun e he => known e (within.mem (List.mem_append_right _ he))) he listed hmoves)
  · obtain ⟨processed, rfl, hfailed, -⟩ := hout s' hs'
    rw [hfailed]
    cases houtcome : processed.outcome with
    | none => exact remembered hname
    | some outcome =>
        rw [failed_remember_of_not_mem _ fun hmem => key (applied.remembers houtcome hmem)]
        exact remembered hname

/-- **A tick keeps the rejection and does not move the container.** -/
theorem tick_keeps_rejection (serves : ServesRejected docker cfg settings c d memory events)
    (spares : SparesRejected docker cfg settings c memory events) {out : Option Memory}
    (remembered : isArchiveName c = false → memory.failed.get? c = some d)
    (h : Produces (runTick docker cfg settings memory) events out) :
    (∀ e ∈ events, e.call.moves ≠ some (.update, c)) ∧
      ∀ memory', out = some memory' → isArchiveName c = false → memory'.failed.get? c = some d := by
  rcases produces_runTick h with ⟨hunmoved, hout⟩ | ⟨rows, now, rest, swept, rfl, hswept, hout⟩
  · refine ⟨fun e he => by rw [hunmoved e he]; nofun, fun memory' hmemory => ?_⟩
    rw [(hout memory' hmemory).1]
    exact remembered
  have sweep := @sweep_rule docker cfg settings now
    (fun s => isArchiveName c = false → s.memory.failed.get? c = some d)
    (fun e => e.call.moves ≠ some (.update, c)) (fun _ => nofun) rows ⟨memory, [], []⟩ rest swept
    hswept (fun row s part out' within inv hvisit =>
      visit_keeps_rejection serves spares ⟨rows, rest, rfl, within⟩ inv hvisit) remembered
  refine ⟨fun e he => ?_, fun memory' hmemory hname => ?_⟩
  · rcases List.mem_cons.mp he with rfl | he
    · exact nofun
    · rcases List.mem_cons.mp he with rfl | he
      · exact nofun
      · exact sweep.1 e he
  · obtain ⟨s, complete, rfl, rfl⟩ := hout memory' hmemory
    have hfailed := sweep.2 (s, complete) rfl hname
    cases complete with
    | false => exact hfailed
    | true =>
        -- the container was seen, so that its memory is not pruned
        obtain ⟨row, hrow, hc, policy, enabled⟩ := serves.listed rows rfl
        have hlive := live_of_complete hswept hrow (by rw [hc]; exact hname) enabled
        rw [hc] at hlive
        change (s.memory.failed.retain s.live.contains).get? c = some d
        rw [SortedMap.get?_retain, if_pos (by simpa using hlive)]
        exact hfailed

end Step

/-- Along ticks, the rejection is kept. -/
theorem rejection_kept {memory memory' : Memory} (remembered : memory.failed.get? c = some d)
    (ticks : Reaches docker cfg settings (fun memory events =>
      ServesRejected docker cfg settings c d memory events ∧
        SparesRejected docker cfg settings c memory events) memory memory')
    (hname : isArchiveName c = false) : memory'.failed.get? c = some d := by
  induction ticks with
  | refl => exact remembered
  | tail _ tick ih =>
      obtain ⟨events, htick, serves, spares⟩ := tick
      exact (tick_keeps_rejection serves spares (fun _ => ih) htick).2 _ rfl hname

/-- **A rejected digest is not retried, in ticks that start no rollout of the container for
another one.** -/
theorem rejected_not_retried {memory memory' : Memory} (remembered : memory.failed.get? c = some d)
    (ticks : Reaches docker cfg settings (fun memory events =>
      ServesRejected docker cfg settings c d memory events ∧
        SparesRejected docker cfg settings c memory events) memory memory')
    {events : List CallEvent} {out : Option Memory}
    (h : Produces (runTick docker cfg settings memory') events out)
    (serves : ServesRejected docker cfg settings c d memory' events)
    (spares : SparesRejected docker cfg settings c memory' events) :
    ∀ e ∈ events, e.call.moves ≠ some (.update, c) :=
  (tick_keeps_rejection serves spares (rejection_kept remembered ticks) h).1

/-! The update of `api` to the digest that the registry serves fails, and `web` is started
afterwards. -/

/-- The tick in which the update of `api` fails. -/
def failingTick : Run Call Call.Reply Nat Memory :=
  (stackFleet [memberRow "api" "live"] 0).tick stackDocker stackConfig .default .empty

def afterFailure : Memory := failingTick.out.getD .empty

theorem failingTick_out : failingTick.out = some afterFailure := by
  have hsome : failingTick.out.isSome = true := by decide +kernel
  obtain ⟨memory, hmemory⟩ := Option.isSome_iff_exists.mp hsome
  rw [afterFailure, hmemory]
  rfl

theorem afterFailure_failed : afterFailure.failed.get? "api" = some "sha256:new" := by
  decide +kernel

/-- A tick of the fleet in which `api` runs serves the rejected digest. -/
theorem stackFleet_serves {rows : List ContainerSummary} {time : Int} {memory : Memory}
    (shown : ∀ row ∈ rows, containerName row ∈ ["api", "web"])
    (listed : memberRow "api" "live" ∈ rows) :
    ServesRejected stackDocker stackConfig .default "api" "sha256:new" memory
      ((stackFleet rows time).tick stackDocker stackConfig .default memory).trace where
  names := ⟨_, List.mem_cons_self, Fleet.known_of_tick (stackFleet_named time shown)⟩
  listed rows' hrows' := by
    rw [Fleet.rows_of_tick hrows']
    exact ⟨memberRow "api" "live", listed, rfl, _, rfl, rfl, nofun⟩
  served now row s part within _ image latest hfetched :=
    Fleet.digest_of_tick (within.mem hfetched)

/-- `web` is started after the update of `api` failed, and its rollout stops `api` again. -/
theorem not_notRetried : ¬ NotRetried stackDocker stackConfig .default "api" "sha256:new" := by
  intro notRetried
  have first : Reaches stackDocker stackConfig .default (fun _ _ => True) .empty afterFailure := by
    refine .single ⟨failingTick.trace, ?_, trivial⟩
    rw [← failingTick_out]
    exact Fleet.produces_tick _ _ _ _ _
  have still := notRetried afterFailure afterFailure first afterFailure_failed .refl _ _
    ((stackFleet [memberRow "api" "live", memberRow "web" "live"] 60000000000).produces_tick _ _ _ _)
  have stopped : ((stackFleet [memberRow "api" "live", memberRow "web" "live"] 60000000000).tick
      stackDocker stackConfig .default afterFailure).trace.any
        (fun e => e.call.moves = some (.update, "api")) = true := by
    decide +kernel
  obtain ⟨e, he, hmoves⟩ := List.any_eq_true.mp stopped
  exact still (stackFleet_serves (by decide) List.mem_cons_self) e he (by simpa using hmoves)

/-- The next poll leaves `api` alone, while it runs the rollout of `web` that spares it. -/
theorem rejected_not_retried_beside :
    (¬ ∃ e ∈ ((releaseFleet 600000000000).tick stackDocker stackConfig .default afterFailure).trace,
      e.call.moves = some (.update, "api")) ∧
    ((releaseFleet 600000000000).tick stackDocker stackConfig .default afterFailure).trace.any
      (fun e => e.call.moves = some (.update, "migrate")) = true := by
  refine ⟨?_, by decide +kernel⟩
  rintro ⟨e, he, hmoves⟩
  refine rejected_not_retried afterFailure_failed .refl (Fleet.produces_tick _ _ _ _ _)
    ⟨⟨_, List.mem_cons_self, Fleet.known_of_tick (releaseFleet_named _)⟩, fun rows hrows => ?_,
      fun now row s part within _ image latest hfetched => ?_⟩ ?_ e he hmoves
  · rw [Fleet.rows_of_tick hrows]
    exact ⟨releaseRow "api" "app:1" "" true, List.mem_cons_self, rfl, _, rfl, rfl, nofun⟩
  · exact Fleet.digest_of_tick (within.mem hfetched)
  · intro now row s front rest policy found done within _ hrow p plans hmem
    obtain ⟨t, ht, hname⟩ := List.mem_map.mp hmem
    exact hrow ((releaseFleet_apart (fun e he => within.mem (List.mem_append_right _ he)) plans
      ht).mp hname)

end Freshdock.Scheduler
