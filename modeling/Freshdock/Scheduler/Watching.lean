import Freshdock.Foundation.NoRepeats
import Freshdock.Scheduler.Footprint
import Freshdock.Scheduler.Once

/-!
# Watched containers

The mode `watch` applies nothing: it notifies that an update is to be had. A poll finds the same
update until somebody acts, and the schedule state remembers the digest that was notified last, so
that it is not notified again.

**Along ticks.** While a container is listed and not switched off its state is kept, whatever the
modes and the answers are in the meantime. So over any run of ticks, however it ends, no digest is
notified twice in a row, and a digest that a watching visit finds is the one that was notified last
(`announced_once`).
-/

set_option autoImplicit false

namespace Freshdock.Scheduler

open Interaction Docker Foundation
open Labels (Policy)
open Cron (Instant)

/-- The digest that an event notifies for the container. -/
def announced (name : String) (e : CallEvent) : Option String :=
  match e.call with
  | .dispatch (.updateAvailable container _ digest) =>
      if container = name then some digest else none
  | _ => none

def announcements (name : String) (events : List CallEvent) : List String :=
  events.filterMap (announced name)

/-- The digest that is remembered as notified last. -/
def noticed (memory : Memory) (name : String) : Option String :=
  (memory.states.get? name).bind ContainerState.lastNotifiedDigest

theorem announcements_append (name : String) (first rest : List CallEvent) :
    announcements name (first ++ rest) = announcements name first ++ announcements name rest :=
  List.filterMap_append ..

theorem announcements_available (name container image digest : String)
    (reply : Option (Call.dispatch (.updateAvailable container image digest)).Reply) :
    announcements name [⟨.dispatch (.updateAvailable container image digest), reply⟩] =
      if container = name then [digest] else [] := by
  unfold announcements announced
  split <;> simp [*]

/-- A notification that an update is to be had. -/
def announces : Call → Bool
  | .dispatch event => !event.concludes
  | _ => false

/-- The program announces nothing. -/
abbrev Silent {α : Type} (p : Prog α) : Prop := p.Only fun c => announces c = false

theorem silent_of_updates {α : Type} {p : Prog α} (h : Updates p) : Silent p :=
  h.mono fun c hc => by
    cases c with
    | dispatch event =>
        have concludes : event.concludes = true := hc
        simp [announces, concludes]
    | _ => rfl

theorem silent_probeImage (image : String) : Silent (Probe.probeImage image) := by
  unfold Probe.probeImage
  split
  · trivial
  · refine Program.Only.bind (Program.only_request rfl) fun _ => ?_
    exact Program.Only.bind (Program.only_request rfl) fun _ => trivial

theorem announcements_of_silent {α : Type} {p : Prog α} (h : Silent p) {events : List CallEvent}
    {out : Option α} (produced : Produces p events out) (name : String) :
    announcements name events = [] := by
  refine List.filterMap_eq_nil_iff.mpr fun e he => ?_
  have silent := h.events produced e he
  obtain ⟨call, reply⟩ := e
  cases call with
  | dispatch event => cases event <;> first | rfl | cases silent
  | _ => rfl

/-! ## One container -/

/-- What the events announce, coming from `last`, and what is remembered of it when they end. -/
structure Announces (last : Option String) (digests : List String) (last' : Option (Option String)) :
    Prop where
  fresh : FreshFrom last digests
  remembered : ∀ l, last' = some l → l = lastFrom last digests

theorem Announces.append {last : Option String} {digests digests' : List String} {l : Option String}
    {last' : Option (Option String)} (first : Announces last digests (some l))
    (rest : Announces l digests' last') : Announces last (digests ++ digests') last' := by
  obtain rfl := first.remembered l rfl
  refine ⟨first.fresh.append rest.fresh, fun l' hl' => ?_⟩
  rw [lastFrom_append]
  exact rest.remembered l' hl'

theorem Announces.none {last : Option String} {last' : Option (Option String)}
    (h : ∀ l, last' = some l → l = last) : Announces last [] last' :=
  ⟨freshFrom_nil last, h⟩

section Process

variable {docker : Docker} {cfg : SchedulerConfig} {now : Instant} {settings : ResolvedSettings}
  {name : String} {policy : Policy} {labels : LabelMap} {lastFailed last : Option String}
  {events : List CallEvent}

theorem announces_reportAvailable {image latest : String} {out : Option (Processed × Option String)}
    (h : Produces (reportAvailable name policy image latest last) events out) :
    Announces last (announcements name events) (out.map Prod.snd) ∧
      (∀ name', name' ≠ name → announcements name' events = []) ∧
      (policy.notify = true → ∀ r, out = some r → r.2 = some latest) := by
  unfold reportAvailable at h
  split at h
  · next asked =>
    simp only [Bool.and_eq_true, bne_iff_ne] at asked
    cases h with
    | cut => exact ⟨.none nofun, fun _ _ => rfl, fun _ => nofun⟩
    | unanswered =>
        rw [announcements_available, if_pos rfl]
        refine ⟨⟨freshFrom_singleton asked.2, nofun⟩, fun name' hne => ?_, fun _ => nofun⟩
        rw [announcements_available, if_neg hne.symm]
    | answered _ _ reply rest =>
        obtain ⟨rfl, hout⟩ := produces_done_iff.mp rest
        have returned : ∀ r, out = some r → r.2 = some latest := fun r hr => by
          rcases hout with rfl | rfl
          · cases hr
            rfl
          · cases hr
        rw [announcements_available, if_pos rfl]
        refine ⟨⟨freshFrom_singleton asked.2, fun l hl => ?_⟩, fun name' hne => ?_,
          fun _ => returned⟩
        · obtain ⟨r, hr, rfl⟩ := Option.map_eq_some_iff.mp hl
          exact returned r hr
        · rw [announcements_available, if_neg hne.symm]
  · next silent =>
    obtain ⟨rfl, hout⟩ := produces_done_iff.mp h
    refine ⟨.none fun l hl => ?_, fun _ _ => rfl, fun hnotify r hr => ?_⟩
    · rcases hout with rfl | rfl
      · cases hl
        rfl
      · cases hl
    · rcases hout with rfl | rfl
      · cases hr
        simp only [hnotify, Bool.true_and, bne_iff_ne, not_not] at silent
        exact silent
      · cases hr

/-- A program that announces nothing and returns the digest that it was given. -/
theorem announces_silent {p : Prog (Processed × Option String)} (silent : Silent p)
    (kept : ∀ events r, Produces p events (some r) → r.2 = last)
    {out : Option (Processed × Option String)} (h : Produces p events out) :
    Announces last (announcements name events) (out.map Prod.snd) ∧
      ∀ name', name' ≠ name → announcements name' events = [] := by
  have none := announcements_of_silent silent h
  rw [none]
  refine ⟨.none fun l hl => ?_, fun name' _ => none name'⟩
  obtain ⟨r, rfl, rfl⟩ := Option.map_eq_some_iff.mp hl
  exact kept events r h

/-- What a probe led to: an update is to be had, and is announced when that is asked for. -/
def ToBeHad (policy : Policy) (target : Probe.ProbeTarget) (events : List CallEvent)
    (digest : String) : Prop :=
  policy.mode = .watch ∧ policy.notify = true ∧ ∃ probe rest digests tag, events = probe ++ rest ∧
    Produces (Probe.probeImage target.image) probe (some (.fetched digests digest tag)) ∧
    Probe.updateAvailableFor digests digest target.imageId tag = some true

/-- **What a container that is processed announces.** -/
theorem announces_processContainer {target : Probe.ProbeTarget}
    {out : Option (Processed × Option String)}
    (h : Produces (processContainer docker cfg now name policy labels target lastFailed last settings)
      events out) :
    (Announces last (announcements name events) (out.map Prod.snd) ∧
      ∀ name', name' ≠ name → announcements name' events = []) ∧
      ∀ digest, ToBeHad policy target events digest → ∀ r, out = some r → r.2 = some digest := by
  rcases h.of_bind with ⟨rfl, hprobe⟩ | ⟨probe, outcome, rest, rfl, hprobe, hrest⟩
  · have none := announcements_of_silent (silent_probeImage _) hprobe
    rw [none]
    refine ⟨⟨.none fun l hl => ?_, fun name' _ => none name'⟩, fun _ _ r hr => ?_⟩
    · cases hl
    · cases hr
  simp only [announcements_append, announcements_of_silent (silent_probeImage _) hprobe,
    List.nil_append]
  -- a probe has one outcome, so that what is to be had is what this one fetched
  have known (digest : String) (had : ToBeHad policy target (probe ++ rest) digest) :
      policy.mode = .watch ∧ policy.notify = true ∧ ∃ digests tag,
        outcome = .fetched digests digest tag ∧
          Probe.updateAvailableFor digests digest target.imageId tag = some true := by
    obtain ⟨watches, asks, probe', rest', digests, tag, same, hprobe', newer⟩ := had
    obtain ⟨-, rfl, -⟩ := hprobe.unique hprobe' same
    exact ⟨watches, asks, digests, tag, rfl, newer⟩
  have nothing {p : Prog (Processed × Option String)} (silent : Silent p)
      (kept : ∀ events r, Produces p events (some r) → r.2 = last)
      (unknown : ∀ digest, ¬ ToBeHad policy target (probe ++ rest) digest)
      (h : Produces p rest out) :
      (Announces last (announcements name rest) (out.map Prod.snd) ∧
        ∀ name', name' ≠ name → announcements name' rest = []) ∧
        ∀ digest, ToBeHad policy target (probe ++ rest) digest →
          ∀ r, out = some r → r.2 = some digest :=
    ⟨announces_silent silent kept h, fun digest had => absurd had (unknown digest)⟩
  have returns (processed : Processed) (events : List CallEvent) (r : Processed × Option String)
      (h : Produces (.done (processed, last) : Prog _) events (some r)) : r.2 = last := by
    obtain ⟨-, rfl⟩ := h.of_done
    rfl
  have unfetched (h : ∀ digests latest tag, outcome ≠ .fetched digests latest tag) (digest : String) :
      ¬ ToBeHad policy target (probe ++ rest) digest := fun had => by
    obtain ⟨-, -, digests, tag, hfetched, -⟩ := known digest had
    exact h _ _ _ hfetched
  cases outcome with
  | fetched digests latest tag =>
      have older (h : Probe.updateAvailableFor digests latest target.imageId tag ≠ some true)
          (digest : String) : ¬ ToBeHad policy target (probe ++ rest) digest := fun had => by
        obtain ⟨-, -, _, _, hfetched, newer⟩ := known digest had
        cases hfetched
        exact h newer
      simp only [actOnProbe] at hrest
      split at hrest
      · next hverdict =>
        exact nothing (Program.only_done _) (returns _) (older (by simp [hverdict])) hrest
      · next hverdict =>
        exact nothing (Program.only_done _) (returns _) (older (by simp [hverdict])) hrest
      · have unwatched (h : policy.mode ≠ .watch) (digest : String) :
            ¬ ToBeHad policy target (probe ++ rest) digest := fun had => h had.1
        have applied (hmode : policy.mode ≠ .watch)
            (h : Produces (if lastFailed = some latest then pure (.probed .notUpdated, last)
              else do
                let processed ← applyUpdate docker cfg now name policy labels target.image latest
                  (currentImage digests latest tag) settings
                pure (processed, last)) rest out) := by
          by_cases hfailed : lastFailed = some latest
          · rw [if_pos hfailed] at h
            exact nothing (Program.only_done _) (returns _) (unwatched hmode) h
          · rw [if_neg hfailed] at h
            refine nothing ((silent_of_updates (updates_applyUpdate ..)).bind fun _ => Program.only_pure _)
              (fun events r hr => ?_) (unwatched hmode) h
            obtain ⟨_, processed, _, -, -, hlast⟩ := hr.of_bind_some
            exact returns processed _ r hlast
        unfold actOnUpdate at hrest
        split at hrest
        · obtain ⟨hannounces, hothers, hasked⟩ := announces_reportAvailable hrest
          refine ⟨⟨hannounces, hothers⟩, fun digest had => ?_⟩
          obtain ⟨-, asks, _, _, hfetched, -⟩ := known digest had
          cases hfetched
          exact hasked asks
        · next hmode => exact nothing (Program.only_done _) (returns _) (unwatched (by simp [hmode])) hrest
        all_goals
          next hmode => exact applied (by simp [hmode]) hrest
  | _ =>
      exact nothing (Program.only_done _) (returns _) (unfetched fun _ _ _ h => by cases h) hrest

end Process

/-! ## One visit -/

section Visit

variable {docker : Docker} {cfg : SchedulerConfig} {now : Instant} {settings : ResolvedSettings}
  {c : ContainerSummary} {sweep : Sweep} {policy : Policy} {events : List CallEvent}

/-- A fresh state remembers no digest. -/
theorem noticed_stateFor (name : String) :
    (stateFor cfg now policy name sweep).lastNotifiedDigest = noticed sweep.memory name := by
  unfold stateFor noticed
  cases sweep.memory.states.get? name <;> rfl

theorem noticed_setState (sweep : Sweep) (name : String) (state : ContainerState) :
    noticed (sweep.setState name state).memory name = state.lastNotifiedDigest := by
  have kept : (sweep.memory.states.insert name state).get? name = some state :=
    SortedMap.get?_insert_self _ _ _
  exact congrArg (·.bind ContainerState.lastNotifiedDigest) kept

theorem advance_lastNotified (zone : Cron.Zone) (policy : Policy) (now : Instant)
    (state : ContainerState) :
    (advance zone policy now state).lastNotifiedDigest = state.lastNotifiedDigest := by
  unfold advance
  split <;> rfl

theorem noticed_settled (name : String) (r : Processed × Option String) :
    noticed (settled cfg now policy name sweep r).memory name = r.2 := by
  have states : (settled cfg now policy name sweep r).memory.states =
      ((seeded cfg now policy name sweep).setState name
        { advance cfg.zone policy now (stateFor cfg now policy name sweep) with
          lastNotifiedDigest := r.2 }).memory.states :=
    states_remember _ _
  rw [noticed, states]
  exact noticed_setState _ _ _

/-- The visit came to a watched container that is due, and an update of it was to be had. -/
def Finds (cfg : SchedulerConfig) (settings : ResolvedSettings) (now : Instant)
    (c : ContainerSummary) (sweep : Sweep) (part : List CallEvent) (digest : String) : Prop :=
  ∃ policy target first rest, Considered cfg settings c sweep policy ∧
    due policy (stateFor cfg now policy (containerName c) sweep) now cfg.pollInterval = true ∧
    part = first ++ rest ∧ Produces (Probe.resolveTarget c).run first (some (.ok target)) ∧
    ToBeHad policy target rest digest

/-- **What a visit announces**, of its own container only. -/
theorem announces_visit {out : Option Sweep}
    (h : Produces (visit docker cfg now settings c sweep) events out) :
    (Announces (noticed sweep.memory (containerName c)) (announcements (containerName c) events)
        (out.map fun s => noticed s.memory (containerName c)) ∧
      ∀ name', name' ≠ containerName c → announcements name' events = []) ∧
      ∀ digest, Finds cfg settings now c sweep events digest →
        ∀ s, out = some s → noticed s.memory (containerName c) = some digest := by
  rcases produces_visit h with ⟨passed, rfl, hout⟩ | ⟨policy, handling, considered, course⟩
  · refine ⟨⟨.none fun l hl => ?_, fun _ _ => rfl⟩, fun digest finds => ?_⟩
    · obtain ⟨s, rfl, rfl⟩ := Option.map_eq_some_iff.mp hl
      rcases hout s rfl with rfl | rfl <;> rfl
    · obtain ⟨policy, _, _, _, considered, -⟩ := finds
      exact absurd considered (passed policy)
  have same (policy' : Policy) (considered' : Considered cfg settings c sweep policy') :
      policy' = policy :=
    Except.ok.inj (considered'.parsed.symm.trans considered.parsed)
  cases course with
  | waited hdue hout =>
      refine ⟨⟨.none fun l hl => ?_, fun _ _ => rfl⟩, fun digest finds => ?_⟩
      · obtain ⟨s, rfl, rfl⟩ := Option.map_eq_some_iff.mp hl
        rw [hout s rfl, seeded, noticed_setState, noticed_stateFor]
      · obtain ⟨policy', _, _, _, considered', hdue', -⟩ := finds
        obtain rfl := same policy' considered'
        rw [hdue] at hdue'
        cases hdue'
  | notInspected hdue hresolve hout =>
      have none := announcements_of_silent
        (silent_of_updates (updates_of_operates (operates_of_works (works_resolveTarget c)))) hresolve
      rw [none]
      refine ⟨⟨.none fun l hl => ?_, fun name' _ => none name'⟩, fun digest finds s hs => ?_⟩
      · obtain ⟨s, rfl, rfl⟩ := Option.map_eq_some_iff.mp hl
        obtain ⟨e, -, rfl⟩ := hout s rfl
        rw [noticed_setState, ← noticed_stateFor]
        unfold inspectFailed
        split <;> rfl
      · obtain ⟨e, rfl, -⟩ := hout s hs
        obtain ⟨_, _, first, rest, -, -, hparts, hresolve', -⟩ := finds
        rw [← List.append_nil events] at hparts
        obtain ⟨-, hcontra, -⟩ := hresolve.unique hresolve' hparts
        cases hcontra
  | @processed first rest target done out hdue hresolve hprocess hout =>
      have none := announcements_of_silent
        (silent_of_updates (updates_of_operates (operates_of_works (works_resolveTarget c)))) hresolve
      rw [advance_lastNotified, noticed_stateFor] at hprocess
      obtain ⟨⟨hannounces, hothers⟩, hfinds⟩ := announces_processContainer hprocess
      have left : ∀ s, out = some s → ∃ r, done = some r ∧
          noticed s.memory (containerName c) = r.2 := fun s hs => by
        obtain ⟨r, hr, rfl⟩ := hout s hs
        exact ⟨r, hr, noticed_settled _ r⟩
      simp only [announcements_append, none, List.nil_append]
      refine ⟨⟨⟨hannounces.fresh, fun l hl => ?_⟩, hothers⟩, fun digest finds s hs => ?_⟩
      · obtain ⟨s, rfl, rfl⟩ := Option.map_eq_some_iff.mp hl
        obtain ⟨r, rfl, hr⟩ := left s rfl
        rw [hr]
        exact hannounces.remembered r.2 rfl
      · obtain ⟨r, rfl, hr⟩ := left s hs
        obtain ⟨policy', target', first', rest', considered', -, hparts, hresolve', had⟩ := finds
        obtain rfl := same policy' considered'
        obtain ⟨rfl, htarget, rfl⟩ := hresolve.unique hresolve' hparts
        obtain rfl := Except.ok.inj htarget
        rw [hr]
        exact hfinds digest had r rfl

end Visit

/-! ## Ticks -/

section Ticks

variable {docker : Docker} {cfg : SchedulerConfig} {settings : ResolvedSettings} {name : String}
  {events : List CallEvent}

/-- A visit, whatever container it is of. -/
theorem announces_any {now : Instant} {c : ContainerSummary} {sweep : Sweep} {out : Option Sweep}
    (h : Produces (visit docker cfg now settings c sweep) events out) :
    Announces (noticed sweep.memory name) (announcements name events)
      (out.map fun s => noticed s.memory name) := by
  obtain ⟨⟨hown, hothers⟩, -⟩ := announces_visit h
  by_cases hname : name = containerName c
  · rw [hname]
    exact hown
  rw [hothers name hname]
  refine .none fun l hl => ?_
  obtain ⟨s, rfl, rfl⟩ := Option.map_eq_some_iff.mp hl
  rw [noticed, otherStates_of_visit h name hname]
  rfl

theorem announcements_asked (reply : Option Call.shutdownRequested.Reply)
    (events : List CallEvent) :
    announcements name (⟨.shutdownRequested, reply⟩ :: events) = announcements name events := rfl

/-- What is announced up to a visit is what the sweep that it starts from remembers. -/
theorem announces_before {now : Instant} {rows : List ContainerSummary} {sweep s : Sweep}
    {seen part : List CallEvent} {c : ContainerSummary}
    (within : VisitAt docker cfg settings now rows sweep events seen c s part) :
    Announces (noticed sweep.memory name) (announcements name seen)
      (some (noticed s.memory name)) := by
  induction within with
  | here _ => exact .none fun l hl => (Option.some.inj hl).symm
  | later hfirst _ ih =>
      rw [announcements_append, announcements_asked]
      exact (announces_any hfirst).append ih

theorem announces_stopped {sweep : Sweep} {complete : Bool} {out : Option (Sweep × Bool)}
    (h : Produces (.done (sweep, complete) : Prog (Sweep × Bool)) events out) :
    Announces (noticed sweep.memory name) (announcements name events)
      (out.map fun r => noticed r.1.memory name) := by
  obtain ⟨rfl, hout⟩ := produces_done_iff.mp h
  refine .none fun l hl => ?_
  rcases hout with rfl | rfl
  · exact (Option.some.inj hl).symm
  · cases hl

theorem announces_sweep {now : Instant} {rows : List ContainerSummary} {sweep : Sweep}
    {out : Option (Sweep × Bool)}
    (h : Produces (sweepContainers docker cfg now settings rows sweep) events out) :
    Announces (noticed sweep.memory name) (announcements name events)
      (out.map fun r => noticed r.1.memory name) := by
  induction rows generalizing sweep events with
  | nil => exact announces_stopped h
  | cons c rows ih =>
      cases h with
      | cut => exact .none nofun
      | unanswered => exact .none nofun
      | answered _ _ stopping h =>
          rw [announcements_asked]
          cases stopping with
          | true => exact announces_stopped h
          | false =>
              change Produces (visit docker cfg now settings c sweep >>= fun sweep =>
                sweepContainers docker cfg now settings rows sweep) _ out at h
              rcases h.of_bind with ⟨rfl, hvisit⟩ | ⟨first, s', rest, rfl, hvisit, hrest⟩
              · exact announces_any hvisit
              · rw [announcements_append]
                exact (announces_any hvisit).append (ih hrest)

/-- The tick lists the container and finds it switched on, if it lists containers at all. -/
def KeepsListed (settings : ResolvedSettings) (name : String) (events : List CallEvent) : Prop :=
  ∀ rows, events.head? = some ⟨.listRunning, some (.ok rows)⟩ →
    ∃ row ∈ rows, containerName row = name ∧ ∃ policy, ShowsEnabled settings row policy

/-- The memory of a container that was seen is kept. -/
theorem noticed_finish {sweep : Sweep} {complete : Bool}
    (seen : complete = true → name ∈ sweep.live) :
    noticed (sweep.finish complete) name = noticed sweep.memory name := by
  cases complete with
  | false => rfl
  | true =>
      change ((sweep.memory.states.retain sweep.live.contains).get? name).bind _ = _
      rw [SortedMap.get?_retain, if_pos (by simpa using seen rfl)]
      rfl

/-- What a tick announces, finished or not. -/
theorem announces_tick {memory : Memory} {out : Option Memory}
    (h : Produces (runTick docker cfg settings memory) events out) :
    FreshFrom (noticed memory name) (announcements name events) ∧
      (isArchiveName name = false → KeepsListed settings name events → ∀ memory', out = some memory' →
        noticed memory' name = lastFrom (noticed memory name) (announcements name events)) := by
  rcases h.of_bind with ⟨rfl, hlist⟩ | ⟨first, listed, rest, rfl, hlist, hrest⟩
  · rw [announcements_of_silent (Program.only_request rfl) hlist]
    exact ⟨freshFrom_nil _, fun _ _ => nofun⟩
  obtain rfl := (of_call hlist).of_request
  cases listed with
  | error e =>
      obtain ⟨rfl, hout⟩ := produces_done_iff.mp hrest
      refine ⟨freshFrom_nil _, fun _ _ memory' hmemory => ?_⟩
      rcases hout with rfl | rfl
      · cases hmemory
        rfl
      · cases hmemory
  | ok rows =>
      change Produces (request .localTime >>= fun now =>
        sweepContainers docker cfg now settings rows ⟨memory, [], []⟩ >>= fun r =>
          pure (r.1.finish r.2)) rest out at hrest
      rcases hrest.of_bind with ⟨rfl, htime⟩ | ⟨clock, now, swept, rfl, htime, hswept⟩
      · rw [announcements_append, announcements_of_silent (Program.only_request rfl) htime]
        exact ⟨freshFrom_nil _, fun _ _ => nofun⟩
      obtain rfl := htime.of_request
      change FreshFrom (noticed memory name) (announcements name swept) ∧
        (isArchiveName name = false → KeepsListed settings name _ → ∀ memory', out = some memory' →
          noticed memory' name = lastFrom (noticed memory name) (announcements name swept))
      rcases hswept.of_bind with ⟨rfl, hsweep⟩ | ⟨all, r, last, rfl, hsweep, hlast⟩
      · exact ⟨(announces_sweep hsweep).fresh, fun _ _ => nofun⟩
      · obtain ⟨rfl, hout⟩ := produces_done_iff.mp hlast
        rw [List.append_nil]
        have announces := @announces_sweep _ _ _ name _ _ _ _ _ hsweep
        refine ⟨announces.fresh, fun notArchive keeps memory' hmemory => ?_⟩
        obtain ⟨row, hrow, rfl, policy, enabled⟩ := keeps rows rfl
        obtain rfl : memory' = r.1.finish r.2 := by
          rcases hout with rfl | rfl
          · exact (Option.some.inj hmemory).symm
          · cases hmemory
        rw [noticed_finish fun complete => ?_]
        · exact announces.remembered _ rfl
        · obtain ⟨sweep, flag⟩ := r
          obtain rfl : flag = true := complete
          exact live_of_complete hsweep hrow notArchive enabled

/-! ## Runs of ticks -/

/-- Ticks that keep the container listed, and what they announce of it. -/
inductive Told (docker : Docker) (cfg : SchedulerConfig) (settings : ResolvedSettings)
    (name : String) (memory : Memory) : List String → Memory → Prop where
  | start : Told docker cfg settings name memory [] memory
  | tick {digests : List String} {memory' memory'' : Memory} {events : List CallEvent} :
      Told docker cfg settings name memory digests memory' →
        Produces (runTick docker cfg settings memory') events (some memory'') →
          KeepsListed settings name events →
            Told docker cfg settings name memory (digests ++ announcements name events) memory''

theorem Told.announces (notArchive : isArchiveName name = false) {memory memory' : Memory}
    {digests : List String} (told : Told docker cfg settings name memory digests memory') :
    Announces (noticed memory name) digests (some (noticed memory' name)) := by
  induction told with
  | start => exact .none fun l hl => (Option.some.inj hl).symm
  | tick _ htick keeps ih =>
      obtain ⟨fresh, remembered⟩ := @announces_tick _ _ _ name _ _ _ htick
      exact ih.append ⟨fresh, fun l hl => by
        obtain rfl := Option.some.inj hl
        exact remembered notArchive keeps _ rfl⟩

/-! ## Archives -/

/-- Nothing is announced of an archive. -/
theorem emits_archive (archive : isArchiveName name = true) {now : Instant}
    {rows : List ContainerSummary} {sweep : Sweep} :
    Emits (fun _ => True) (fun e => announced name e = none)
      (sweepContainers docker cfg now settings rows sweep) fun _ => True := by
  have visits (c : ContainerSummary) (sweep : Sweep) : Emits (fun _ => True)
      (fun e => announced name e = none) (visit docker cfg now settings c sweep) fun _ => True := by
    intro events out h _
    suffices none : announcements name events = [] from
      ⟨fun e he => List.filterMap_eq_nil_iff.mp none e he, fun _ _ => trivial⟩
    by_cases hname : name = containerName c
    · rcases produces_visit h with ⟨-, rfl, -⟩ | ⟨_, _, considered, -⟩
      · rfl
      · rw [hname, considered.notArchive] at archive
        cases archive
    · exact (announces_visit h).1.2 name hname
  induction rows generalizing sweep with
  | nil => exact emits_done trivial
  | cons c rows ih =>
      refine emits_bind (emits_request (fun _ => rfl) fun _ _ => trivial) fun stopping _ => ?_
      cases stopping with
      | true => exact emits_done trivial
      | false => exact emits_bind (visits c sweep) fun _ _ => ih

theorem announcements_archive (archive : isArchiveName name = true) {memory : Memory}
    {out : Option Memory} (h : Produces (runTick docker cfg settings memory) events out) :
    announcements name events = [] := by
  have emits : Emits (fun _ => True) (fun e => announced name e = none)
      (runTick docker cfg settings memory) fun _ => True := by
    have silent {c : Call} (hc : announces c = false) (reply : Option c.Reply) :
        announced name ⟨c, reply⟩ = none := by
      cases c with
      | dispatch event => cases event <;> first | rfl | cases hc
      | _ => rfl
    refine emits_bind (emits_request (silent rfl) fun _ _ => trivial) fun listed _ => ?_
    cases listed with
    | error e => exact emits_done trivial
    | ok rows =>
        refine emits_bind (emits_request (silent rfl) fun _ _ => trivial) fun now _ => ?_
        exact emits_bind (emits_archive archive) fun _ _ => emits_done trivial
  exact List.filterMap_eq_nil_iff.mpr (emits events out h fun _ _ => trivial).1

theorem Told.archive (archive : isArchiveName name = true) {memory memory' : Memory}
    {digests : List String} (told : Told docker cfg settings name memory digests memory') :
    digests = [] := by
  induction told with
  | start => rfl
  | tick _ htick _ ih => rw [ih, announcements_archive archive htick, List.append_nil]

/-- **A watched update is announced once**: over ticks that keep the container listed, however the
last one ends, no digest is announced twice in a row; and when a visit found an update to be had,
it is the last one that was announced. -/
theorem announced_once {memory memory' : Memory}
    {digests : List String} (told : Told docker cfg settings name memory digests memory')
    {out : Option Memory} (h : Produces (runTick docker cfg settings memory') events out) :
    FreshFrom (noticed memory name) (digests ++ announcements name events) ∧
      ∀ now seen row s part s' digest,
        TickVisitAt docker cfg settings memory' events now seen row s part →
        containerName row = name →
        Produces (visit docker cfg now settings row s) part (some s') →
        Finds cfg settings now row s part digest →
        lastFrom (noticed memory name) (digests ++ announcements name (seen ++ part)) =
          some digest := by
  by_cases notArchive : isArchiveName name = false
  case neg =>
    have archive : isArchiveName name = true := by simpa using notArchive
    rw [told.archive archive, announcements_archive archive h]
    refine ⟨freshFrom_nil _, fun now seen row s part s' digest _ hname _ finds => ?_⟩
    obtain ⟨_, _, _, _, considered, -⟩ := finds
    exact absurd (hname ▸ considered.notArchive) notArchive
  have before := told.announces notArchive
  have remembered := before.remembered _ rfl
  obtain ⟨fresh, -⟩ := @announces_tick _ _ _ name _ _ _ h
  refine ⟨before.fresh.append (remembered ▸ fresh), ?_⟩
  rintro now seen row s part s' digest ⟨rows, rest, rfl, within⟩ rfl hvisit finds
  obtain ⟨⟨own, -⟩, hfinds⟩ := announces_visit hvisit
  have whole := (before.append (announces_before within)).append own
  rw [← hfinds digest finds s' rfl, announcements_append, ← List.append_assoc]
  exact (whole.remembered _ rfl).symm

end Ticks

/-- Every visit of a sweep comes after something that was seen of it. -/
theorem VisitIn.exists_seen {docker : Docker} {cfg : SchedulerConfig} {settings : ResolvedSettings}
    {now : Instant} {rows : List ContainerSummary} {sweep s : Sweep} {events part : List CallEvent}
    {c : ContainerSummary} (h : VisitIn docker cfg settings now rows sweep events c s part) :
    ∃ seen, VisitAt docker cfg settings now rows sweep events seen c s part := by
  induction h with
  | here hvisit => exact ⟨_, .here hvisit⟩
  | later hfirst _ ih =>
      obtain ⟨seen, at'⟩ := ih
      exact ⟨_, .later hfirst at'⟩

/-- A watched container whose operator wants to be notified. -/
def watchedRow : ContainerSummary where
  id := some "id-web"
  names := some ["web"]
  image := some "app"
  imageId := some "old-image"
  labels := some (LabelMap.ofPairs [("freshdock.enable", "true"), ("freshdock.mode", "watch"),
    ("freshdock.notify", "true")])
  state := some .running
  networkMode := none

/-- The watched container at some time. Its update stays to be had. -/
def watchedFleet (time : Int) : Fleet := stackFleet [watchedRow] time

def afterPoll : Memory := (watchedFleet 0).after stackDocker stackConfig .default .empty

/-- The visit of the next poll, five minutes later. -/
def nextVisit : Run Call Call.Reply Nat Sweep :=
  play (watchedFleet 300000000000).answer
    (visit stackDocker stackConfig 300000000000 .default watchedRow ⟨afterPoll, [], []⟩) 0

theorem finds_nextVisit : Finds stackConfig .default 300000000000 watchedRow ⟨afterPoll, [], []⟩
    nextVisit.trace "sha256:new" := by
  let probe := play (watchedFleet 300000000000).answer (Probe.probeImage "app") 0
  let here := Probe.localSide "app" (.ok (watchedFleet 300000000000).localImage)
  have probed : Returns (watchedFleet 300000000000).answer (Probe.probeImage "app") 0
      (.fetched here.1 "sha256:new" here.2) 0 := ⟨rfl, rfl⟩
  have newer : Probe.updateAvailableFor here.1 "sha256:new" (some "old-image") here.2 = some true := by
    decide +kernel
  refine ⟨_, ⟨"app", some "old-image"⟩, [], probe.trace,
    ⟨by decide, List.not_mem_nil, rfl, rfl, nofun, rfl⟩, by decide +kernel, rfl, .done _, rfl, rfl,
    probe.trace, [], here.1, here.2, (List.append_nil _).symm, ?_, newer⟩
  have h := play_produces (watchedFleet 300000000000).answer (Probe.probeImage "app") 0
  rwa [probed.1] at h

/-- The next poll finds the digest of the first one. It is announced once. -/
theorem announced_once_watched :
    announcements "web" ((watchedFleet 0).tick stackDocker stackConfig .default .empty).trace =
        ["sha256:new"] ∧
      FreshFrom none (["sha256:new"] ++ announcements "web"
        ((watchedFleet 300000000000).tick stackDocker stackConfig .default afterPoll).trace) ∧
      ∃ seen, lastFrom none (["sha256:new"] ++ announcements "web" (seen ++ nextVisit.trace)) =
        some "sha256:new" := by
  have first : announcements "web" ((watchedFleet 0).tick stackDocker stackConfig .default
      .empty).trace = ["sha256:new"] := by decide +kernel
  have listed : KeepsListed .default "web"
      ((watchedFleet 0).tick stackDocker stackConfig .default .empty).trace := by
    intro rows hrows
    rw [Fleet.rows_of_tick hrows]
    exact ⟨watchedRow, List.mem_cons_self, rfl, _, rfl, rfl, nofun⟩
  have finished : ((watchedFleet 0).tick stackDocker stackConfig .default .empty).out.isSome =
      true := by decide +kernel
  have told := Told.start.tick (Fleet.produces_after finished) listed
  rw [first] at told
  obtain ⟨fresh, last⟩ := announced_once told
    (Fleet.produces_tick (watchedFleet 300000000000) stackDocker stackConfig .default afterPoll)
  obtain ⟨rows, rest, hevents, within⟩ := @Fleet.first_visit (watchedFleet 300000000000) stackDocker
    stackConfig .default afterPoll watchedRow [] rfl
  obtain ⟨seen, at'⟩ := within.exists_seen
  have visited : nextVisit.out.isSome = true := by decide +kernel
  obtain ⟨s', hs'⟩ := Option.isSome_iff_exists.mp visited
  have produced : Produces (visit stackDocker stackConfig 300000000000 .default watchedRow
      ⟨afterPoll, [], []⟩) nextVisit.trace (some s') := by
    rw [← hs']
    exact play_produces _ _ 0
  exact ⟨first, fresh, seen, last _ seen _ _ _ s' _ ⟨rows, rest, hevents, at'⟩ (by decide) produced
    finds_nextVisit⟩

end Freshdock.Scheduler
