import Freshdock.Rollout.Moves
import Freshdock.Scheduler

/-!
# What a visit does

A tick visits the listed containers one after the other. A visit passes its container by, finds
it not due, fails to inspect it, or processes it; and when it processes it, the probe leads to an
update or to nothing that moves a container. The results of this file take a visit apart along
these cases (`produces_visit`, `produces_processContainer`), and a tick into its visits
(`VisitIn`).

**Updates.** `Applies` says that a visit went as far as to apply an update: the container passed
every gate, and its probe was answered with a newer digest than the one that is remembered as
failed.
-/

set_option autoImplicit false

namespace Freshdock.Scheduler

open Interaction Docker SelfId
open Labels (Policy PolicyDefaults Mode)
open Cron (Instant)
open Probe (ProbeOutcome ProbeTarget)

/-! ## Events that move nothing -/

/-- No container is moved. -/
def Unmoved (events : List CallEvent) : Prop := ∀ e ∈ events, e.call.moves = none

theorem quiet_unmoved : Quiet fun e => e.call.moves = none := by
  intro call reply hquiet
  cases call <;> first | rfl | cases hquiet

theorem Unmoved.append {first rest : List CallEvent} (hfirst : Unmoved first)
    (hrest : Unmoved rest) : Unmoved (first ++ rest) := by
  intro e he
  rcases List.mem_append.mp he with he | he
  · exact hfirst e he
  · exact hrest e he

theorem unmoved_of_emits {α : Type} {p : Prog α} {post : α → Prop} {events : List CallEvent}
    {out : Option α} (emits : Emits (fun _ => True) (fun e => e.call.moves = none) p post)
    (h : Produces p events out) : Unmoved events :=
  (emits events out h fun _ _ => trivial).1

/-- A request that moves nothing. -/
theorem emits_unmoved {call : Call} (still : call.moves = none) :
    Emits (fun _ => True) (fun e => e.call.moves = none) (request call) fun _ => True :=
  emits_request (fun _ => still) fun _ _ => trivial

theorem unmoved_of_resolveTarget {c : ContainerSummary} {events : List CallEvent}
    {out : Option (Except DockerError ProbeTarget)}
    (h : Produces (Probe.resolveTarget c).run events out) : Unmoved events := by
  refine @unmoved_of_emits _ _ (fun _ => True) _ _ ?_ h
  unfold Probe.resolveTarget
  split
  · exact emits_done trivial
  · split
    · split
      · exact emits_done trivial
      · exact emits_except_bind ((emits_inspect quiet_unmoved _).weaken fun _ _ _ _ => trivial)
          (fun _ => trivial) fun _ _ => emits_done trivial
    · exact emits_done trivial

theorem unmoved_of_probeImage {image : String} {events : List CallEvent}
    {out : Option ProbeOutcome} (h : Produces (Probe.probeImage image) events out) :
    Unmoved events := by
  refine @unmoved_of_emits _ _ (fun _ => True) _ _ ?_ h
  unfold Probe.probeImage
  split
  · exact emits_done trivial
  · refine emits_bind (emits_unmoved rfl) fun _ _ => ?_
    exact emits_bind (emits_unmoved rfl) fun _ _ => emits_done trivial

/-! ## Gates -/

/-- The gates before the schedule is asked. -/
structure Considered (cfg : SchedulerConfig) (settings : ResolvedSettings) (c : ContainerSummary)
    (sweep : Sweep) (policy : Policy) : Prop where
  notArchive : isArchiveName (containerName c) = false
  notHandled : containerName c ∉ sweep.handled
  parsed : Labels.parsePolicy (c.labels.getD fun _ => none) settings.policyDefaults = .ok policy
  enabled : policy.enabled = true
  mode : policy.mode ≠ .off
  notSelf : (policy.autoEnabled && isOwnContainer cfg.ownIdPrefix c.id) = false

/-- The schedule state that a visit works on: the one that is kept, or a fresh one. -/
def stateFor (cfg : SchedulerConfig) (now : Instant) (policy : Policy) (name : String)
    (sweep : Sweep) : ContainerState :=
  (sweep.memory.states.get? name).getD (seedState cfg.zone policy now)

/-- The sweep once the container passed the gates. -/
def seeded (cfg : SchedulerConfig) (now : Instant) (policy : Policy) (name : String)
    (sweep : Sweep) : Sweep :=
  (sweep.markLive name).setState name (stateFor cfg now policy name sweep)

/-- The sweep after the container was processed. -/
def settled (cfg : SchedulerConfig) (now : Instant) (policy : Policy) (name : String)
    (sweep : Sweep) (r : Processed × Option String) : Sweep :=
  ((seeded cfg now policy name sweep).setState name
    { advance cfg.zone policy now (stateFor cfg now policy name sweep) with
      lastNotifiedDigest := r.2 }).record r.1

section Visit

variable {docker : Docker} {cfg : SchedulerConfig} {now : Instant} {settings : ResolvedSettings}
  {c : ContainerSummary} {sweep : Sweep} {policy : Policy}

theorem visit_of_considered (h : Considered cfg settings c sweep policy) :
    visit docker cfg now settings c sweep =
      visitEnabled docker cfg now (containerName c) policy settings c
        (sweep.markLive (containerName c)) := by
  have hgate : ¬ (!policy.enabled || policy.mode == .off) = true := by
    simp [h.enabled, h.mode]
  unfold visit
  dsimp only
  rw [if_neg (Bool.eq_false_iff.mp h.notArchive), if_neg (by simpa using h.notHandled), h.parsed]
  dsimp only
  rw [if_neg hgate, if_neg (Bool.eq_false_iff.mp h.notSelf)]

/-- A container that does not pass the gates is passed by. -/
theorem visit_of_not_considered (h : ∀ policy, ¬ Considered cfg settings c sweep policy) :
    visit docker cfg now settings c sweep = pure sweep ∨
      visit docker cfg now settings c sweep = pure (sweep.markLive (containerName c)) := by
  unfold visit
  dsimp only
  split
  · exact .inl rfl
  next notArchive =>
  split
  · exact .inr rfl
  next notHandled =>
  split
  · exact .inr rfl
  next policy hpolicy =>
  split
  · exact .inl rfl
  next hgate =>
  split
  · exact .inr rfl
  next notSelf =>
  simp only [Bool.or_eq_true, Bool.not_eq_true', not_or, Bool.not_eq_false, beq_iff_eq] at hgate
  exact absurd ⟨Bool.eq_false_iff.mpr notArchive, by simpa using notHandled, hpolicy, hgate.1, hgate.2,
    Bool.eq_false_iff.mpr notSelf⟩ (h policy)

/-! ## The course of a visit -/

/-- How the visit of a container that passed the gates goes on: it is not due, it cannot be
inspected, or it is processed. -/
inductive Handling where
  | waited | notInspected | processed
  deriving DecidableEq, Repr

/-- The course of a visit, finished or not. -/
inductive Course (docker : Docker) (cfg : SchedulerConfig) (now : Instant)
    (settings : ResolvedSettings) (c : ContainerSummary) (sweep : Sweep) (policy : Policy) :
    Handling → List CallEvent → Option Sweep → Prop where
  | waited {out : Option Sweep} :
      due policy (stateFor cfg now policy (containerName c) sweep) now cfg.pollInterval = false →
      (∀ sweep', out = some sweep' → sweep' = seeded cfg now policy (containerName c) sweep) →
      Course docker cfg now settings c sweep policy .waited [] out
  | notInspected {events : List CallEvent} {resolved : Option (Except DockerError ProbeTarget)}
      {out : Option Sweep} :
      due policy (stateFor cfg now policy (containerName c) sweep) now cfg.pollInterval = true →
      Produces (Probe.resolveTarget c).run events resolved →
      (∀ sweep', out = some sweep' → ∃ e, resolved = some (.error e) ∧
        sweep' = (seeded cfg now policy (containerName c) sweep).setState (containerName c)
          (inspectFailed policy now (stateFor cfg now policy (containerName c) sweep))) →
      Course docker cfg now settings c sweep policy .notInspected events out
  | processed {first rest : List CallEvent} {target : ProbeTarget}
      {done : Option (Processed × Option String)} {out : Option Sweep} :
      due policy (stateFor cfg now policy (containerName c) sweep) now cfg.pollInterval = true →
      Produces (Probe.resolveTarget c).run first (some (.ok target)) →
      Produces (processContainer docker cfg now (containerName c) policy
        (c.labels.getD fun _ => none) target (sweep.memory.failed.get? (containerName c))
        (advance cfg.zone policy now
          (stateFor cfg now policy (containerName c) sweep)).lastNotifiedDigest settings) rest done →
      (∀ sweep', out = some sweep' → ∃ r, done = some r ∧
        sweep' = settled cfg now policy (containerName c) sweep r) →
      Course docker cfg now settings c sweep policy .processed (first ++ rest) out

/-- **A visit passes its container by, or takes one of its courses.** -/
theorem produces_visit {events : List CallEvent} {out : Option Sweep}
    (h : Produces (visit docker cfg now settings c sweep) events out) :
    ((∀ policy, ¬ Considered cfg settings c sweep policy) ∧ events = [] ∧
      ∀ sweep', out = some sweep' →
        sweep' = sweep ∨ sweep' = sweep.markLive (containerName c)) ∨
    ∃ policy handling, Considered cfg settings c sweep policy ∧
      Course docker cfg now settings c sweep policy handling events out := by
  by_cases hconsidered : ∃ policy, Considered cfg settings c sweep policy
  · obtain ⟨policy, considered⟩ := hconsidered
    rw [visit_of_considered considered] at h
    refine .inr ⟨policy, ?_⟩
    change Produces (if due policy (stateFor cfg now policy (containerName c) sweep) now
      cfg.pollInterval = true then _ else _) events out at h
    split at h
    · next hdue =>
      rcases h.of_bind with ⟨rfl, hresolve⟩ | ⟨first, resolved, rest, rfl, hresolve, hrest⟩
      · exact ⟨.notInspected, considered, .notInspected hdue hresolve nofun⟩
      · cases resolved with
        | error e =>
            obtain ⟨rfl, hout⟩ := produces_done_iff.mp hrest
            rw [List.append_nil]
            refine ⟨.notInspected, considered, .notInspected hdue hresolve fun sweep' hsweep => ?_⟩
            rcases hout with rfl | rfl
            · cases hsweep
              exact ⟨e, rfl, rfl⟩
            · cases hsweep
        | ok target =>
            refine ⟨.processed, considered, ?_⟩
            rcases hrest.of_bind with ⟨rfl, hprocess⟩ | ⟨more, r, last, rfl, hprocess, hlast⟩
            · exact .processed hdue hresolve hprocess nofun
            · obtain ⟨rfl, hout⟩ := produces_done_iff.mp hlast
              rw [List.append_nil]
              refine .processed hdue hresolve hprocess fun sweep' hsweep => ⟨r, rfl, ?_⟩
              rcases hout with rfl | rfl
              · cases hsweep
                rfl
              · cases hsweep
    · next hdue =>
      obtain ⟨rfl, hout⟩ := produces_done_iff.mp h
      refine ⟨.waited, considered, .waited (Bool.eq_false_iff.mpr hdue) fun sweep' hsweep => ?_⟩
      rcases hout with rfl | rfl
      · cases hsweep
        rfl
      · cases hsweep
  · have passed : ∀ policy, ¬ Considered cfg settings c sweep policy :=
      fun policy h => hconsidered ⟨policy, h⟩
    refine .inl ⟨passed, ?_⟩
    rcases @visit_of_not_considered docker _ now _ _ _ passed with hvisit | hvisit
    · rw [hvisit] at h
      obtain ⟨rfl, hout⟩ := produces_done_iff.mp h
      refine ⟨rfl, fun sweep' hsweep => ?_⟩
      rcases hout with rfl | rfl
      · cases hsweep
        exact .inl rfl
      · cases hsweep
    · rw [hvisit] at h
      obtain ⟨rfl, hout⟩ := produces_done_iff.mp h
      refine ⟨rfl, fun sweep' hsweep => ?_⟩
      rcases hout with rfl | rfl
      · cases hsweep
        exact .inr rfl
      · cases hsweep

end Visit

/-! ## What a tick keeps track of -/

/-- The row shows the container enabled. -/
def ShowsEnabled (settings : ResolvedSettings) (c : ContainerSummary) (policy : Policy) : Prop :=
  Labels.parsePolicy (c.labels.getD fun _ => none) settings.policyDefaults = .ok policy ∧
    policy.enabled = true ∧ policy.mode ≠ .off

section Live

variable {docker : Docker} {cfg : SchedulerConfig} {now : Instant} {settings : ResolvedSettings}
  {c : ContainerSummary} {sweep sweep' : Sweep} {policy : Policy} {events : List CallEvent}

/-- A visit forgets no container it saw, and sees a container that is enabled. -/
theorem live_of_visit (h : Produces (visit docker cfg now settings c sweep) events (some sweep')) :
    (∀ name ∈ sweep.live, name ∈ sweep'.live) ∧
      (isArchiveName (containerName c) = false → ∀ policy, ShowsEnabled settings c policy →
        containerName c ∈ sweep'.live) := by
  by_cases hconsidered : ∃ policy, Considered cfg settings c sweep policy
  · obtain ⟨policy, considered⟩ := hconsidered
    have hlive : sweep'.live = containerName c :: sweep.live := by
      rcases produces_visit h with ⟨passed, -⟩ | ⟨policy', handling, -, course⟩
      · exact absurd considered (passed policy)
      · cases course with
        | waited _ hout => rw [hout sweep' rfl]; rfl
        | notInspected _ _ hout =>
            obtain ⟨e, -, rfl⟩ := hout sweep' rfl
            rfl
        | processed _ _ _ hout =>
            obtain ⟨r, -, rfl⟩ := hout sweep' rfl
            rfl
    rw [hlive]
    exact ⟨fun name hname => List.mem_cons_of_mem _ hname, fun _ _ _ => List.mem_cons_self⟩
  · have passed : ∀ policy, ¬ Considered cfg settings c sweep policy :=
      fun policy h => hconsidered ⟨policy, h⟩
    refine ⟨fun name hname => ?_, fun notArchive policy enabled => ?_⟩
    · rcases @visit_of_not_considered docker _ now _ _ _ passed with hvisit | hvisit
      · rw [hvisit] at h
        obtain ⟨-, rfl⟩ := h.of_done
        exact hname
      · rw [hvisit] at h
        obtain ⟨-, rfl⟩ := h.of_done
        exact List.mem_cons_of_mem _ hname
    · obtain ⟨hparsed, henabled, hmode⟩ := enabled
      have hgate : ¬ (!policy.enabled || policy.mode == .off) = true := by simp [henabled, hmode]
      unfold visit at h
      dsimp only at h
      rw [if_neg (Bool.eq_false_iff.mp notArchive)] at h
      split at h
      · obtain ⟨-, rfl⟩ := h.of_done
        exact List.mem_cons_self
      · next notHandled =>
        rw [hparsed] at h
        dsimp only at h
        rw [if_neg hgate] at h
        split at h
        · obtain ⟨-, rfl⟩ := h.of_done
          exact List.mem_cons_self
        · next notSelf =>
          exact absurd ⟨notArchive, by simpa using notHandled, hparsed, henabled, hmode,
            Bool.eq_false_iff.mpr notSelf⟩ (passed policy)

end Live

/-! ## Probes -/

/-- What a probe found, and what of. -/
structure Found where
  target : ProbeTarget
  digests : Probe.LocalDigests
  latest : String
  tagImageId : Option String

/-- The image id that a rollout of the finding leaves alone. -/
def Found.current (found : Found) : Option String :=
  currentImage found.digests found.latest found.tagImageId

/-- What was found asks for an update: it is newer, the mode updates, and it is not what failed. -/
structure Found.Asks (found : Found) (policy : Policy) (lastFailed : Option String) : Prop where
  newer : Probe.updateAvailableFor found.digests found.latest found.target.imageId
    found.tagImageId = some true
  notWatched : policy.mode ≠ .watch
  notOff : policy.mode ≠ .off
  notFailed : lastFailed ≠ some found.latest

section Probed

variable {docker : Docker} {cfg : SchedulerConfig} {now : Instant} {settings : ResolvedSettings}
  {name : String} {policy : Policy} {labels : LabelMap} {lastFailed lastNotified : Option String}

theorem produces_actOnUpdate {found : Found} {events : List CallEvent}
    {out : Option (Processed × Option String)}
    (h : Produces (actOnUpdate docker cfg now name policy labels found.target found.digests
      found.latest found.tagImageId lastFailed lastNotified settings) events out) :
    (Unmoved events ∧ ∀ r, out = some r → r.1.handled = [] ∧ r.1.outcome = none) ∨
    policy.mode ≠ .watch ∧ policy.mode ≠ .off ∧ lastFailed ≠ some found.latest ∧
      ∃ done, Produces (applyUpdate docker cfg now name policy labels found.target.image
          found.latest found.current settings) events done ∧
        ∀ r, out = some r → ∃ processed, done = some processed ∧ r = (processed, lastNotified) := by
  have rests {r' : Processed × Option String} (hhandled : r'.1.handled = [])
      (houtcome : r'.1.outcome = none)
      (h : Produces (pure r' : Prog (Processed × Option String)) events out) :
      Unmoved events ∧ ∀ r, out = some r → r.1.handled = [] ∧ r.1.outcome = none := by
    obtain ⟨rfl, rfl | rfl⟩ := produces_done_iff.mp h
    · refine ⟨by simp [Unmoved], fun r hr => ?_⟩
      cases hr
      exact ⟨hhandled, houtcome⟩
    · exact ⟨by simp [Unmoved], nofun⟩
  have acts (hwatch : policy.mode ≠ .watch) (hoff : policy.mode ≠ .off)
      (h : Produces (if lastFailed = some found.latest then
          pure (Processed.probed .notUpdated, lastNotified)
        else do
          let processed ← applyUpdate docker cfg now name policy labels found.target.image
            found.latest (currentImage found.digests found.latest found.tagImageId) settings
          pure (processed, lastNotified)) events out) :
      (Unmoved events ∧ ∀ r, out = some r → r.1.handled = [] ∧ r.1.outcome = none) ∨
      policy.mode ≠ .watch ∧ policy.mode ≠ .off ∧ lastFailed ≠ some found.latest ∧
        ∃ done, Produces (applyUpdate docker cfg now name policy labels found.target.image
            found.latest found.current settings) events done ∧
          ∀ r, out = some r → ∃ processed, done = some processed ∧ r = (processed, lastNotified) := by
    split at h
    · exact .inl (rests rfl rfl h)
    · next hfailed =>
      refine .inr ⟨hwatch, hoff, hfailed, ?_⟩
      rcases h.of_bind with ⟨rfl, happly⟩ | ⟨first, processed, rest, rfl, happly, hrest⟩
      · exact ⟨none, happly, nofun⟩
      · obtain ⟨rfl, rfl | rfl⟩ := produces_done_iff.mp hrest
        · refine ⟨some processed, by rwa [List.append_nil], fun r hr => ?_⟩
          cases hr
          exact ⟨processed, rfl, rfl⟩
        · exact ⟨some processed, by rwa [List.append_nil], nofun⟩
  unfold actOnUpdate at h
  cases hmode : policy.mode with
  | watch =>
      simp only [hmode, reportAvailable] at h
      split at h
      · rcases h.of_bind with ⟨rfl, hreq⟩ | ⟨first, _, rest, rfl, hreq, hrest⟩
        · exact .inl ⟨unmoved_of_emits (emits_unmoved rfl) hreq, nofun⟩
        · obtain ⟨hunmoved, hout⟩ : Unmoved rest ∧ ∀ r, out = some r → r.1.handled = [] ∧
              r.1.outcome = none := by
            obtain ⟨rfl, rfl | rfl⟩ := produces_done_iff.mp hrest
            · refine ⟨by simp [Unmoved], fun r hr => ?_⟩
              cases hr
              exact ⟨rfl, rfl⟩
            · exact ⟨by simp [Unmoved], nofun⟩
          exact .inl ⟨(unmoved_of_emits (emits_unmoved rfl) hreq).append hunmoved, hout⟩
      · exact .inl (rests rfl rfl h)
  | off =>
      simp only [hmode] at h
      exact .inl (rests rfl rfl h)
  | live | nightly | weekly | monthly =>
      simp only [hmode] at h
      rw [← hmode]
      exact acts (by simp [hmode]) (by simp [hmode]) h

/-- A finding that asks for an update gets it. -/
theorem actOnProbe_of_asks {found : Found} (asks : found.Asks policy lastFailed) :
    actOnProbe docker cfg now name policy labels found.target lastFailed lastNotified settings
      (.fetched found.digests found.latest found.tagImageId) = (do
        let processed ← applyUpdate docker cfg now name policy labels found.target.image found.latest
          found.current settings
        pure (processed, lastNotified)) := by
  simp only [actOnProbe, asks.newer]
  unfold actOnUpdate
  cases hmode : policy.mode with
  | watch => exact absurd hmode asks.notWatched
  | off => exact absurd hmode asks.notOff
  | live | nightly | weekly | monthly =>
      dsimp only
      rw [if_neg asks.notFailed]
      rfl

/-- **The probe of a processed container leads to no move, or to an update that it asks for.** -/
theorem produces_processContainer {target : ProbeTarget} {events : List CallEvent}
    {out : Option (Processed × Option String)}
    (h : Produces (processContainer docker cfg now name policy labels target lastFailed lastNotified
      settings) events out) :
    (Unmoved events ∧ ∀ r, out = some r → r.1.handled = [] ∧ r.1.outcome = none) ∨
    ∃ found : Found, ∃ probe rest done, found.target = target ∧ found.Asks policy lastFailed ∧
      events = probe ++ rest ∧
      Produces (Probe.probeImage target.image) probe
        (some (.fetched found.digests found.latest found.tagImageId)) ∧
      Produces (applyUpdate docker cfg now name policy labels target.image found.latest
        found.current settings) rest done ∧
      ∀ r, out = some r → ∃ processed, done = some processed ∧ r = (processed, lastNotified) := by
  rcases h.of_bind with ⟨rfl, hprobe⟩ | ⟨probe, outcome, rest, rfl, hprobe, hrest⟩
  · exact .inl ⟨unmoved_of_probeImage hprobe, nofun⟩
  have quiet := unmoved_of_probeImage hprobe
  have rests {r' : Processed × Option String} (hhandled : r'.1.handled = [])
      (houtcome : r'.1.outcome = none)
      (h : Produces (pure r' : Prog (Processed × Option String)) rest out) :
      Unmoved (probe ++ rest) ∧ ∀ r, out = some r → r.1.handled = [] ∧ r.1.outcome = none := by
    obtain ⟨rfl, rfl | rfl⟩ := produces_done_iff.mp h
    · refine ⟨by rwa [List.append_nil], fun r hr => ?_⟩
      cases hr
      exact ⟨hhandled, houtcome⟩
    · exact ⟨by rwa [List.append_nil], nofun⟩
  cases outcome with
  | fetched digests latest tag =>
      simp only [actOnProbe] at hrest
      split at hrest
      · exact .inl (rests rfl rfl hrest)
      · exact .inl (rests rfl rfl hrest)
      · next hnewer =>
        rcases @produces_actOnUpdate _ _ _ _ _ _ _ _ _ ⟨target, digests, latest, tag⟩ _ _ hrest with
          ⟨hunmoved, hout⟩ | ⟨hwatch, hoff, hfailed, done, happly, hout⟩
        · exact .inl ⟨quiet.append hunmoved, hout⟩
        · exact .inr ⟨⟨target, digests, latest, tag⟩, probe, rest, done, rfl,
            ⟨hnewer, hwatch, hoff, hfailed⟩, rfl, hprobe, happly, hout⟩
  | pinned | authRequired | credentialsRejected | networkUnavailable | error _ =>
      exact .inl (rests rfl rfl hrest)

end Probed

/-! ## Visits that update -/

/-- The visit applied an update: `front` is what it read, `rest` is the update. -/
structure Applies (docker : Docker) (cfg : SchedulerConfig) (now : Instant)
    (settings : ResolvedSettings) (c : ContainerSummary) (sweep : Sweep) (policy : Policy)
    (found : Found) (front rest : List CallEvent) (done : Option Processed) : Prop where
  considered : Considered cfg settings c sweep policy
  due : due policy (stateFor cfg now policy (containerName c) sweep) now cfg.pollInterval = true
  asks : found.Asks policy (sweep.memory.failed.get? (containerName c))
  read : ∃ first second, front = first ++ second ∧
    Produces (Probe.resolveTarget c).run first (some (.ok found.target)) ∧
    Produces (Probe.probeImage found.target.image) second
      (some (.fetched found.digests found.latest found.tagImageId))
  applied : Produces (applyUpdate docker cfg now (containerName c) policy
    (c.labels.getD fun _ => none) found.target.image found.latest found.current settings) rest done

section Cases

variable {docker : Docker} {cfg : SchedulerConfig} {now : Instant} {settings : ResolvedSettings}
  {c : ContainerSummary} {sweep : Sweep} {events : List CallEvent} {out : Option Sweep}

theorem Applies.unmoved {policy : Policy} {found : Found} {front rest : List CallEvent}
    {done : Option Processed}
    (h : Applies docker cfg now settings c sweep policy found front rest done) : Unmoved front := by
  obtain ⟨first, second, rfl, hfirst, hsecond⟩ := h.read
  exact (unmoved_of_resolveTarget hfirst).append (unmoved_of_probeImage hsecond)

/-- A visit whose update finished is finished. -/
theorem Applies.produces {policy : Policy} {found : Found} {front rest : List CallEvent}
    {r : Processed}
    (h : Applies docker cfg now settings c sweep policy found front rest (some r)) :
    ∃ notified, Produces (visit docker cfg now settings c sweep) (front ++ rest)
      (some (settled cfg now policy (containerName c) sweep (r, notified))) := by
  obtain ⟨first, second, rfl, hresolve, hprobe⟩ := h.read
  let state := stateFor cfg now policy (containerName c) sweep
  let notified := (advance cfg.zone policy now state).lastNotifiedDigest
  have hprocessed : Produces (processContainer docker cfg now (containerName c) policy
      (c.labels.getD fun _ => none) found.target (sweep.memory.failed.get? (containerName c))
      notified settings) (second ++ rest) (some (r, notified)) := by
    refine hprobe.bind ?_
    rw [actOnProbe_of_asks h.asks, ← List.append_nil rest]
    exact h.applied.bind (.done _)
  refine ⟨notified, ?_⟩
  rw [visit_of_considered h.considered, List.append_assoc]
  change Produces (if Scheduler.due policy state now cfg.pollInterval = true then _ else _) _ _
  rw [if_pos h.due]
  refine hresolve.bind ?_
  rw [← List.append_nil (second ++ rest)]
  exact hprocessed.bind (.done _)

/-- **A visit moves nothing and remembers nothing, or it applies an update.** -/
theorem visit_cases (h : Produces (visit docker cfg now settings c sweep) events out) :
    (Unmoved events ∧ ∀ sweep', out = some sweep' →
      sweep'.memory.failed = sweep.memory.failed ∧ sweep'.handled = sweep.handled) ∨
    ∃ policy found front rest done, events = front ++ rest ∧
      Applies docker cfg now settings c sweep policy found front rest done ∧
      ∀ sweep', out = some sweep' → ∃ processed, done = some processed ∧
        sweep'.memory.failed = (sweep.memory.remember processed.outcome).failed ∧
        sweep'.handled = sweep.handled ++ processed.handled := by
  rcases produces_visit h with ⟨-, rfl, hout⟩ | ⟨policy, handling, considered, course⟩
  · refine .inl ⟨by simp [Unmoved], fun sweep' hsweep => ?_⟩
    rcases hout sweep' hsweep with rfl | rfl <;> exact ⟨rfl, rfl⟩
  cases course with
  | waited _ hout =>
      refine .inl ⟨by simp [Unmoved], fun sweep' hsweep => ?_⟩
      rw [hout sweep' hsweep]
      exact ⟨rfl, rfl⟩
  | notInspected _ hresolve hout =>
      refine .inl ⟨unmoved_of_resolveTarget hresolve, fun sweep' hsweep => ?_⟩
      obtain ⟨e, -, rfl⟩ := hout sweep' hsweep
      exact ⟨rfl, rfl⟩
  | @processed first rest target done out hdue hresolve hprocess hout =>
      have kept (r : Processed × Option String) :
          (settled cfg now policy (containerName c) sweep r).memory.failed =
            (sweep.memory.remember r.1.outcome).failed := by
        simp only [settled, Sweep.record, seeded, Sweep.setState, Sweep.markLive]
        cases r.1.outcome with
        | none => rfl
        | some outcome => cases outcome <;> rfl
      rcases produces_processContainer hprocess with ⟨hunmoved, hdone⟩ |
          ⟨found, probe, more, applied, rfl, asks, rfl, hprobe, happly, hdone⟩
      · refine .inl ⟨(unmoved_of_resolveTarget hresolve).append hunmoved, fun sweep' hsweep => ?_⟩
        obtain ⟨r, rfl, rfl⟩ := hout sweep' hsweep
        obtain ⟨hhandled, houtcome⟩ := hdone r rfl
        rw [kept, houtcome]
        refine ⟨rfl, ?_⟩
        simp [settled, Sweep.record, seeded, Sweep.setState, Sweep.markLive, hhandled]
      · refine .inr ⟨policy, found, first ++ probe, more, applied, by simp,
          ⟨considered, hdue, asks, ⟨first, probe, rfl, hresolve, hprobe⟩, happly⟩,
          fun sweep' hsweep => ?_⟩
        obtain ⟨r, rfl, rfl⟩ := hout sweep' hsweep
        obtain ⟨processed, rfl, rfl⟩ := hdone r rfl
        exact ⟨processed, rfl, kept _, rfl⟩

end Cases

/-! ## Ticks -/

section Ticks

variable (docker : Docker) (cfg : SchedulerConfig) (settings : ResolvedSettings)

/-- The visit of a container from a sweep, in the observation of the sweep over `rows`. -/
inductive VisitIn (now : Instant) : List ContainerSummary → Sweep → List CallEvent →
    ContainerSummary → Sweep → List CallEvent → Prop where
  | here {c : ContainerSummary} {rows : List ContainerSummary} {sweep : Sweep}
      {part rest : List CallEvent} {out : Option Sweep} :
      Produces (visit docker cfg now settings c sweep) part out →
      VisitIn now (c :: rows) sweep (⟨.shutdownRequested, some false⟩ :: part ++ rest) c sweep part
  | later {c c' : ContainerSummary} {rows : List ContainerSummary} {sweep sweep' sweep'' : Sweep}
      {first rest part : List CallEvent} :
      Produces (visit docker cfg now settings c sweep) first (some sweep') →
      VisitIn now rows sweep' rest c' sweep'' part →
      VisitIn now (c :: rows) sweep (⟨.shutdownRequested, some false⟩ :: first ++ rest) c' sweep'' part

/-- The visit of a container in the observation of a tick. -/
def TickVisit (memory : Memory) (events : List CallEvent) (now : Instant) (c : ContainerSummary)
    (sweep : Sweep) (part : List CallEvent) : Prop :=
  ∃ rows rest, events = ⟨.listRunning, some (.ok rows)⟩ :: ⟨.localTime, some now⟩ :: rest ∧
    VisitIn docker cfg settings now rows ⟨memory, [], []⟩ rest c sweep part

/-- A tick that left `memory'`, and was `good`. -/
def TickTo (good : Memory → List CallEvent → Prop) (memory memory' : Memory) : Prop :=
  ∃ events, Produces (runTick docker cfg settings memory) events (some memory') ∧ good memory events

/-- `memory'` is what ticks that are all good leave, starting from `memory`. -/
def Reaches (good : Memory → List CallEvent → Prop) : Memory → Memory → Prop :=
  Relation.ReflTransGen (TickTo docker cfg settings good)

end Ticks

section Within

variable {docker : Docker} {cfg : SchedulerConfig} {settings : ResolvedSettings} {now : Instant}

theorem VisitIn.row_mem {rows : List ContainerSummary} {sweep s : Sweep}
    {events part : List CallEvent} {c : ContainerSummary}
    (h : VisitIn docker cfg settings now rows sweep events c s part) : c ∈ rows := by
  induction h with
  | here _ => exact List.mem_cons_self
  | later _ _ ih => exact List.mem_cons_of_mem _ ih

theorem VisitIn.last {row : ContainerSummary} {rows : List ContainerSummary} {sweep : Sweep}
    {part : List CallEvent} {out : Option Sweep}
    (h : Produces (visit docker cfg now settings row sweep) part out) :
    VisitIn docker cfg settings now (row :: rows) sweep (⟨.shutdownRequested, some false⟩ :: part) row
      sweep part := by
  have within := @VisitIn.here docker cfg settings now row rows sweep part [] out h
  rwa [List.append_nil] at within

theorem VisitIn.single {row c : ContainerSummary} {sweep s : Sweep} {events part : List CallEvent}
    (h : VisitIn docker cfg settings now [row] sweep events c s part) : c = row ∧ s = sweep := by
  cases h with
  | here _ => exact ⟨rfl, rfl⟩
  | later _ h => cases h

/-- The events of a visit are events of its sweep. -/
theorem VisitIn.mem {rows : List ContainerSummary} {sweep s : Sweep}
    {events part : List CallEvent} {c : ContainerSummary}
    (h : VisitIn docker cfg settings now rows sweep events c s part) {e : CallEvent}
    (he : e ∈ part) : e ∈ events := by
  induction h with
  | here _ => exact List.mem_append_left _ (List.mem_cons_of_mem _ he)
  | later _ _ ih => exact List.mem_append_right _ (ih he)

theorem TickVisit.mem {memory : Memory} {s : Sweep} {events part : List CallEvent}
    {c : ContainerSummary} (h : TickVisit docker cfg settings memory events now c s part)
    {e : CallEvent} (he : e ∈ part) : e ∈ events := by
  obtain ⟨rows, rest, rfl, within⟩ := h
  exact List.mem_cons_of_mem _ (List.mem_cons_of_mem _ (within.mem he))

/-- A visited container is one that the tick was listed. -/
theorem TickVisit.listed {memory : Memory} {s : Sweep} {events part : List CallEvent}
    {c : ContainerSummary} (h : TickVisit docker cfg settings memory events now c s part) :
    ∃ rows, ⟨.listRunning, some (.ok rows)⟩ ∈ events ∧ c ∈ rows := by
  obtain ⟨rows, rest, rfl, within⟩ := h
  exact ⟨rows, List.mem_cons_self, within.row_mem⟩

end Within

section Rules

variable {docker : Docker} {cfg : SchedulerConfig} {settings : ResolvedSettings} {now : Instant}

/-- **The rule for a sweep.** What every visit preserves, and what every visit of the sweep keeps
from there, holds along the whole of it. -/
theorem sweep_rule (inv : Sweep → Prop) (guar : CallEvent → Prop)
    (shutdown : ∀ reply, guar ⟨.shutdownRequested, reply⟩) {rows : List ContainerSummary}
    {sweep : Sweep} {events : List CallEvent} {out : Option (Sweep × Bool)}
    (h : Produces (sweepContainers docker cfg now settings rows sweep) events out)
    (step : ∀ c s part out', VisitIn docker cfg settings now rows sweep events c s part → inv s →
      Produces (visit docker cfg now settings c s) part out' →
      (∀ e ∈ part, guar e) ∧ ∀ s', out' = some s' → inv s')
    (start : inv sweep) : (∀ e ∈ events, guar e) ∧ ∀ r, out = some r → inv r.1 := by
  induction rows generalizing sweep events with
  | nil =>
      obtain ⟨rfl, rfl | rfl⟩ := produces_done_iff.mp h
      · refine ⟨by simp, fun r hr => ?_⟩
        cases hr
        exact start
      · exact ⟨by simp, nofun⟩
  | cons c rows ih =>
      cases h with
      | cut => exact ⟨by simp, nofun⟩
      | unanswered => exact ⟨by simpa using shutdown none, nofun⟩
      | answered _ _ stopping h =>
          cases stopping with
          | true =>
              obtain ⟨rfl, rfl | rfl⟩ := produces_done_iff.mp h
              · refine ⟨by simpa using shutdown _, fun r hr => ?_⟩
                cases hr
                exact start
              · exact ⟨by simpa using shutdown _, nofun⟩
          | false =>
              change Produces (visit docker cfg now settings c sweep >>= fun sweep =>
                sweepContainers docker cfg now settings rows sweep) _ out at h
              rcases h.of_bind with ⟨rfl, hvisit⟩ | ⟨first, s', rest, rfl, hvisit, hrest⟩
              · have hstep := step c sweep _ _ (.last hvisit) start
                  hvisit
                refine ⟨fun e he => ?_, nofun⟩
                rcases List.mem_cons.mp he with rfl | he
                · exact shutdown _
                · exact hstep.1 e he
              · have hstep := step c sweep _ _ (.here hvisit) start hvisit
                have hlater := ih hrest (fun c s part out' within => step c s part out' (.later hvisit
                  within)) (hstep.2 s' rfl)
                refine ⟨fun e he => ?_, hlater.2⟩
                rcases List.mem_cons.mp he with rfl | he
                · exact shutdown _
                · rcases List.mem_append.mp he with he | he
                  · exact hstep.1 e he
                  · exact hlater.1 e he

/-- **The rule for a sweep that visited all.** What the visit of a container establishes, and what
every visit preserves, holds at the end for each container. -/
theorem sweep_establishes (est : ContainerSummary → Sweep → Prop) {rows : List ContainerSummary}
    {sweep sweep' : Sweep} {events : List CallEvent}
    (h : Produces (sweepContainers docker cfg now settings rows sweep) events (some (sweep', true)))
    (establishes : ∀ c s part s', VisitIn docker cfg settings now rows sweep events c s part →
      Produces (visit docker cfg now settings c s) part (some s') → est c s')
    (preserves : ∀ c c' s part s', VisitIn docker cfg settings now rows sweep events c s part →
      Produces (visit docker cfg now settings c s) part (some s') → est c' s → est c' s') :
    (∀ c ∈ rows, est c sweep') ∧ ∀ c, est c sweep → est c sweep' := by
  induction rows generalizing sweep events with
  | nil =>
      obtain ⟨rfl, hout⟩ := h.of_done
      cases hout
      exact ⟨by simp, fun _ h => h⟩
  | cons c rows ih =>
      obtain ⟨asked, stopping, rest, rfl, hasked, hrest⟩ := h.of_bind_some
      obtain rfl := hasked.of_request
      cases stopping with
      | true =>
          obtain ⟨-, hout⟩ := hrest.of_done
          cases hout
      | false =>
          change Produces (visit docker cfg now settings c sweep >>= fun sweep =>
            sweepContainers docker cfg now settings rows sweep) _ _ at hrest
          obtain ⟨first, s', more, rfl, hvisit, hmore⟩ := hrest.of_bind_some
          rw [List.singleton_append, ← List.cons_append] at establishes preserves
          obtain ⟨hrows, hkept⟩ := ih hmore
            (fun c s part s'' within => establishes c s part s'' (.later hvisit within))
            (fun c c' s part s'' within => preserves c c' s part s'' (.later hvisit within))
          refine ⟨fun c' hc' => ?_, fun c' hc' => ?_⟩
          · rcases List.mem_cons.mp hc' with rfl | hc'
            · exact hkept c' (establishes c' sweep first s' (.here hvisit) hvisit)
            · exact hrows c' hc'
          · exact hkept c' (preserves c c' sweep first s' (.here hvisit) hvisit hc')

end Rules

/-- **A tick lists nothing and changes nothing, or it sweeps the listed containers.** -/
theorem produces_runTick {docker : Docker} {cfg : SchedulerConfig} {settings : ResolvedSettings}
    {memory : Memory} {events : List CallEvent} {out : Option Memory}
    (h : Produces (runTick docker cfg settings memory) events out) :
    (Unmoved events ∧ ∀ memory', out = some memory' →
      memory' = memory ∧ ∃ e, events = [⟨.listRunning, some (.error e)⟩]) ∨
    ∃ rows now rest swept, events = ⟨.listRunning, some (.ok rows)⟩ :: ⟨.localTime, some now⟩ :: rest ∧
      Produces (sweepContainers docker cfg now settings rows ⟨memory, [], []⟩) rest swept ∧
      ∀ memory', out = some memory' → ∃ sweep complete, swept = some (sweep, complete) ∧
        memory' = sweep.finish complete := by
  rcases h.of_bind with ⟨rfl, hlist⟩ | ⟨first, listed, rest, rfl, hlist, hrest⟩
  · exact .inl ⟨unmoved_of_emits (emits_unmoved rfl) hlist, nofun⟩
  have hlisted : first = [⟨.listRunning, some listed⟩] := hlist.of_request
  subst hlisted
  cases listed with
  | error e =>
      obtain ⟨rfl, hout⟩ := produces_done_iff.mp hrest
      refine .inl ⟨by simp [Unmoved, Call.moves], fun memory' hmemory => ?_⟩
      rcases hout with rfl | rfl
      · exact ⟨(Option.some.inj hmemory).symm, e, rfl⟩
      · cases hmemory
  | ok rows =>
      change Produces (request .localTime >>= fun now =>
        sweepContainers docker cfg now settings rows ⟨memory, [], []⟩ >>= fun r =>
          pure (r.1.finish r.2)) rest out at hrest
      rcases hrest.of_bind with ⟨rfl, htime⟩ | ⟨clock, now, more, rfl, htime, hmore⟩
      · refine .inl ⟨?_, nofun⟩
        have hquiet := unmoved_of_emits (emits_unmoved rfl) htime
        exact Unmoved.append (by simp [Unmoved, Call.moves]) hquiet
      · obtain rfl := htime.of_request
        refine .inr ⟨rows, now, more, ?_⟩
        rcases hmore.of_bind with ⟨rfl, hsweep⟩ | ⟨swept, r, last, rfl, hsweep, hlast⟩
        · exact ⟨none, rfl, hsweep, nofun⟩
        · obtain ⟨rfl, hout⟩ := produces_done_iff.mp hlast
          rw [List.append_nil]
          refine ⟨some r, rfl, hsweep, fun memory' hmemory => ⟨r.1, r.2, rfl, ?_⟩⟩
          rcases hout with rfl | rfl
          · exact (Option.some.inj hmemory).symm
          · cases hmemory

/-- A finished tick that listed containers ends with their sweep. -/
theorem swept_of_runTick {docker : Docker} {cfg : SchedulerConfig} {settings : ResolvedSettings}
    {memory memory' : Memory} {rows : List ContainerSummary} {now : Instant}
    {rest : List CallEvent}
    (h : Produces (runTick docker cfg settings memory)
      (⟨.listRunning, some (.ok rows)⟩ :: ⟨.localTime, some now⟩ :: rest) (some memory')) :
    ∃ sweep complete,
      Produces (sweepContainers docker cfg now settings rows ⟨memory, [], []⟩) rest
        (some (sweep, complete)) ∧ memory' = sweep.finish complete := by
  rcases produces_runTick h with ⟨-, hout⟩ | ⟨rows', now', rest', swept, hevents, hswept, hout⟩
  · obtain ⟨-, e, hevents⟩ := hout memory' rfl
    cases hevents
  obtain ⟨hlist, hevents⟩ := List.cons.inj hevents
  obtain ⟨htime, rfl⟩ := List.cons.inj hevents
  obtain rfl := Except.ok.inj (Option.some.inj (Event.reply_inj hlist))
  obtain rfl : now = now' := Option.some.inj (Event.reply_inj htime)
  obtain ⟨sweep, complete, rfl, hmemory⟩ := hout memory' rfl
  exact ⟨sweep, complete, hswept, hmemory⟩

/-- At the end of a tick that visited all containers, the enabled ones were seen. -/
theorem live_of_complete {docker : Docker} {cfg : SchedulerConfig} {settings : ResolvedSettings}
    {now : Instant} {rows : List ContainerSummary} {sweep sweep' : Sweep} {events : List CallEvent}
    (h : Produces (sweepContainers docker cfg now settings rows sweep) events (some (sweep', true)))
    {c : ContainerSummary} (hc : c ∈ rows) (notArchive : isArchiveName (containerName c) = false)
    {policy : Policy} (enabled : ShowsEnabled settings c policy) :
    containerName c ∈ sweep'.live :=
  (@sweep_establishes docker cfg settings now (fun c s => isArchiveName (containerName c) = false →
      ∀ policy, ShowsEnabled settings c policy → containerName c ∈ s.live) _ _ _ _ h
    (fun _ _ _ _ _ hvisit => (live_of_visit hvisit).2)
    fun _ _ _ _ _ _ hvisit seen notArchive policy enabled =>
      (live_of_visit hvisit).1 _ (seen notArchive policy enabled)).1 c hc notArchive policy enabled

end Freshdock.Scheduler
