import Freshdock.Registry.Tokens
import Freshdock.Scheduler.Fleet
import Freshdock.Scheduler.Footprint
import Freshdock.System

/-!
# What a tick costs the registries

A visit asks for one digest at most, and nothing that it starts asks for another one. So the
containers that a tick was listed bound what it sends to registries, however these answer: two
requests for a manifest for each container, two for a token, and credentials once
(`tick_asks_little`).
-/

set_option autoImplicit false

namespace Freshdock.System

open Interaction Registry Notify Docker Scheduler
open Cron (Instant)
open Labels (Policy)

/-! ## Fetches of a tick -/

/-- A question for the digest of an image. -/
def isFetch (e : CallEvent) : Bool :=
  match e.call with
  | .fetchDigest _ => true
  | _ => false

/-- Applying an update asks for no digest. -/
theorem atMost_of_updates {α : Type} {p : Prog α} (h : Updates p) : AtMost isFetch 0 p :=
  h.atMost fun e he => by
    obtain ⟨call, reply⟩ := e
    cases call <;> first | rfl | cases he

theorem atMost_of_operates {α : Type} {p : Prog α} (h : Operates p) : AtMost isFetch 0 p :=
  atMost_of_updates (updates_of_operates h)

theorem atMost_of_not_fetch {c : Call} (h : ∀ reply, isFetch ⟨c, reply⟩ = false) :
    AtMost isFetch 0 (request c) := by
  have only : (request c : Prog c.Reply).Only fun c' => ∀ reply, isFetch ⟨c', reply⟩ = false :=
    Program.only_request h
  exact only.atMost fun e he => he e.reply

section Tick

variable {docker : Docker} {cfg : SchedulerConfig} {settings : ResolvedSettings} {now : Instant}

theorem atMost_probeImage (image : String) : AtMost isFetch 1 (Probe.probeImage image) := by
  unfold Probe.probeImage
  split
  · exact (atMost_done _).mono (Nat.zero_le 1)
  · refine atMost_bind (m := 0) (n := 1) (atMost_of_operates (operates_call rfl)) fun inspected => ?_
    exact atMost_bind (m := 1) (n := 0) (atMost_request _) fun _ => atMost_done _

theorem atMost_actOnProbe (name : String) (policy : Policy) (labels : LabelMap)
    (target : Probe.ProbeTarget) (lastFailed lastNotified : Option String)
    (outcome : Probe.ProbeOutcome) :
    AtMost isFetch 0 (actOnProbe docker cfg now name policy labels target lastFailed lastNotified
      settings outcome) := by
  unfold actOnProbe
  split
  · split
    · exact atMost_done _
    · exact atMost_done _
    · unfold actOnUpdate
      split
      · unfold reportAvailable
        split
        · exact atMost_bind (m := 0) (n := 0) (atMost_of_not_fetch fun _ => rfl) fun _ => atMost_done _
        · exact atMost_done _
      · exact atMost_done _
      all_goals
        split
        · exact atMost_done _
        · exact atMost_bind (m := 0) (n := 0) (atMost_of_updates (updates_applyUpdate _ _ _ _ _ _ _ _ _ _))
            fun _ => atMost_done _
  all_goals exact atMost_done _

/-- A visit asks for one digest at most. -/
theorem atMost_visit (c : ContainerSummary) (sweep : Sweep) :
    AtMost isFetch 1 (visit docker cfg now settings c sweep) := by
  have passed (sweep : Sweep) : AtMost isFetch 1 (pure sweep : Prog Sweep) :=
    (atMost_done _).mono (Nat.zero_le 1)
  unfold visit
  dsimp only
  split
  · exact passed _
  split
  · exact passed _
  split
  · exact passed _
  split
  · exact passed _
  split
  · exact passed _
  unfold visitEnabled
  dsimp only
  split
  · refine atMost_bind (m := 0) (n := 1) (atMost_of_operates (operates_of_works (works_resolveTarget c)))
      fun target => ?_
    cases target with
    | error e => exact passed _
    | ok target =>
        refine atMost_bind (m := 1) (n := 0) ?_ fun _ => atMost_done _
        exact atMost_bind (m := 1) (n := 0) (atMost_probeImage _) fun _ =>
          atMost_actOnProbe _ _ _ _ _ _ _
  · exact passed _

/-- A sweep asks for one digest at most for each container. -/
theorem atMost_sweepContainers (rows : List ContainerSummary) (sweep : Sweep) :
    AtMost isFetch rows.length (sweepContainers docker cfg now settings rows sweep) := by
  induction rows generalizing sweep with
  | nil => exact atMost_done _
  | cons c rows ih =>
      have hbind := atMost_bind (m := 0) (n := 1 + rows.length)
        (atMost_of_not_fetch (c := .shutdownRequested) fun _ => rfl)
        (k := fun stopping : Bool =>
          if stopping then pure (sweep, false)
          else do
            let sweep ← visit docker cfg now settings c sweep
            sweepContainers docker cfg now settings rows sweep) fun stopping => ?_
      · exact hbind.mono (by rw [List.length_cons]; omega)
      · cases stopping with
        | true => exact (atMost_done _).mono (Nat.zero_le _)
        | false => exact atMost_bind (atMost_visit c sweep) fun sweep => ih sweep

theorem fetches_of_tick {memory : Memory} {events : List CallEvent} {out : Option Memory}
    (h : Produces (runTick docker cfg settings memory) events out) :
    events.countP isFetch ≤ (rowsListed events).length := by
  rcases h.of_bind with ⟨-, hlist⟩ | ⟨first, listed, rest, rfl, hlist, hrest⟩
  · exact Nat.le_trans (atMost_of_operates (operates_call rfl) _ _ hlist) (Nat.zero_le _)
  obtain rfl := (of_call hlist).of_request
  cases listed with
  | error e =>
      obtain ⟨rfl, -⟩ := produces_done_iff.mp hrest
      exact Nat.zero_le _
  | ok rows =>
      have hover : AtMost isFetch (0 + (rows.length + 0)) (tickOver docker cfg settings memory (.ok rows)) :=
        atMost_bind (atMost_of_not_fetch fun _ => rfl) fun now =>
          atMost_bind (atMost_sweepContainers rows _) fun _ => atMost_done _
      have hcount := hover _ _ hrest
      rw [Nat.zero_add, Nat.add_zero] at hcount
      change rest.countP isFetch ≤ rows.length
      exact hcount

end Tick

/-! ## Requests of a tick -/

/-- An event at a registry that is hit. -/
def overRegistry (hit : RegistryEvent → Bool) : SystemEvent → Bool
  | ⟨.registry c, reply⟩ => hit ⟨c, reply⟩
  | _ => false

/-- The containers that a tick was listed, in the system. -/
def rowsSeen : List SystemEvent → List ContainerSummary
  | ⟨.host .listRunning, some (.ok rows)⟩ :: _ => rows
  | _ => []

section Requests

variable {registry : OciRegistry} {targets : List Target} {below : List SystemEvent}

/-- Only fetches make requests to a registry. -/
theorem countP_of_carriedOut {hit : RegistryEvent → Bool} {n : Nat}
    (each : ∀ image, AtMost hit n (registry.fetchDigest image).run) {c : Call}
    {run : List SystemEvent} {reply : Option c.Reply} (h : CarriedOut registry targets c run reply) :
    run.countP (overRegistry hit) ≤ if isFetch ⟨c, reply⟩ then n else 0 := by
  cases h with
  | @fetched image events _ hfetch =>
      rw [List.countP_map]
      exact each image events _ hfetch
  | dispatched _ =>
      rw [List.countP_map]
      refine Nat.le_trans (Nat.le_of_eq (List.countP_eq_zero.mpr fun e _ => ?_)) (Nat.zero_le _)
      exact Bool.false_ne_true
  | host _ _ hhost =>
      refine Nat.le_trans (Nat.le_of_eq ?_) (Nat.zero_le _)
      rcases Produces.request_cases (c := SystemCall.host c) hhost with
        ⟨rfl, -⟩ | ⟨reply', rfl, -⟩ <;> rfl

/-- A tick begins with its listing, in the system, too. -/
theorem rowsSeen_of_carried {events : List CallEvent}
    (carried : Carried (carryOut registry targets) events below) :
    (rowsListed events).length ≤ (rowsSeen below).length := by
  cases carried with
  | nil => exact Nat.le_refl 0
  | @unanswered c _ _ => cases c <;> exact Nat.zero_le _
  | @answered c r events run below hrun _ =>
      cases c with
      | listRunning =>
          obtain rfl := Produces.of_request (c := SystemCall.host .listRunning) hrun
          cases r with
          | error e => exact Nat.le_refl 0
          | ok rows => exact Nat.le_refl _
      | _ => exact Nat.zero_le _

/-- **A tick asks the registries little**: whatever is answered, two requests for a manifest and two
for a token for each container that it was listed, and credentials are shown once for each. -/
theorem tick_asks_little {docker : Docker} {cfg : SchedulerConfig} {settings : ResolvedSettings}
    {memory : Memory} {out : Option Memory}
    (run : Produces (wired registry targets (runTick docker cfg settings memory)) below out) :
    below.countP (overRegistry isManifestRequest) ≤ 2 * (rowsSeen below).length ∧
      below.countP (overRegistry isTokenRequest) ≤ 2 * (rowsSeen below).length ∧
      below.countP (overRegistry showsCredentials) ≤ (rowsSeen below).length := by
  obtain ⟨events, hevents, carried⟩ := run.of_inline
  have hfetches := Nat.le_trans (fetches_of_tick hevents) (rowsSeen_of_carried carried)
  have bounded {hit : RegistryEvent → Bool} {n : Nat}
      (each : ∀ image, AtMost hit n (registry.fetchDigest image).run) :
      below.countP (overRegistry hit) ≤ n * (rowsSeen below).length :=
    Nat.le_trans (carried.countP_le fun _ _ _ hrun => countP_of_carriedOut each (carriedOut hrun))
      (Nat.mul_le_mul_left n hfetches)
  refine ⟨bounded atMost_manifests, bounded atMost_tokens, ?_⟩
  have shown := bounded (n := 1) atMost_credentials
  rwa [Nat.one_mul] at shown

/-- One container is listed, on an image of a registry whose realm refuses the credentials. -/
def staleSystem : Handler SystemCall SystemCall.Reply (Nat × SharedState)
  | .host c, (creates, s) =>
      let row := { memberRow "web" "watch" with image := some "r.io/app" }
      let answer := (stackFleet [row] 0).answer c creates
      (answer.1, answer.2, s)
  | .registry c, (creates, s) =>
      let answer := openRegistry c s
      (answer.1, creates, answer.2)
  | .notify _, state => (some (.ok ()), state)

def staleTick : Run SystemCall SystemCall.Reply (Nat × SharedState) Memory :=
  play staleSystem (wired staleCredentials [] (runTick stackDocker stackConfig .default .empty))
    (0, .empty 0)

theorem tick_asks_little_stale :
    staleTick.trace.countP (overRegistry isManifestRequest) ≤ 2 * (rowsSeen staleTick.trace).length ∧
      staleTick.trace.countP (overRegistry showsCredentials) = (rowsSeen staleTick.trace).length := by
  have asks := tick_asks_little (play_produces staleSystem
    (wired staleCredentials [] (runTick stackDocker stackConfig .default .empty)) (0, .empty 0))
  have shown : staleTick.trace.countP (overRegistry showsCredentials) = 1 := by decide +kernel
  have listed : (rowsSeen staleTick.trace).length = 1 := by decide +kernel
  exact ⟨asks.1, shown.trans listed.symm⟩

end Requests

end Freshdock.System
