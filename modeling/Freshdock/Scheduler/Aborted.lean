import Freshdock.Scheduler.Rejected

/-!
# Aborted rollouts

The tick in which a rollout was aborted does not come back to the containers that the rollout
claimed. Later ticks know nothing of the claim. They leave a container alone that is remembered with
the digest, or that is not due before the next turn of its schedule; and the others start the rollout
again, each at its own visit.

**Guards.** The memory that the aborted rollout left guards its claimed containers, one way or the
other (`Guards`). Visits keep the guards (`guards_of_visit`), and no rollout and no update of a
guarded container is started (`not_rerun`).
-/

set_option autoImplicit false

namespace Freshdock.Scheduler

open Interaction Docker
open Labels (Policy)
open Cron (Instant)
open Rollout (RolloutPlan RolloutReport PlannedTarget AbortReason)

/-! ## Turns -/

/-- The policies take their turns together. -/
structure SameTurn (policy policy' : Policy) : Prop where
  mode : policy'.mode = policy.mode
  schedule : cronFor policy' = cronFor policy

/-- `now` comes before the turn that follows the one at `since`: the poll interval has not passed,
and no search of the schedule from `since` on has found a match up to `now`. -/
structure BeforeNextTurn (cfg : SchedulerConfig) (policy : Policy) (since now : Int) : Prop where
  elapsed : since ≤ now
  polled : isPolledMode policy.mode = true → now - since < toDelta cfg.pollInterval
  calendar : ∀ e t f, cronFor policy = some e → since ≤ t → e.nextAfter cfg.zone t = some f →
    now < f

/-- What is kept of a container, or will be kept from `now` on, does not make it due. -/
def Quiet (cfg : SchedulerConfig) (policy : Policy) (now : Instant) : Option ContainerState → Prop
  | some state => due policy state now cfg.pollInterval = false
  | none => isPolledMode policy.mode = false

section Turns

variable {cfg : SchedulerConfig} {policy policy' : Policy} {since now : Int}

theorem SameTurn.due (same : SameTurn policy policy') (state : ContainerState) :
    due policy' state now cfg.pollInterval = due policy state now cfg.pollInterval := by
  unfold Scheduler.due
  rw [same.mode]

/-- A fresh state is not due, unless it is polled. -/
theorem not_due_of_seeded (before : BeforeNextTurn cfg policy since now) {t : Int} (later : since ≤ t)
    (same : SameTurn policy policy') (calendar : isPolledMode policy.mode = false) :
    due policy (seedState cfg.zone policy' t) now cfg.pollInterval = false := by
  have ahead : ∀ fire, (seedState cfg.zone policy' t).nextFire = some fire → ¬ fire ≤ now := by
    intro fire hfire
    obtain ⟨e, hcron, hnext⟩ := Option.bind_eq_some_iff.mp hfire
    rw [same.schedule] at hcron
    exact not_le.mpr (before.calendar e t fire hcron later hnext)
  unfold due
  cases hmode : policy.mode with
  | live | watch =>
      rw [hmode] at calendar
      cases calendar
  | nightly | weekly | monthly =>
      cases hfire : (seedState cfg.zone policy' t).nextFire with
      | none => rfl
      | some fire => exact decide_eq_false (ahead fire hfire)
  | off => rfl

/-- A container that took its turn waits for the next. -/
theorem not_due_of_advanced (before : BeforeNextTurn cfg policy since now) {state : ContainerState}
    (schedule : state.cron = cronFor policy) (notified : Option String) :
    due policy { advance cfg.zone policy since state with lastNotifiedDigest := notified } now
      cfg.pollInterval = false := by
  have ahead : ∀ fire, (state.cron.bind fun e => e.nextAfter cfg.zone since) = some fire →
      ¬ fire ≤ now := by
    intro fire hfire
    obtain ⟨e, hcron, hnext⟩ := Option.bind_eq_some_iff.mp hfire
    rw [schedule] at hcron
    exact not_le.mpr (before.calendar e since fire hcron le_rfl hnext)
  unfold due advance
  cases hmode : policy.mode with
  | live | watch =>
      have hpolled := before.polled (by rw [hmode]; rfl)
      exact decide_eq_false (not_le.mpr hpolled)
  | nightly | weekly | monthly =>
      dsimp only
      cases hfire : state.cron.bind fun e => e.nextAfter cfg.zone since with
      | none => rfl
      | some fire => exact decide_eq_false (ahead fire hfire)
  | off => rfl

end Turns

/-! ## The statement -/

/-- A visit whose rollout was aborted. -/
structure Aborted where
  now : Int
  row : ContainerSummary
  /-- The sweep before the visit. -/
  sweep : Sweep
  policy : Policy
  found : Found
  report : RolloutReport
  reason : AbortReason

namespace Aborted

def name (a : Aborted) : String := containerName a.row

/-- The container was claimed by the rollout, or is a member of its project. -/
def Concerns (a : Aborted) (row : ContainerSummary) : Prop :=
  containerName row ∈ a.report.claimed ∨
    ∃ info, Compose.parse (row.labels.getD fun _ => none) = some info ∧
      info.project = a.report.project

/-- The enabled members share one mode, schedule and image. -/
def Shares (a : Aborted) (settings : ResolvedSettings) (events : List CallEvent) : Prop :=
  ∀ row policy, Listed events row → ShowsEnabled settings row policy → a.Concerns row →
    SameTurn a.policy policy ∧ row.image = a.row.image

/-- A tick before the next turn of the project. -/
structure WithinTurn (a : Aborted) (cfg : SchedulerConfig) (settings : ResolvedSettings)
    (events : List CallEvent) : Prop where
  time : ∀ now, TimeOf events now → BeforeNextTurn cfg a.policy a.now now
  shares : a.Shares settings events

section Claim

variable (docker : Docker) (cfg : SchedulerConfig) (settings : ResolvedSettings)

/-- The tick made the visit, and its rollout was aborted. -/
def Occurs (a : Aborted) (memory : Memory) (events : List CallEvent) : Prop :=
  ∃ front first last r,
    TickVisit docker cfg settings memory events a.now a.row a.sweep (front ++ (first ++ last)) ∧
    Applies docker cfg a.now settings a.row a.sweep a.policy a.found front (first ++ last) (some r) ∧
    Produces (rolloutFor docker cfg (.fixed (a.now / 1000000000)) a.name
      (a.row.labels.getD fun _ => none) a.found.current settings) first (some (some a.report)) ∧
    a.report.aborted = some a.reason

/-- The tick starts no rollout and no update of a claimed container. -/
def NotStarted (a : Aborted) (memory : Memory) (events : List CallEvent) : Prop :=
  ∀ now row s front rest policy found done,
    TickVisit docker cfg settings memory events now row s (front ++ rest) →
    Applies docker cfg now settings row s policy found front rest done →
    ∀ m ∈ a.report.claimed, ¬ Subject cfg settings (containerName row)
      (row.labels.getD fun _ => none) found.current rest m

/-- **An aborted rollout is not run again**: of the containers that it claimed, no
later tick before the next turn starts a rollout or an update. -/
def NotRerun : Prop :=
  ∀ (a : Aborted) memory₀ memory₁ memory events₀,
    Reaches docker cfg settings (fun _ _ => True) .empty memory₀ →
    Produces (runTick docker cfg settings memory₀) events₀ (some memory₁) →
    a.Occurs docker cfg settings memory₀ events₀ → a.Shares settings events₀ →
    Reaches docker cfg settings (fun _ events => a.WithinTurn cfg settings events) memory₁ memory →
    ∀ events out, Produces (runTick docker cfg settings memory) events out →
      a.WithinTurn cfg settings events → a.NotStarted docker cfg settings memory events

/-! ## When it holds -/

/-- No rollout that the tick starts for another container, from a sweep that is `after`, has a
claimed container among its targets. -/
def Spares (a : Aborted) (after : Sweep → Prop) (memory : Memory) (events : List CallEvent) : Prop :=
  ∀ now row s front rest policy found done,
    TickVisit docker cfg settings memory events now row s (front ++ rest) →
    Applies docker cfg now settings row s policy found front rest done → after s →
    containerName row ∉ a.report.claimed →
    ∀ p, Plans cfg settings (containerName row) (row.labels.getD fun _ => none) found.current rest p →
      ∀ m ∈ a.report.claimed, m ∉ p.targets.map PlannedTarget.container

/-- The containers are listed and enabled. -/
def Lists (settings : ResolvedSettings) (stays : List String) (events : List CallEvent) : Prop :=
  ∀ m ∈ stays, ∀ rows, events.head? = some ⟨.listRunning, some (.ok rows)⟩ →
    ∃ row ∈ rows, containerName row = m ∧ ∃ policy, ShowsEnabled settings row policy

/-- The tick of the aborted rollout leaves the claimed containers guarded: by the digest, or by
their schedule. -/
structure Leaves (a : Aborted) (byDigest : Bool) (stays : List String) (memory : Memory)
    (events : List CallEvent) : Prop where
  listed : Lists settings stays events
  spares : a.Spares docker cfg settings (fun s => ∀ m ∈ a.report.claimed, m ∈ s.handled) memory events
  rejected : byDigest = true → a.reason.rejectedTheImage = true
  schedule : byDigest = false →
    (stateFor cfg a.now a.policy a.name a.sweep).cron = cronFor a.policy

/-- A tick that keeps the claimed containers guarded. Those that stay are listed and enabled, the
others are not. What guards them is that the upstream still serves the rejected digest, or that the
schedule states they had before the visit are not due. -/
structure Keeps (a : Aborted) (byDigest : Bool) (stays : List String) (memory : Memory)
    (events : List CallEvent) : Prop extends a.WithinTurn cfg settings events where
  listed : Lists settings stays events
  others : ∀ row policy, Listed events row → ShowsEnabled settings row policy →
    containerName row ∈ a.report.claimed → containerName row ∈ stays
  spares : a.Spares docker cfg settings (fun _ => True) memory events
  served : byDigest = true → ∀ now row s part,
    TickVisit docker cfg settings memory events now row s part →
    containerName row ∈ a.report.claimed → ∀ image latest,
      ⟨.fetchDigest image, some (.ok latest)⟩ ∈ part → latest = a.found.latest
  quiet : byDigest = false → ∀ now, TimeOf events now → ∀ m ∈ stays, m ≠ a.name →
    Quiet cfg a.policy now (a.sweep.memory.states.get? m)

end Claim

/-- A tick that starts nothing of the claimed containers does not move them. -/
theorem still_of_notStarted {a : Aborted} {docker : Docker} {cfg : SchedulerConfig}
    {settings : ResolvedSettings} {memory : Memory} {events : List CallEvent} {out : Option Memory}
    (h : Produces (runTick docker cfg settings memory) events out) {names : List String}
    (known : ∀ e ∈ events, NamesKnown names e)
    (notStarted : a.NotStarted docker cfg settings memory events) {m : String}
    (hm : m ∈ a.report.claimed) (inUse : m ∈ names) :
    ∀ e ∈ events, e.call.moves ≠ some (.update, m) := by
  rcases produces_runTick h with ⟨hunmoved, -⟩ | ⟨rows, now, rest, swept, rfl, hswept, -⟩
  · intro e he
    rw [hunmoved e he]
    nofun
  have sweep := @sweep_rule docker cfg settings now (fun _ => True)
    (fun e => e.call.moves ≠ some (.update, m)) (fun _ => nofun) rows ⟨memory, [], []⟩ rest swept
    hswept (fun row s part out' within _ hvisit => by
      refine ⟨fun e he hmoves => ?_, fun _ _ => trivial⟩
      rcases visit_cases hvisit with ⟨hunmoved, -⟩ | ⟨policy, found, front, more, done, rfl, applies, -⟩
      · rw [hunmoved e he] at hmoves
        cases hmoves
      · have visited : TickVisit docker cfg settings memory _ now row s (front ++ more) :=
          ⟨rows, rest, rfl, within⟩
        have hrow : containerName row ∈ names :=
          (known _ List.mem_cons_self).running rows rfl row within.row_mem
            applies.considered.notArchive
        rcases List.mem_append.mp he with he | he
        · rw [applies.unmoved e he] at hmoves
          cases hmoves
        · exact notStarted now row s front more policy found done visited applies m hm
            ((produces_applyUpdate applies.applied).moves hrow
              (fun e he => known e (visited.mem (List.mem_append_right _ he))) he inUse hmoves)) trivial
  intro e he
  rcases List.mem_cons.mp he with rfl | he
  · exact nofun
  · rcases List.mem_cons.mp he with rfl | he
    · exact nofun
    · exact sweep.1 e he

/-! ## Guards -/

/-- The claimed containers are remembered with the digest; or their states are those that the
aborted rollout left, or fresh ones where there was none. -/
def Guards (a : Aborted) (cfg : SchedulerConfig) (byDigest : Bool) (stays : List String)
    (left : SortedMap String ContainerState) (memory : Memory) : Prop :=
  ∀ m ∈ a.report.claimed, m ∈ stays → isArchiveName m = false →
    (byDigest = true → memory.failed.get? m = some a.found.latest) ∧
    (byDigest = false → memory.states.get? m = left.get? m ∨
      left.get? m = none ∧ ∃ policy t, SameTurn a.policy policy ∧ a.now ≤ t ∧
        memory.states.get? m = some (seedState cfg.zone policy t))

section Step

variable {a : Aborted} {docker : Docker} {cfg : SchedulerConfig} {settings : ResolvedSettings}
  {byDigest : Bool} {stays : List String} {left : SortedMap String ContainerState} {now : Int}
  {row : ContainerSummary} {s s' : Sweep}

/-- **A visit keeps the guards**, when it starts no rollout and no update of a claimed container and
finds none that is due. -/
theorem guards_of_visit {part : List CallEvent}
    (h : Produces (visit docker cfg now settings row s) part (some s'))
    (resting : ∀ policy, Considered cfg settings row s policy →
      containerName row ∈ a.report.claimed → byDigest = false →
      due policy (stateFor cfg now policy (containerName row) s) now cfg.pollInterval = false ∧
        SameTurn a.policy policy ∧ a.now ≤ now)
    (spared : ∀ front rest policy found done, part = front ++ rest →
      Applies docker cfg now settings row s policy found front rest done →
      ∀ m ∈ a.report.claimed, ¬ Subject cfg settings (containerName row)
        (row.labels.getD fun _ => none) found.current rest m)
    (guards : a.Guards cfg byDigest stays left s.memory) :
    a.Guards cfg byDigest stays left s'.memory := by
  intro m hm hstays hname
  refine ⟨fun hby => ?_, fun hby => ?_⟩
  · have kept := (guards m hm hstays hname).1 hby
    rcases visit_cases h with ⟨-, hout⟩ | ⟨policy, found, front, rest, done, rfl, applies, hout⟩
    · rw [(hout s' rfl).1, kept]
    · obtain ⟨processed, rfl, hfailed, -⟩ := hout s' rfl
      rw [hfailed]
      cases houtcome : processed.outcome with
      | none => exact kept
      | some outcome =>
          rw [failed_remember_of_not_mem _ fun hmem => spared front rest policy found _ rfl applies m hm
            ((produces_applyUpdate applies.applied).remembers houtcome hmem), kept]
  · have kept := (guards m hm hstays hname).2 hby
    rcases states_of_visit h with ⟨-, hsame⟩ |
        ⟨policy, handling, state', considered, -, hnext, hstate', others⟩
    · rwa [hsame]
    · by_cases hrow : m = containerName row
      · subst hrow
        obtain ⟨notDue, same, later⟩ := resting policy considered hm hby
        cases hnext with
        | notInspected hdue => exact absurd (hdue.symm.trans notDue) nofun
        | processed _ hdue => exact absurd (hdue.symm.trans notDue) nofun
        | waited _ =>
            rw [hstate', stateFor]
            cases hbefore : s.memory.states.get? (containerName row) with
            | some state => rwa [hbefore] at kept
            | none =>
                rw [hbefore] at kept
                rcases kept with hleft | ⟨-, _, _, -, -, hseeded⟩
                · exact .inr ⟨hleft.symm, policy, now, same, later, rfl⟩
                · cases hseeded
      · rwa [others m hrow]

/-- The end of a sweep keeps the guards of the containers that were listed. -/
theorem guards_of_finish {rows : List ContainerSummary} {sweep : Sweep} {complete : Bool}
    {events : List CallEvent}
    (h : Produces (sweepContainers docker cfg now settings rows sweep) events (some (s, complete)))
    (listed : ∀ m ∈ stays, ∃ row ∈ rows, containerName row = m ∧
      ∃ policy, ShowsEnabled settings row policy)
    (guards : a.Guards cfg byDigest stays left s.memory) :
    a.Guards cfg byDigest stays left (s.finish complete) := by
  cases complete with
  | false => exact guards
  | true =>
      intro m hm hstays hname
      obtain ⟨row, hrow, rfl, policy, enabled⟩ := listed m hstays
      have hlive := live_of_complete h hrow hname enabled
      have hcontains : s.live.contains (containerName row) = true := by simpa using hlive
      change (_ → (s.memory.failed.retain s.live.contains).get? _ = _) ∧
        (_ → (s.memory.states.retain s.live.contains).get? _ = _ ∨ _ ∧ ∃ policy t, _ ∧ _ ∧
          (s.memory.states.retain s.live.contains).get? _ = _)
      rw [SortedMap.get?_retain, SortedMap.get?_retain, if_pos hcontains, if_pos hcontains]
      exact guards _ hm hstays hname

end Step

/-! ## The tick of the aborted rollout -/

section Abort

variable {a : Aborted} {docker : Docker} {cfg : SchedulerConfig} {settings : ResolvedSettings}
  {memory : Memory} {events : List CallEvent}

/-- What the visit of an aborted rollout leaves. -/
structure Left (a : Aborted) (cfg : SchedulerConfig) (s' : Sweep) : Prop where
  handled : ∀ m ∈ a.report.claimed, m ∈ s'.handled
  failed : a.reason.rejectedTheImage = true → ∀ m ∈ a.report.claimed,
    s'.memory.failed.get? m = some a.found.latest
  own : ∃ notified, s'.memory.states.get? a.name =
    some { advance cfg.zone a.policy a.now (stateFor cfg a.now a.policy a.name a.sweep) with
      lastNotifiedDigest := notified }
  others : OtherStates a.name a.sweep s'

/-- All containers that a rejection is remembered for are remembered with the digest. -/
theorem failed_remember_rejected (memory : Memory) (digest : String) {containers : List String}
    {m : String} (hm : m ∈ containers) :
    (memory.remember (some (.rejected digest containers))).failed.get? m = some digest := by
  have kept (containers : List String) (failed : SortedMap String String)
      (h : failed.get? m = some digest) :
      (containers.foldl (fun f c => f.insert c digest) failed).get? m = some digest := by
    induction containers generalizing failed with
    | nil => exact h
    | cons head containers ih =>
        refine ih _ ?_
        by_cases hhead : m = head
        · subst hhead
          exact SortedMap.get?_insert_self _ _ _
        · rw [SortedMap.get?_insert_of_ne _ _ hhead, h]
  obtain ⟨before, after, rfl⟩ := List.append_of_mem hm
  change ((before ++ m :: after).foldl (fun f c => f.insert c digest) memory.failed).get? m = _
  rw [List.foldl_append, List.foldl_cons]
  exact kept after _ (SortedMap.get?_insert_self _ _ _)

/-- What an aborted rollout leaves to remember is the rejection of all that it claimed, or nothing. -/
theorem rejected_of_rolloutFor {name : String} {labels : LabelMap} {tag : Option String}
    {report : RolloutReport} {reason : AbortReason} {latest : String}
    (h : Produces (rolloutFor docker cfg (.fixed (a.now / 1000000000)) name labels tag settings)
      events (some (some report)))
    (aborted : report.aborted = some reason) (rejected : reason.rejectedTheImage = true) :
    rolloutOutcome report latest = some (.rejected latest report.claimed) := by
  have houtcome : rolloutOutcome report latest = some (.rejected latest report.imageTargets) := by
    rw [rolloutOutcome, aborted]
    dsimp only
    rw [if_pos rejected]
  rcases @produces_rolloutFor _ _ _ _ _ _ latest _ _ _ h with ⟨-, hreport⟩ |
      ⟨p, listing, run, done, -, -, -, hrun, hdone⟩
  · rw [(hreport report rfl).2] at houtcome
    cases houtcome
  · obtain ⟨_, rfl, hsome⟩ := hdone _ rfl
    cases hsome
    rw [houtcome, Rollout.claimed_of_aborted hrun aborted]

/-- **The visit of an aborted rollout is finished**, and claims what the report says. -/
theorem Occurs.left (h : a.Occurs docker cfg settings memory events) :
    ∃ part s', TickVisit docker cfg settings memory events a.now a.row a.sweep part ∧
      Produces (visit docker cfg a.now settings a.row a.sweep) part (some s') ∧ a.Left cfg s' := by
  obtain ⟨front, first, last, r, within, applies, hrollout, aborted⟩ := h
  obtain ⟨notified, hvisit⟩ := applies.produces
  have hrest := applies.applied.after hrollout
  obtain ⟨quiet, claimed, done, rfl, hreport, hdone⟩ := hrest.of_bind_some
  obtain rfl := (produces_reportRollout hreport).2 claimed rfl
  obtain ⟨rfl, rfl⟩ := hdone.of_done
  refine ⟨_, _, within, hvisit, ?_⟩
  exact {
    handled := fun m hm => List.mem_append_right _ hm
    failed := by
      intro rejected m hm
      rw [rejected_of_rolloutFor hrollout aborted rejected]
      exact failed_remember_rejected _ _ hm
    own := by
      refine ⟨notified, ?_⟩
      simp only [settled, Sweep.record, states_remember]
      exact SortedMap.get?_insert_self _ _ _
    others := by
      intro m hm
      simp only [settled, Sweep.record, states_remember]
      refine (otherStates_setState _ a.name _ m hm).trans ?_
      exact otherStates_setState _ a.name _ m hm }

/-- What is handled stays handled. -/
theorem handled_of_visit {now : Instant} {row : ContainerSummary} {s s' : Sweep}
    {part : List CallEvent} (h : Produces (visit docker cfg now settings row s) part (some s'))
    {m : String} (hm : m ∈ s.handled) : m ∈ s'.handled := by
  rcases visit_cases h with ⟨-, hout⟩ | ⟨policy, found, front, rest, done, rfl, applies, hout⟩
  · rw [(hout s' rfl).2]
    exact hm
  · obtain ⟨processed, -, -, hhandled⟩ := hout s' rfl
    rw [hhandled]
    exact List.mem_append_left _ hm

/-- **The tick of an aborted rollout leaves its claimed containers guarded.** -/
theorem guards_of_abort {memory' : Memory} {byDigest : Bool} {stays : List String}
    (h : Produces (runTick docker cfg settings memory) events (some memory'))
    (occurs : a.Occurs docker cfg settings memory events)
    (leaves : a.Leaves docker cfg settings byDigest stays memory events) :
    ∃ s', a.Left cfg s' ∧ a.Guards cfg byDigest stays s'.memory.states memory' := by
  obtain ⟨part, s', ⟨rows, rest, rfl, within⟩, hvisit, left⟩ := occurs.left
  refine ⟨s', left, ?_⟩
  obtain ⟨sweep, complete, hswept, rfl⟩ := swept_of_runTick h
  have kept := within.rule_after (fun s => (∀ m ∈ a.report.claimed, m ∈ s.handled) ∧
      a.Guards cfg byDigest stays s'.memory.states s.memory) hvisit hswept
    (fun row s part s₃ within' inv hvisit' => by
      refine ⟨fun m hm => handled_of_visit hvisit' (inv.1 m hm), ?_⟩
      -- a claimed container is passed by
      have passed : ∀ policy, Considered cfg settings row s policy →
          containerName row ∉ a.report.claimed :=
        fun policy considered hrow => considered.notHandled (inv.1 _ hrow)
      refine guards_of_visit hvisit' (fun policy considered hrow => absurd hrow (passed policy
        considered)) (fun front more policy found done hpart applies m hm subject => ?_) inv.2
      have hrow := passed policy applies.considered
      rcases subject with rfl | ⟨p, plans, hmem⟩
      · exact hrow hm
      · subst hpart
        exact leaves.spares a.now row s front more policy found done ⟨rows, rest, rfl, within'⟩
          applies inv.1 hrow p plans m hm hmem)
    ⟨left.handled, fun m hm _ _ => ⟨fun hby => left.failed (leaves.rejected hby) m hm,
      fun _ => .inl rfl⟩⟩
  exact guards_of_finish hswept (fun m hm => leaves.listed m hm rows rfl) kept.2

end Abort

/-! ## Later ticks -/

section Later

variable {a : Aborted} {docker : Docker} {cfg : SchedulerConfig} {settings : ResolvedSettings}
  {byDigest : Bool} {stays : List String} {left : Sweep} {memory : Memory}
  {events : List CallEvent}

/-- A guarded container that is visited is not due, if it is guarded by its schedule. -/
theorem not_due_of_guards (hleft : a.Left cfg left)
    (schedule : (stateFor cfg a.now a.policy a.name a.sweep).cron = cronFor a.policy)
    (keeps : a.Keeps docker cfg settings byDigest stays memory events) (hby : byDigest = false)
    {now : Int} {row : ContainerSummary} {s : Sweep} {part : List CallEvent} {policy : Policy}
    (within : TickVisit docker cfg settings memory events now row s part)
    (considered : Considered cfg settings row s policy)
    (claimed : containerName row ∈ a.report.claimed)
    (guards : a.Guards cfg byDigest stays left.memory.states s.memory) :
    due policy (stateFor cfg now policy (containerName row) s) now cfg.pollInterval = false ∧
      SameTurn a.policy policy ∧ a.now ≤ now := by
  obtain ⟨rows, rest, rfl, visited⟩ := within
  have enabled : ShowsEnabled settings row policy :=
    ⟨considered.parsed, considered.enabled, considered.mode⟩
  have listed : Listed (⟨.listRunning, some (.ok rows)⟩ :: ⟨.localTime, some now⟩ :: rest) row :=
    ⟨rows, rfl, visited.row_mem⟩
  have hstays := keeps.others row policy listed enabled claimed
  have same := (keeps.shares row policy listed enabled (.inl claimed)).1
  have before := keeps.time now rfl
  refine ⟨?_, same, before.elapsed⟩
  rw [same.due]
  have kept := (guards _ claimed hstays considered.notArchive).2 hby
  have quiet := keeps.quiet hby now rfl (containerName row) hstays
  unfold stateFor
  by_cases hname : containerName row = a.name
  · obtain ⟨notified, hown⟩ := hleft.own
    rw [hname] at kept ⊢
    rcases kept with kept | ⟨hnone, -⟩
    · rw [kept, hown]
      exact not_due_of_advanced before schedule notified
    · rw [hown] at hnone
      cases hnone
  · have hquiet := quiet hname
    rw [hleft.others _ hname] at kept
    cases hstate : a.sweep.memory.states.get? (containerName row) with
    | some state =>
        rw [hstate] at kept hquiet
        rcases kept with kept | ⟨hnone, -⟩
        · rw [kept]
          exact hquiet
        · cases hnone
    | none =>
        rw [hstate] at kept hquiet
        rcases kept with kept | ⟨-, policy', t, same', later, kept⟩
        · rw [kept]
          exact not_due_of_seeded before before.elapsed same hquiet
        · rw [kept]
          exact not_due_of_seeded before later same' hquiet

/-- **A visit starts no rollout and no update of a guarded container.** -/
theorem not_subject_of_guards (hleft : a.Left cfg left)
    (schedule : byDigest = false →
      (stateFor cfg a.now a.policy a.name a.sweep).cron = cronFor a.policy)
    (keeps : a.Keeps docker cfg settings byDigest stays memory events) {now : Int}
    {row : ContainerSummary} {s : Sweep} {front rest : List CallEvent} {policy : Policy}
    {found : Found} {done : Option Processed}
    (within : TickVisit docker cfg settings memory events now row s (front ++ rest))
    (applies : Applies docker cfg now settings row s policy found front rest done)
    (guards : a.Guards cfg byDigest stays left.memory.states s.memory) :
    ∀ m ∈ a.report.claimed, ¬ Subject cfg settings (containerName row)
      (row.labels.getD fun _ => none) found.current rest m := by
  have considered := applies.considered
  have hrow : containerName row ∉ a.report.claimed := by
    intro claimed
    cases hby : byDigest with
    | false =>
        have notDue := (not_due_of_guards hleft (schedule hby) keeps hby within considered claimed
          guards).1
        exact absurd (applies.due.symm.trans notDue) nofun
    | true =>
        obtain ⟨rows, more, rfl, visited⟩ := id within
        have hstays := keeps.others row policy ⟨rows, rfl, visited.row_mem⟩
          ⟨considered.parsed, considered.enabled, considered.mode⟩ claimed
        have remembered := (guards _ claimed hstays considered.notArchive).1 hby
        obtain ⟨first, second, rfl, -, hprobe⟩ := applies.read
        have hlatest := keeps.served hby now row s _ within claimed _ _
          (List.mem_append_left _ (List.mem_append_right _ (fetched_mem hprobe)))
        refine applies.asks.notFailed ?_
        rw [remembered, hlatest]
  intro m hm subject
  rcases subject with rfl | ⟨p, plans, hmem⟩
  · exact hrow hm
  · exact keeps.spares now row s front rest policy found done within applies trivial hrow p plans m hm
      hmem

/-- A visit of a later tick keeps the guards. -/
theorem guards_of_later_visit (hleft : a.Left cfg left)
    (schedule : byDigest = false →
      (stateFor cfg a.now a.policy a.name a.sweep).cron = cronFor a.policy)
    (keeps : a.Keeps docker cfg settings byDigest stays memory events) {now : Int}
    {row : ContainerSummary} {s s' : Sweep} {part : List CallEvent}
    (within : TickVisit docker cfg settings memory events now row s part)
    (h : Produces (visit docker cfg now settings row s) part (some s'))
    (guards : a.Guards cfg byDigest stays left.memory.states s.memory) :
    a.Guards cfg byDigest stays left.memory.states s'.memory := by
  refine guards_of_visit h (fun policy considered claimed hby => ?_)
    (fun front rest policy found done hpart applies => ?_) guards
  · exact not_due_of_guards hleft (schedule hby) keeps hby within considered claimed guards
  · subst hpart
    exact not_subject_of_guards hleft schedule keeps within applies guards

/-- Every sweep of a later tick is guarded when its memory was. -/
theorem guards_within {now : Instant} {rows : List ContainerSummary} {sweep s : Sweep}
    {rest part : List CallEvent} {row : ContainerSummary}
    (within : VisitIn docker cfg settings now rows sweep rest row s part)
    (step : ∀ c s part s', VisitIn docker cfg settings now rows sweep rest c s part →
      Produces (visit docker cfg now settings c s) part (some s') →
      a.Guards cfg byDigest stays left.memory.states s.memory →
      a.Guards cfg byDigest stays left.memory.states s'.memory)
    (guards : a.Guards cfg byDigest stays left.memory.states sweep.memory) :
    a.Guards cfg byDigest stays left.memory.states s.memory := by
  induction within with
  | here _ => exact guards
  | later hfirst _ ih =>
      exact ih (fun c s part s' within' => step c s part s' (.later hfirst within'))
        (step _ _ _ _ (.here hfirst) hfirst guards)

/-- **A later tick starts no rollout and no update of a guarded container**, and keeps the guards. -/
theorem later_tick (hleft : a.Left cfg left)
    (schedule : byDigest = false →
      (stateFor cfg a.now a.policy a.name a.sweep).cron = cronFor a.policy)
    (keeps : a.Keeps docker cfg settings byDigest stays memory events) {out : Option Memory}
    (h : Produces (runTick docker cfg settings memory) events out)
    (guards : a.Guards cfg byDigest stays left.memory.states memory) :
    a.NotStarted docker cfg settings memory events ∧
      ∀ memory', out = some memory' →
        a.Guards cfg byDigest stays left.memory.states memory' := by
  refine ⟨fun now row s front rest policy found done within applies => ?_, fun memory' hmemory => ?_⟩
  · obtain ⟨rows, more, rfl, visited⟩ := id within
    exact not_subject_of_guards hleft schedule keeps within applies (guards_within visited
      (fun c s part s' within' => guards_of_later_visit hleft schedule keeps ⟨rows, more, rfl, within'⟩)
      guards)
  · subst hmemory
    rcases produces_runTick h with ⟨-, hout⟩ | ⟨rows, now, rest, swept, rfl, hswept, hout⟩
    · rw [(hout memory' rfl).1]
      exact guards
    · obtain ⟨sweep, complete, rfl, rfl⟩ := hout memory' rfl
      have kept := (sweep_rule (fun s => a.Guards cfg byDigest stays left.memory.states s.memory)
        (fun _ => True) (fun _ => trivial) hswept (fun c s part out within inv hvisit => by
          refine ⟨fun _ _ => trivial, fun s' hs' => ?_⟩
          subst hs'
          exact guards_of_later_visit hleft schedule keeps ⟨rows, rest, rfl, within⟩ hvisit inv)
        guards).2 _ rfl
      exact guards_of_finish hswept (fun m hm => keeps.listed m hm rows rfl) kept

/-- **An aborted rollout is not run again, by ticks that keep its claimed containers guarded.** -/
theorem not_rerun {memory₀ memory₁ : Memory} {events₀ : List CallEvent} {out : Option Memory}
    (first : Produces (runTick docker cfg settings memory₀) events₀ (some memory₁))
    (occurs : a.Occurs docker cfg settings memory₀ events₀)
    (leaves : a.Leaves docker cfg settings byDigest stays memory₀ events₀)
    (ticks : Reaches docker cfg settings (a.Keeps docker cfg settings byDigest stays) memory₁ memory)
    (h : Produces (runTick docker cfg settings memory) events out)
    (keeps : a.Keeps docker cfg settings byDigest stays memory events) :
    a.NotStarted docker cfg settings memory events := by
  obtain ⟨left, hleft, start⟩ := guards_of_abort first occurs leaves
  have guards : a.Guards cfg byDigest stays left.memory.states memory := by
    clear h keeps
    induction ticks with
    | refl => exact start
    | tail _ tick ih =>
        obtain ⟨events', htick, keeps'⟩ := tick
        exact (later_tick hleft leaves.schedule keeps' htick ih).2 _ rfl
  exact (later_tick hleft leaves.schedule keeps h guards).1

end Later

/-! ## Two ticks of a stack -/

section Stack

variable {fleet : Fleet} {docker : Docker} {cfg : SchedulerConfig} {settings : ResolvedSettings}
  {memory : Memory}

/-- An update that is asked for is the probe, and then the update, in what is observed too. -/
theorem process_of_asks {name : String} {policy : Policy} {labels : LabelMap} {found : Found}
    {lastFailed : Option String} (asks : found.Asks policy lastFailed)
    (probed : Returns fleet.answer (Probe.probeImage found.target.image) 0
      (.fetched found.digests found.latest found.tagImageId) 0)
    {r : Processed} {told : Nat}
    (returned : Returns fleet.answer (applyUpdate docker cfg fleet.time name policy labels
      found.target.image found.latest found.current settings) 0 r told) (notified : Option String) :
    Returns fleet.answer (processContainer docker cfg fleet.time name policy labels found.target
        lastFailed notified settings) 0 (r, notified) told ∧
      (play fleet.answer (processContainer docker cfg fleet.time name policy labels found.target
        lastFailed notified settings) 0).trace =
        (play fleet.answer (Probe.probeImage found.target.image) 0).trace ++
          (play fleet.answer (applyUpdate docker cfg fleet.time name policy labels
            found.target.image found.latest found.current settings) 0).trace := by
  have hact := @actOnProbe_of_asks docker cfg fleet.time settings name policy labels _ notified found
    asks
  have hacted : Returns fleet.answer (actOnProbe docker cfg fleet.time name policy labels
      found.target lastFailed notified settings
      (.fetched found.digests found.latest found.tagImageId)) 0 (r, notified) told := by
    rw [hact]
    exact returns_bind returned (returns_done (r, notified))
  refine ⟨returns_bind probed hacted, (trace_bind probed).trans (congrArg (_ ++ ·) ?_)⟩
  rw [hact]
  exact (trace_bind returned).trans (List.append_nil _)

/-- The first visit of a fleet's tick aborts a rollout when its parts do so one after the other. -/
theorem occurs_of_tick {row : ContainerSummary} {rows : List ContainerSummary}
    (first : fleet.running = row :: rows) {policy : Policy} {found : Found} {report : RolloutReport}
    {reason : AbortReason} {n : Nat}
    (considered : Considered cfg settings row ⟨memory, [], []⟩ policy)
    (hdue : due policy (stateFor cfg fleet.time policy (containerName row) ⟨memory, [], []⟩)
      fleet.time cfg.pollInterval = true)
    (asks : found.Asks policy (memory.failed.get? (containerName row)))
    (resolved : Returns fleet.answer (Probe.resolveTarget row).run 0 (.ok found.target) 0)
    (probed : Returns fleet.answer (Probe.probeImage found.target.image) 0
      (.fetched found.digests found.latest found.tagImageId) 0)
    (rolled : Returns fleet.answer (rolloutFor docker cfg (.fixed (fleet.time / 1000000000))
      (containerName row) (row.labels.getD fun _ => none) found.current settings) 0 (some report) n)
    {claimed : List String} {told : Nat}
    (reported : Returns fleet.answer (reportRollout report policy found.target.image) n claimed
      told)
    (aborted : report.aborted = some reason) :
    Occurs docker cfg settings ⟨fleet.time, row, ⟨memory, [], []⟩, policy, found, report, reason⟩
      memory (fleet.tick docker cfg settings memory).trace := by
  let front := (play fleet.answer (Probe.resolveTarget row).run 0).trace
  let probe := (play fleet.answer (Probe.probeImage found.target.image) 0).trace
  let rollout := (play fleet.answer (rolloutFor docker cfg (.fixed (fleet.time / 1000000000))
    (containerName row) (row.labels.getD fun _ => none) found.current settings) 0).trace
  let update := applyUpdate docker cfg fleet.time (containerName row) policy
    (row.labels.getD fun _ => none) found.target.image found.latest found.current settings
  let r : Processed := ⟨claimed, rolloutOutcome report found.latest, rolloutVerdicts report⟩
  have returned : Returns fleet.answer update 0 r told :=
    returns_bind rolled (returns_bind reported (returns_done r))
  obtain ⟨last, hlast⟩ : ∃ last, (play fleet.answer update 0).trace = rollout ++ last :=
    ⟨_, trace_bind rolled⟩
  have hvisit : (play fleet.answer (visit docker cfg fleet.time settings row ⟨memory, [], []⟩)
      0).trace = front ++ (probe ++ (play fleet.answer update 0).trace) := by
    rw [visit_of_considered considered]
    change (play fleet.answer (if due policy (stateFor cfg fleet.time policy (containerName row)
      ⟨memory, [], []⟩) fleet.time cfg.pollInterval = true then _ else _) 0).trace = _
    rw [if_pos hdue]
    refine (trace_bind resolved).trans (congrArg (front ++ ·) ?_)
    have processed := process_of_asks asks probed returned
    exact (trace_bind (processed _).1).trans ((List.append_nil _).trans (processed _).2)
  refine ⟨front ++ probe, rollout, last, r, ?_, ?_, ?_, aborted⟩
  · have visited := @Fleet.first_visit fleet docker cfg settings memory row rows first
    rw [hvisit, hlast, ← List.append_assoc] at visited
    exact visited
  · refine ⟨considered, hdue, asks, ⟨front, probe, rfl, ?_, ?_⟩, ?_⟩
    · rw [← resolved.1]
      exact play_produces _ _ 0
    · rw [← probed.1]
      exact play_produces _ _ 0
    · rw [← returned.1, ← hlast]
      exact play_produces _ _ 0
  · rw [← rolled.1]
    exact play_produces _ _ 0

end Stack

def liveRows : List ContainerSummary := [memberRow "api" "live", memberRow "web" "live"]

/-- What the labels of the rows say. -/
def livePolicy : Policy := { webPolicy with mode := .live }

def liveFound : Found := ⟨⟨"app", some "old-image"⟩, ["sha256:old"], "sha256:new", some "old-image"⟩

/-- The stack, on a daemon that refuses every create. -/
def refusingFleet (time : Int) : Fleet :=
  { stackFleet liveRows time with created := fun _ _ => .error Fleet.nameInUse }

/-- The rollout of `api`, aborted for a reason. -/
def apiAborted (reason : AbortReason) : Aborted where
  now := 0
  row := memberRow "api" "live"
  sweep := ⟨.empty, [], []⟩
  policy := livePolicy
  found := liveFound
  report := ⟨"stack", [], some reason, ["api", "web"], []⟩
  reason := reason

def refused : AbortReason := .stepFailed "api" "docker daemon error: in use"

theorem refused_occurs : (apiAborted refused).Occurs stackDocker stackConfig .default .empty
    ((refusingFleet 0).tick stackDocker stackConfig .default .empty).trace := by
  refine occurs_of_tick rfl ⟨by decide, List.not_mem_nil, rfl, rfl, nofun, rfl⟩ rfl
    ⟨by decide +kernel, nofun, nofun, nofun⟩ ⟨rfl, rfl⟩ ⟨rfl, rfl⟩ (n := 1) ?_ ⟨rfl, rfl⟩ rfl
  exact ⟨by decide +kernel, by decide +kernel⟩

theorem liveRows_shown : ∀ row ∈ liveRows, containerName row ∈ ["api", "web"] := by decide

theorem livePolicy_of_enabled {row : ContainerSummary} {policy : Policy} (hrow : row ∈ liveRows)
    (enabled : ShowsEnabled .default row policy) : policy = livePolicy ∧ row.image = some "app" := by
  have parsed : ∀ row ∈ liveRows, Labels.parsePolicy (row.labels.getD fun _ => none)
      ResolvedSettings.default.policyDefaults = .ok livePolicy ∧ row.image = some "app" := by
    intro row hrow
    rcases List.mem_cons.mp hrow with rfl | hrow
    · exact ⟨rfl, rfl⟩
    · obtain rfl := List.mem_singleton.mp hrow
      exact ⟨rfl, rfl⟩
  obtain ⟨hparsed, himage⟩ := parsed row hrow
  exact ⟨(Except.ok.inj (hparsed.symm.trans enabled.1)).symm, himage⟩

/-- A minute after the rollout was aborted, its next poll is not due yet. -/
theorem apiAborted_withinTurn {fleet : Fleet} (reason : AbortReason) (rows : fleet.running = liveRows)
    (time : fleet.time = 60000000000) (memory : Memory) :
    (apiAborted reason).WithinTurn stackConfig .default
      (fleet.tick stackDocker stackConfig .default memory).trace where
  time now htime := by
    rw [Fleet.time_of_tick htime, time]
    change BeforeNextTurn stackConfig livePolicy 0 60000000000
    exact ⟨by decide, fun _ => by decide, fun e t f hcron => by cases hcron⟩
  shares row policy listed enabled _ := by
    obtain ⟨rows', hhead, hrow⟩ := listed
    rw [Fleet.rows_of_tick hhead, rows] at hrow
    obtain ⟨rfl, himage⟩ := livePolicy_of_enabled hrow enabled
    exact ⟨⟨rfl, rfl⟩, himage⟩

theorem apiAborted_shares {fleet : Fleet} (reason : AbortReason) (rows : fleet.running = liveRows)
    (memory : Memory) : (apiAborted reason).Shares .default
      (fleet.tick stackDocker stackConfig .default memory).trace := by
  intro row policy listed enabled _
  obtain ⟨rows', hhead, hrow⟩ := listed
  rw [Fleet.rows_of_tick hhead, rows] at hrow
  obtain ⟨rfl, himage⟩ := livePolicy_of_enabled hrow enabled
  exact ⟨⟨rfl, rfl⟩, himage⟩

/-- `web` starts the rollout again a minute later. -/
theorem not_notRerun : ¬ NotRerun stackDocker stackConfig .default := by
  intro notRerun
  have notStarted := notRerun (apiAborted refused) .empty _ _ _ .refl
    (Fleet.produces_after (by decide +kernel)) refused_occurs (apiAborted_shares refused rfl _) .refl _
    _ ((refusingFleet 60000000000).produces_tick stackDocker stackConfig .default
      ((refusingFleet 0).after stackDocker stackConfig .default .empty))
    (apiAborted_withinTurn refused rfl rfl _)
  have named : (refusingFleet 60000000000).Named :=
    { stackFleet_named 60000000000 liveRows_shown with created := nofun }
  have still := still_of_notStarted ((refusingFleet 60000000000).produces_tick _ _ _ _)
    (Fleet.known_of_tick named) notStarted List.mem_cons_self List.mem_cons_self
  have moved : ((refusingFleet 60000000000).tick stackDocker stackConfig .default
      ((refusingFleet 0).after stackDocker stackConfig .default .empty)).trace.any
        (fun e => e.call.moves = some (.update, "api")) = true := by
    decide +kernel
  obtain ⟨e, he, hmoves⟩ := List.any_eq_true.mp moved
  exact still e he (by simpa using hmoves)

/-- When `api` was rolled back, the rollout is not started again: `web` finds the same digest. -/
theorem not_rerun_rolledBack : (apiAborted (.rolledBack "api")).NotStarted stackDocker stackConfig
    .default ((stackFleet liveRows 0).after stackDocker stackConfig .default .empty)
    ((stackFleet liveRows 60000000000).tick stackDocker stackConfig .default
      ((stackFleet liveRows 0).after stackDocker stackConfig .default .empty)).trace := by
  have lists (time : Int) (memory : Memory) : Lists .default ["api", "web"]
      ((stackFleet liveRows time).tick stackDocker stackConfig .default memory).trace := by
    intro m hm rows hhead
    rw [Fleet.rows_of_tick hhead]
    rcases List.mem_cons.mp hm with rfl | hm
    · exact ⟨_, List.mem_cons_self, rfl, livePolicy, rfl, rfl, nofun⟩
    · obtain rfl := List.mem_singleton.mp hm
      exact ⟨_, List.mem_cons_of_mem _ List.mem_cons_self, rfl, livePolicy, rfl, rfl, nofun⟩
  have spares (after : Sweep → Prop) (time : Int) (memory : Memory) :
      (apiAborted (.rolledBack "api")).Spares stackDocker stackConfig .default after memory
        ((stackFleet liveRows time).tick stackDocker stackConfig .default memory).trace :=
    fun _ row _ _ _ _ _ _ within _ _ hrow =>
      absurd (liveRows_shown row (Fleet.running_of_tick within)) hrow
  have occurs : (apiAborted (.rolledBack "api")).Occurs stackDocker stackConfig .default .empty
      ((stackFleet liveRows 0).tick stackDocker stackConfig .default .empty).trace := by
    refine occurs_of_tick rfl ⟨by decide, List.not_mem_nil, rfl, rfl, nofun, rfl⟩ rfl
      ⟨by decide +kernel, nofun, nofun, nofun⟩ ⟨rfl, rfl⟩ ⟨rfl, rfl⟩ (n := 1) ?_ ⟨rfl, rfl⟩ rfl
    exact ⟨by decide +kernel, by decide +kernel⟩
  refine @not_rerun _ _ _ _ true ["api", "web"] _ _ _ _ _ _ (Fleet.produces_after (by decide +kernel)) occurs
    ⟨lists 0 _, spares _ 0 _, fun _ => rfl, nofun⟩ .refl (Fleet.produces_tick _ _ _ _ _)
    ⟨apiAborted_withinTurn _ rfl rfl _, lists _ _, fun row _ listed _ _ => ?_, spares _ _ _,
      fun _ now row s part within _ image latest hfetched =>
        Fleet.digest_of_tick (within.mem hfetched), nofun⟩
  obtain ⟨rows, hhead, hrow⟩ := listed
  rw [Fleet.rows_of_tick hhead] at hrow
  exact liveRows_shown row hrow

end Aborted

end Freshdock.Scheduler
