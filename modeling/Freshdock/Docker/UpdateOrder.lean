import Freshdock.Docker.Cycle

/-!
# The order of an update

Of every observation of a health-gated update: the calls that make the update final come after
the gate has accepted the replacement (`reachedHealthy_of_concludes`), and a call that moves a
container comes after the update was cleared (`cleared_of_moves`).

An observation is a list of events, so "after" is a place in that list, and a program's parts
are segments of it.
-/

set_option autoImplicit false

namespace Freshdock.Docker

open Interaction Registry
open Labels (LifecycleHooks)

/-- A create for the update returned `id`. -/
def CreatedForUpdate (events : List CallEvent) (id : String) : Prop :=
  ∃ name body, ⟨.createContainer .update name body, some (.ok id)⟩ ∈ events

/-- After `before`, the event makes an update final: it removes a container that the update did
not create, removes an image, prunes, or runs a hook in the replacement's time. -/
def Concludes (before : List CallEvent) (e : CallEvent) : Prop :=
  match e.call with
  | .removeContainer .update ref _ => ¬ CreatedForUpdate before ref
  | .removeImage .. | .pruneImages => True
  | .exec .. => ∃ id, CreatedForUpdate before id
  | _ => False

/-- The gate accepted the replacement of a completed cycle. -/
def ReachedHealthy (docker : Docker) (name : String) (cfg : HealthConfig)
    (hooks : LifecycleHooks) (ts : TsProvider) (events : List CallEvent) : Prop :=
  ∃ cycled gated rest cycle, events = cycled ++ (gated ++ rest) ∧
    Produces (recreateOne docker name hooks ts).run cycled (some (.ok (.completed cycle))) ∧
    Produces (waitForHealth docker cycle.newId cfg) gated (some .healthy)

/-! ## Places in a trace -/

/-- What holds of every place of a part of a trace. -/
def NoneConcludes (events : List CallEvent) : Prop :=
  ∀ before e after, events = before ++ e :: after → ¬ Concludes before e

/-! ## Calls that conclude nothing -/

/-- A call that could conclude an update, wherever it stands. -/
def Tidies (e : CallEvent) : Prop :=
  match e.call with
  | .removeContainer role _ _ => role = .update
  | .removeImage .. | .pruneImages | .exec .. => True
  | _ => False

theorem tidies_of_concludes {before : List CallEvent} {e : CallEvent} (h : Concludes before e) :
    Tidies e := by
  obtain ⟨call, reply⟩ := e
  cases call with
  | removeContainer role ref force =>
      cases role with
      | update => rfl
      | repair => exact absurd h id
      | restart => exact absurd h id
  | removeImage id force => trivial
  | pruneImages => trivial
  | exec ref command timeout => trivial
  | _ => exact absurd h id

theorem quiet_not_tidies : Quiet fun e => ¬ Tidies e := by
  intro call reply hquiet htidies
  cases call <;> first | exact htidies | cases hquiet

/-- A program that tidies nothing concludes nothing. -/
theorem not_tidies_of_emits {α : Type} {p : Prog α} {post : α → Prop}
    (h : Emits (fun _ => True) (fun e => ¬ Tidies e) p post) {events : List CallEvent}
    {out : Option α} (produced : Produces p events out) : ∀ e ∈ events, ¬ Tidies e :=
  (h events out produced fun _ _ => trivial).1

theorem swapKeeps_not_tidies {rely : CallEvent → Prop} (role : Role) (name : String)
    (spec : ContainerSpec) (image : String) :
    SwapKeeps rely (fun e => ¬ Tidies e) role name spec image where
  stop _ _ _ h := h
  rename _ _ h := h
  create _ h := h
  start _ _ _ h := h

/-- Before the swap: quiet calls, and the hook's. -/
def Clears (e : CallEvent) : Prop :=
  e.call.quiet = true ∨ ∃ ref command timeout, e.call = .exec ref command timeout

theorem clears_of_produces {docker : Docker} {name : String} {hooks : LifecycleHooks}
    {events : List CallEvent}
    {out : Option (Except DockerError (ContainerSpec × Option HookSkipReason))}
    (h : Produces (clearUpdate docker name hooks).run events out) : ∀ e ∈ events, Clears e := by
  have quiet : Quiet Clears := fun call reply hquiet => .inl hquiet
  have emits := @emits_clearUpdate (fun _ => True) Clears quiet docker name hooks
    (fun _ _ _ => .inl rfl) fun hook _ _ => .inr ⟨name, hook.command, hook.timeout, rfl⟩
  exact (emits events out h fun _ _ => trivial).1

theorem Clears.still {e : CallEvent} (h : Clears e) : e.call.moves = none := by
  obtain ⟨call, reply⟩ := e
  rcases h with hquiet | ⟨ref, command, timeout, hcall⟩
  · cases call <;> first | rfl | cases hquiet
  · cases hcall
    rfl

/-- Clearing an update concludes nothing: its hook runs before any create. -/
theorem noneConcludes_of_clears {events : List CallEvent} (h : ∀ e ∈ events, Clears e) :
    NoneConcludes events := by
  rintro before e after rfl hconcludes
  have nothing (id : String) : ¬ CreatedForUpdate before id := by
    rintro ⟨name, body, hmem⟩
    have hstill := (h _ (List.mem_append_left _ hmem)).still
    cases hstill
  rcases h e (by simp) with hquiet | ⟨ref, command, timeout, hcall⟩
  · exact quiet_not_tidies e.call e.reply hquiet (tidies_of_concludes hconcludes)
  · rw [Concludes, hcall] at hconcludes
    obtain ⟨id, hid⟩ := hconcludes
    exact nothing id hid

/-- The cycle concludes nothing. -/
theorem noneConcludes_of_recreateOne {docker : Docker} {name : String} {hooks : LifecycleHooks}
    {ts : TsProvider} {events : List CallEvent}
    {out : Option (Except DockerError CycleOutcome)}
    (h : Produces (recreateOne docker name hooks ts).run events out) : NoneConcludes events := by
  rcases h.of_except_bind with ⟨-, hclear⟩ | ⟨e, -, hclear⟩ |
    ⟨first, ⟨spec, skip⟩, rest, rfl, hclear, hrest⟩
  · exact noneConcludes_of_clears (clears_of_produces hclear)
  · exact noneConcludes_of_clears (clears_of_produces hclear)
  have hfirst := noneConcludes_of_clears (clears_of_produces hclear)
  have still : ∀ e ∈ rest, ¬ Tidies e := by
    cases skip with
    | some reason =>
        obtain ⟨rfl, -⟩ := produces_done_iff.mp hrest
        simp
    | none =>
        refine @not_tidies_of_emits _ _ (fun _ => True) ?_ _ _ hrest
        refine emits_lift_bind (emits_dependentsOf quiet_not_tidies docker name)
          fun dependents _ => ?_
        refine @emits_except_bind _ _ _ _ _ _ _ _ _ (fun _ => True) _ (emits_map ?_) (fun _ => trivial)
          fun _ _ => emits_done trivial
        exact (emits_swapContainer quiet_not_tidies (swapKeeps_not_tidies _ _ _ _) ts).weaken
          fun _ _ _ _ => trivial
  intro before e after hplace hconcludes
  rcases place_of_append hplace with ⟨after', hplace⟩ | ⟨before', rfl, rfl⟩
  · exact hfirst before e after' hplace hconcludes
  · exact still e (by simp) (tidies_of_concludes hconcludes)

/-- Undoing a cycle removes only what the cycle created. -/
theorem undo_removes_replacement {cycle : CycleResult} {reason : RollbackReason}
    {ts : TsProvider} {events : List CallEvent}
    {out : Option (Except DockerError RecreateOutcome)}
    (h : Produces (undoUpdate cycle reason ts).run events out) :
    ∀ e ∈ events, Tidies e → ∃ force, e.call = .removeContainer .update cycle.newId force := by
  let guar (e : CallEvent) : Prop :=
    Tidies e → ∃ force, e.call = .removeContainer .update cycle.newId force
  have keeps : UndoKeeps (fun _ => True) guar cycle := {
    quiet := fun call reply hquiet htidies => absurd htidies (quiet_not_tidies call reply hquiet)
    stop := fun _ _ _ h => absurd h id
    remove := fun _ _ => ⟨true, rfl⟩
    rename := fun _ h => absurd h id
    start := fun _ h => absurd h id
    reattach := fun d _ => {
      swap := fun _ _ _ => {
        stop := fun _ _ _ h => absurd h id
        rename := fun _ _ h => absurd h id
        create := fun _ h => absurd h id
        start := fun _ _ _ h => absurd h id }
      restore := fun _ _ _ h => absurd h id
      restart := fun _ h => absurd h id
      clean := fun _ _ _ h => by cases h } }
  exact (keeps.undoUpdate reason ts events out h fun _ _ => trivial).1

/-! ## The order -/

variable {docker : Docker} {name : String} {cfg : HealthConfig} {cleanup : Cleanup}
  {hooks : LifecycleHooks} {ts : TsProvider} {events : List CallEvent}
  {out : Option (Except DockerError RecreateOutcome)}

/-- What a finished cycle created. -/
theorem created_of_recreateOne {cycle : CycleResult}
    (h : Produces (recreateOne docker name hooks ts).run events (some (.ok (.completed cycle))))
    (id : String) : CreatedForUpdate events id ↔ id = cycle.newId := by
  obtain ⟨resp, spec, before, -, rfl, hbefore, -⟩ := produces_recreateOne h
  constructor
  · rintro ⟨name', body, hmem⟩
    rcases List.mem_cons.mp hmem with heq | hmem
    · cases heq
    rcases List.mem_append.mp hmem with hmem | hmem
    · exact absurd (hbefore _ hmem) (by simp [NotCreate, Creates])
    · rcases List.mem_cons.mp hmem with heq | hmem
      · cases heq
        rfl
      · cases List.mem_singleton.mp hmem
  · rintro rfl
    exact ⟨spec.name, _, List.mem_cons_of_mem _ (List.mem_append_right _ List.mem_cons_self)⟩

/-- **What makes an update final comes after the gate has accepted the replacement.** -/
theorem reachedHealthy_of_concludes
    (h : Produces (recreateWithHealth docker name cfg cleanup hooks ts).run events out)
    {before after : List CallEvent} {e : CallEvent} (hplace : events = before ++ e :: after)
    (hconcludes : Concludes before e) : ReachedHealthy docker name cfg hooks ts before := by
  rcases h.of_except_bind with ⟨-, hcycle⟩ | ⟨error, -, hcycle⟩ |
    ⟨cycled, outcome, rest, rfl, hcycle, hrest⟩
  · exact absurd hconcludes (noneConcludes_of_recreateOne hcycle before e after hplace)
  · exact absurd hconcludes (noneConcludes_of_recreateOne hcycle before e after hplace)
  rcases place_of_append hplace with ⟨after', hplace⟩ | ⟨before', rfl, rfl⟩
  · exact absurd hconcludes (noneConcludes_of_recreateOne hcycle before e after' hplace)
  cases outcome with
  | skipped reason =>
      obtain ⟨hnil, -⟩ := produces_done_iff.mp hrest
      exact absurd hnil (by simp)
  | completed cycle =>
      rw [gateUpdate, run_lift_bind] at hrest
      have gate {gated : List CallEvent} {verdict : Option HealthOutcome}
          (h : Produces (waitForHealth docker cycle.newId cfg) gated verdict) :
          ∀ e ∈ gated, ¬ Tidies e :=
        not_tidies_of_emits (emits_waitForHealth quiet_not_tidies docker cycle.newId cfg) h
      rcases hrest.of_bind with ⟨-, hgate⟩ | ⟨gated, verdict, more, hsplit, hgate, hmore⟩
      · exact absurd (tidies_of_concludes hconcludes) (gate hgate e (by simp))
      rcases place_of_append hsplit.symm with ⟨after', rfl⟩ | ⟨before'', rfl, rfl⟩
      · exact absurd (tidies_of_concludes hconcludes) (gate hgate e (by simp))
      have undone {reason : RollbackReason}
          (h : Produces (undoUpdate cycle reason ts).run (before'' ++ e :: after) out) : False := by
        obtain ⟨force, hcall⟩ := undo_removes_replacement h e (by simp)
          (tidies_of_concludes hconcludes)
        rw [Concludes, hcall] at hconcludes
        obtain ⟨name', body, hmem⟩ := (created_of_recreateOne hcycle cycle.newId).mpr rfl
        exact hconcludes ⟨name', body, List.mem_append_left _ hmem⟩
      cases verdict with
      | healthy => exact ⟨cycled, gated, before'', cycle, rfl, hcycle, hgate⟩
      | timeout => exact (undone hmore).elim
      | crashed => exact (undone hmore).elim

/-- **A call that moves a container comes after the inspect, the preflight, the pull and the
pre-update hook have cleared the update.** -/
theorem cleared_of_moves
    (h : Produces (recreateWithHealth docker name cfg cleanup hooks ts).run events out)
    (moves : ∃ e ∈ events, e.call.moves ≠ none) :
    ∃ cleared rest spec, events = cleared ++ rest ∧
      Produces (clearUpdate docker name hooks).run cleared (some (.ok (spec, none))) ∧
      ∀ e ∈ cleared, e.call.moves = none := by
  obtain ⟨e, he, hmoves⟩ := moves
  have unmoved {cleared : List CallEvent}
      {r : Option (Except DockerError (ContainerSpec × Option HookSkipReason))}
      (h : Produces (clearUpdate docker name hooks).run cleared r) :
      ∀ e ∈ cleared, e.call.moves = none :=
    fun e he => (clears_of_produces h e he).still
  -- an observation of the cycle that has not completed shows all of the update
  have cycle {cycled : List CallEvent} {r : Option (Except DockerError CycleOutcome)}
      (h : Produces (recreateOne docker name hooks ts).run cycled r) (he : e ∈ cycled) :
      ∃ cleared rest spec, cycled = cleared ++ rest ∧
        Produces (clearUpdate docker name hooks).run cleared (some (.ok (spec, none))) := by
    rcases h.of_except_bind with ⟨-, hclear⟩ | ⟨error, -, hclear⟩ |
      ⟨cleared, ⟨spec, skip⟩, rest, rfl, hclear, hrest⟩
    · exact absurd (unmoved hclear e he) hmoves
    · exact absurd (unmoved hclear e he) hmoves
    cases skip with
    | none => exact ⟨cleared, rest, spec, rfl, hclear⟩
    | some reason =>
        obtain ⟨rfl, -⟩ := produces_done_iff.mp hrest
        exact absurd (unmoved hclear e (by simpa using he)) hmoves
  rcases h.of_except_bind with ⟨-, hcycle⟩ | ⟨error, -, hcycle⟩ |
    ⟨cycled, outcome, rest, rfl, hcycle, hrest⟩
  · obtain ⟨cleared, rest, spec, hsplit, hclear⟩ := cycle hcycle he
    exact ⟨cleared, rest, spec, hsplit, hclear, unmoved hclear⟩
  · obtain ⟨cleared, rest, spec, hsplit, hclear⟩ := cycle hcycle he
    exact ⟨cleared, rest, spec, hsplit, hclear, unmoved hclear⟩
  · cases outcome with
    | skipped reason =>
        obtain ⟨rfl, -⟩ := produces_done_iff.mp hrest
        obtain ⟨cleared, rest, spec, rfl, hclear⟩ := cycle hcycle (by simpa using he)
        exact ⟨cleared, rest, spec, by simp, hclear, unmoved hclear⟩
    | completed completed =>
        obtain ⟨first, ⟨spec, skip⟩, more, rfl, hclear, hswap⟩ := hcycle.of_except_bind_ok
        cases skip with
        | none => exact ⟨first, more ++ rest, spec, by simp, hclear, unmoved hclear⟩
        | some reason =>
            obtain ⟨-, hresult⟩ := Produces.of_done hswap
            cases hresult

end Freshdock.Docker
