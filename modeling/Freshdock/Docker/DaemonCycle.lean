import Freshdock.Docker.DaemonSwap

/-!
# The cycle of an update on a daemon

What `recreateOne` leaves behind on a daemon: the container it was asked for is kept, and a
completed cycle has archived it and started its replacement (`Exchanged`). Undoing such a cycle
keeps the container too, and has restored it when the rollback succeeded.
-/

set_option autoImplicit false

namespace Freshdock.Docker

open Interaction Registry
open Labels (LifecycleHooks)

/-- After a completed cycle: the container is archived, its replacement runs under its name, and
the dependents are other containers. -/
structure Exchanged (prev : Container) (cycle : CycleResult) (w : World) : Prop where
  valid : w.Valid
  ownerName : cycle.ownerName = prev.name
  shelved : Shelved prev cycle.oldName w
  replacement : (⟨cycle.newId, prev.name, true⟩ : Container) ∈ w.containers
  newId : cycle.newId ≠ prev.id ∧ cycle.newId ≠ prev.name
  dependents : ∃ ds : List Container, cycle.dependents = ds.map Container.name ∧ ds.Nodup ∧
    ∀ d ∈ ds, d ∈ w.containers ∧ d.id ≠ prev.id ∧ d.id ≠ cycle.newId

theorem Exchanged.of_same {prev : Container} {cycle : CycleResult} {w w' : World}
    (h : Exchanged prev cycle w) (same : Same w w') : Exchanged prev cycle w' where
  valid := same.valid h.valid
  ownerName := h.ownerName
  shelved := h.shelved.evolves (@Same.evolves _ _ same h.valid []) (by simp)
  replacement := by
    rw [same.containers]
    exact h.replacement
  newId := h.newId
  dependents := by
    rw [same.containers]
    exact h.dependents

/-- What `recreateOne` leaves behind. -/
structure CycleEnd (prev : Container) (out : Option (Except DockerError CycleOutcome))
    (trace : List CallEvent) (w : World) : Prop where
  valid : w.Valid
  kept : Kept prev w
  completed : ∀ cycle, out = some (.ok (.completed cycle)) → Exchanged prev cycle w
  faults : (∃ e ∈ trace, Fails .update prev.name e) →
    (∃ e, out = some (.error e)) ∧ ∃ archive, Shelved prev archive w

variable {oracle : Oracle} {w : World} {prev : Container}

/-- A cycle that ends while the containers are as they were. -/
theorem CycleEnd.of_same {out : Option (Except DockerError CycleOutcome)}
    {trace : List CallEvent} {w' : World} (valid : w.Valid) (hprev : prev ∈ w.containers)
    (same : Same w w') (htrace : ∀ e ∈ trace, e.call.moves = none)
    (hout : ∀ cycle, out ≠ some (.ok (.completed cycle))) : CycleEnd prev out trace w' where
  valid := same.valid valid
  kept := ⟨prev, by rwa [same.containers], rfl, .inl rfl⟩
  completed cycle h := absurd h (hout cycle)
  faults := fun ⟨e, he, hfails⟩ => absurd hfails (not_fails_of_still (htrace e he))

theorem ensures_completeCycle {w₁ : World} {ds : List Container} {before : List CallEvent}
    {spec : ContainerSpec} (valid : w.Valid) (hprev : prev ∈ w.containers) (same : Same w w₁)
    (hname : spec.name = prev.name) (nodup : ds.Nodup)
    (hds : ∀ d ∈ ds, d ∈ w.containers ∧ d ≠ prev)
    (hbefore : ∀ e ∈ before, e.call.moves = none) (ts : TsProvider) :
    Ensures oracle.answer (completeCycle spec (ds.map Container.name) ts).run w₁
      fun out trace w' => CycleEnd prev out (before ++ trace) w' := by
  have valid₁ := same.valid valid
  have hprev₁ : prev ∈ w₁.containers := by rwa [same.containers]
  have hswap : Ensures oracle.answer (swapContainer .update spec.name spec spec.imageRef ts).run w₁
      (SwapEnd .update prev w₁) := by
    rw [hname]
    exact ensures_swapContainer valid₁ hprev₁ .update spec spec.imageRef ts
  have faults {r : Option (Except SwapError (String × String))}
      {out : Option (Except DockerError CycleOutcome)} {trace : List CallEvent} {w₂ : World}
      (h : SwapEnd .update prev w₁ r trace w₂)
      (hout : ∀ e archive, r = some (.error (.afterStop e (some archive))) →
        ∃ e, out = some (.error e)) :
      (∃ e ∈ before ++ trace, Fails .update prev.name e) →
        (∃ e, out = some (.error e)) ∧ ∃ archive, Shelved prev archive w₂ := by
    rintro ⟨e, he, hfails⟩
    rcases List.mem_append.mp he with he | he
    · exact absurd hfails (not_fails_of_still (hbefore e he))
    · obtain ⟨error, archive, hr⟩ := h.faults ⟨e, he, hfails⟩
      exact ⟨hout error archive hr, archive, h.failed error archive hr⟩
  refine ensures_except_bind
    (fun out trace w₂ => ∃ r, out = r.map (Except.mapError SwapError.intoInner) ∧
      SwapEnd .update prev w₁ r trace w₂)
    (ensures_map (hswap.weaken fun r _ _ h => ⟨r, rfl, h⟩)) ?_ ?_ ?_
  · rintro trace w₂ ⟨r, hr, h⟩
    rcases r with _ | r
    · exact ⟨h.evolves.valid, h.kept, fun _ h => (by cases h), faults h fun _ _ h => by cases h⟩
    · cases hr
  · rintro e trace w₂ ⟨r, hr, h⟩
    rcases r with _ | ⟨error | swapped⟩
    · cases hr
    · exact ⟨h.evolves.valid, h.kept, fun _ h => (by cases h), faults h fun _ _ _ => ⟨e, rfl⟩⟩
    · cases hr
  · rintro swapped trace w₂ ⟨r, hr, h⟩
    rcases r with _ | ⟨error | ⟨archive, id⟩⟩
    · cases hr
    · cases hr
    · cases hr
      obtain ⟨shelved, hreplacement, hnew, hne⟩ := h.swapped archive id rfl
      have hissued (c : Container) (hc : c ∈ w₁.containers) : c.id ≠ id := by
        intro heq
        exact hnew (heq ▸ valid₁.issued c hc)
      refine ensures_done ⟨h.evolves.valid, h.kept, ?_, ?_⟩
      · intro cycle heq
        cases heq
        refine ⟨h.evolves.valid, hname, shelved, hreplacement,
          ⟨(hissued prev hprev₁).symm, hne⟩, ds, rfl, nodup, fun d hd => ?_⟩
        obtain ⟨hd, hdne⟩ := hds d hd
        have hd₁ : d ∈ w₁.containers := by rwa [same.containers]
        have hdid : d.id ≠ prev.id := fun heq => hdne (valid.eq_of_id hd hprev heq)
        exact ⟨h.evolves.kept d hd₁ fun h => hdid (List.mem_singleton.mp h), hdid, hissued d hd₁⟩
      · rw [List.append_nil]
        exact faults h fun _ _ h => by cases h

/-- **The cycle keeps the container it was asked for, whatever fails.** -/
theorem ensures_recreateOne {docker : Docker} {name : String} (valid : w.Valid)
    (hname : w.resolve name = some prev) (hooks : LifecycleHooks) (ts : TsProvider) :
    Ensures oracle.answer (recreateOne docker name hooks ts).run w (CycleEnd prev) := by
  have hprev := World.mem_of_resolve hname
  refine ensures_except_bind _ (ensures_still
    (emits_clearUpdate (quiet_moves _).hushed docker name hooks
      (fun _ _ _ => moves_of_none rfl) fun _ _ _ => moves_of_none rfl) .rfl)
    ?_ ?_ ?_
  · intro trace w₁ ⟨same, htrace, _⟩
    exact .of_same valid hprev same htrace fun _ h => by cases h
  · intro e trace w₁ ⟨same, htrace, _⟩
    exact .of_same valid hprev same htrace fun _ h => by cases h
  intro ⟨spec, skip⟩ trace₁ w₁ ⟨same₁, htrace₁, hinspected⟩
  cases skip with
  | some reason =>
      refine ensures_done (.of_same valid hprev same₁ (by simpa using htrace₁) fun _ h => by cases h)
  | none =>
      have hspec := name_of_inspected valid hname (hinspected _ rfl _ rfl)
      refine ensures_lift_bind _
        (ensures_still (emits_dependentsOf (quiet_moves _).hushed docker name) same₁) ?_ ?_
      · intro trace₂ w₂ ⟨same₂, htrace₂, _⟩
        refine .of_same valid hprev same₂ (fun e he => ?_) fun _ h => by cases h
        exact (List.mem_append.mp he).elim (htrace₁ e) (htrace₂ e)
      · intro dependents trace₂ w₂ ⟨same₂, htrace₂, hlisted⟩
        obtain ⟨ds, rfl, nodup, hds⟩ :=
          dependents_of_listed valid (fun _ told => told) hname (hlisted _ rfl)
        have hbefore : ∀ e ∈ trace₁ ++ trace₂, e.call.moves = none := fun e he =>
          (List.mem_append.mp he).elim (htrace₁ e) (htrace₂ e)
        refine (ensures_completeCycle valid hprev same₂ hspec nodup (fun d hd => (hds d hd).1)
          hbefore ts).weaken ?_
        intro out trace w₃ h
        rwa [List.append_assoc] at h

theorem Exchanged.rollback {cycle : CycleResult} (h : Exchanged prev cycle w)
    (reason : RollbackReason) :
    Ensures oracle.answer (rollback cycle.ownerName cycle.newId cycle.oldName
      (cycle.oldImageRef, cycle.newImageRef) reason).run w fun out _ w' =>
        RollbackEnd prev ⟨cycle.newId, prev.name, true⟩ w out w' := by
  rw [h.ownerName]
  exact ensures_rollback h.valid h.shelved h.replacement h.newId.1.symm _ reason

/-- **Undoing a cycle keeps the container, whatever fails.** When the rollback succeeds the
container runs under its name and the replacement is gone. -/
theorem ensures_undoUpdate {cycle : CycleResult} (h : Exchanged prev cycle w)
    (reason : RollbackReason) (ts : TsProvider) :
    Ensures oracle.answer (undoUpdate cycle reason ts).run w fun out _ w' =>
      Kept prev w' ∧ ∀ outcome, out = some (.ok outcome) →
        (⟨prev.id, prev.name, true⟩ : Container) ∈ w'.containers ∧
          ∀ c ∈ w'.containers, c.id ≠ cycle.newId := by
  obtain ⟨ds, hdependents, nodup, hds⟩ := h.dependents
  refine ensures_except_bind _ (h.rollback reason) ?_ ?_ ?_
  · intro _ w₁ h
    exact ⟨h.kept, fun _ h => by cases h⟩
  · intro e _ w₁ h
    exact ⟨h.kept, fun _ h => by cases h⟩
  intro event _ w₁ rolled
  obtain ⟨hrunning, hgone⟩ := rolled.restored event rfl
  have hapart : prev.id ∉ ds.map Container.id := by
    intro hmem
    obtain ⟨d, hd, hid⟩ := List.mem_map.mp hmem
    exact (hds d hd).2.1 hid
  have hds₁ : ∀ d ∈ ds, d ∈ w₁.containers := by
    intro d hd
    obtain ⟨hd, hprev, hnew⟩ := hds d hd
    exact rolled.evolves.kept d hd (by simp [hprev, hnew])
  have hissued : cycle.newId ∈ w₁.issued :=
    rolled.evolves.issued _ (h.valid.issued _ h.replacement)
  have hrepairs := @ensures_reattachDependents oracle _ _ rolled.evolves.valid nodup hds₁
    cycle.ownerName none ts
  rw [← hdependents] at hrepairs
  have restored {w₂ : World} (evolves : Evolves (ds.map Container.id) w₁ w₂) :
      (⟨prev.id, prev.name, true⟩ : Container) ∈ w₂.containers ∧
        ∀ c ∈ w₂.containers, c.id ≠ cycle.newId :=
    ⟨evolves.kept _ hrunning hapart, evolves.absent hissued hgone⟩
  refine ensures_lift_bind _ hrepairs ?_ ?_
  · intro _ w₂ evolves
    exact ⟨⟨_, (restored evolves).1, rfl, .inl rfl⟩, fun _ h => by cases h⟩
  · intro _ _ w₂ evolves
    exact ensures_done ⟨⟨_, (restored evolves).1, rfl, .inl rfl⟩, fun _ _ => restored evolves⟩

/-! ## From the gate on -/

/-- No create for the update, and no start for it but that of `name`. -/
def Spares (name : String) (e : CallEvent) : Prop :=
  match e.call with
  | .createContainer role _ _ => role ≠ .update
  | .startContainer role ref => role = .update → ref = name
  | _ => True

theorem still_spares (name : String) : Still (Spares name) := by
  intro call reply still
  cases call <;> trivial

theorem not_fails_of_spares {name : String} {e : CallEvent} (h : Spares name e) :
    ¬ Fails .update name e := by
  intro hfails
  obtain ⟨call, reply⟩ := e
  cases call with
  | createContainer role ref body =>
      rcases reply with _ | ⟨e | id⟩
      · exact hfails
      · exact h hfails
      · exact hfails
  | startContainer role ref =>
      rcases reply with _ | ⟨e | u⟩
      · exact hfails
      · exact hfails.2 (h hfails.1)
      · exact hfails
  | _ => exact hfails

/-- A repair creates and starts on its own account. -/
theorem reattachKeeps_spares {rely : CallEvent → Prop} (name dependent owner : String)
    (newOwnerId : Option String) :
    ReattachKeeps rely (Spares name) dependent owner newOwnerId where
  swap inspected image _ := {
    stop := fun _ _ _ => trivial
    rename := fun _ _ => trivial
    create := fun _ h => by cases h
    start := fun _ _ _ h => by cases h }
  restore _ _ _ := trivial
  restart _ h := by cases h
  clean _ _ _ := trivial

/-- **After a finished cycle an update creates nothing and starts only the container itself.** -/
theorem emits_gateUpdate_spares {rely : CallEvent → Prop} (docker : Docker) (cfg : HealthConfig)
    (cleanup : Cleanup) (hooks : LifecycleHooks) (ts : TsProvider) (cycle : CycleResult) :
    Emits rely (Spares cycle.ownerName)
      (gateUpdate docker cfg cleanup hooks ts (.completed cycle)).run fun _ => True :=
  emits_gateUpdate
    { still := still_spares _
      remove := fun _ => trivial
      reattach := fun _ _ => reattachKeeps_spares _ _ _ _ }
    { quiet := (still_spares _).quiet
      stop := fun _ _ _ => trivial
      remove := fun _ => trivial
      rename := fun _ => trivial
      start := fun _ _ => rfl
      reattach := fun _ _ => reattachKeeps_spares _ _ _ _ }
    docker cfg cleanup hooks ts

theorem ensures_gateUpdate_spares (docker : Docker) (cfg : HealthConfig) (cleanup : Cleanup)
    (hooks : LifecycleHooks) (ts : TsProvider) (cycle : CycleResult) :
    Ensures oracle.answer (gateUpdate docker cfg cleanup hooks ts (.completed cycle)).run w
      fun _ trace _ => ∀ e ∈ trace, Spares cycle.ownerName e := by
  have emits := @emits_gateUpdate_spares (fun _ => True) docker cfg cleanup hooks ts cycle
  refine (ensures_produces _ w).weaken ?_
  intro out trace w' produced
  exact (emits trace out produced fun _ _ => trivial).1

/-! ## Runs -/

/-- The run of an update against a daemon. -/
def updateRun (oracle : Oracle) (docker : Docker) (name : String) (cfg : HealthConfig)
    (cleanup : Cleanup) (hooks : LifecycleHooks) (ts : TsProvider) (w : World) :
    Run Call Call.Reply World (Except DockerError RecreateOutcome) :=
  play oracle.answer (recreateWithHealth docker name cfg cleanup hooks ts).run w

/-- The container runs under its name again. -/
def Restored (prev : Container) (w : World) : Prop :=
  (⟨prev.id, prev.name, true⟩ : Container) ∈ w.containers

end Freshdock.Docker
