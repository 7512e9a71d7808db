import Freshdock.Docker.AnyMoment
import Freshdock.Docker.FaithfulRepair

/-!
# The repairs of an update

**Over a whole update the repairs of network-namespace dependents are faithful.** Every body
that a repair sends joins the namespace of the container that runs under the updated one's name:
its replacement in a run that reports success, the container itself in one that reports a
rollback. It names the image the dependent runs, and a container that does not reference the
updated one is as it was at every moment of the run (`RepairsFaithfully`). The re-run of a
one-shot repairs its dependents only when it exited 0, and is held to the same.
-/

set_option autoImplicit false

namespace Freshdock.Docker

open Interaction Registry Text
open Labels (LifecycleHooks)

/-- The container that takes the place of `prev` in a run with this end: it runs under the name
of `prev`. It is the replacement when success is reported, and `prev` when a rollback is. -/
structure TakesPlace (prev : Container) (out : Option (Except DockerError RecreateOutcome))
    (owner : Container) (w : World) : Prop where
  name : owner.name = prev.name
  running : owner.running = true
  either : owner.id = prev.id ∨ owner.id ∉ w.issued
  recreated : ∀ archive id, out = some (.ok (.recreated archive id)) →
    owner.id = id ∧ id ≠ prev.id
  rolledBack : ∀ event, out = some (.ok (.rolledBack event)) → owner.id = prev.id

/-- The replacement of `prev`. -/
structure Replaces (prev : Container) (w : World) (owner : Container) : Prop where
  name : owner.name = prev.name
  new : owner.id ∉ w.issued

/-- What an update of `prev` on `w` owes the containers around it, where `takes` holds of what
takes the place of `prev`. -/
structure RepairsFaithfully (cat : Catalogue) (prev : Container) (w : World)
    (takes : Container → Prop) (asked : List (Call × World)) (final : World) : Prop where
  /-- A repair re-creates a container that references `prev`, from a faithful body. -/
  repairs : ∀ name body s, (Call.createContainer .repair name body, s) ∈ asked →
    ∃ d ∈ w.containers, d.name = name ∧ d ≠ prev ∧ cat.references d prev = true ∧
      ∃ owner, takes owner ∧ FaithfulBody cat prev owner d body s
  /-- What does not reference `prev` is as it was, whenever a call is asked and at the end. -/
  untouched : ∀ c ∈ w.containers, c ≠ prev → cat.references c prev = false →
    (∀ q ∈ asked, c ∈ q.2.containers) ∧ c ∈ final.containers

/-! ## The cycle -/

section Cycle

variable {oracle : Oracle} {w : World} {prev : Container}

/-- A cycle touches the container it replaces, and keeps the list of its dependents. -/
theorem ensures_completeCycle_evolves (valid : w.Valid) (hprev : prev ∈ w.containers)
    {spec : ContainerSpec} (hname : spec.name = prev.name) (dependents : List String)
    (ts : TsProvider) :
    Ensures oracle.answer (completeCycle spec dependents ts).run w fun out _ w' =>
      Evolves [prev.id] w w' ∧ ∀ cycle, out = some (.ok (.completed cycle)) →
        cycle.dependents = dependents := by
  have hswap : Ensures oracle.answer (swapContainer .update spec.name spec spec.imageRef ts).run w
      fun _ _ w' => Evolves [prev.id] w w' := by
    rw [hname]
    exact (ensures_swapContainer valid hprev .update spec spec.imageRef ts).weaken
      fun _ _ _ h => h.evolves
  refine ensures_except_bind (fun _ _ w' => Evolves [prev.id] w w') (ensures_map hswap) ?_ ?_ ?_
  · intro _ w' evolves
    exact ⟨evolves, fun _ h => by cases h⟩
  · intro e _ w' evolves
    exact ⟨evolves, fun _ h => by cases h⟩
  · intro swapped _ w' evolves
    refine ensures_done ⟨evolves, fun cycle h => ?_⟩
    cases h
    rfl

/-- **The dependents of a cycle reference the container it replaced**, as far as the daemon
tells. -/
theorem ensures_recreateOne_dependents (cat : Catalogue) {docker : Docker} {name : String}
    (valid : w.Valid) (hname : w.resolve name = some prev) (hooks : LifecycleHooks)
    (ts : TsProvider) :
    Ensures oracle.answer (recreateOne docker name hooks ts).run w fun out trace w' =>
      Evolves [prev.id] w w' ∧ ((∀ e ∈ trace, cat.tells e = true) →
        ∀ cycle, out = some (.ok (.completed cycle)) → ∀ n ∈ cycle.dependents,
          ∃ d ∈ w.containers, d.name = n ∧ d ≠ prev ∧ cat.references d prev = true) := by
  have hprev := World.mem_of_resolve hname
  refine ensures_except_bind _ (ensures_still
    (emits_clearUpdate (quiet_moves _).hushed docker name hooks
      (fun _ _ _ => moves_of_none rfl) fun _ _ _ => moves_of_none rfl) .rfl)
    ?_ ?_ ?_
  · intro _ w₁ ⟨same, _⟩
    exact ⟨same.evolves valid, fun _ _ h => by cases h⟩
  · intro e _ w₁ ⟨same, _⟩
    exact ⟨same.evolves valid, fun _ _ h => by cases h⟩
  intro ⟨spec, skip⟩ _ w₁ ⟨same₁, _, hinspected⟩
  cases skip with
  | some reason => exact ensures_done ⟨same₁.evolves valid, fun _ _ h => by cases h⟩
  | none =>
      have hspec := name_of_inspected valid hname (hinspected _ rfl _ rfl)
      refine ensures_lift_bind _
        (ensures_promised (fun _ => emits_dependentsOf (quiet_moves _).hushed docker name) same₁)
        ?_ ?_
      · intro _ w₂ ⟨same₂, _⟩
        exact ⟨same₂.evolves valid, fun _ _ h => by cases h⟩
      intro dependents listing w₂ ⟨same₂, hlisted⟩
      have hprev₂ : prev ∈ w₂.containers := by rwa [same₂.containers]
      have hcycle := @ensures_completeCycle_evolves oracle _ prev (same₂.valid valid) hprev₂ spec
        hspec dependents ts
      refine hcycle.weaken ?_
      intro out _ w₃ ⟨evolves, hdependents⟩
      refine ⟨(same₂.evolves valid).trans evolves fun _ _ h => h, ?_⟩
      intro told cycle hcycle n hn
      rw [hdependents cycle hcycle] at hn
      have hkept : ∀ e ∈ listing, cat.tells e = true := fun e he => told e (by simp [he])
      obtain ⟨ds, rfl, -, hds⟩ := dependents_of_listed valid (fun _ h => h.1) hname
        (hlisted (fun e => cat.tells e = true) hkept _ rfl)
      obtain ⟨d, hd, rfl⟩ := List.mem_map.mp hn
      obtain ⟨⟨hmem, hne⟩, running, row, mode, ⟨-, htells⟩, hrow, hid, hmode, hreferences⟩ :=
        hds d hd
      refine ⟨d, hmem, rfl, hne, ?_⟩
      have hrow := List.all_eq_true.mp htells row hrow
      simp only [hid, Option.all_some, hmode, beq_iff_eq] at hrow
      rw [Catalogue.references, ← hrow]
      exact hreferences

end Cycle

/-! ## After the cycle -/

/-- A completed cycle left `prev` archived on `w`, with its replacement, and `ds` are its
dependents: containers of the daemon the update began with, which reference `prev`. -/
structure Scanned (cat : Catalogue) (prev : Container) (cycle : CycleResult) (ds : List Container)
    (w₀ w : World) : Prop where
  exchanged : Exchanged prev cycle w
  evolves : Evolves [prev.id] w₀ w
  newId : cycle.newId ∉ w₀.issued
  dependents : cycle.dependents = ds.map Container.name
  nodup : ds.Nodup
  listed : ∀ d ∈ ds, d ∈ w₀.containers ∧ d ≠ prev ∧ cat.references d prev = true
  others : ∀ d ∈ ds, d ∈ w.containers ∧ d.id ≠ prev.id ∧ d.id ≠ cycle.newId

/-- `prev`, its replacement and its dependents. -/
def touchedBy (prev : Container) (cycle : CycleResult) (ds : List Container) : List String :=
  prev.id :: cycle.newId :: ds.map Container.id

section After

variable {oracle : Oracle} {cat : Catalogue} {w₀ w : World} {prev : Container}
  {cycle : CycleResult} {ds : List Container}

theorem scanned_of_exchanged (valid : w₀.Valid) (hprev : prev ∈ w₀.containers)
    (exchanged : Exchanged prev cycle w) (evolves : Evolves [prev.id] w₀ w)
    (listed : ∀ n ∈ cycle.dependents, ∃ d ∈ w₀.containers, d.name = n ∧ d ≠ prev ∧
      cat.references d prev = true) :
    ∃ ds, Scanned cat prev cycle ds w₀ w := by
  have kept {c : Container} (hc : c ∈ w₀.containers) (hne : c ≠ prev) : c ∈ w.containers :=
    evolves.kept c hc fun h => hne (valid.eq_of_id hc hprev (List.mem_singleton.mp h))
  obtain ⟨ds, hdependents, nodup, hds⟩ := exchanged.dependents
  refine ⟨ds, exchanged, evolves, ?_, hdependents, nodup, ?_, hds⟩
  · -- a container that had the id would be kept, and have the name of `prev`
    rcases evolves.born _ exchanged.replacement with ⟨c, hc, hid⟩ | hnew
    · have hid : c.id = cycle.newId := hid
      have hne : c ≠ prev := by
        rintro rfl
        exact exchanged.newId.1 hid.symm
      have heq := exchanged.valid.eq_of_id (kept hc hne) exchanged.replacement hid
      have hname := congrArg Container.name heq
      exact absurd (valid.eq_of_name hc hprev hname) hne
    · exact hnew
  · intro d hd
    obtain ⟨d₀, hd₀, hname, hne, hreferences⟩ :=
      listed d.name (by rw [hdependents]; exact List.mem_map_of_mem hd)
    have heq := exchanged.valid.eq_of_name (kept hd₀ hne) (hds d hd).1 hname
    exact heq ▸ ⟨hd₀, hne, hreferences⟩

theorem Scanned.of_same {w' : World} (scanned : Scanned cat prev cycle ds w₀ w)
    (same : Same w w') : Scanned cat prev cycle ds w₀ w' where
  exchanged := scanned.exchanged.of_same same
  evolves := scanned.evolves.trans (@Same.evolves _ _ same scanned.evolves.valid [prev.id])
    fun _ _ h => h
  newId := scanned.newId
  dependents := scanned.dependents
  nodup := scanned.nodup
  listed := scanned.listed
  others := by
    rw [same.containers]
    exact scanned.others

/-- Nothing but `prev` and its dependents has changed since the update began. -/
theorem Scanned.untouched {w' : World} (scanned : Scanned cat prev cycle ds w₀ w)
    (valid : w₀.Valid) (hprev : prev ∈ w₀.containers)
    (evolves : Evolves (touchedBy prev cycle ds) w w') {c : Container}
    (hc : c ∈ w₀.containers) (hne : c ≠ prev) (hnot : cat.references c prev = false) :
    c ∈ w'.containers := by
  have hid : c.id ≠ prev.id := fun heq => hne (valid.eq_of_id hc hprev heq)
  refine evolves.kept c (scanned.evolves.kept c hc (by simpa using hid)) fun h => ?_
  rcases List.mem_cons.mp h with h | h
  · exact hid h
  rcases List.mem_cons.mp h with h | h
  · exact scanned.newId (h ▸ valid.issued c hc)
  obtain ⟨d, hd, heq⟩ := List.mem_map.mp h
  obtain ⟨hmem, -, hreferences⟩ := scanned.listed d hd
  rw [valid.eq_of_id hmem hc heq, hnot] at hreferences
  cases hreferences

variable (scanned : Scanned cat prev cycle ds w₀ w)

include scanned

theorem Scanned.apart : prev.id ∉ ds.map Container.id := by
  intro hmem
  obtain ⟨d, hd, hid⟩ := List.mem_map.mp hmem
  exact (scanned.others d hd).2.1 hid

/-- The repairs of a settled update join the replacement. -/
theorem watches_settled {α : Type} (fixed : cat.Fixed) (ts : TsProvider) {rest : Prog α}
    (emits : Emits (fun _ => True) NotRepair rest fun _ => True) :
    Watches oracle.answer (fun e => cat.tells e = true)
      (reattachDependents cycle.ownerName (some cycle.newId) ts cycle.dependents >>=
        fun _ => rest) w
      fun _ => OnRepairs (FaithfulTo cat prev ⟨cycle.newId, prev.name, true⟩ ds) := by
  have exchanged := scanned.exchanged
  have repairs : Watches oracle.answer (fun e => cat.tells e = true)
      (reattachDependents cycle.ownerName (some cycle.newId) ts cycle.dependents) w
      fun _ => OnRepairs (FaithfulTo cat prev ⟨cycle.newId, prev.name, true⟩ ds) := by
    rw [exchanged.ownerName, scanned.dependents]
    exact @watches_reattachDependents oracle cat w prev ⟨cycle.newId, prev.name, true⟩ fixed
      (some cycle.newId)
      (fun ref s hs hmem _ => @joins_replacement s prev ⟨cycle.newId, prev.name, true⟩ hs hmem rfl
        exchanged.newId.1 ref) ds
      exchanged.valid scanned.nodup (fun d hd => (scanned.others d hd).1)
      (fun d hd => (scanned.others d hd).2.2) (fun d hd => (scanned.listed d hd).2.2)
      exchanged.replacement ts
  exact watches_bind (fun _ _ _ => True) (repairs.weaken fun _ _ _ h _ => h) trivial
    fun _ _ _ _ _ => watches_notRepair emits _

theorem watches_settleUpdate (fixed : cat.Fixed) (cleanup : Cleanup) (hook : Option Labels.Hook)
    (ts : TsProvider) :
    Watches oracle.answer (fun e => cat.tells e = true) (settleUpdate cycle cleanup hook ts) w
      fun _ => OnRepairs (FaithfulTo cat prev ⟨cycle.newId, prev.name, true⟩ ds) := by
  refine watches_settled scanned fixed ts ?_
  refine emits_bind (emits_request (fun _ _ _ h => by cases h) fun _ _ => trivial) fun _ _ => ?_
  refine emits_bind (emits_runPostUpdateHook _ _ fun _ _ _ _ _ h => by cases h) fun _ _ => ?_
  exact emits_bind (emits_runCleanup _ _ (fun _ _ _ _ h => by cases h)
    fun _ _ _ h => by cases h) fun _ _ => emits_done trivial

theorem watches_settleOneShot (fixed : cat.Fixed) (cleanup : Cleanup) (ts : TsProvider) :
    Watches oracle.answer (fun e => cat.tells e = true) (settleOneShot cycle cleanup ts) w
      fun _ => OnRepairs (FaithfulTo cat prev ⟨cycle.newId, prev.name, true⟩ ds) := by
  refine watches_settled scanned fixed ts ?_
  refine emits_bind (emits_request (fun _ _ _ h => by cases h) fun _ _ => trivial) fun _ _ => ?_
  exact emits_bind (emits_runCleanup _ _ (fun _ _ _ _ h => by cases h)
    fun _ _ _ h => by cases h) fun _ _ => emits_done trivial

/-- The repairs of an undone update join the restored container. -/
theorem watches_undoUpdate (fixed : cat.Fixed) (reason : RollbackReason) (ts : TsProvider) :
    Watches oracle.answer (fun e => cat.tells e = true) (undoUpdate cycle reason ts).run w
      fun _ => OnRepairs (FaithfulTo cat prev ⟨prev.id, prev.name, true⟩ ds) := by
  have exchanged := scanned.exchanged
  have rollbacks : Emits (fun _ => True) NotRepair (rollback cycle.ownerName cycle.newId
      cycle.oldName (cycle.oldImageRef, cycle.newImageRef) reason).run fun _ => True :=
    emits_rollback (fun _ _ _ _ _ h => by cases h) (fun _ _ _ h => by cases h)
      (fun _ _ _ h => by cases h) (fun _ _ _ h => by cases h) _ reason
  refine watches_except_bind _ (watches_notRepair_first rollbacks _)
    (exchanged.rollback reason) ?_
  intro event _ w₁ rolled _
  have hds₁ : ∀ d ∈ ds, d ∈ w₁.containers := by
    intro d hd
    obtain ⟨hmem, hid, hnew⟩ := scanned.others d hd
    exact rolled.evolves.kept d hmem (by simp [hid, hnew])
  have repairs : Watches oracle.answer (fun e => cat.tells e = true)
      (reattachDependents cycle.ownerName none ts cycle.dependents) w₁
      fun _ => OnRepairs (FaithfulTo cat prev ⟨prev.id, prev.name, true⟩ ds) := by
    rw [exchanged.ownerName, scanned.dependents]
    exact @watches_reattachDependents oracle cat w₁ prev ⟨prev.id, prev.name, true⟩ fixed none
      (fun ref s hs hmem href => joins_restored hs hmem rfl rfl href) ds rolled.evolves.valid
      scanned.nodup hds₁ (fun d hd => (scanned.others d hd).2.1)
      (fun d hd => (scanned.listed d hd).2.2) (rolled.restored event rfl).1 ts
  exact watches_lift_bind (fun _ _ _ => True) (repairs.weaken fun _ _ _ h _ => h) trivial
    fun _ _ _ _ _ => watches_done _ _

omit scanned

/-- An update that is undone is not reported to have succeeded. -/
theorem rolledBack_of_undoUpdate {reason : RollbackReason} {ts : TsProvider}
    {events : List CallEvent} {outcome : RecreateOutcome}
    (h : Produces (undoUpdate cycle reason ts).run events (some (.ok outcome))) :
    ∃ event, outcome = .rolledBack event := by
  obtain ⟨rolled, event, rest, rfl, -, h⟩ := h.of_except_bind_ok
  obtain ⟨repairs, _, rest, rfl, -, h⟩ := h.of_lift_bind_some
  obtain ⟨rfl, houtcome⟩ := h.of_done
  exact ⟨event, Except.ok.inj houtcome⟩

/-- What the repairs of an update send, where `takes` holds of what takes its place. -/
def SendsFaithful (cat : Catalogue) (prev : Container) (w₀ : World) (takes : Container → Prop)
    (name : String) (body : ContainerCreateBody) (s : World) : Prop :=
  ∃ d ∈ w₀.containers, d.name = name ∧ d ≠ prev ∧ cat.references d prev = true ∧
    ∃ owner, takes owner ∧ FaithfulBody cat prev owner d body s

theorem Scanned.sends {owner : Container} (scanned : Scanned cat prev cycle ds w₀ w)
    {takes : Container → Prop} (holds : takes owner) {call : Call} {s : World}
    (faithful : OnRepairs (FaithfulTo cat prev owner ds) call s) :
    OnRepairs (SendsFaithful cat prev w₀ takes) call s := by
  intro name body hcall
  obtain ⟨d, hd, hname, faithful⟩ := faithful name body hcall
  obtain ⟨hmem, hne, hreferences⟩ := scanned.listed d hd
  exact ⟨d, hmem, hname, hne, hreferences, owner, holds, faithful⟩

/-- **What the gate's verdict leads to repairs the dependents faithfully.** -/
theorem watches_concludeUpdate (scanned : Scanned cat prev cycle ds w₀ w) (fixed : cat.Fixed)
    (cleanup : Cleanup) (hooks : LifecycleHooks) (ts : TsProvider) (verdict : HealthOutcome) :
    Watches oracle.answer (fun e => cat.tells e = true)
      (concludeUpdate cycle cleanup hooks ts verdict).run w
      fun out => OnRepairs (SendsFaithful cat prev w₀ (TakesPlace prev out · w₀)) := by
  have undone (reason : RollbackReason) :
      Watches oracle.answer (fun e => cat.tells e = true) (undoUpdate cycle reason ts).run w
        fun out => OnRepairs (SendsFaithful cat prev w₀ (TakesPlace prev out · w₀)) := by
    refine ((watches_undoUpdate scanned fixed reason ts).ends (ensures_produces _ w)).weaken ?_
    intro out call s ⟨holds, trace, _, produced⟩
    have takes : TakesPlace prev out ⟨prev.id, prev.name, true⟩ w₀ := by
      refine ⟨rfl, rfl, .inl rfl, ?_, fun _ _ => rfl⟩
      rintro archive id rfl
      obtain ⟨event, houtcome⟩ := rolledBack_of_undoUpdate produced
      cases houtcome
    exact scanned.sends takes holds
  cases verdict with
  | healthy =>
      refine watches_lift (((watches_settleUpdate scanned fixed cleanup hooks.postUpdate ts).ends
        (ensures_produces _ w)).weaken ?_)
      intro out call s ⟨holds, trace, _, produced⟩
      have takes : TakesPlace prev (out.map Except.ok) ⟨cycle.newId, prev.name, true⟩ w₀ := by
        refine ⟨rfl, rfl, .inr scanned.newId, ?_, ?_⟩
        · intro archive id hout
          obtain ⟨outcome, rfl, houtcome⟩ := Option.map_eq_some_iff.mp hout
          cases Except.ok.inj houtcome ▸ recreated_of_settleUpdate produced
          exact ⟨rfl, scanned.exchanged.newId.1⟩
        · intro event hout
          obtain ⟨outcome, rfl, houtcome⟩ := Option.map_eq_some_iff.mp hout
          cases Except.ok.inj houtcome ▸ recreated_of_settleUpdate produced
      exact scanned.sends takes holds
  | timeout => exact undone .healthTimeout
  | crashed => exact undone .crashed

/-- **A one-shot's exit repairs the dependents faithfully**, if it repairs them. -/
theorem watches_concludeOneShot (scanned : Scanned cat prev cycle ds w₀ w) (fixed : cat.Fixed)
    (cleanup : Cleanup) (ts : TsProvider) (exit : ExitOutcome) :
    Watches oracle.answer (fun e => cat.tells e = true) (concludeOneShot cycle cleanup ts exit) w
      fun _ => OnRepairs (SendsFaithful cat prev w₀ (Replaces prev w₀)) := by
  cases exit with
  | timedOut => exact watches_done _ _
  | exited exitCode =>
      by_cases hzero : exitCode = 0
      · rw [concludeOneShot, if_pos hzero]
        refine (watches_settleOneShot scanned fixed cleanup ts).weaken fun _ _ _ holds => ?_
        exact scanned.sends ⟨rfl, scanned.newId⟩ holds
      · rw [concludeOneShot, if_neg hzero]
        exact watches_done _ _

/-! ## What is touched after the cycle -/

theorem Scanned.repaired (scanned : Scanned cat prev cycle ds w₀ w) {w₁ : World} (valid : w₁.Valid)
    (hds : ∀ d ∈ ds, d ∈ w₁.containers) (newOwnerId : Option String) (ts : TsProvider) :
    Ensures oracle.answer (reattachDependents cycle.ownerName newOwnerId ts cycle.dependents) w₁
      fun _ _ w' => Evolves (ds.map Container.id) w₁ w' := by
  rw [scanned.dependents]
  exact ensures_reattachDependents valid scanned.nodup hds cycle.ownerName newOwnerId ts

theorem evolves_touchedBy {w₁ w₂ : World} (h : Evolves (ds.map Container.id) w₁ w₂) :
    Evolves (touchedBy prev cycle ds) w₁ w₂ :=
  h.mono fun _ _ h => List.mem_cons_of_mem _ (List.mem_cons_of_mem _ h)

theorem ensures_undoUpdate_evolves (scanned : Scanned cat prev cycle ds w₀ w)
    (reason : RollbackReason) (ts : TsProvider) :
    Ensures oracle.answer (undoUpdate cycle reason ts).run w fun _ _ w' =>
      Evolves (touchedBy prev cycle ds) w w' := by
  have ofRollback {w₁ : World} (h : Evolves [prev.id, cycle.newId] w w₁) :
      Evolves (touchedBy prev cycle ds) w w₁ :=
    h.mono fun _ _ h => List.mem_append_left (ds.map Container.id) h
  refine ensures_except_bind _ (scanned.exchanged.rollback reason)
    (fun _ _ h => ofRollback h.evolves) (fun _ _ _ h => ofRollback h.evolves) ?_
  intro event _ w₁ rolled
  have hds₁ : ∀ d ∈ ds, d ∈ w₁.containers := by
    intro d hd
    obtain ⟨hmem, hid, hnew⟩ := scanned.others d hd
    exact rolled.evolves.kept d hmem (by simp [hid, hnew])
  refine ensures_lift_bind _ (scanned.repaired rolled.evolves.valid hds₁ none ts) ?_ ?_
  · intro _ w₂ evolves
    exact (ofRollback rolled.evolves).trans (evolves_touchedBy evolves) fun _ _ h => h
  · intro _ _ w₂ evolves
    have evolves := (ofRollback rolled.evolves).trans (evolves_touchedBy evolves) fun _ _ h => h
    exact ensures_done evolves

/-- A settled update repairs the dependents and removes the archive, and `rest` moves nothing. -/
theorem ensures_settled_evolves {α : Type} (scanned : Scanned cat prev cycle ds w₀ w)
    (ts : TsProvider) {rest : Prog α}
    (emits : ∀ s, Emits (Told oracle s) (Moves fun _ _ => False) rest fun _ => True) :
    Ensures oracle.answer
      (reattachDependents cycle.ownerName (some cycle.newId) ts cycle.dependents >>= fun _ =>
        (remove .update cycle.oldName false).run >>= fun _ => rest) w
      fun _ _ w' => Evolves (touchedBy prev cycle ds) w w' := by
  refine ensures_bind _ (scanned.repaired scanned.exchanged.valid
    (fun d hd => (scanned.others d hd).1) (some cycle.newId) ts)
    (fun _ _ evolves => evolves_touchedBy evolves) ?_
  intro _ _ w₁ evolves₁
  -- the removal of the archive
  have shelved := scanned.exchanged.shelved.evolves evolves₁ scanned.apart
  have hremove := @ensures_remove oracle w₁ _ evolves₁.valid _
    (evolves₁.valid.resolve_name shelved.stopped) .update false
  have removed {w₂ : World} (h : Evolves [prev.id] w₁ w₂) :
      Evolves (touchedBy prev cycle ds) w w₂ :=
    (evolves_touchedBy evolves₁).trans
      (h.mono fun _ _ h => List.mem_cons.mpr (.inl (List.mem_singleton.mp h))) fun _ _ h => h
  refine ensures_bind _ hremove (fun _ _ h => removed h.1) ?_
  intro _ _ w₂ ⟨evolves₂, _⟩
  have evolves := removed evolves₂
  exact (ensures_untouched evolves.valid (emits w₂) []).weaken
    fun _ _ _ h => evolves.trans h.1 fun _ _ h => by cases h

/-- What follows a completed cycle touches only `prev`, its replacement and its dependents. -/
theorem ensures_concludeUpdate_evolves (scanned : Scanned cat prev cycle ds w₀ w)
    (cleanup : Cleanup) (hooks : LifecycleHooks) (ts : TsProvider) (verdict : HealthOutcome) :
    Ensures oracle.answer (concludeUpdate cycle cleanup hooks ts verdict).run w fun _ _ w' =>
      Evolves (touchedBy prev cycle ds) w w' := by
  cases verdict with
  | healthy =>
      refine ensures_lift (ensures_settled_evolves scanned ts fun s => ?_)
      refine emits_bind (emits_runPostUpdateHook _ _ fun _ _ _ => moves_of_none rfl) fun _ _ => ?_
      exact emits_bind (emits_runCleanup _ _ (fun _ _ => moves_of_none rfl)
        fun _ => moves_of_none rfl) fun _ _ => emits_done trivial
  | timeout => exact ensures_undoUpdate_evolves scanned .healthTimeout ts
  | crashed => exact ensures_undoUpdate_evolves scanned .crashed ts

theorem ensures_concludeOneShot_evolves (scanned : Scanned cat prev cycle ds w₀ w)
    (cleanup : Cleanup) (ts : TsProvider) (exit : ExitOutcome) :
    Ensures oracle.answer (concludeOneShot cycle cleanup ts exit) w fun _ _ w' =>
      Evolves (touchedBy prev cycle ds) w w' := by
  have still : Evolves (touchedBy prev cycle ds) w w :=
    @Same.evolves _ _ .rfl scanned.exchanged.valid _
  cases exit with
  | timedOut => exact ensures_done still
  | exited exitCode =>
      by_cases hzero : exitCode = 0
      · rw [concludeOneShot, if_pos hzero]
        refine ensures_settled_evolves scanned ts fun s => ?_
        exact emits_bind (emits_runCleanup _ _ (fun _ _ => moves_of_none rfl)
          fun _ => moves_of_none rfl) fun _ _ => emits_done trivial
      · rw [concludeOneShot, if_neg hzero]
        exact ensures_done still

end After

/-! ## Runs -/

section Runs

variable {oracle : Oracle} {docker : Docker} {name : String} {w : World} {prev : Container}
  {cat : Catalogue}

/-- What a cycle that completed leaves, with the dependents it listed. -/
theorem ensures_recreateOne_scanned (cat : Catalogue) (valid : w.Valid)
    (hname : w.resolve name = some prev) (hooks : LifecycleHooks) (ts : TsProvider) :
    Ensures oracle.answer (recreateOne docker name hooks ts).run w fun out trace w' =>
      Evolves [prev.id] w w' ∧ ((∀ e ∈ trace, cat.tells e = true) →
        ∀ cycle, out = some (.ok (.completed cycle)) → ∃ ds, Scanned cat prev cycle ds w w') := by
  refine ((ensures_recreateOne valid hname hooks ts).and
    (ensures_recreateOne_dependents cat valid hname hooks ts)).weaken ?_
  intro out trace w' ⟨cycleEnd, evolves, hlisted⟩
  refine ⟨evolves, fun told cycle hcycle => ?_⟩
  exact scanned_of_exchanged valid (World.mem_of_resolve hname) (cycleEnd.completed cycle hcycle)
    evolves (hlisted told cycle hcycle)

/-- The create of an update is not one of a repair. -/
theorem emits_recreateOne_notRepair (docker : Docker) (name : String) (hooks : LifecycleHooks)
    (ts : TsProvider) :
    Emits (fun _ => True) NotRepair (recreateOne docker name hooks ts).run fun _ => True := by
  refine (emits_recreateOne quiet_notRepair.hushed docker name hooks ts
    (fun _ _ _ _ _ h => by cases h) (fun _ _ _ _ _ h => by cases h) fun spec _ => ?_).weaken
    fun _ _ => trivial
  exact {
    stop := fun _ _ _ _ _ h => by cases h
    rename := fun _ _ _ _ h => by cases h
    create := fun _ _ _ h => by cases h
    start := fun _ _ _ _ _ h => by cases h }

/-- What follows the cycle repairs faithfully where it does so for a completed one. -/
theorem watches_afterCycle {α : Type} (valid : w.Valid) (hname : w.resolve name = some prev)
    {hooks : LifecycleHooks} {ts : TsProvider} {gate : CycleOutcome → Op α}
    (takes : Option (Except DockerError α) → Container → Prop)
    (skipped : ∀ reason, ∃ r, (gate (.skipped reason)).run = .done r)
    (completed : ∀ cycle ds s, Scanned cat prev cycle ds w s →
      Watches oracle.answer (fun e => cat.tells e = true) (gate (.completed cycle)).run s
        fun out => OnRepairs (SendsFaithful cat prev w (takes out))) :
    Watches oracle.answer (fun e => cat.tells e = true)
      (recreateOne docker name hooks ts >>= gate).run w
      fun out => OnRepairs (SendsFaithful cat prev w (takes out)) := by
  refine watches_except_bind _
    (watches_notRepair_first (emits_recreateOne_notRepair docker name hooks ts) _)
    (ensures_recreateOne_scanned cat valid hname hooks ts) ?_
  intro outcome _ w₁ ⟨_, hscanned⟩ told
  cases outcome with
  | skipped reason =>
      obtain ⟨r, hdone⟩ := skipped reason
      rw [hdone]
      exact watches_done _ _
  | completed cycle =>
      obtain ⟨ds, scanned⟩ := hscanned told cycle rfl
      exact completed cycle ds w₁ scanned

/-- **An update spares what does not reference its container**, where what follows a completed
cycle touches its dependents only. -/
theorem ensures_afterCycle {α : Type} (valid : w.Valid) (hname : w.resolve name = some prev)
    {hooks : LifecycleHooks} {ts : TsProvider} {gate : CycleOutcome → Op α}
    (skipped : ∀ reason, ∃ r, (gate (.skipped reason)).run = .done r)
    (completed : ∀ cycle ds s, Scanned cat prev cycle ds w s →
      Ensures oracle.answer (gate (.completed cycle)).run s fun _ _ s' =>
        Evolves (touchedBy prev cycle ds) s s') :
    Ensures oracle.answer (recreateOne docker name hooks ts >>= gate).run w
      fun _ trace w' => (∀ e ∈ trace, cat.tells e = true) →
        ∀ c ∈ w.containers, c ≠ prev → cat.references c prev = false → c ∈ w'.containers := by
  have hprev := World.mem_of_resolve hname
  have untouched {w' : World} (evolves : Evolves [prev.id] w w') :
      ∀ c ∈ w.containers, c ≠ prev → cat.references c prev = false → c ∈ w'.containers := by
    intro c hc hne _
    exact evolves.kept c hc fun h => hne (valid.eq_of_id hc hprev (List.mem_singleton.mp h))
  refine ensures_except_bind _ (ensures_recreateOne_scanned cat valid hname hooks ts)
    (fun _ _ h _ => untouched h.1) (fun _ _ _ h _ => untouched h.1) ?_
  intro outcome cycled w₁ ⟨evolves, hscanned⟩
  cases outcome with
  | skipped reason =>
      obtain ⟨r, hdone⟩ := skipped reason
      rw [hdone]
      exact ensures_done fun _ => untouched evolves
  | completed cycle =>
      by_cases told₁ : ∀ e ∈ cycled, cat.tells e = true
      · obtain ⟨ds, scanned⟩ := hscanned told₁ cycle rfl
        refine (completed cycle ds w₁ scanned).weaken ?_
        intro _ _ w₂ evolves _ c hc hne hnot
        exact scanned.untouched valid hprev evolves hc hne hnot
      · exact fun told => absurd (fun e he => told e (List.mem_append_left _ he)) told₁

theorem watches_recreateWithHealth (fixed : cat.Fixed) (valid : w.Valid)
    (hname : w.resolve name = some prev) (cfg : HealthConfig) (cleanup : Cleanup)
    (hooks : LifecycleHooks) (ts : TsProvider) :
    Watches oracle.answer (fun e => cat.tells e = true)
      (recreateWithHealth docker name cfg cleanup hooks ts).run w
      fun out => OnRepairs (SendsFaithful cat prev w (TakesPlace prev out · w)) := by
  refine watches_afterCycle valid hname (TakesPlace prev · · w) (fun reason => ⟨_, rfl⟩)
    fun cycle ds w₁ scanned => ?_
  refine watches_lift_bind _
    (watches_notRepair_first (emits_waitForHealth quiet_notRepair docker cycle.newId cfg) _)
    (ensures_still (emits_waitForHealth (quiet_moves _).hushed docker cycle.newId cfg) .rfl) ?_
  intro verdict _ w₂ ⟨same, _⟩ _
  exact watches_concludeUpdate (scanned.of_same same) fixed cleanup hooks ts verdict

theorem watches_recreateOneShot (fixed : cat.Fixed) (valid : w.Valid)
    (hname : w.resolve name = some prev) (timeout pollInterval : Duration) (cleanup : Cleanup)
    (hooks : LifecycleHooks) (ts : TsProvider) :
    Watches oracle.answer (fun e => cat.tells e = true)
      (recreateOneShot docker name timeout pollInterval cleanup hooks ts).run w
      fun _ => OnRepairs (SendsFaithful cat prev w (Replaces prev w)) := by
  refine watches_afterCycle valid hname (fun _ => Replaces prev w) (fun reason => ⟨_, rfl⟩)
    fun cycle ds w₁ scanned => watches_lift ?_
  refine watches_bind _ (watches_notRepair_first
      (emits_waitForExit quiet_notRepair.hushed docker cycle.newId timeout pollInterval) _)
    (ensures_still (emits_waitForExit (quiet_moves _).hushed docker cycle.newId timeout
      pollInterval) .rfl) ?_
  intro exit _ w₂ ⟨same, _⟩ _
  exact watches_concludeOneShot (scanned.of_same same) fixed cleanup ts exit

theorem ensures_recreateWithHealth_untouched (valid : w.Valid) (hname : w.resolve name = some prev)
    (cfg : HealthConfig) (cleanup : Cleanup) (hooks : LifecycleHooks) (ts : TsProvider) :
    Ensures oracle.answer (recreateWithHealth docker name cfg cleanup hooks ts).run w
      fun _ trace w' => (∀ e ∈ trace, cat.tells e = true) →
        ∀ c ∈ w.containers, c ≠ prev → cat.references c prev = false → c ∈ w'.containers := by
  refine ensures_afterCycle valid hname (fun reason => ⟨_, rfl⟩) fun cycle ds w₁ scanned => ?_
  have still {w₂ : World} (same : Same w₁ w₂) : Evolves (touchedBy prev cycle ds) w₁ w₂ :=
    same.evolves scanned.exchanged.valid
  refine ensures_lift_bind _
    (ensures_still (emits_waitForHealth (quiet_moves _).hushed docker cycle.newId cfg) .rfl)
    (fun _ _ h => still h.1) ?_
  intro verdict _ w₂ ⟨same, _⟩
  exact (ensures_concludeUpdate_evolves (scanned.of_same same) cleanup hooks ts verdict).weaken
    fun _ _ _ evolves => (still same).trans evolves fun _ _ h => h

theorem ensures_recreateOneShot_untouched (valid : w.Valid) (hname : w.resolve name = some prev)
    (timeout pollInterval : Duration) (cleanup : Cleanup) (hooks : LifecycleHooks)
    (ts : TsProvider) :
    Ensures oracle.answer
      (recreateOneShot docker name timeout pollInterval cleanup hooks ts).run w
      fun _ trace w' => (∀ e ∈ trace, cat.tells e = true) →
        ∀ c ∈ w.containers, c ≠ prev → cat.references c prev = false → c ∈ w'.containers := by
  refine ensures_afterCycle valid hname (fun reason => ⟨_, rfl⟩)
    fun cycle ds w₁ scanned => ensures_lift ?_
  have still {w₂ : World} (same : Same w₁ w₂) : Evolves (touchedBy prev cycle ds) w₁ w₂ :=
    same.evolves scanned.exchanged.valid
  refine ensures_bind _
    (ensures_still (emits_waitForExit (quiet_moves _).hushed docker cycle.newId timeout
      pollInterval) .rfl) (fun _ _ h => still h.1) ?_
  intro exit _ w₂ ⟨same, _⟩
  exact (ensures_concludeOneShot_evolves (scanned.of_same same) cleanup ts exit).weaken
    fun _ _ _ evolves => (still same).trans evolves fun _ _ h => h

/-- A daemon that has fallen silent tells nothing untrue. -/
theorem silence_tells (cat : Catalogue) : SilenceKeeps oracle fun e => cat.tells e = true := by
  intro n call w hsilent
  have hfault : (oracle.silentFrom n).fault w.calls = .unanswered false := if_pos hsilent
  have unanswered {α : Type} (effect : Except DockerError (α × World)) :
      (perform (.unanswered false) w.tick effect).1 = none := by
    cases effect <;> rfl
  cases call <;> simp only [Oracle.answer, reply, hfault, unanswered] <;> rfl

theorem repairsFaithfully_of_watches {α : Type} {p : Prog α}
    {takes : Option α → Container → Prop}
    (watches : Watches oracle.answer (fun e => cat.tells e = true) p w fun out =>
      OnRepairs (SendsFaithful cat prev w (takes out)))
    (ends : ∀ oracle : Oracle, Ensures oracle.answer p w fun _ trace w' =>
      (∀ e ∈ trace, cat.tells e = true) →
        ∀ c ∈ w.containers, c ≠ prev → cat.references c prev = false → c ∈ w'.containers)
    (told : ∀ e ∈ (play oracle.answer p w).trace, cat.tells e = true) :
    RepairsFaithfully cat prev w (takes (play oracle.answer p w).out) (asked oracle.answer p w)
      (play oracle.answer p w).state where
  repairs repaired body _ hasked := watches told _ hasked repaired body (Eq.refl _)
  untouched c hc hne hnot := by
    have kept (oracle : Oracle) : Ensures oracle.answer p w fun _ trace w' =>
        (∀ e ∈ trace, cat.tells e = true) → c ∈ w'.containers :=
      (ends oracle).weaken fun _ _ _ untouched told => untouched told c hc hne hnot
    refine ⟨?_, kept oracle told⟩
    exact at_every_call (silence_tells cat) (fun s s' same h => by rwa [same.containers] at h) kept
      told

/-- The re-run of a one-shot against a daemon. -/
def oneShotRun (oracle : Oracle) (docker : Docker) (name : String)
    (timeout pollInterval : Duration) (cleanup : Cleanup) (hooks : LifecycleHooks)
    (ts : TsProvider) (w : World) :
    Run Call Call.Reply World (Except DockerError OneShotOutcome) :=
  play oracle.answer (recreateOneShot docker name timeout pollInterval cleanup hooks ts).run w

/-- **An update repairs the network-namespace dependents of its container faithfully**, and
leaves alone what does not reference it, on any daemon that tells the truth about its containers
and keeps fixed references fixed. So does the re-run of a one-shot. -/
theorem repairs_faithfully (fixed : cat.Fixed) (valid : w.Valid)
    (hname : w.resolve name = some prev) (cleanup : Cleanup) (hooks : LifecycleHooks)
    (ts : TsProvider) :
    (∀ cfg : HealthConfig,
      (∀ e ∈ (updateRun oracle docker name cfg cleanup hooks ts w).trace, cat.tells e = true) →
        RepairsFaithfully cat prev w
          (TakesPlace prev (updateRun oracle docker name cfg cleanup hooks ts w).out · w)
          (asked oracle.answer (recreateWithHealth docker name cfg cleanup hooks ts).run w)
          (updateRun oracle docker name cfg cleanup hooks ts w).state) ∧
      ∀ timeout pollInterval : Duration,
        (∀ e ∈ (oneShotRun oracle docker name timeout pollInterval cleanup hooks ts w).trace,
          cat.tells e = true) →
        RepairsFaithfully cat prev w (Replaces prev w)
          (asked oracle.answer
            (recreateOneShot docker name timeout pollInterval cleanup hooks ts).run w)
          (oneShotRun oracle docker name timeout pollInterval cleanup hooks ts w).state := by
  constructor
  · intro cfg told
    exact repairsFaithfully_of_watches
      (watches_recreateWithHealth fixed valid hname cfg cleanup hooks ts)
      (fun _ => ensures_recreateWithHealth_untouched valid hname cfg cleanup hooks ts) told
  · intro timeout pollInterval told
    exact repairsFaithfully_of_watches
      (watches_recreateOneShot fixed valid hname timeout pollInterval cleanup hooks ts)
      (fun _ => ensures_recreateOneShot_untouched valid hname timeout pollInterval cleanup hooks ts)
      told

end Runs

/-! ## A sidecar -/

/-- Carries out every call. Call 11 or 15 inspects `side`, which joins the namespace that `mode`
names and whose tag has moved. -/
def sidecarDaemon (mode : String) (state : ContainerState) : Oracle where
  fault _ := .none
  report n :=
    { inspectReport "" "app:2" (fun _ => none) state with
      image := some "sha256:1f"
      hostConfig := some ⟨some (if n = 11 ∨ n = 15 then mode else "bridge"), ""⟩ }
  shown _ c := c.id == "3c"
  row _ _ := ⟨none, none, none, none, none, none, some mode⟩
  hook _ := .completed 0
  image _ := ⟨some "sha256:2f", none⟩
  id n := if n < 11 then "2b" else "4d"
  clock _ := 0
  unixTime _ := 0

def sidecarOwner : Container := ⟨"0123456789abcdef", "web", true⟩

/-- A container is named like the beginning of the id of `web`. -/
def sidecarWorld : World :=
  ⟨[sidecarOwner, ⟨"1a", "0123456789ab", true⟩, ⟨"3c", "side", true⟩],
    ["0123456789abcdef", "1a", "3c"], 0⟩

def sidecarCatalogue (mode : String) : Catalogue where
  networkMode id := some (if id = "3c" then mode else "bridge")
  image _ := some "app:2"
  imageId _ := some "sha256:1f"
  store reference := some (if reference = "app:2" then "sha256:2f" else "sha256:1f")

def sidecarRun (mode : String) (state : ContainerState) :
    Run Call Call.Reply World (Except DockerError RecreateOutcome) :=
  updateRun (sidecarDaemon mode state) ⟨"1.44", none, 5⟩ "web" HealthConfig.default ⟨false, false⟩
    LifecycleHooks.default (.fixed 5) sidecarWorld

def sidecarAsked (mode : String) (state : ContainerState) : List (Call × World) :=
  asked (sidecarDaemon mode state).answer
    (recreateWithHealth ⟨"1.44", none, 5⟩ "web" HealthConfig.default ⟨false, false⟩
      LifecycleHooks.default (.fixed 5)).run sidecarWorld

def healthyState : ContainerState := ⟨some .running, some true, none, none, some .healthy⟩

def exitedState : ContainerState := ⟨some .exited, some false, none, some 1, none⟩

theorem sidecarWorld_valid : sidecarWorld.Valid := by
  constructor <;> decide

theorem sidecarCatalogue_fixed (mode : String) : (sidecarCatalogue mode).Fixed where
  ids container id h := by
    cases h
    rfl
  pinned container reference id h hpinned _ := by
    cases h
    exact absurd hpinned (by decide)

def sidecarOneShotRun (mode : String) (state : ContainerState) :
    Run Call Call.Reply World (Except DockerError OneShotOutcome) :=
  oneShotRun (sidecarDaemon mode state) ⟨"1.44", none, 5⟩ "web" 1 0 ⟨false, false⟩
    LifecycleHooks.default (.fixed 5) sidecarWorld

def sidecarOneShotAsked (mode : String) (state : ContainerState) : List (Call × World) :=
  asked (sidecarDaemon mode state).answer
    (recreateOneShot ⟨"1.44", none, 5⟩ "web" 1 0 ⟨false, false⟩ LifecycleHooks.default
      (.fixed 5)).run sidecarWorld

def succeededState : ContainerState := ⟨some .exited, some false, none, some 0, none⟩

/-- The sidecar joins the replacement, and is created from its image id. -/
theorem repairs_faithfully_sidecar :
    (RepairsFaithfully (sidecarCatalogue "container:0123456789abcdef") sidecarOwner sidecarWorld
        (TakesPlace sidecarOwner (sidecarRun "container:0123456789abcdef" healthyState).out ·
          sidecarWorld)
        (sidecarAsked "container:0123456789abcdef" healthyState)
        (sidecarRun "container:0123456789abcdef" healthyState).state ∧
      (sidecarRun "container:0123456789abcdef" healthyState).out =
        some (.ok (.recreated "web-old-5" "2b")) ∧
      ∃ body s, (Call.createContainer .repair "side" body, s) ∈
          sidecarAsked "container:0123456789abcdef" healthyState ∧
        joinedReference body.hostConfig = some "2b" ∧ body.image = some "sha256:1f") ∧
    (RepairsFaithfully (sidecarCatalogue "container:0123456789abcdef") sidecarOwner sidecarWorld
        (Replaces sidecarOwner sidecarWorld)
        (sidecarOneShotAsked "container:0123456789abcdef" succeededState)
        (sidecarOneShotRun "container:0123456789abcdef" succeededState).state ∧
      (sidecarOneShotRun "container:0123456789abcdef" succeededState).out =
        some (.ok .completed) ∧
      ∃ body s, (Call.createContainer .repair "side" body, s) ∈
          sidecarOneShotAsked "container:0123456789abcdef" succeededState ∧
        joinedReference body.hostConfig = some "2b" ∧ body.image = some "sha256:1f") :=
  ⟨⟨(repairs_faithfully (sidecarCatalogue_fixed _) sidecarWorld_valid rfl ⟨false, false⟩
        LifecycleHooks.default (.fixed 5)).1 HealthConfig.default (List.all_eq_true.mp rfl),
      rfl, _, _, List.mem_of_getElem? (i := 16) rfl, rfl, rfl⟩,
    ⟨(repairs_faithfully (sidecarCatalogue_fixed _) sidecarWorld_valid rfl ⟨false, false⟩
        LifecycleHooks.default (.fixed 5)).2 1 0 (List.all_eq_true.mp rfl),
      rfl, _, _, List.mem_of_getElem? (i := 16) rfl, rfl, rfl⟩⟩

/-- **A reference by the beginning of an id can be another container's name.** The sidecar is
taken for a dependent of `web`, `web` is rolled back, and the body sent for the sidecar joins
the namespace of the other container. -/
theorem beginning_not_restored :
    sidecarWorld.Valid ∧ sidecarWorld.resolve "web" = some sidecarOwner ∧
      (sidecarCatalogue "container:0123456789ab").Fixed ∧
      (∀ e ∈ (sidecarRun "container:0123456789ab" exitedState).trace,
        (sidecarCatalogue "container:0123456789ab").tells e = true) ∧
      networkModeReferences "container:0123456789ab" sidecarOwner.name sidecarOwner.id = true ∧
      (∃ event, (sidecarRun "container:0123456789ab" exitedState).out =
        some (.ok (.rolledBack event))) ∧
      ∃ body s, (Call.createContainer .repair "side" body, s) ∈
          sidecarAsked "container:0123456789ab" exitedState ∧
        sidecarOwner ∈ s.containers ∧ joinedReference body.hostConfig = some "0123456789ab" ∧
        s.resolve "0123456789ab" = some ⟨"1a", "0123456789ab", true⟩ :=
  ⟨sidecarWorld_valid, rfl, sidecarCatalogue_fixed _, List.all_eq_true.mp rfl, by decide,
    ⟨_, rfl⟩, _, _, List.mem_of_getElem? (i := 20) rfl, by decide, rfl, rfl⟩

end Freshdock.Docker
