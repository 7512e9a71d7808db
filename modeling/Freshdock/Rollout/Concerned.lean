import Freshdock.Rollout.MigrationFirst

/-!
# What an attempt moves

An attempt moves its own container and, when its plan covers that container, the other targets and
the containers that are restarted after them (`Attempt.concerns_of_moves`). What else it moves is a
repair, of a running container that is in the network namespace of another
(`Attempt.shares_of_repair`).
-/

set_option autoImplicit false

namespace Freshdock.Rollout

open Interaction Docker Registry
open Compose (ProjectMember)

/-! ## By the plan -/

/-- The services of the members that the attempt updates. -/
def Attempt.updatedServices (a : Attempt) (members : List ProjectMember)
    (origin : ProjectMember) : List String :=
  ((liveMembers members).filterMap (targetOf (a.input members origin))).map PlannedTarget.service

/-- The member is the one that the attempt is for, or one that it updates or restarts as well. -/
inductive Attempt.Concerns (a : Attempt) (members : List ProjectMember) (m : ProjectMember) : Prop
  | itself (name : m.name = a.container)
  | target (origin : ProjectMember) (covers : Covers a members origin)
      (live : m ∈ liveMembers members) (admitted : (targetOf (a.input members origin) m).isSome)
  | restart (origin : ProjectMember) (covers : Covers a members origin)
      (live : m ∈ liveMembers members) (service : String) (member : MemberOf service m)
      (restartable : (a.input members origin).restartable m = true)
      (asked : service ∈ Compose.restartDependents (Compose.graphOf (liveMembers members))
        (a.updatedServices members origin))

section Concerns

variable {a : Attempt} {project : String} {members : List ProjectMember} {origin m : ProjectMember}

theorem mem_allTargetServices_iff (horigin : originOf members a.container = some origin)
    {service : String} :
    service ∈ (a.plan project members).allTargetServices ↔
      service ∈ a.updatedServices members origin := by
  simp only [RolloutPlan.allTargetServices, Attempt.updatedServices, List.mem_map,
    List.mem_filterMap, Attempt.plan, mem_targets_plan, horigin, Option.some.injEq,
    exists_eq_left']
  rfl

/-- The services that ask to be restarted depend on which services are updated only. -/
theorem mem_restartDependents_congr {graph : Compose.Graph} {updated updated' : List String}
    (same : ∀ service, service ∈ updated ↔ service ∈ updated') {service : String} :
    service ∈ Compose.restartDependents graph updated ↔
      service ∈ Compose.restartDependents graph updated' := by
  simp only [Compose.mem_restartDependents, same]

/-- What a plan updates or restarts, its attempt concerns. -/
theorem Covers.concerns (covers : Covers a members origin) (well : WellListed members)
    (hm : m ∈ members)
    (planned : (∃ t ∈ (a.plan project members).targets, t.container = m.name) ∨
      m.name ∈ (a.plan project members).restartsFor
        (a.plan project members).allTargetServices) : a.Concerns members m := by
  rcases planned with ⟨t, ht, hcontainer⟩ | hrestart
  · obtain ⟨origin', horigin, m', hlive, htarget⟩ := mem_targets_plan.mp ht
    obtain rfl : origin = origin' := by simpa [covers.listed] using horigin
    obtain ⟨-, -, -, -, hname, -⟩ := targetOf_eq_some.mp htarget
    obtain rfl := well.eq_of_name (mem_of_live hlive) hm (hname.symm.trans hcontainer)
    exact .target origin covers hlive (Option.isSome_iff_exists.mpr ⟨t, htarget⟩)
  · obtain ⟨origin', horigin, m', hlive, service, hasked, hcandidate⟩ :=
      mem_restartsFor_plan.mp hrestart
    obtain rfl : origin = origin' := by simpa [covers.listed] using horigin
    obtain ⟨info, hinfo, hrestartable, hservice, hname⟩ := candidateOf_eq_some.mp hcandidate
    obtain rfl := well.eq_of_name (mem_of_live hlive) hm hname
    refine .restart origin covers hlive service ⟨info, hinfo, hservice⟩ hrestartable ?_
    exact (mem_restartDependents_congr fun _ => mem_allTargetServices_iff covers.listed).mp hasked

/-- Of the names in use, the execution of a plan moves those of its targets and those it
restarts. -/
theorem moves_of_execute {events : List CallEvent} {out : Option RolloutReport}
    (produced : Produces (execute a.docker (a.plan project members) a.cfg a.ts) events out)
    (names : ∀ e ∈ events, NamesApart (members.map ProjectMember.name) e) {e : CallEvent}
    (he : e ∈ events) (hm : m ∈ members) {role : Role} (hrole : role ≠ .repair)
    (moved : e.call.moves = some (role, m.name)) :
    (∃ t ∈ (a.plan project members).targets, t.container = m.name) ∨
      m.name ∈ (a.plan project members).restartsFor
        (a.plan project members).allTargetServices := by
  have targets : ∀ t ∈ (a.plan project members).targets,
      Updatable (NamesApart (members.map ProjectMember.name))
        (fun role ref => role ≠ .repair → ref ∈ members.map ProjectMember.name →
          (∃ t ∈ (a.plan project members).targets, t.container = ref) ∨
            ref ∈ (a.plan project members).restartsFor
              (a.plan project members).allTargetServices) a.docker t.container := by
    intro t ht
    obtain ⟨origin, -, m', hm', htarget⟩ := mem_targets_plan.mp ht
    obtain ⟨-, -, -, -, hcontainer, -⟩ := targetOf_eq_some.mp htarget
    have inUse : t.container ∈ members.map ProjectMember.name := by
      rw [hcontainer]
      exact List.mem_map_of_mem (mem_of_live hm')
    refine (updatable_movesOnly_self inUse fun _ holds => holds).mono ?_
    exact fun role ref only hrole hmem => .inl ⟨t, ht, (only hrole hmem).symm⟩
  exact (emits_execute targets (fun c hc _ _ => .inr hc) a.cfg a.ts events out produced names).1 e
    he role m.name moved hrole (List.mem_map_of_mem hm)

/-- **What an attempt stops or recreates, it concerns**, unless it repairs it. -/
theorem Attempt.concerns_of_moves (well : WellListed members) {events : List CallEvent}
    {out : Option AttemptOutcome} (produced : Produces a.run events out)
    (listed : a.Listed events members) (names : ∀ e ∈ events, NamesHold a members e)
    (own : ∀ e ∈ events, NamesApart (a.container :: members.map ProjectMember.name) e)
    {e : CallEvent} (he : e ∈ events) (hm : m ∈ members) {role : Role} (hrole : role ≠ .repair)
    (moved : e.call.moves = some (role, m.name)) : a.Concerns members m := by
  obtain ⟨project, listing, rest, rfl, still, hrest⟩ := listed.produces produced
  rcases List.mem_append.mp he with he | he
  · rw [still e he] at moved
    cases moved
  replace names := fun e he => names e (List.mem_append_right listing he)
  replace own := fun e he => own e (List.mem_append_right listing he)
  rcases Attempt.onListing_cases hrest with hnil | ⟨-, out', hplain⟩ | ⟨covered, out', hexecute⟩
  · rw [hnil] at he
    cases he
  · -- the plain update moves its own container, whether it is listed or not
    have updatable : Updatable
        (fun e => NamesHold a members e ∧ NamesApart (a.container :: members.map ProjectMember.name) e)
        (MovesOnly (a.container :: members.map ProjectMember.name) a.container) a.docker a.ref :=
      updatable_movesOnly List.mem_cons_self (fun _ holds => holds.2)
        fun resp name holds => holds.1.addressed resp name rfl
    refine .itself ?_
    exact (updatable.recreateWithHealth a.cfg.health a.cleanup a.hooks a.ts rest out' hplain
      fun e he => ⟨names e he, own e he⟩).1 e he role m.name moved hrole
      (List.mem_cons_of_mem _ (List.mem_map_of_mem hm))
  · obtain ⟨t, ht, -⟩ := List.any_eq_true.mp covered
    obtain ⟨origin, horigin, -⟩ := mem_targets_plan.mp ht
    have covers := (covers_iff well horigin).mp covered
    exact covers.concerns well hm
      (moves_of_execute hexecute (fun e he => (names e he).toNamesApart) he hm hrole moved)

end Concerns

/-! ## As a repair -/

/-- The row was shown by a listing of the running containers. -/
def ShownRunning (events : List CallEvent) (row : ContainerSummary) : Prop :=
  ∃ running, ⟨.listRunning, some (.ok running)⟩ ∈ events ∧ row ∈ running

/-- The container is in the network namespace of another. -/
def SharesNamespace (row : ContainerSummary) : Prop :=
  ∃ mode, row.networkMode = some mode ∧ (containerReference mode).isSome = true

/-- What a daemon promises about names in use during repairs: a running container is not renamed to
one, and a new id is not one. -/
structure RepairsApart (names : List String) (events : List CallEvent) : Prop where
  renamed : ∀ row, ShownRunning events row → ∀ n ∈ names,
    ⟨.renameContainer .repair (containerName row) n, some (.ok ())⟩ ∉ events
  created : ∀ name body id, ⟨.createContainer .repair name body, some (.ok id)⟩ ∈ events →
    id ∉ names

theorem networkDependent_eq_some {owner fullId : String} {own : Option String}
    {row : ContainerSummary} {d : String} (h : networkDependent owner fullId own row = some d) :
    SharesNamespace row ∧ containerName row = d := by
  unfold networkDependent at h
  split at h
  · cases h
  · next mode hmode =>
    cases hrefers : networkModeReferences mode owner fullId with
    | false => simp [hrefers] at h
    | true =>
        have hjoins : (containerReference mode).isSome = true := by
          unfold networkModeReferences at hrefers
          split at hrefers
          · cases hrefers
          · next hreference => simp [hreference]
        simp only [hrefers, Bool.not_true, Bool.false_eq_true, ite_false] at h
        split at h
        · cases h
        split at h
        · cases h
        split at h
        · cases h
        · exact ⟨⟨mode, hmode, hjoins⟩, Option.some.inj h⟩

section Repairs

variable {names : List String} {events : List CallEvent}

/-- Of the names in use, repairs move those of running containers in the namespace of another. -/
def RepairsSharing (names : List String) (events : List CallEvent) (role : Role)
    (ref : String) : Prop :=
  role = .repair → ref ∈ names →
    ∃ row, ShownRunning events row ∧ SharesNamespace row ∧ containerName row = ref

theorem updatable_shares (apart : RepairsApart names events) (docker : Docker) (name : String) :
    Updatable (fun e => e ∈ events) (RepairsSharing names events) docker name where
  owner _ _ h := by cases h
  archive _ _ _ _ h := by cases h
  replacement _ _ _ _ h := by cases h
  dependents d hd := by
    obtain ⟨resp, running, -, hrunning, hmem⟩ := hd
    obtain ⟨row, hrow, hdependent⟩ := List.mem_filterMap.mp hmem
    obtain ⟨shares, rfl⟩ := networkDependent_eq_some hdependent
    have shown : ShownRunning events row := ⟨running, hrunning, hrow⟩
    exact {
      itself := fun _ _ => ⟨row, shown, shares, rfl⟩
      archive := fun archive harchive _ hmem => absurd harchive (apart.renamed row shown archive hmem)
      replacement := fun _ _ _ _ id _ hid _ hmem => absurd hmem (apart.created _ _ id hid) }

/-- **What an attempt repairs was listed as running, in the network namespace of another
container.** -/
theorem Attempt.shares_of_repair {a : Attempt} {out : Option AttemptOutcome}
    (produced : Produces a.run events out) (apart : RepairsApart names events) {e : CallEvent}
    (he : e ∈ events) {name : String} (hname : name ∈ names)
    (moved : e.call.moves = some (.repair, name)) :
    ∃ row, ShownRunning events row ∧ SharesNamespace row ∧ containerName row = name := by
  have updatable := updatable_shares apart a.docker
  have emits : Emits (fun e => e ∈ events) (Moves (RepairsSharing names events)) a.run
      fun _ => True := by
    refine emits_bind (emits_forContainer (fun project members _ =>
      ⟨fun t _ => updatable t.container, fun c _ h => by cases h⟩) a.ts) fun rollout _ => ?_
    cases rollout with
    | some report => exact emits_done trivial
    | none => exact emits_map ((updatable a.ref).recreateWithHealth _ _ _ a.ts)
  exact (emits events out produced fun e he => he).1 e he .repair name moved rfl hname

end Repairs

end Freshdock.Rollout
