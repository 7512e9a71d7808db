import Freshdock.Rollout

/-!
# What a plan contains

The planner walks the members once and collects into maps; the results of this file say what
it collected without the walk. A target is a member that `targetOf` admits
(`mem_targets_plan`), a container may be restarted when its member is a candidate of a service
that the graph asks to restart (`mem_restartsFor_plan`), and every target of a service comes
before every target of a service that depends on it (`plan_ahead`).
-/

set_option autoImplicit false

namespace Freshdock.Rollout

open Docker Registry SelfId Text
open Compose (ProjectMember Graph)
open Labels (Policy PolicyDefaults)

/-! ## One member -/

/-- The target a member becomes, if it is admitted. -/
def targetOf (input : PlanInput) (m : ProjectMember) : Option PlannedTarget :=
  match Compose.parse m.labels with
  | none => none
  | some info =>
      if !sameImage m input.updatedImage input.updatedImageId then none
      else
        match input.admission (input.awaited.contains info.service) m with
        | .error _ => none
        | .ok policy =>
            some {
              container := m.name
              service := info.service
              kind := if input.awaited.contains info.service then .oneShot else .service
              policy }

/-- The service and container of a member that may be restarted. -/
def candidateOf (input : PlanInput) (m : ProjectMember) : Option (String × String) :=
  match Compose.parse m.labels with
  | none => none
  | some info => if input.restartable m then some (info.service, m.name) else none

variable {input : PlanInput} {m : ProjectMember} {t : PlannedTarget}

theorem targetOf_eq_some : targetOf input m = some t ↔
    ∃ info, Compose.parse m.labels = some info ∧
      sameImage m input.updatedImage input.updatedImageId = true ∧
      input.admission (input.awaited.contains info.service) m = .ok t.policy ∧
      t.container = m.name ∧ t.service = info.service ∧
      t.kind = if input.awaited.contains info.service then .oneShot else .service := by
  unfold targetOf
  split
  case h_1 hparse => simp [hparse]
  case h_2 info hparse =>
    simp only [hparse, Option.some.injEq, exists_eq_left']
    cases sameImage m input.updatedImage input.updatedImageId with
    | false => simp
    | true =>
        simp only [Bool.not_true, Bool.false_eq_true, ite_false, true_and]
        cases hadmit : input.admission (input.awaited.contains info.service) m with
        | error reason => simp
        | ok policy =>
            obtain ⟨container, service, kind, policy'⟩ := t
            simp only [Option.some.injEq, PlannedTarget.mk.injEq, Except.ok.injEq]
            constructor
            · rintro ⟨rfl, rfl, rfl, rfl⟩
              exact ⟨rfl, rfl, rfl, rfl⟩
            · rintro ⟨rfl, rfl, rfl, rfl⟩
              exact ⟨rfl, rfl, rfl, rfl⟩

theorem candidateOf_eq_some {service container : String} :
    candidateOf input m = some (service, container) ↔
      ∃ info, Compose.parse m.labels = some info ∧ input.restartable m = true ∧
        info.service = service ∧ m.name = container := by
  unfold candidateOf
  split
  case h_1 hparse => simp [hparse]
  case h_2 info hparse => cases input.restartable m <;> simp [hparse]

/-! ## The walk -/

/-- The targets collected for a service. -/
def PlanState.targetsAt (state : PlanState) (service : String) : List PlannedTarget :=
  (state.byService.get? service).getD []

/-- The restart candidates collected for a service. -/
def PlanState.candidatesAt (state : PlanState) (service : String) : List String :=
  (state.restartCandidates.get? service).getD []

theorem targetsAt_addTarget (state : PlanState) (target : PlannedTarget) (service : String) :
    (state.addTarget target).targetsAt service =
      state.targetsAt service ++ if target.service = service then [target] else [] := by
  unfold PlanState.targetsAt PlanState.addTarget
  by_cases h : target.service = service
  · subst h
    simp [SortedMap.get?_push_self]
  · simp [SortedMap.get?_push_of_ne _ _ (Ne.symm h), h]

theorem candidatesAt_addCandidate (state : PlanState) (service' container service : String) :
    (state.addCandidate service' container).candidatesAt service =
      state.candidatesAt service ++ if service' = service then [container] else [] := by
  unfold PlanState.candidatesAt PlanState.addCandidate
  by_cases h : service' = service
  · subst h
    simp [SortedMap.get?_push_self]
  · simp [SortedMap.get?_push_of_ne _ _ (Ne.symm h), h]

theorem targetsAt_noteCandidate (service' : String) (state : PlanState) (service : String) :
    (noteCandidate input service' state m).targetsAt service = state.targetsAt service := by
  unfold noteCandidate
  split <;> rfl

theorem candidatesAt_noteTarget (service' : String) (state : PlanState) (service : String) :
    (noteTarget input service' state m).candidatesAt service = state.candidatesAt service := by
  unfold noteTarget
  split
  · rfl
  · dsimp only
    split <;> rfl

/-- A step adds the target of its member. -/
theorem targetsAt_planMember (state : PlanState) (service : String) :
    (planMember input state m).targetsAt service =
      state.targetsAt service ++ (targetOf input m).toList.filter (·.service = service) := by
  cases hparse : Compose.parse m.labels with
  | none => simp [planMember, targetOf, hparse]
  | some info =>
      simp only [planMember, targetOf, hparse]
      rw [← @targetsAt_noteCandidate input m info.service state service, noteTarget]
      cases sameImage m input.updatedImage input.updatedImageId with
      | false => simp
      | true =>
          simp only [Bool.not_true, Bool.false_eq_true, ite_false]
          cases input.admission (input.awaited.contains info.service) m with
          | error reason => simp [PlanState.skip, PlanState.targetsAt]
          | ok policy =>
              rw [targetsAt_addTarget]
              by_cases hservice : info.service = service <;> simp [hservice]

/-- A step adds its member as a candidate, if it is one. -/
theorem candidatesAt_planMember (state : PlanState) (service : String) :
    (planMember input state m).candidatesAt service =
      state.candidatesAt service ++
        ((candidateOf input m).toList.filter (·.1 = service)).map Prod.snd := by
  cases hparse : Compose.parse m.labels with
  | none => simp [planMember, candidateOf, hparse]
  | some info =>
      simp only [planMember, candidateOf, hparse]
      rw [candidatesAt_noteTarget, noteCandidate]
      cases input.restartable m with
      | false => simp
      | true =>
          simp only [ite_true]
          rw [candidatesAt_addCandidate]
          by_cases hservice : info.service = service <;> simp [hservice]

theorem targetsAt_foldl (members : List ProjectMember) (state : PlanState) (service : String) :
    (members.foldl (planMember input) state).targetsAt service =
      state.targetsAt service ++
        (members.filterMap (targetOf input)).filter (·.service = service) := by
  induction members generalizing state with
  | nil => simp
  | cons m members ih =>
      rw [List.foldl_cons, ih, targetsAt_planMember, List.append_assoc]
      cases htarget : targetOf input m with
      | none => simp [htarget]
      | some t => by_cases hservice : t.service = service <;> simp [htarget, hservice]

theorem candidatesAt_foldl (members : List ProjectMember) (state : PlanState)
    (service : String) :
    (members.foldl (planMember input) state).candidatesAt service =
      state.candidatesAt service ++
        ((members.filterMap (candidateOf input)).filter (·.1 = service)).map Prod.snd := by
  induction members generalizing state with
  | nil => simp
  | cons m members ih =>
      rw [List.foldl_cons, ih, candidatesAt_planMember, List.append_assoc]
      cases hcandidate : candidateOf input m with
      | none => simp [hcandidate]
      | some candidate => by_cases hservice : candidate.1 = service <;> simp [hcandidate, hservice]

/-! ## Assembling -/

theorem mem_sortTargets {targets : List PlannedTarget} : t ∈ sortTargets targets ↔ t ∈ targets :=
  List.mem_insertionSort _

theorem mem_keys_of_mem_targetsAt {state : PlanState} {service : String}
    (h : t ∈ state.targetsAt service) : service ∈ state.byService.keys := by
  rw [SortedMap.mem_keys_iff]
  cases hget : state.byService.get? service with
  | none => simp [PlanState.targetsAt, hget] at h
  | some targets => exact ⟨targets, rfl⟩

/-- The collected targets of a service are listed under it. -/
theorem mem_targets_assemble {project : String} {graph : Graph} {state : PlanState} :
    t ∈ (assemble project graph state).targets ↔ ∃ service, t ∈ state.targetsAt service := by
  simp only [assemble, List.mem_flatMap, mem_sortTargets, Compose.topologicalOrder, Kahn.mem_order]
  constructor
  · rintro ⟨service, _, ht⟩
    exact ⟨service, ht⟩
  · rintro ⟨service, ht⟩
    exact ⟨service, mem_keys_of_mem_targetsAt ht, ht⟩

theorem mem_restartsFor_assemble {project : String} {graph : Graph} {state : PlanState}
    {updated : List String} {container : String} :
    container ∈ (assemble project graph state).restartsFor updated ↔
      ∃ service ∈ Compose.restartDependents graph updated,
        container ∈ state.candidatesAt service := by
  simp only [RolloutPlan.restartsFor, assemble, List.mem_flatten, List.mem_filterMap,
    SortedMap.get?_map]
  constructor
  · rintro ⟨containers, ⟨service, hservice, hget⟩, hmem⟩
    refine ⟨service, hservice, ?_⟩
    cases hstate : state.restartCandidates.get? service with
    | none => simp [hstate] at hget
    | some candidates =>
        simp only [hstate, Option.map_some, Option.some.injEq] at hget
        subst hget
        simpa [PlanState.candidatesAt, hstate] using hmem
  · rintro ⟨service, hservice, hmem⟩
    cases hstate : state.restartCandidates.get? service with
    | none => simp [PlanState.candidatesAt, hstate] at hmem
    | some candidates =>
        refine ⟨_, ⟨service, hservice, by rw [hstate]; rfl⟩, ?_⟩
        simpa [PlanState.candidatesAt, hstate] using hmem

/-- A daemon lists every container once, by a name without leading slashes. -/
structure WellListed (members : List ProjectMember) : Prop where
  nodup : (members.map ProjectMember.name).Nodup
  trimmed : ∀ m ∈ members, trimStartMatches m.name '/' = m.name

/-! ## Plans -/

section Plan

variable {project trigger : String} {members : List ProjectMember} {tag : Option String}
  {defaults : PolicyDefaults} {own : Option String}

/-- The member whose image moved. -/
def originOf (members : List ProjectMember) (trigger : String) : Option ProjectMember :=
  (liveMembers members).find? fun m => m.name == trigger

/-- The plan of a listing, once the trigger's row is known. -/
theorem plan_eq_assemble {origin : ProjectMember} (horigin : originOf members trigger = some origin) :
    plan project members trigger tag defaults own =
      assemble project (Compose.graphOf (liveMembers members))
        ((liveMembers members).foldl
          (planMember (planInput (liveMembers members) origin tag defaults own)) .empty) := by
  simp only [plan, originOf] at horigin ⊢
  rw [horigin]

theorem plan_eq_empty (horigin : originOf members trigger = none) :
    plan project members trigger tag defaults own =
      assemble project (Compose.graphOf (liveMembers members)) .empty := by
  simp only [plan, originOf] at horigin ⊢
  rw [horigin]

theorem plan_graph :
    (plan project members trigger tag defaults own).graph =
      Compose.graphOf (liveMembers members) := by
  cases horigin : originOf members trigger with
  | none => rw [plan_eq_empty horigin]; rfl
  | some origin => rw [plan_eq_assemble horigin]; rfl

theorem targetsAt_empty (service : String) : PlanState.empty.targetsAt service = [] := rfl

theorem candidatesAt_empty (service : String) : PlanState.empty.candidatesAt service = [] := rfl

/-- **The targets of a plan are the live members that are admitted.** -/
theorem mem_targets_plan :
    t ∈ (plan project members trigger tag defaults own).targets ↔
      ∃ origin, originOf members trigger = some origin ∧ ∃ m ∈ liveMembers members,
        targetOf (planInput (liveMembers members) origin tag defaults own) m = some t := by
  cases horigin : originOf members trigger with
  | none => simp [plan_eq_empty horigin, mem_targets_assemble, targetsAt_empty]
  | some origin =>
      rw [plan_eq_assemble horigin, mem_targets_assemble]
      simp only [targetsAt_foldl, targetsAt_empty, List.nil_append, List.mem_filter,
        List.mem_filterMap, decide_eq_true_eq, Option.some.injEq, exists_eq_left']
      exact ⟨fun ⟨_, hmem, _⟩ => hmem, fun hmem => ⟨t.service, hmem, rfl⟩⟩

/-- **The containers a plan restarts are the candidates of the services that ask for it.** -/
theorem mem_restartsFor_plan {updated : List String} {container : String} :
    container ∈ (plan project members trigger tag defaults own).restartsFor updated ↔
      ∃ origin, originOf members trigger = some origin ∧ ∃ m ∈ liveMembers members,
        ∃ service ∈ Compose.restartDependents (Compose.graphOf (liveMembers members)) updated,
          candidateOf (planInput (liveMembers members) origin tag defaults own) m =
            some (service, container) := by
  cases horigin : originOf members trigger with
  | none => simp [plan_eq_empty horigin, mem_restartsFor_assemble, candidatesAt_empty]
  | some origin =>
      rw [plan_eq_assemble horigin, mem_restartsFor_assemble]
      simp only [candidatesAt_foldl, candidatesAt_empty, List.nil_append, List.mem_map,
        List.mem_filter, List.mem_filterMap, decide_eq_true_eq, Option.some.injEq,
        exists_eq_left', Prod.exists]
      constructor
      · rintro ⟨service, hservice, s, c, ⟨⟨m, hm, hcandidate⟩, rfl⟩, rfl⟩
        exact ⟨m, hm, s, hservice, hcandidate⟩
      · rintro ⟨m, hm, service, hservice, hcandidate⟩
        exact ⟨service, hservice, service, container, ⟨⟨m, hm, hcandidate⟩, rfl⟩, rfl⟩

/-- The restart candidates of a plan are live members of their service. -/
theorem exists_candidate_of_plan {service container : String} {containers : List String}
    (hget : (plan project members trigger tag defaults own).restartCandidates.get? service =
      some containers) (hmem : container ∈ containers) :
    ∃ origin, originOf members trigger = some origin ∧ ∃ m ∈ liveMembers members,
      candidateOf (planInput (liveMembers members) origin tag defaults own) m =
        some (service, container) := by
  have key {graph : Graph} {state : PlanState}
      (hget : (assemble project graph state).restartCandidates.get? service = some containers) :
      container ∈ state.candidatesAt service := by
    rw [assemble, SortedMap.get?_map] at hget
    unfold PlanState.candidatesAt
    cases hstate : state.restartCandidates.get? service with
    | none => simp [hstate] at hget
    | some candidates =>
        simp only [hstate, Option.map_some, Option.some.injEq] at hget
        subst hget
        simpa using hmem
  cases horigin : originOf members trigger with
  | none =>
      rw [plan_eq_empty horigin] at hget
      exact absurd (key hget) (by simp [candidatesAt_empty])
  | some origin =>
      rw [plan_eq_assemble horigin] at hget
      have hcandidate := key hget
      simp only [candidatesAt_foldl, candidatesAt_empty, List.nil_append, List.mem_map,
        List.mem_filter, List.mem_filterMap, decide_eq_true_eq, Prod.exists] at hcandidate
      obtain ⟨s, c, ⟨⟨m, hm, hcandidate⟩, rfl⟩, rfl⟩ := hcandidate
      exact ⟨origin, rfl, m, hm, hcandidate⟩

/-! ## Listings -/

theorem mem_of_live {m : ProjectMember} (h : m ∈ liveMembers members) : m ∈ members :=
  (List.mem_filter.mp h).1

/-- Members of one name are one member. -/
theorem WellListed.eq_of_name (well : WellListed members) {m m' : ProjectMember}
    (hm : m ∈ members) (hm' : m' ∈ members) (hname : m.name = m'.name) : m = m' :=
  List.inj_on_of_nodup_map well.nodup hm hm' hname

/-- Targets of one container are one target. -/
theorem target_unique (well : WellListed members) {t t' : PlannedTarget}
    (ht : t ∈ (plan project members trigger tag defaults own).targets)
    (ht' : t' ∈ (plan project members trigger tag defaults own).targets)
    (heq : t.container = t'.container) : t = t' := by
  obtain ⟨origin, horigin, m, hm, htarget⟩ := mem_targets_plan.mp ht
  obtain ⟨origin', horigin', m', hm', htarget'⟩ := mem_targets_plan.mp ht'
  obtain rfl : origin = origin' := by simpa [horigin] using horigin'
  obtain ⟨-, -, -, -, hname, -⟩ := targetOf_eq_some.mp htarget
  obtain ⟨-, -, -, -, hname', -⟩ := targetOf_eq_some.mp htarget'
  obtain rfl := well.eq_of_name (mem_of_live hm) (mem_of_live hm') (by rw [← hname, heq, hname'])
  rw [htarget] at htarget'
  exact Option.some.inj htarget'

end Plan

/-! ## Plans of one target -/

/-- A plan that adds nothing has the container as its one target, and restarts nothing. -/
theorem targets_of_addsNothing {p : RolloutPlan} {container : String} {target : PlannedTarget}
    (h : p.addsNothingFor container = true) (ht : target ∈ p.targets) :
    target.container = container ∧ p.targets = [target] ∧ p.restartsFor [target.service] = [] := by
  simp only [RolloutPlan.addsNothingFor, Bool.and_eq_true, List.isEmpty_iff] at h
  obtain ⟨hrestarts, hmatch⟩ := h
  split at hmatch
  · next only hone =>
    rw [hone] at ht
    obtain rfl := List.mem_singleton.mp ht
    rw [RolloutPlan.allTargetServices, hone] at hrestarts
    exact ⟨beq_iff_eq.mp hmatch, hone, hrestarts⟩
  · cases hmatch

/-! ## Order -/

theorem service_of_mem_targetsAt {members : List ProjectMember} {service : String}
    (h : t ∈ (members.foldl (planMember input) .empty).targetsAt service) :
    t.service = service := by
  rw [targetsAt_foldl, targetsAt_empty, List.nil_append] at h
  simpa using (List.mem_filter.mp h).2

/-- All targets of the first service stand before all targets of the second. -/
def Ahead (targets : List PlannedTarget) (first second : String) : Prop :=
  ∃ front back, targets = front ++ back ∧ (∀ t ∈ back, t.service ≠ first) ∧
    ∀ t ∈ front, t.service ≠ second

section Ahead

variable {targets : List PlannedTarget} {first second third : String}

/-- Before a target of the second service, all targets of the first one are done. -/
theorem Ahead.mem_done (ahead : Ahead targets first second) {done todo : List PlannedTarget}
    (split : targets = done ++ t :: todo) (hsecond : t.service = second) {t' : PlannedTarget}
    (ht' : t' ∈ targets) (hfirst : t'.service = first) : t' ∈ done := by
  obtain ⟨front, back, rfl, hback, hfront⟩ := ahead
  rcases Interaction.place_of_append split with ⟨after, rfl⟩ | ⟨more, rfl, -⟩
  · exact absurd hsecond (hfront t (by simp))
  · rcases List.mem_append.mp ht' with ht' | ht'
    · exact List.mem_append_left _ ht'
    · exact absurd hfirst (hback t' ht')

/-- The order passes through a service that has a target. -/
theorem Ahead.trans (ahead : Ahead targets first second) (ahead' : Ahead targets second third)
    (between : ∃ t ∈ targets, t.service = second) : Ahead targets first third := by
  obtain ⟨front, back, rfl, hback, hfront⟩ := ahead
  obtain ⟨front', back', hsplit, hback', hfront'⟩ := ahead'
  refine ⟨front, back, rfl, hback, fun t ht => ?_⟩
  rcases List.append_eq_append_iff.mp hsplit with ⟨more, rfl, -⟩ | ⟨more, rfl, rfl⟩
  · exact hfront' t (List.mem_append_left _ ht)
  · -- the target in between is in `front`, where none of its service is, or in `back'`
    obtain ⟨t', ht', hsecond⟩ := between
    rcases List.mem_append.mp ht' with ht' | ht'
    · exact absurd hsecond (hfront t' ht')
    · exact absurd hsecond (hback' t' (List.mem_append_right _ ht'))

/-- Targets listed by service stand in the order of their services. -/
theorem ahead_flatMap {l : List String} {f : String → List PlannedTarget} (nodup : l.Nodup)
    (listed : ∀ service, ∀ t ∈ f service, t.service = service)
    (precedes : Kahn.Precedes l first second) : Ahead (l.flatMap f) first second := by
  obtain ⟨before, after, rfl, hfirst, hsecond⟩ := precedes
  have apart := (List.nodup_append.mp nodup).2.2
  refine ⟨before.flatMap f, after.flatMap f, List.flatMap_append .., fun t ht heq => ?_,
    fun t ht heq => ?_⟩
  · obtain ⟨service, hservice, ht⟩ := List.mem_flatMap.mp ht
    rw [listed service t ht] at heq
    exact apart first hfirst service hservice heq.symm
  · obtain ⟨service, hservice, ht⟩ := List.mem_flatMap.mp ht
    rw [listed service t ht] at heq
    exact apart service hservice second hsecond heq

end Ahead

section Order

variable {project trigger : String} {members : List ProjectMember} {tag : Option String}
  {defaults : PolicyDefaults} {own : Option String}

/-- **Where no cycle is in the way, the targets of a service come after all targets of its
dependencies.** -/
theorem plan_ahead {first second : String}
    (acyclic : Compose.Acyclic (Compose.graphOf (liveMembers members)) first)
    (hdep : Compose.DependsOn (Compose.graphOf (liveMembers members)) second first)
    (hfirst : first ∈ (plan project members trigger tag defaults own).allTargetServices)
    (hsecond : second ∈ (plan project members trigger tag defaults own).allTargetServices) :
    Ahead (plan project members trigger tag defaults own).targets first second := by
  obtain ⟨t, ht, rfl⟩ := List.mem_map.mp hfirst
  obtain ⟨t', ht', rfl⟩ := List.mem_map.mp hsecond
  obtain ⟨origin, horigin, -⟩ := mem_targets_plan.mp ht
  rw [plan_eq_assemble horigin] at ht ht' ⊢
  have key {t : PlannedTarget} (ht : t ∈ (assemble project (Compose.graphOf (liveMembers members))
      ((liveMembers members).foldl
        (planMember (planInput (liveMembers members) origin tag defaults own)) .empty)).targets) :
      t.service ∈ ((liveMembers members).foldl
        (planMember (planInput (liveMembers members) origin tag defaults own)) .empty).byService.keys := by
    obtain ⟨service, ht⟩ := mem_targets_assemble.mp ht
    obtain rfl := service_of_mem_targetsAt ht
    exact mem_keys_of_mem_targetsAt ht
  have hne : t.service ≠ t'.service := by
    intro heq
    rw [← heq] at hdep
    exact acyclic _ .refl (.single hdep)
  refine ahead_flatMap (Kahn.nodup_order _ _) ?_ (Kahn.order_precedes hdep hne
    (Kahn.acc_of_no_cycle (fun m n h => h.1) acyclic) (key ht) (key ht'))
  intro service t ht
  exact service_of_mem_targetsAt (mem_sortTargets.mp ht)

/-- Before a target, all targets of its dependencies are done. -/
theorem target_before {before after : String} {done todo : List PlannedTarget}
    (acyclic : Compose.Acyclic (Compose.graphOf (liveMembers members)) before)
    (hdep : Compose.DependsOn (Compose.graphOf (liveMembers members)) after before)
    (split : (plan project members trigger tag defaults own).targets = done ++ t :: todo)
    (hservice : t.service = after) {t' : PlannedTarget}
    (ht' : t' ∈ (plan project members trigger tag defaults own).targets)
    (hservice' : t'.service = before) : t' ∈ done := by
  have ht : t ∈ (plan project members trigger tag defaults own).targets := by
    rw [split]
    exact List.mem_append_right _ List.mem_cons_self
  subst hservice
  subst hservice'
  exact (plan_ahead acyclic hdep (List.mem_map_of_mem ht') (List.mem_map_of_mem ht)).mem_done split
    rfl ht' rfl

end Order

end Freshdock.Rollout
