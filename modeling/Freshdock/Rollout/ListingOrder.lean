import Freshdock.Rollout.ActsOnce
import Freshdock.Compose.Edges
import Freshdock.Foundation.Tangle

/-!
# A plan does not depend on the order of the listing

The daemon lists the members of a project in any order, Compose writes the entries of a
`depends_on` label in any order, and the maps a plan is collected in are hash maps. None of the
three shows in the plan: what is collected for a service is sorted by container, the services
are sorted by the graph, and the graph is a function of the service where its members agree.
-/

set_option autoImplicit false

namespace Freshdock

open Text Docker Registry
open Compose (ProjectMember Graph Dependency)
open Labels (PolicyDefaults)

/-! ## Labels that differ in `depends_on` only -/

namespace Compose

/-- Two label maps with the same labels, but for the value of `depends_on`. -/
def AgreeElsewhere (labels labels' : LabelMap) : Prop :=
  ∀ key, key ≠ labelDependsOn → labels key = labels' key

variable {labels labels' : LabelMap} {defaults : PolicyDefaults}

theorem AgreeElsewhere.boolLabel (agree : AgreeElsewhere labels labels') {key : String}
    (hkey : key ≠ labelDependsOn) (otherwise : Bool) :
    Labels.boolLabel labels key otherwise = Labels.boolLabel labels' key otherwise := by
  rw [Labels.boolLabel, agree key hkey, Labels.boolLabel]

theorem AgreeElsewhere.parseHook (agree : AgreeElsewhere labels labels')
    {command timeout wtCommand wtTimeout : String} (hcommand : command ≠ labelDependsOn)
    (htimeout : timeout ≠ labelDependsOn) (hwtCommand : wtCommand ≠ labelDependsOn)
    (hwtTimeout : wtTimeout ≠ labelDependsOn) :
    Labels.parseHook labels command timeout wtCommand wtTimeout =
      Labels.parseHook labels' command timeout wtCommand wtTimeout := by
  rw [Labels.parseHook, Labels.hookTimeout, agree timeout htimeout, agree wtTimeout hwtTimeout,
    agree command hcommand, agree wtCommand hwtCommand]
  rfl

theorem AgreeElsewhere.explicitEnable (agree : AgreeElsewhere labels labels') :
    Labels.explicitEnable labels = Labels.explicitEnable labels' := by
  rw [Labels.explicitEnable, agree Labels.enableKey (by decide), agree Labels.wtEnable (by decide)]
  rfl

theorem AgreeElsewhere.resolveMode (agree : AgreeElsewhere labels labels') :
    Labels.resolveMode labels defaults = Labels.resolveMode labels' defaults := by
  rw [Labels.resolveMode, agree.boolLabel (by decide), agree Labels.modeKey (by decide)]
  rfl

/-- The policy does not see the edges. -/
theorem AgreeElsewhere.parsePolicy (agree : AgreeElsewhere labels labels') :
    Labels.parsePolicy labels defaults = Labels.parsePolicy labels' defaults := by
  rw [Labels.parsePolicy, agree.explicitEnable, agree.resolveMode, agree.boolLabel (by decide),
    agree "freshdock.schedule" (by decide), agree.boolLabel (by decide),
    agree.parseHook (by decide) (by decide) (by decide) (by decide),
    agree.parseHook (by decide) (by decide) (by decide) (by decide)]
  rfl

theorem AgreeElsewhere.explicitlyOptsOut (agree : AgreeElsewhere labels labels') :
    Labels.explicitlyOptsOut labels = Labels.explicitlyOptsOut labels' := by
  simp only [Labels.explicitlyOptsOut, agree Labels.enableKey (by decide),
    agree Labels.wtEnable (by decide), agree Labels.modeKey (by decide)]

/-- The entries of a `depends_on` label. -/
def entriesOf (labels : LabelMap) : List String := split ((labels labelDependsOn).getD "") ','

/-- **The order of the entries of a label does not matter**, where they name different
services. -/
theorem declared_congr (perm : (entriesOf labels).Perm (entriesOf labels'))
    (distinct : (((entriesOf labels).filterMap parseEntry).map Dependency.service).Nodup) :
    declared labels = declared labels' := by
  have sorted := SortedMap.insertionSort_congr (perm.filterMap parseEntry)
    fun a ha b hb heq => List.inj_on_of_nodup_map distinct ha hb heq
  exact congrArg (List.destutter fun a b => a.service ≠ b.service) sorted

theorem parse_congr (agree : AgreeElsewhere labels labels')
    (perm : (entriesOf labels).Perm (entriesOf labels'))
    (distinct : (((entriesOf labels).filterMap parseEntry).map Dependency.service).Nodup) :
    parse labels = parse labels' := by
  rw [parse, isOneoff, agree labelOneoff (by decide), agree labelProject (by decide),
    agree labelService (by decide)]
  have hdeclared := declared_congr perm distinct
  unfold declared at hdeclared
  rw [hdeclared]
  rfl

/-- The member as the daemon may list it another time: the entries of its `depends_on` label, which
name different services, come in another order. -/
structure Reordered (m m' : ProjectMember) : Prop where
  name : m.name = m'.name
  id : m.id = m'.id
  imageRef : m.imageRef = m'.imageRef
  imageId : m.imageId = m'.imageId
  running : m.running = m'.running
  elsewhere : AgreeElsewhere m.labels m'.labels
  entries : (entriesOf m.labels).Perm (entriesOf m'.labels)
  distinct : (((entriesOf m.labels).filterMap parseEntry).map Dependency.service).Nodup

theorem Reordered.parse {m m' : ProjectMember} (h : Reordered m m') :
    Compose.parse m.labels = Compose.parse m'.labels :=
  parse_congr h.elsewhere h.entries h.distinct

/-- The members as the daemon may list them another time. -/
def Relisted (members members' : List ProjectMember) : Prop :=
  ∃ reordered, List.Forall₂ Reordered members reordered ∧ reordered.Perm members'

namespace Relisted

variable {members members' : List ProjectMember}

/-- What is read of the members, and is not read from the order of the entries, is the same up to
the order of the members. -/
theorem filterMap_perm (h : Relisted members members') {β : Type} {f : ProjectMember → Option β}
    (blind : ∀ m m', Reordered m m' → f m = f m') :
    (members.filterMap f).Perm (members'.filterMap f) := by
  obtain ⟨reordered, hsame, perm⟩ := h
  have heq : members.filterMap f = reordered.filterMap f := by
    clear perm
    induction hsame with
    | nil => rfl
    | cons head _ ih => rw [List.filterMap_cons, List.filterMap_cons, blind _ _ head, ih]
  rw [heq]
  exact perm.filterMap f

theorem live (h : Relisted members members') :
    Relisted (Rollout.liveMembers members) (Rollout.liveMembers members') := by
  obtain ⟨reordered, hsame, perm⟩ := h
  refine ⟨Rollout.liveMembers reordered, ?_, perm.filter _⟩
  refine List.rel_filter (fun {m m'} hm => ?_) hsame
  simp only [hm.name]

theorem exists_of_mem (h : Relisted members members') {m' : ProjectMember} (hm' : m' ∈ members') :
    ∃ m ∈ members, Reordered m m' := by
  obtain ⟨reordered, hsame, perm⟩ := h
  have hmem := perm.mem_iff.mpr hm'
  clear perm hm'
  induction hsame with
  | nil => cases hmem
  | @cons m n members reordered head _ ih =>
      rcases List.mem_cons.mp hmem with rfl | hmem
      · exact ⟨m, List.mem_cons_self, head⟩
      · obtain ⟨m, hm, hreordered⟩ := ih hmem
        exact ⟨m, List.mem_cons_of_mem _ hm, hreordered⟩

theorem names_perm (h : Relisted members members') :
    (members.map ProjectMember.name).Perm (members'.map ProjectMember.name) := by
  have perm := h.filterMap_perm (f := fun m => some m.name) fun m m' hm => congrArg some hm.name
  simpa [List.filterMap_eq_map'] using perm

end Relisted

/-- **Where the members of each service agree, the graph does not depend on the order of the
listing.** -/
theorem graphOf_congr {members members' : List ProjectMember} (h : Relisted members members')
    (agree : ∀ service, AgreeOn members service) : graphOf members = graphOf members' := by
  have perm := h.filterMap_perm (f := fun m => Compose.parse m.labels) fun _ _ hm => hm.parse
  refine SortedMap.ext_get? fun service => ?_
  rw [get?_graphOf, get?_graphOf]
  cases hlast : lastListed members service with
  | none =>
      cases hlast' : lastListed members' service with
      | none => rfl
      | some info' =>
          obtain ⟨hmem, hservice⟩ := mem_of_lastListed hlast'
          exact absurd hservice (service_ne_of_lastListed hlast (perm.mem_iff.mpr hmem))
  | some info =>
      obtain ⟨hmem, hservice⟩ := mem_of_lastListed hlast
      cases hlast' : lastListed members' service with
      | none => exact absurd hservice (service_ne_of_lastListed hlast' (perm.mem_iff.mp hmem))
      | some info' =>
          obtain ⟨hmem', hservice'⟩ := mem_of_lastListed hlast'
          obtain ⟨m, hm, hinfo⟩ := List.mem_filterMap.mp hmem
          obtain ⟨m', hm', hinfo'⟩ := List.mem_filterMap.mp (perm.mem_iff.mpr hmem')
          exact congrArg some
            (agree service m hm m' hm' info info' hinfo hinfo' hservice hservice')

end Compose

namespace Rollout

variable {members members' : List ProjectMember} {input : PlanInput}

/-! ## What is collected of a member -/

section Reordered

variable {m m' : ProjectMember}

theorem sameImage_congr (h : Compose.Reordered m m') (image : ImageRef) (imageId : Option String) :
    sameImage m image imageId = sameImage m' image imageId := by
  unfold sameImage
  rw [h.imageRef, h.imageId]

theorem admission_congr (h : Compose.Reordered m m') (oneShot : Bool) :
    input.admission oneShot m = input.admission oneShot m' := by
  have samePolicy (policy : Labels.Policy) :
      input.admitPolicy oneShot m policy = input.admitPolicy oneShot m' policy := by
    unfold PlanInput.admitPolicy
    rw [h.imageId, h.running]
  unfold PlanInput.admission PlanInput.isSelf
  rw [h.id, h.elsewhere.explicitlyOptsOut, h.elsewhere.parsePolicy]
  simp only [samePolicy]

theorem targetOf_congr (h : Compose.Reordered m m') : targetOf input m = targetOf input m' := by
  unfold targetOf
  rw [h.parse, sameImage_congr h, h.name]
  cases Compose.parse m'.labels with
  | none => rfl
  | some info =>
      dsimp only
      rw [admission_congr h]

theorem skipOf_congr (h : Compose.Reordered m m') : skipOf input m = skipOf input m' := by
  unfold skipOf
  rw [h.parse, sameImage_congr h, h.name]
  cases Compose.parse m'.labels with
  | none => rfl
  | some info =>
      dsimp only
      rw [admission_congr h]

theorem candidateOf_congr (h : Compose.Reordered m m') :
    candidateOf input m = candidateOf input m' := by
  have hrestartable : input.restartable m = input.restartable m' := by
    unfold PlanInput.restartable PlanInput.isSelf
    rw [h.running, h.id, h.elsewhere.explicitlyOptsOut, h.elsewhere.parsePolicy]
  unfold candidateOf
  rw [h.parse, hrestartable, h.name]

end Reordered

theorem container_of_skipOf {m : ProjectMember} {s : SkippedMember}
    (h : skipOf input m = some s) : s.container = m.name := by
  unfold skipOf at h
  split at h
  · cases h
  · split_ifs at h
    split at h <;> cases h
    rfl

/-! ## What is collected of all members -/

/-- No service is collected without a container. -/
structure PlanState.Filled (state : PlanState) : Prop where
  byService : state.byService.Filled
  restartCandidates : state.restartCandidates.Filled

theorem PlanState.Filled.planMember {state : PlanState} (h : state.Filled) (m : ProjectMember) :
    (planMember input state m).Filled := by
  have hnote (service : String) : (noteCandidate input service state m).Filled := by
    unfold noteCandidate
    split
    · exact ⟨h.byService, h.restartCandidates.push _ _⟩
    · exact h
  unfold Rollout.planMember
  split
  · exact h
  · next info _ =>
      unfold noteTarget
      split
      · exact hnote info.service
      · dsimp only
        split
        · exact ⟨(hnote info.service).byService, (hnote info.service).restartCandidates⟩
        · exact ⟨(hnote info.service).byService.push _ _, (hnote info.service).restartCandidates⟩

theorem filled_foldl (members : List ProjectMember) :
    (members.foldl (planMember input) .empty).Filled := by
  induction members using List.reverseRecOn with
  | nil => exact ⟨SortedMap.filled_empty, SortedMap.filled_empty⟩
  | append_singleton members m ih =>
      rw [List.foldl_append]
      exact ih.planMember m

/-- Two walks that collected the same, in any order. -/
structure PlanState.Alike (state state' : PlanState) : Prop where
  filled : state.Filled
  filled' : state'.Filled
  targets : ∀ service, (state.targetsAt service).Perm (state'.targetsAt service)
  candidates : ∀ service, (state.candidatesAt service).Perm (state'.candidatesAt service)
  skipped : state.skipped.Perm state'.skipped
  /-- No container is collected twice. -/
  apart : ∀ service, ∀ t ∈ state.targetsAt service, ∀ t' ∈ state.targetsAt service,
    t.container = t'.container → t = t'
  apartSkipped : ∀ s ∈ state.skipped, ∀ s' ∈ state.skipped, s.container = s'.container → s = s'

/-- **A plan sorts what was collected.** -/
theorem assemble_congr {state state' : PlanState} (alike : state.Alike state') (project : String)
    (graph : Graph) : assemble project graph state = assemble project graph state' := by
  have services : Compose.topologicalOrder state.byService.keys graph =
      Compose.topologicalOrder state'.byService.keys graph := by
    refine Kahn.order_congr (fun _ _ => Iff.rfl) fun service => ?_
    rw [alike.filled.byService.mem_keys, alike.filled'.byService.mem_keys]
    exact exists_congr fun t => (alike.targets service).mem_iff
  have sorted (service : String) : sortTargets (state.targetsAt service) =
      sortTargets (state'.targetsAt service) :=
    SortedMap.insertionSort_congr (alike.targets service) (alike.apart service)
  have skipped : (state.skipped.insertionSort fun a b => a.container ≤ b.container) =
      state'.skipped.insertionSort fun a b => a.container ≤ b.container :=
    SortedMap.insertionSort_congr alike.skipped alike.apartSkipped
  have candidates : (state.restartCandidates.map fun containers =>
        containers.insertionSort (· ≤ ·)) =
      state'.restartCandidates.map fun containers => containers.insertionSort (· ≤ ·) :=
    alike.filled.restartCandidates.map_eq alike.filled'.restartCandidates alike.candidates
      fun _ _ _ _ perm => Kahn.ascending_congr perm
  simp only [PlanState.targetsAt] at sorted
  simp only [assemble, services, sorted, skipped, candidates]

/-- What a walk over distinct members collects does not depend on their order. -/
theorem alike_foldl (relisted : Compose.Relisted members members')
    (nodup : (members.map ProjectMember.name).Nodup) :
    (members.foldl (planMember input) .empty).Alike (members'.foldl (planMember input) .empty) where
  filled := filled_foldl members
  filled' := filled_foldl members'
  targets service := by
    rw [targetsAt_foldl, targetsAt_foldl]
    exact ((relisted.filterMap_perm fun _ _ h => targetOf_congr h).filter _).append_left _
  candidates service := by
    rw [candidatesAt_foldl, candidatesAt_foldl]
    exact (((relisted.filterMap_perm fun _ _ h => candidateOf_congr h).filter _).map _).append_left _
  skipped := by
    rw [skipped_foldl, skipped_foldl]
    exact (relisted.filterMap_perm fun _ _ h => skipOf_congr h).append_left _
  apart service t ht t' ht' heq := by
    rw [targetsAt_foldl, targetsAt_empty, List.nil_append] at ht ht'
    have names : ((members.filterMap (targetOf input)).map PlannedTarget.container).Nodup :=
      nodup_filterMap_names (fun m t htarget => (targetOf_eq_some.mp htarget).choose_spec.2.2.2.1)
        nodup
    exact List.inj_on_of_nodup_map names (List.mem_filter.mp ht).1 (List.mem_filter.mp ht').1 heq
  apartSkipped s hs s' hs' heq := by
    have hempty : PlanState.empty.skipped = [] := rfl
    rw [skipped_foldl, hempty, List.nil_append] at hs hs'
    have names : ((members.filterMap (skipOf input)).map SkippedMember.container).Nodup :=
      nodup_filterMap_names (fun m s hskip => container_of_skipOf hskip) nodup
    exact List.inj_on_of_nodup_map names hs hs' heq

/-! ## Plans -/

section Plan

variable {project trigger : String} {tag own : Option String} {defaults : PolicyDefaults}

theorem originOf_eq_none_iff :
    originOf members trigger = none ↔ trigger ∉ (liveMembers members).map ProjectMember.name := by
  rw [originOf, List.find?_eq_none]
  simp

/-- The trigger's row is found in either listing, or in neither. -/
theorem originOf_congr (relisted : Compose.Relisted members members')
    (nodup : (members.map ProjectMember.name).Nodup) :
    (originOf members trigger = none ∧ originOf members' trigger = none) ∨
      ∃ origin origin', originOf members trigger = some origin ∧
        originOf members' trigger = some origin' ∧ Compose.Reordered origin origin' := by
  cases horigin' : originOf members' trigger with
  | none =>
      refine .inl ⟨?_, rfl⟩
      rw [originOf_eq_none_iff] at horigin' ⊢
      rwa [relisted.live.names_perm.mem_iff]
  | some origin' =>
      have hlive' := List.mem_of_find?_eq_some horigin'
      have hname' : origin'.name = trigger := by simpa using List.find?_some horigin'
      obtain ⟨origin, hlive, reordered⟩ := relisted.live.exists_of_mem hlive'
      have hfound := originOf_of_mem nodup (mem_of_live hlive)
        (by simpa using (List.mem_filter.mp hlive).2)
      rw [reordered.name, hname'] at hfound
      exact .inr ⟨origin, origin', hfound, rfl, reordered⟩

/-- **A plan is the same for every order of the listing and of the label entries.** -/
theorem plan_congr (relisted : Compose.Relisted members members')
    (nodup : (members.map ProjectMember.name).Nodup)
    (agree : ∀ service, Compose.AgreeOn members service) :
    plan project members trigger tag defaults own =
      plan project members' trigger tag defaults own := by
  have graph : Compose.graphOf (liveMembers members) = Compose.graphOf (liveMembers members') :=
    Compose.graphOf_congr relisted.live fun service m hm m' hm' =>
      agree service m (mem_of_live hm) m' (mem_of_live hm')
  rcases originOf_congr relisted nodup with
    ⟨hnone, hnone'⟩ | ⟨origin, origin', horigin, horigin', reordered⟩
  · rw [plan_eq_empty hnone, plan_eq_empty hnone', graph]
  · have input : planInput (liveMembers members) origin tag defaults own =
        planInput (liveMembers members') origin' tag defaults own := by
      simp only [planInput, graph, reordered.imageRef, reordered.imageId]
    rw [plan_eq_assemble horigin, plan_eq_assemble horigin', graph, input]
    exact assemble_congr (alike_foldl relisted.live (nodup_liveMembers nodup)) project _

/-! ## The maps a plan is made of -/

theorem restartDependents_congr (graph : Graph) {updated updated' : List String}
    (same : ∀ service, service ∈ updated ↔ service ∈ updated') :
    Compose.restartDependents graph updated = Compose.restartDependents graph updated' := by
  simp only [Compose.restartDependents, same]

/-- The plan does not depend on the order in which its hash maps are iterated: the targets are the
topological order of their services, enumerated in any way, and the restarts those of the graph's
nodes, enumerated in any way. -/
structure Enumerated (p : RolloutPlan) : Prop where
  targets : ∀ services : List String,
    (∀ service, service ∈ services ↔ service ∈ p.allTargetServices) →
      p.targets = (Compose.topologicalOrder services p.graph).flatMap fun service =>
        p.targets.filter fun t => t.service = service
  restarts : ∀ entries : List (String × List Dependency), entries.Perm p.graph.entries →
    ∀ updated, p.restartsFor updated =
      ((Kahn.ascending ((entries.filter fun entry => entry.1 ∉ updated ∧
        ∃ d ∈ entry.2, d.restart = true ∧ d.service ∈ updated).map Prod.fst)).filterMap
          p.restartCandidates.get?).flatten

/-- The group of a key is what a grouped list has under that key. -/
theorem filter_flatMap_groups {β : Type} {key : β → String} {ks : List String} {f : String → List β}
    (nodup : ks.Nodup) (keyed : ∀ k ∈ ks, ∀ x ∈ f k, key x = k) {k : String} (hk : k ∈ ks) :
    (ks.flatMap f).filter (fun x => key x = k) = f k := by
  induction ks with
  | nil => cases hk
  | cons head ks ih =>
      obtain ⟨hhead, nodup⟩ := List.nodup_cons.mp nodup
      have own {k' : String} (hk' : k' ∈ head :: ks) (hne : k' ≠ k) :
          (f k').filter (fun x => key x = k) = [] := by
        refine List.filter_eq_nil_iff.mpr fun x hx => ?_
        simpa [keyed k' hk' x hx] using hne
      rw [List.flatMap_cons, List.filter_append]
      rcases List.mem_cons.mp hk with rfl | hmem
      · have hself : (f k).filter (fun x => key x = k) = f k :=
          List.filter_eq_self.mpr fun x hx => by simpa using keyed k List.mem_cons_self x hx
        have hrest : (ks.flatMap f).filter (fun x => key x = k) = [] := by
          refine List.filter_eq_nil_iff.mpr fun x hx => ?_
          obtain ⟨k', hk', hx⟩ := List.mem_flatMap.mp hx
          rw [keyed k' (List.mem_cons_of_mem _ hk') x hx]
          simpa using fun heq : k' = k => hhead (heq ▸ hk')
        rw [hself, hrest, List.append_nil]
      · have hne : head ≠ k := fun heq => hhead (heq ▸ hmem)
        rw [own List.mem_cons_self hne, List.nil_append]
        exact ih nodup (fun k' hk' => keyed k' (List.mem_cons_of_mem _ hk')) hmem

theorem enumerated_assemble {graph : Graph} {state : PlanState} (filled : state.Filled)
    (keyed : ∀ service, ∀ t ∈ state.targetsAt service, t.service = service) :
    Enumerated (assemble project graph state) where
  targets services same := by
    have order : Compose.topologicalOrder services graph =
        Compose.topologicalOrder state.byService.keys graph := by
      refine Kahn.order_congr (fun _ _ => Iff.rfl) fun service => ?_
      rw [same, filled.byService.mem_keys, RolloutPlan.allTargetServices, List.mem_map]
      constructor
      · rintro ⟨t, ht, rfl⟩
        obtain ⟨service, ht⟩ := mem_targets_assemble.mp ht
        exact ⟨t, keyed service t ht ▸ ht⟩
      · rintro ⟨t, ht⟩
        exact ⟨t, mem_targets_assemble.mpr ⟨service, ht⟩, keyed service t ht⟩
    change (Compose.topologicalOrder state.byService.keys graph).flatMap _ =
      (Compose.topologicalOrder services graph).flatMap _
    rw [order]
    refine List.flatMap_congr fun service hservice => ?_
    have group := @filter_flatMap_groups PlannedTarget PlannedTarget.service
      (Compose.topologicalOrder state.byService.keys graph)
      (fun service => sortTargets (state.targetsAt service)) (Kahn.nodup_order _ _)
      (fun k _ t ht => keyed k t (mem_sortTargets.mp ht)) service hservice
    exact group.symm
  restarts entries perm updated := by
    have same := Kahn.ascending_congr ((perm.filter fun entry => entry.1 ∉ updated ∧
      ∃ d ∈ entry.2, d.restart = true ∧ d.service ∈ updated).map Prod.fst)
    rw [same]
    rfl

theorem enumerated_plan : Enumerated (plan project members trigger tag defaults own) := by
  cases horigin : originOf members trigger with
  | none =>
      rw [plan_eq_empty horigin]
      refine enumerated_assemble ⟨SortedMap.filled_empty, SortedMap.filled_empty⟩
        fun service t ht => ?_
      simp [targetsAt_empty] at ht
  | some origin =>
      rw [plan_eq_assemble horigin]
      exact enumerated_assemble (filled_foldl _) fun service t ht => service_of_mem_targetsAt ht

/-- **A plan does not depend on the order of the listing**, on the order of the entries of a
`depends_on` label, or on the order in which a hash map is iterated. -/
theorem plan_order_independent (relisted : Compose.Relisted members members')
    (nodup : (members.map ProjectMember.name).Nodup)
    (agree : ∀ service, Compose.AgreeOn members service) :
    plan project members' trigger tag defaults own =
        plan project members trigger tag defaults own ∧
      (∀ updated updated' : List String,
        (∀ service, service ∈ updated ↔ service ∈ updated') →
          (plan project members' trigger tag defaults own).restartsFor updated' =
            (plan project members trigger tag defaults own).restartsFor updated) ∧
      Enumerated (plan project members trigger tag defaults own) := by
  have same := @plan_congr members members' project trigger tag own defaults relisted nodup agree
  refine ⟨same.symm, fun updated updated' hupdated => ?_, enumerated_plan⟩
  rw [← same, RolloutPlan.restartsFor, RolloutPlan.restartsFor,
    restartDependents_congr _ hupdated]

end Plan

/-- A member of the project whose `depends_on` label has two entries. -/
def twoEdges (dependsOn : String) : ProjectMember where
  name := "web"
  id := "id-web"
  imageRef := "app"
  imageId := none
  labels := .ofPairs [("com.docker.compose.project", "stack"),
    ("com.docker.compose.service", "web"), ("com.docker.compose.depends_on", dependsOn),
    ("freshdock.enable", "true"), ("freshdock.mode", "live")]
  running := true

def databaseMember : ProjectMember where
  name := "db"
  id := "id-db"
  imageRef := "app"
  imageId := none
  labels := .ofPairs [("com.docker.compose.project", "stack"),
    ("com.docker.compose.service", "db"), ("freshdock.enable", "true"), ("freshdock.mode", "live")]
  running := true

theorem reordered_self (m : ProjectMember)
    (distinct : (((Compose.entriesOf m.labels).filterMap Compose.parseEntry).map
      Dependency.service).Nodup) : Compose.Reordered m m :=
  ⟨rfl, rfl, rfl, rfl, rfl, fun _ _ => rfl, .refl _, distinct⟩

theorem reordered_twoEdges :
    Compose.Reordered (twoEdges "db:service_healthy:false,cache:service_started:true")
      (twoEdges "cache:service_started:true,db:service_healthy:false") where
  name := rfl
  id := rfl
  imageRef := rfl
  imageId := rfl
  running := rfl
  elsewhere key hkey := by
    have hbeq : (key == "com.docker.compose.depends_on") = false := by
      simpa [Compose.labelDependsOn] using hkey
    simp [twoEdges, LabelMap.ofPairs, List.lookup_cons, hbeq]
  entries := by decide
  distinct := by decide

/-- Members of different services agree. -/
theorem agreeOn_of_services {members : List ProjectMember}
    (distinct : ((members.filterMap fun m => Compose.parse m.labels).map
      Compose.ComposeInfo.service).Nodup) (service : String) : Compose.AgreeOn members service := by
  intro m hm m' hm' info info' hinfo hinfo' hservice hservice'
  have heq : info = info' := List.inj_on_of_nodup_map distinct
    (List.mem_filterMap.mpr ⟨m, hm, hinfo⟩) (List.mem_filterMap.mpr ⟨m', hm', hinfo'⟩)
    (hservice.trans hservice'.symm)
  rw [heq]

/-- The database listed first or last, and its entry written first or last. -/
theorem plan_order_independent_twoEdges :
    plan "stack" [databaseMember, twoEdges "cache:service_started:true,db:service_healthy:false"]
        "web" none ⟨none, false, false⟩ none =
      plan "stack" [twoEdges "db:service_healthy:false,cache:service_started:true", databaseMember]
        "web" none ⟨none, false, false⟩ none := by
  refine (plan_order_independent ⟨_, .cons reordered_twoEdges
    (.cons (reordered_self databaseMember (by decide)) .nil), .swap _ _ _⟩ (by decide)
      (agreeOn_of_services ?_)).1
  decide

end Rollout

end Freshdock
