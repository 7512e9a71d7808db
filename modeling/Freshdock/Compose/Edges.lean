import Freshdock.Compose

/-!
# The edges a project declares

The graph is collected into a map by service, so of several replicas of one service the last
one listed decides which edges the graph has. A declared edge counts exactly where the last
listed replica repeats it, or, for a service that is awaited to complete, where the last listed
replica of any service awaits it.
-/

set_option autoImplicit false

namespace Freshdock.Compose

/-- The edges the `depends_on` label of a container states. -/
def declared (labels : LabelMap) : List Dependency :=
  parseDependsOn ((labels labelDependsOn).getD "")

theorem dependsOn_of_parse {labels : LabelMap} {info : ComposeInfo}
    (h : parse labels = some info) : isOneoff labels = false ∧ info.dependsOn = declared labels := by
  unfold parse at h
  split at h
  · cases h
  · next honeoff =>
      cases hproject : nonEmpty (labels labelProject) with
      | none => simp [hproject] at h
      | some project =>
          cases hservice : nonEmpty (labels labelService) with
          | none => simp [hproject, hservice] at h
          | some service =>
              simp only [hproject, hservice, Option.pure_def, Option.bind_eq_bind,
                Option.bind_some, Option.some.injEq] at h
              subst h
              exact ⟨by simpa using honeoff, rfl⟩

/-- The last member of the service in the listing. -/
def lastListed (members : List ProjectMember) (service : String) : Option ComposeInfo :=
  (members.filterMap fun m => parse m.labels).reverse.find? fun info => info.service = service

theorem mem_of_lastListed {members : List ProjectMember} {service : String} {info : ComposeInfo}
    (h : lastListed members service = some info) :
    info ∈ members.filterMap (fun m => parse m.labels) ∧ info.service = service := by
  rw [lastListed] at h
  exact ⟨List.mem_reverse.mp (List.mem_of_find?_eq_some h), by simpa using List.find?_some h⟩

theorem service_ne_of_lastListed {members : List ProjectMember} {service : String}
    (h : lastListed members service = none) {info : ComposeInfo}
    (hinfo : info ∈ members.filterMap fun m => parse m.labels) : info.service ≠ service := by
  rw [lastListed] at h
  simpa using List.find?_eq_none.mp h info (List.mem_reverse.mpr hinfo)

theorem lastListed_append (members : List ProjectMember) (member : ProjectMember)
    (service : String) :
    lastListed (members ++ [member]) service =
      (((parse member.labels).filter fun info => info.service = service).or
        (lastListed members service)) := by
  cases h : parse member.labels with
  | none => simp [lastListed, h]
  | some info =>
      by_cases hservice : info.service = service <;>
        simp [lastListed, h, hservice, Option.filter]

/-- **The graph records what the last listed member of each service says.** -/
theorem get?_graphOf (members : List ProjectMember) (service : String) :
    (graphOf members).get? service =
      (lastListed members service).map ComposeInfo.dependsOn := by
  induction members using List.reverseRecOn with
  | nil => simp [graphOf, lastListed]
  | append_singleton members member ih =>
      rw [graphOf_append, addMember, lastListed_append]
      cases parse member.labels with
      | none => simpa using ih
      | some info =>
          by_cases hservice : info.service = service
          · subst hservice
            simp [Option.filter]
          · rw [SortedMap.get?_insert_of_ne _ _ (Ne.symm hservice), ih]
            simp [Option.filter, hservice]

/-- Every declared edge counts: a service that a member awaits to complete is awaited in the
graph, and a member's service is restarted when one is updated that it has a `restart` edge
to. -/
structure EdgesCount (members : List ProjectMember) : Prop where
  awaited : ∀ m ∈ members, isOneoff m.labels = false → ∀ d ∈ declared m.labels,
    d.condition = .completedSuccessfully →
      d.service ∈ servicesAwaitedForCompletion (graphOf members)
  restarted : ∀ m ∈ members, ∀ info, parse m.labels = some info → ∀ d ∈ declared m.labels,
    d.restart = true → ∀ updated : List String, d.service ∈ updated → info.service ∉ updated →
      info.service ∈ restartDependents (graphOf members) updated

/-- The replicas that are listed last repeat what any member declares: every awaited service is
awaited by the last replica of some service, and every `restart` edge to another service stands
in the label of the last replica of its own service. -/
structure LastRepeats (members : List ProjectMember) : Prop where
  awaited : ∀ m ∈ members, isOneoff m.labels = false → ∀ d ∈ declared m.labels,
    d.condition = .completedSuccessfully →
      ∃ waiting last, lastListed members waiting = some last ∧
        ∃ d' ∈ last.dependsOn, d'.condition = .completedSuccessfully ∧ d'.service = d.service
  restarted : ∀ m ∈ members, ∀ info, parse m.labels = some info → ∀ d ∈ declared m.labels,
    d.restart = true → d.service ≠ info.service →
      ∃ last, lastListed members info.service = some last ∧
        ∃ d' ∈ last.dependsOn, d'.restart = true ∧ d'.service = d.service

theorem mem_awaited_iff {members : List ProjectMember} {service : String} :
    service ∈ servicesAwaitedForCompletion (graphOf members) ↔
      ∃ waiting last, lastListed members waiting = some last ∧
        ∃ d ∈ last.dependsOn, d.condition = .completedSuccessfully ∧ d.service = service := by
  rw [mem_servicesAwaitedForCompletion]
  simp only [get?_graphOf, Option.map_eq_some_iff]
  constructor
  · rintro ⟨waiting, deps, ⟨last, hlast, rfl⟩, found⟩
    exact ⟨waiting, last, hlast, found⟩
  · rintro ⟨waiting, last, hlast, found⟩
    exact ⟨waiting, last.dependsOn, ⟨last, hlast, rfl⟩, found⟩

/-- A `restart` edge is seen, whatever is updated with its end, exactly if the last replica of
the service has it. -/
theorem restarted_iff {members : List ProjectMember} {service dependency : String}
    (hne : dependency ≠ service) :
    (∀ updated : List String, dependency ∈ updated → service ∉ updated →
        service ∈ restartDependents (graphOf members) updated) ↔
      ∃ last, lastListed members service = some last ∧
        ∃ d ∈ last.dependsOn, d.restart = true ∧ d.service = dependency := by
  constructor
  · intro seen
    have halone := seen [dependency] (by simp) (by simpa using hne.symm)
    obtain ⟨-, deps, hdeps, d, hd, hrestart, hservice⟩ := mem_restartDependents.mp halone
    rw [get?_graphOf, Option.map_eq_some_iff] at hdeps
    obtain ⟨last, hlast, rfl⟩ := hdeps
    exact ⟨last, hlast, d, hd, hrestart, List.mem_singleton.mp hservice⟩
  · rintro ⟨last, hlast, d, hd, hrestart, rfl⟩ updated hupdated hnot
    refine mem_restartDependents.mpr ⟨hnot, last.dependsOn, ?_, d, hd, hrestart, hupdated⟩
    rw [get?_graphOf, hlast, Option.map_some]

/-- **Every declared edge counts exactly when the replicas listed last repeat the others'.** -/
theorem edgesCount_iff_lastRepeats (members : List ProjectMember) :
    EdgesCount members ↔ LastRepeats members := by
  constructor
  · intro counts
    refine ⟨fun m hm honeoff d hd hcond => ?_, fun m hm info hinfo d hd hrestart hne => ?_⟩
    · exact mem_awaited_iff.mp (counts.awaited m hm honeoff d hd hcond)
    · exact (restarted_iff hne).mp (counts.restarted m hm info hinfo d hd hrestart)
  · intro last
    refine ⟨fun m hm honeoff d hd hcond => ?_, fun m hm info hinfo d hd hrestart => ?_⟩
    · exact mem_awaited_iff.mpr (last.awaited m hm honeoff d hd hcond)
    · by_cases hne : d.service = info.service
      · intro updated hupdated hnot
        exact absurd (hne ▸ hupdated) hnot
      · exact (restarted_iff hne).mpr (last.restarted m hm info hinfo d hd hrestart hne)

/-- Replicas that agree lose no edge. -/
theorem lastRepeats_of_agree {members : List ProjectMember}
    (identified : ∀ m ∈ members, isOneoff m.labels = false → ∃ info, parse m.labels = some info)
    (agree : ∀ service, AgreeOn members service) : LastRepeats members := by
  have last {m : ProjectMember} {info : ComposeInfo} (hm : m ∈ members)
      (hinfo : parse m.labels = some info) :
      ∃ last, lastListed members info.service = some last ∧ last.dependsOn = declared m.labels := by
    have hget := get?_graphOf_of_agree hm hinfo (agree info.service)
    rw [get?_graphOf, Option.map_eq_some_iff] at hget
    rwa [← (dependsOn_of_parse hinfo).2]
  refine ⟨fun m hm honeoff d hd hcond => ?_, fun m hm info hinfo d hd hrestart _ => ?_⟩
  · obtain ⟨info, hinfo⟩ := identified m hm honeoff
    obtain ⟨l, hl, heq⟩ := last hm hinfo
    exact ⟨info.service, l, hl, d, heq ▸ hd, hcond, rfl⟩
  · obtain ⟨l, hl, heq⟩ := last hm hinfo
    exact ⟨l, hl, d, heq ▸ hd, hrestart, rfl⟩

/-- A replica of `web`, with the value of its `depends_on` label. -/
def replica (name dependsOn : String) : ProjectMember where
  name := name
  id := name
  imageRef := "app"
  imageId := none
  labels := .ofPairs [(labelProject, "shop"), (labelService, "web"), (labelDependsOn, dependsOn)]
  running := true

/-- The second replica was created from a Compose file without the edge, and the listing ends
with it: the migration is no longer awaited. -/
theorem edge_erased_by_replica :
    ¬ EdgesCount [replica "web-1" "migrate:service_completed_successfully:true",
      replica "web-2" ""] := by
  intro counts
  have hlost := counts.awaited (replica "web-1" "migrate:service_completed_successfully:true")
    (by simp) (by decide) ⟨"migrate", .completedSuccessfully, true⟩ (by decide) rfl
  revert hlost
  decide

end Freshdock.Compose
