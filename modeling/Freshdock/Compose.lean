import Freshdock.Foundation.Kahn
import Freshdock.Foundation.SortedMap
import Freshdock.Labels
import Mathlib.Data.List.Destutter

/-!
# Compose projects

Compose writes a project's dependency graph into the labels of its containers. `parse` reads
one container's place in its project, `graphOf` collects the graph of all members, and
`topologicalOrder` orders services so that a service comes after its dependencies.
-/

set_option autoImplicit false

namespace Freshdock.Compose

open Text

def labelProject : String := "com.docker.compose.project"
def labelService : String := "com.docker.compose.service"
def labelDependsOn : String := "com.docker.compose.depends_on"
def labelOneoff : String := "com.docker.compose.oneoff"

/-- What a dependency has to reach before its dependent may start. -/
inductive Condition where
  | started
  | healthy
  | completedSuccessfully
  deriving DecidableEq, Repr

/-- An unknown token is the weakest condition. -/
def Condition.parse (raw : String) : Condition :=
  if trim raw = "service_healthy" then .healthy
  else if trim raw = "service_completed_successfully" then .completedSuccessfully
  else .started

/-- One edge of the project graph. -/
structure Dependency where
  service : String
  condition : Condition
  restart : Bool
  deriving DecidableEq, Repr

/-- A container's place in its project. -/
structure ComposeInfo where
  project : String
  service : String
  dependsOn : List Dependency
  deriving DecidableEq, Repr

/-- One container of a project, as the rollout planner needs it. -/
structure ProjectMember where
  name : String
  id : String
  imageRef : String
  imageId : Option String
  labels : LabelMap
  running : Bool

def nonEmpty (value : Option String) : Option String :=
  value.bind fun v => if trim v = "" then none else some (trim v)

/-- One `service:condition:restart` entry, `none` when it names no service. -/
def parseEntry (entry : String) : Option Dependency :=
  let fields := split entry ':'
  let service := trim (fields.headD "")
  if service = "" then none
  else
    some {
      service
      condition := (fields[1]?.map Condition.parse).getD .started
      restart := (fields[2]?.map fun v => eqIgnoreAsciiCase (trim v) "true").getD false }

/-- The entries of a `depends_on` label by service name, the first entry of a service only. -/
def parseDependsOn (raw : String) : List Dependency :=
  let deps := (split raw ',').filterMap parseEntry
  (deps.insertionSort fun a b => a.service ≤ b.service).destutter fun a b => a.service ≠ b.service

def isOneoff (labels : LabelMap) : Bool :=
  (labels labelOneoff).any fun v => eqIgnoreAsciiCase (trim v) "true"

/-- A container's compose identity, `none` when it is not a member to roll out. -/
def parse (labels : LabelMap) : Option ComposeInfo :=
  if isOneoff labels then none
  else do
    let project ← nonEmpty (labels labelProject)
    let service ← nonEmpty (labels labelService)
    return { project, service, dependsOn := parseDependsOn ((labels labelDependsOn).getD "") }

/-- Every service of the project with its direct dependencies. -/
abbrev Graph : Type := SortedMap String (List Dependency)

def addMember (graph : Graph) (member : ProjectMember) : Graph :=
  match parse member.labels with
  | none => graph
  | some info => graph.insert info.service info.dependsOn

/-- The graph of all members. A later member of a service replaces the edges of an earlier
one. -/
def graphOf (members : List ProjectMember) : Graph := members.foldl addMember .empty

/-- The services some other service waits on to complete: the project's one-shots. -/
def servicesAwaitedForCompletion (graph : Graph) : List String :=
  (graph.values.flatten.filter fun d => d.condition = .completedSuccessfully).map
    Dependency.service

/-- The services a service depends on, whatever the condition. -/
def dependencies (graph : Graph) (service : String) : List String :=
  ((graph.get? service).getD []).map Dependency.service

/-- Order `nodes` so that a service comes after its dependencies: Kahn's algorithm on the
subgraph of `nodes`. -/
def topologicalOrder (nodes : List String) (graph : Graph) : List String :=
  Kahn.order (dependencies graph) nodes

/-- The services that asked to be restarted when one of `updated` is, and are not in it. -/
def restartDependents (graph : Graph) (updated : List String) : List String :=
  Kahn.ascending ((graph.entries.filter fun entry =>
    entry.1 ∉ updated ∧ ∃ d ∈ entry.2, d.restart = true ∧ d.service ∈ updated).map Prod.fst)

/-! ## What the graph records -/

theorem graphOf_append (members : List ProjectMember) (member : ProjectMember) :
    graphOf (members ++ [member]) = addMember (graphOf members) member := by
  simp [graphOf]

/-- Every recorded node comes from the label of a member of that service. -/
theorem exists_member_of_graphOf {members : List ProjectMember} {service : String}
    {deps : List Dependency} (h : (graphOf members).get? service = some deps) :
    ∃ m ∈ members, ∃ info, parse m.labels = some info ∧ info.service = service ∧
      info.dependsOn = deps := by
  induction members using List.reverseRecOn with
  | nil => simp [graphOf] at h
  | append_singleton members m ih =>
      have keep (h : (graphOf members).get? service = some deps) :
          ∃ m' ∈ members ++ [m], ∃ info, parse m'.labels = some info ∧ info.service = service ∧
            info.dependsOn = deps := by
        obtain ⟨m', hm', found⟩ := ih h
        exact ⟨m', List.mem_append_left _ hm', found⟩
      rw [graphOf_append, addMember] at h
      split at h
      · exact keep h
      · next info hinfo =>
          by_cases hservice : service = info.service
          · subst hservice
            rw [SortedMap.get?_insert_self] at h
            exact ⟨m, by simp, info, hinfo, rfl, Option.some.inj h⟩
          · rw [SortedMap.get?_insert_of_ne _ _ hservice] at h
            exact keep h

/-- The members of one service state the same edges. -/
def AgreeOn (members : List ProjectMember) (service : String) : Prop :=
  ∀ m ∈ members, ∀ m' ∈ members, ∀ info info', parse m.labels = some info →
    parse m'.labels = some info' → info.service = service → info'.service = service →
      info.dependsOn = info'.dependsOn

theorem exists_node_of_member {members : List ProjectMember} {m : ProjectMember}
    {info : ComposeInfo} (hm : m ∈ members) (hinfo : parse m.labels = some info) :
    ∃ deps, (graphOf members).get? info.service = some deps := by
  induction members using List.reverseRecOn with
  | nil => cases hm
  | append_singleton members m' ih =>
      rw [graphOf_append, addMember]
      rcases List.mem_append.mp hm with hm | hm
      · obtain ⟨deps, hdeps⟩ := ih hm
        split
        · exact ⟨deps, hdeps⟩
        · next info' hinfo' =>
            by_cases hservice : info.service = info'.service
            · rw [hservice, SortedMap.get?_insert_self]
              exact ⟨_, rfl⟩
            · rw [SortedMap.get?_insert_of_ne _ _ hservice]
              exact ⟨deps, hdeps⟩
      · obtain rfl := List.mem_singleton.mp hm
        rw [hinfo]
        exact ⟨_, SortedMap.get?_insert_self ..⟩

/-- **Where the members of a service agree, the graph records what each of them says.** -/
theorem get?_graphOf_of_agree {members : List ProjectMember} {m : ProjectMember}
    {info : ComposeInfo} (hm : m ∈ members) (hinfo : parse m.labels = some info)
    (agree : AgreeOn members info.service) :
    (graphOf members).get? info.service = some info.dependsOn := by
  obtain ⟨deps, hdeps⟩ := exists_node_of_member hm hinfo
  obtain ⟨m', hm', info', hinfo', hservice, rfl⟩ := exists_member_of_graphOf hdeps
  rw [hdeps, agree m' hm' m hm info' info hinfo' hinfo hservice rfl]

theorem mem_servicesAwaitedForCompletion {graph : Graph} {service : String} :
    service ∈ servicesAwaitedForCompletion graph ↔
      ∃ waiting deps, graph.get? waiting = some deps ∧
        ∃ d ∈ deps, d.condition = .completedSuccessfully ∧ d.service = service := by
  simp only [servicesAwaitedForCompletion, List.mem_map, List.mem_filter, List.mem_flatten,
    SortedMap.values, Prod.exists, decide_eq_true_eq]
  constructor
  · rintro ⟨d, ⟨⟨deps, ⟨waiting, deps', hentry, rfl⟩, hd⟩, hcond⟩, rfl⟩
    exact ⟨waiting, deps', SortedMap.mem_entries_iff.mp hentry, d, hd, hcond, rfl⟩
  · rintro ⟨waiting, deps, hget, d, hd, hcond, rfl⟩
    exact ⟨d, ⟨⟨deps, ⟨waiting, deps, SortedMap.mem_entries_iff.mpr hget, rfl⟩, hd⟩, hcond⟩, rfl⟩

/-- The service has an edge to `dependency`. -/
def DependsOn (graph : Graph) (service dependency : String) : Prop :=
  dependency ∈ dependencies graph service

/-- No cycle can be reached from the service along its edges. Compose refuses projects that
have one. -/
def Acyclic (graph : Graph) (service : String) : Prop :=
  ∀ reached, Relation.ReflTransGen (DependsOn graph) service reached →
    ¬ Relation.TransGen (DependsOn graph) reached reached

/-- A service without edges reaches no cycle. -/
theorem acyclic_of_dependencies_nil {graph : Graph} {service : String}
    (h : dependencies graph service = []) : Acyclic graph service := by
  have still (next : String) : ¬ DependsOn graph service next := by
    rw [DependsOn, h]
    exact List.not_mem_nil
  intro reached hreached hcycle
  rcases hreached.cases_head with rfl | ⟨next, hnext, -⟩
  · rcases Relation.TransGen.head'_iff.mp hcycle with ⟨next, hnext, -⟩
    exact still next hnext
  · exact still next hnext

/-- A graph whose edges all lead down has no cycle. -/
theorem acyclic_of_rank {graph : Graph} (rank : String → Nat)
    (down : ∀ entry ∈ graph.entries, ∀ d ∈ entry.2, rank d.service < rank entry.1) :
    ∀ service, Acyclic graph service := by
  have edge {service next : String} (h : DependsOn graph service next) :
      rank next < rank service := by
    rw [DependsOn, dependencies] at h
    cases hget : graph.get? service with
    | none => simp [hget] at h
    | some deps =>
        simp only [hget, Option.getD_some, List.mem_map] at h
        obtain ⟨d, hd, rfl⟩ := h
        exact down (service, deps) (SortedMap.mem_entries_iff.mpr hget) d hd
  have path {service next : String} (h : Relation.TransGen (DependsOn graph) service next) :
      rank next < rank service := by
    induction h with
    | single h => exact edge h
    | tail _ h ih => exact (edge h).trans ih
  intro service reached _ hcycle
  exact lt_irrefl _ (path hcycle)

/-- The service waits for `migration` to complete, by the edges the graph records. -/
def Awaits (graph : Graph) (service migration : String) : Prop :=
  ∃ deps, graph.get? service = some deps ∧
    ∃ d ∈ deps, d.condition = .completedSuccessfully ∧ d.service = migration

theorem Awaits.dependsOn {graph : Graph} {service migration : String}
    (h : Awaits graph service migration) : DependsOn graph service migration := by
  obtain ⟨deps, hdeps, d, hd, -, rfl⟩ := h
  rw [DependsOn, dependencies, hdeps]
  exact List.mem_map_of_mem hd

theorem Awaits.mem {graph : Graph} {service migration : String}
    (h : Awaits graph service migration) : migration ∈ servicesAwaitedForCompletion graph :=
  mem_servicesAwaitedForCompletion.mpr ⟨service, h⟩

theorem mem_restartDependents {graph : Graph} {updated : List String} {service : String} :
    service ∈ restartDependents graph updated ↔
      service ∉ updated ∧ ∃ deps, graph.get? service = some deps ∧
        ∃ d ∈ deps, d.restart = true ∧ d.service ∈ updated := by
  simp only [restartDependents, Kahn.mem_ascending, List.mem_map, List.mem_filter, Prod.exists,
    decide_eq_true_eq, exists_and_right, exists_eq_right]
  constructor
  · rintro ⟨deps, hentry, hnot, hd⟩
    exact ⟨hnot, deps, SortedMap.mem_entries_iff.mp hentry, hd⟩
  · rintro ⟨hnot, deps, hget, hd⟩
    exact ⟨deps, SortedMap.mem_entries_iff.mpr hget, hnot, hd⟩

end Freshdock.Compose
