import Freshdock.Compose
import Freshdock.Foundation.FirstByKey
import Freshdock.Foundation.Splitting

/-!
# The `depends_on` label

Compose renders the dependencies of a service as `service:condition:restart` entries, joined by
commas in no fixed order. Reading an entry back gives the dependency (`parseEntry_renderEntry`),
and reading the label gives all of them by service name. Each entry is read on its own: what one
entry says makes no difference to the dependencies on other services (`find?_parseDependsOn`).
-/

set_option autoImplicit false

namespace Freshdock.Compose

open Text

/-! ## Rendering -/

/-- Compose's name for a condition. -/
def Condition.token : Condition → String
  | .started => "service_started"
  | .healthy => "service_healthy"
  | .completedSuccessfully => "service_completed_successfully"

/-- One entry of the label. -/
def renderEntry (d : Dependency) : String :=
  ":".intercalate [d.service, d.condition.token, if d.restart then "true" else "false"]

def renderDependsOn (dependencies : List Dependency) : String :=
  ",".intercalate (dependencies.map renderEntry)

/-- A name that an entry can begin with. -/
structure IsServiceName (service : String) : Prop where
  nonempty : service ≠ ""
  noComma : ',' ∉ service.toList
  noColon : ':' ∉ service.toList
  trimmed : trim service = service

/-- The dependencies that a map from service names says. -/
def dependenciesOf (m : SortedMap String (Condition × Bool)) : List Dependency :=
  m.entries.map fun entry => ⟨entry.1, entry.2.1, entry.2.2⟩

/-! ## One entry -/

theorem Condition.parse_token (condition : Condition) :
    Condition.parse condition.token = condition := by
  cases condition <;> decide

/-- **An entry is read as the dependency it was rendered from.** -/
theorem parseEntry_renderEntry {d : Dependency} (named : IsServiceName d.service) :
    parseEntry (renderEntry d) = some d := by
  have hfields : split (renderEntry d) ':' =
      [d.service, d.condition.token, if d.restart then "true" else "false"] := by
    refine split_eq_iff.mpr ⟨List.cons_ne_nil _ _, ?_, rfl⟩
    have htoken : ':' ∉ d.condition.token.toList := by cases d.condition <;> decide
    have hflag : ':' ∉ (if d.restart then "true" else "false").toList := by
      cases d.restart <;> decide
    simp [named.noColon, htoken, hflag]
  have hflag : eqIgnoreAsciiCase (trim (if d.restart then "true" else "false")) "true" =
      d.restart := by
    cases d.restart <;> decide
  rw [parseEntry, hfields]
  simp only [List.headD_cons, named.trimmed, if_neg named.nonempty]
  simp [Condition.parse_token, hflag]

theorem filterMap_renderEntry {dependencies : List Dependency}
    (named : ∀ d ∈ dependencies, IsServiceName d.service) :
    (dependencies.map renderEntry).filterMap parseEntry = dependencies := by
  induction dependencies with
  | nil => rfl
  | cons d rest ih =>
      obtain ⟨hd, hrest⟩ := List.forall_mem_cons.mp named
      rw [List.map_cons, List.filterMap_cons_some (parseEntry_renderEntry hd), ih hrest]

theorem not_mem_renderEntry {d : Dependency} (named : IsServiceName d.service) :
    ',' ∉ (renderEntry d).toList := by
  intro hmem
  rcases mem_of_mem_intercalate hmem with hcolon | ⟨field, hfield, hcomma⟩
  · exact absurd hcolon (by decide)
  · have htoken : ',' ∉ d.condition.token.toList := by cases d.condition <;> decide
    have hflag : ',' ∉ (if d.restart then "true" else "false").toList := by
      cases d.restart <;> decide
    rcases List.mem_cons.mp hfield with rfl | hfield
    · exact named.noComma hcomma
    rcases List.mem_cons.mp hfield with rfl | hfield
    · exact htoken hcomma
    · obtain rfl := List.mem_singleton.mp hfield
      exact hflag hcomma

/-- The service that an entry names, whatever follows it. -/
def serviceOf (entry : String) : String := trim ((split entry ':').headD "")

theorem service_of_parseEntry {entry : String} {d : Dependency} (h : parseEntry entry = some d) :
    d.service = serviceOf entry := by
  unfold parseEntry at h
  dsimp only at h
  split_ifs at h with hempty
  rw [← Option.some.inj h]
  rfl

/-! ## The label -/

theorem parseDependsOn_eq (raw : String) : parseDependsOn raw =
    SortedMap.firstByKey Dependency.service ((split raw ',').filterMap parseEntry) := rfl

/-- **The dependency on a service is what the first entry for it says.** -/
theorem find?_parseDependsOn (raw service : String) :
    (parseDependsOn raw).find? (fun d => d.service = service) =
      ((split raw ',').filterMap parseEntry).find? fun d => d.service = service :=
  SortedMap.find?_firstByKey _ _

theorem split_intercalate_comma {entries : List String} (nonempty : entries ≠ [])
    (noComma : ∀ entry ∈ entries, ',' ∉ entry.toList) :
    split (",".intercalate entries) ',' = entries :=
  split_eq_iff.mpr ⟨nonempty, noComma, rfl⟩

/-- An entry for another service makes no difference. -/
theorem find?_parseDependsOn_replace {front rest : List String} {entry entry' : String}
    (noComma : ∀ e ∈ entry :: entry' :: (front ++ rest), ',' ∉ e.toList) {service : String}
    (other : service ≠ serviceOf entry) (other' : service ≠ serviceOf entry') :
    (parseDependsOn (",".intercalate (front ++ entry :: rest))).find?
        (fun d => d.service = service) =
      (parseDependsOn (",".intercalate (front ++ entry' :: rest))).find?
        fun d => d.service = service := by
  have hskip {e : String} (hother : service ≠ serviceOf e) (l : List String) :
      ((e :: l).filterMap parseEntry).find? (fun d => d.service = service) =
        (l.filterMap parseEntry).find? fun d => d.service = service := by
    cases hparse : parseEntry e with
    | none => rw [List.filterMap_cons_none hparse]
    | some d =>
        have hne : d.service ≠ service := by
          rw [service_of_parseEntry hparse]
          exact hother.symm
        rw [List.filterMap_cons_some hparse, List.find?_cons_of_neg (by simpa using hne)]
  have hpieces {e : String} (he : e ∈ entry :: entry' :: (front ++ rest)) :
      split (",".intercalate (front ++ e :: rest)) ',' = front ++ e :: rest := by
    refine split_intercalate_comma (by simp) fun x hx => ?_
    rcases List.mem_append.mp hx with hx | hx
    · exact noComma x (by simp [hx])
    · rcases List.mem_cons.mp hx with rfl | hx
      · exact noComma x he
      · exact noComma x (by simp [hx])
  rw [find?_parseDependsOn, find?_parseDependsOn, hpieces (by simp), hpieces (by simp)]
  simp only [List.filterMap_append, List.find?_append, hskip other, hskip other']

/-- **A label is read as the dependencies it was rendered from, by service name.** -/
theorem parseDependsOn_render {m : SortedMap String (Condition × Bool)}
    (named : ∀ service ∈ m.keys, IsServiceName service) {dependencies : List Dependency}
    (perm : dependencies.Perm (dependenciesOf m)) :
    parseDependsOn (renderDependsOn dependencies) = dependenciesOf m := by
  have hnamed : ∀ d ∈ dependencies, IsServiceName d.service := by
    intro d hd
    obtain ⟨entry, hentry, rfl⟩ := List.mem_map.mp (perm.mem_iff.mp hd)
    exact named _ (List.mem_map_of_mem hentry)
  have hread : (split (renderDependsOn dependencies) ',').filterMap parseEntry = dependencies := by
    cases hlist : dependencies with
    | nil => decide
    | cons first rest =>
        rw [← hlist, renderDependsOn, split_intercalate_comma (by simp [hlist])]
        · exact filterMap_renderEntry hnamed
        · intro entry hentry
          obtain ⟨d, hd, rfl⟩ := List.mem_map.mp hentry
          exact not_mem_renderEntry (hnamed d hd)
  rw [parseDependsOn_eq, hread]
  refine SortedMap.firstByKey_of_perm perm (List.pairwise_map.mpr ?_)
  exact List.pairwise_map.mp m.sorted

/-- **Reading the label inverts Compose's rendering**: in whatever order the dependencies were
rendered, they are all read back, sorted by service name. Every label is read as at most one
dependency for each service, in that order; and whatever is written in the place of one entry,
the dependencies on the services that it does not name stay the same. -/
theorem parseDependsOn_inverts :
    (∀ m : SortedMap String (Condition × Bool), (∀ service ∈ m.keys, IsServiceName service) →
      ∀ dependencies : List Dependency, dependencies.Perm (dependenciesOf m) →
        parseDependsOn (renderDependsOn dependencies) = dependenciesOf m) ∧
    (∀ raw, (parseDependsOn raw).Pairwise fun a b => a.service < b.service) ∧
    ∀ (front rest : List String) (entry entry' : String),
      (∀ e ∈ entry :: entry' :: (front ++ rest), ',' ∉ e.toList) →
      ∀ service, service ≠ serviceOf entry → service ≠ serviceOf entry' →
        (parseDependsOn (",".intercalate (front ++ entry :: rest))).find?
            (fun d => d.service = service) =
          (parseDependsOn (",".intercalate (front ++ entry' :: rest))).find?
            fun d => d.service = service :=
  ⟨fun _ named _ perm => parseDependsOn_render named perm,
    fun _ => SortedMap.pairwise_firstByKey _ _,
    fun _ _ _ _ noComma _ other other' => find?_parseDependsOn_replace noComma other other'⟩

/-- The label of a service with two dependencies, rendered with the later name first, and the same
label with an entry whose condition is not one of Compose's and whose flag is missing. -/
theorem parseDependsOn_inverts_swapped :
    parseDependsOn "web:service_healthy:true,db:service_started:false" =
        [⟨"db", .started, false⟩, ⟨"web", .healthy, true⟩] ∧
      (parseDependsOn "web:service_healthy:true,db:service_polished").find?
          (fun d => d.service = "web") =
        (parseDependsOn "web:service_healthy:true,db:service_started:false").find?
          fun d => d.service = "web" := by
  have hdb : IsServiceName "db" := ⟨by decide, by decide, by decide, by decide⟩
  have hweb : IsServiceName "web" := ⟨by decide, by decide, by decide, by decide⟩
  refine ⟨?_, ?_⟩
  · exact parseDependsOn_inverts.1
      ⟨[("db", .started, false), ("web", .healthy, true)], by decide⟩
      (List.forall_mem_cons.mpr ⟨hdb, List.forall_mem_singleton.mpr hweb⟩)
      [⟨"web", .healthy, true⟩, ⟨"db", .started, false⟩] (List.Perm.swap _ _ _)
  · exact parseDependsOn_inverts.2.2 ["web:service_healthy:true"] [] "db:service_polished"
      "db:service_started:false" (by decide) "web" (by decide) (by decide)

end Freshdock.Compose
