import Freshdock.Rollout.Permitted

/-!
# The two label gates

`parsePolicy` decides what is enabled, `explicitlyOptsOut` what is left alone by a plan, by the
restarts at its end and by the repair of a shared network namespace. They read the same labels
with different rules: the policy lets `freshdock.enable` override Watchtower's spelling, the
opt-out counts either spelling on its own. So an enabled container is opted out exactly where
Watchtower's label says false.
-/

set_option autoImplicit false

namespace Freshdock.Rollout

open Docker SelfId
open Compose (ProjectMember)
open Labels (Policy PolicyDefaults)

/-- Watchtower's enable label says false. -/
def WatchtowerSaysNo (labels : LabelMap) : Prop :=
  ∃ v, labels Labels.wtEnable = some v ∧ Labels.normalized v = "false"

instance (labels : LabelMap) : Decidable (WatchtowerSaysNo labels) :=
  match h : labels Labels.wtEnable with
  | none => .isFalse fun ⟨v, hv, _⟩ => by simp [h] at hv
  | some v =>
      if hn : Labels.normalized v = "false" then .isTrue ⟨v, h, hn⟩
      else .isFalse fun ⟨v', hv', hn'⟩ => by
        rw [h] at hv'
        cases hv'
        exact hn hn'

/-- **An enabled container is opted out exactly where Watchtower's label says false.** -/
theorem explicitlyOptsOut_iff {labels : LabelMap} {defaults : PolicyDefaults} {p : Policy}
    (h : Labels.parsePolicy labels defaults = .ok p) (henabled : p.enabled = true)
    (hmode : p.mode ≠ .off) :
    Labels.explicitlyOptsOut labels = true ↔ WatchtowerSaysNo labels := by
  have hyes := Labels.not_saysNo_of_enabled h henabled hmode
  constructor
  · intro hout
    simp only [Labels.explicitlyOptsOut, Bool.or_eq_true, beq_iff_eq] at hout
    have stated {key word : String} (hword : word ≠ "")
        (hkey : ((labels key).map Labels.normalized).getD "" = word) :
        ∃ v, labels key = some v ∧ Labels.normalized v = word := by
      cases hlabel : labels key with
      | none => exact absurd (by simpa [hlabel] using hkey.symm) hword
      | some v => exact ⟨v, rfl, by simpa [hlabel] using hkey⟩
    rcases hout with (henable | hwatchtower) | hoff
    · exact absurd (.inl (stated (by decide) henable)) hyes
    · exact stated (by decide) hwatchtower
    · exact absurd (.inr (.inl (stated (by decide) hoff))) hyes
  · rintro ⟨v, hv, hn⟩
    simp [Labels.explicitlyOptsOut, hv, hn]

/-! ## What a plan skips -/

section Plan

variable {project trigger : String} {members : List ProjectMember} {tag : Option String}
  {defaults : PolicyDefaults} {own : Option String}

theorem mem_skipped_plan {s : SkippedMember} :
    s ∈ (plan project members trigger tag defaults own).skipped ↔
      ∃ origin, originOf members trigger = some origin ∧ ∃ m ∈ liveMembers members,
        skipOf (planInput (liveMembers members) origin tag defaults own) m = some s := by
  cases horigin : originOf members trigger with
  | none => simp [plan_eq_empty horigin, assemble, PlanState.empty]
  | some origin =>
      rw [plan_eq_assemble horigin]
      simp [assemble, List.mem_insertionSort, skipped_foldl, PlanState.empty]

theorem explicitlyOptsOut_of_admission {input : PlanInput} {oneShot : Bool} {m : ProjectMember}
    (h : input.admission oneShot m = .error .optedOut) :
    Labels.explicitlyOptsOut m.labels = true := by
  unfold PlanInput.admission at h
  split_ifs at h with hself hout
  · cases h
  · exact hout
  · split at h
    · cases h
    · unfold PlanInput.admitPolicy at h
      split_ifs at h <;> cases h

/-- What is skipped as opted out is. -/
theorem skipOf_optedOut {input : PlanInput} {m : ProjectMember} {s : SkippedMember}
    (h : skipOf input m = some s) (hreason : s.reason = .optedOut) :
    s.container = m.name ∧ Labels.explicitlyOptsOut m.labels = true := by
  unfold skipOf at h
  split at h
  · cases h
  · split_ifs at h
    split at h
    · next reason hadmission =>
        cases h
        cases hreason
        exact ⟨rfl, explicitlyOptsOut_of_admission hadmission⟩
    · cases h

end Plan

/-! ## The gates together -/

/-- The gate is open for these labels, and nowhere is a container that has them treated as
opted out: no plan of a listing with unique names skips it for that reason, the restarts of a
plan leave no running member out for it, and neither does the repair of a shared network
namespace. -/
structure NowhereOptedOut (labels : LabelMap) (defaults : PolicyDefaults) (p : Policy) :
    Prop where
  gate : Labels.explicitlyOptsOut labels = false
  planned : ∀ (project trigger : String) (members : List ProjectMember) (tag own : Option String),
    (members.map ProjectMember.name).Nodup → ∀ m ∈ members, m.labels = labels →
      ⟨m.name, .optedOut⟩ ∉ (plan project members trigger tag defaults own).skipped
  restarted : ∀ (project trigger : String) (members : List ProjectMember)
    (tag own : Option String), (originOf members trigger).isSome →
    ∀ m ∈ liveMembers members, m.labels = labels →
      m.running = true → isOwnContainer own (some m.id) = false → p.mode ≠ .watch →
        ∀ info, Compose.parse m.labels = some info → ∀ updated,
          info.service ∈
              Compose.restartDependents (Compose.graphOf (liveMembers members)) updated →
            m.name ∈ (plan project members trigger tag defaults own).restartsFor updated
  repaired : ∀ (running : List ContainerSummary) (owner fullId : String) (self : Option String),
    ∀ row ∈ running, row.labels = some labels → ∀ mode, row.networkMode = some mode →
      networkModeReferences mode owner fullId = true → containerName row ≠ owner →
        isOwnContainer self row.id = false →
          containerName row ∈ networkDependentNames running owner fullId self

theorem nowhereOptedOut_of_gate {labels : LabelMap} {defaults : PolicyDefaults} {p : Policy}
    (h : Labels.parsePolicy labels defaults = .ok p)
    (gate : Labels.explicitlyOptsOut labels = false) : NowhereOptedOut labels defaults p where
  gate := gate
  planned project trigger members tag own nodup m hm hlabels hskipped := by
    obtain ⟨origin, -, m', hm', hskip⟩ := mem_skipped_plan.mp hskipped
    obtain ⟨hname, hout⟩ := skipOf_optedOut hskip rfl
    obtain rfl : m = m' := List.inj_on_of_nodup_map nodup hm (mem_of_live hm') hname
    simp [hlabels, gate] at hout
  restarted project trigger members tag own horigin m hm hlabels hrunning hself hmode info hinfo
      updated hupdated := by
    obtain ⟨origin, horigin⟩ := Option.isSome_iff_exists.mp horigin
    refine mem_restartsFor_plan.mpr ⟨origin, horigin, m, hm, info.service, hupdated, ?_⟩
    refine candidateOf_eq_some.mpr ⟨info, hinfo, ?_, rfl, rfl⟩
    simp only [PlanInput.restartable, PlanInput.isSelf, planInput, hrunning, hself, hlabels, gate,
      h]
    simpa using hmode
  repaired running owner fullId self row hrow hlabels mode hnetwork href hname hself := by
    refine List.mem_filterMap.mpr ⟨row, hrow, ?_⟩
    simp [networkDependent, hnetwork, href, hname, hself, Docker.explicitlyOptsOut, hlabels, gate]

/-- **The gates agree on an enabled container exactly where Watchtower's label does not say
false.** -/
theorem nowhereOptedOut_iff {labels : LabelMap} {defaults : PolicyDefaults} {p : Policy}
    (h : Labels.parsePolicy labels defaults = .ok p) (henabled : p.enabled = true)
    (hmode : p.mode ≠ .off) :
    NowhereOptedOut labels defaults p ↔ ¬ WatchtowerSaysNo labels := by
  rw [← explicitlyOptsOut_iff h henabled hmode, Bool.not_eq_true]
  exact ⟨fun nowhere => nowhere.gate, fun gate => nowhereOptedOut_of_gate h gate⟩

/-- A container that is migrated from Watchtower label by label. -/
def migratedLabels (watchtower : String) : LabelMap :=
  .ofPairs [(Labels.enableKey, "true"), (Labels.modeKey, "live"), (Labels.wtEnable, watchtower)]

def migratedPolicy : Policy where
  enabled := true
  mode := .live
  notify := false
  schedule := none
  cleanup := false
  hooks := .default
  autoEnabled := false

/-- Enabled by `freshdock.enable`, and opted out by the label it overrides. -/
theorem enabled_and_optedOut :
    Labels.parsePolicy (migratedLabels "false") ⟨none, false, false⟩ = .ok migratedPolicy ∧
      migratedPolicy.enabled = true ∧ migratedPolicy.mode ≠ .off ∧
      ¬ NowhereOptedOut (migratedLabels "false") ⟨none, false, false⟩ migratedPolicy := by
  refine ⟨by decide, rfl, by decide, fun nowhere => ?_⟩
  have hout : Labels.explicitlyOptsOut (migratedLabels "false") = true := by decide
  simp [nowhere.gate] at hout

theorem nowhereOptedOut_migrated :
    NowhereOptedOut (migratedLabels " True") ⟨none, false, false⟩ migratedPolicy :=
  (nowhereOptedOut_iff (by decide) rfl (by decide)).mpr (by decide)

end Freshdock.Rollout
