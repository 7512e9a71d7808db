import Freshdock.Labels
import Mathlib.Logic.Function.Basic

/-!
# Overridden labels

A Watchtower label whose freshdock counterpart is present is not read, with one exception:
`monitor-only` of an enabled container is checked even when `freshdock.mode` decides. So another
value of an overridden label gives the same policy, except where it makes the difference between
a valid and an invalid `monitor-only` (`parsePolicy_overridden_iff`).
-/

set_option autoImplicit false

namespace Freshdock.Labels

open Text

/-- Watchtower's labels, each with the freshdock label that wins over it. -/
def counterparts : List (String × String) :=
  [(wtEnable, enableKey), (wtMonitorOnly, modeKey),
    (wtPreUpdate, "freshdock.lifecycle.pre-update"),
    (wtPreUpdateTimeout, "freshdock.lifecycle.pre-update-timeout"),
    (wtPostUpdate, "freshdock.lifecycle.post-update"),
    (wtPostUpdateTimeout, "freshdock.lifecycle.post-update-timeout")]

/-! ## What the labels say -/

/-- The labels, or the fleet-wide default, enable the container. -/
def Enabled (labels : LabelMap) (defaults : PolicyDefaults) : Prop :=
  match labels enableKey with
  | some v => normalized v = "true"
  | none =>
      match labels wtEnable with
      | some v => normalized v = "true"
      | none => defaults.watchAll = true

/-- A true/false label, perhaps absent. -/
def IsBool (value : Option String) : Prop :=
  ∀ v, value = some v → normalized v = "true" ∨ normalized v = "false"

/-- A timeout label, perhaps absent. -/
def IsTimeout (value : Option String) : Prop :=
  ∀ v, value = some v → (parseU64 (trim v)).isSome = true

def modeNames : List String := ["live", "nightly", "weekly", "monthly", "watch", "off"]

/-- The labels of an enabled container that are read besides `monitor-only` are valid. -/
structure Readable (labels : LabelMap) : Prop where
  mode : ∀ v, labels modeKey = some v → normalized v ∈ modeNames
  notify : IsBool (labels "freshdock.notify")
  cleanup : IsBool (labels "freshdock.cleanup")
  preTimeout : IsTimeout ((labels "freshdock.lifecycle.pre-update-timeout").or
    (labels wtPreUpdateTimeout))
  postTimeout : IsTimeout ((labels "freshdock.lifecycle.post-update-timeout").or
    (labels wtPostUpdateTimeout))

section Reading

variable {labels : LabelMap} {defaults : PolicyDefaults}

theorem parseBool_succeeds_iff {key value : String} :
    (∃ b, parseBool key value = .ok b) ↔
      normalized value = "true" ∨ normalized value = "false" := by
  unfold parseBool
  split
  · simp [*]
  · split <;> simp [*]

theorem boolLabel_succeeds_iff {key : String} {otherwise : Bool} :
    (∃ b, boolLabel labels key otherwise = .ok b) ↔ IsBool (labels key) := by
  unfold boolLabel IsBool
  cases hvalue : labels key with
  | none => simp
  | some v => exact parseBool_succeeds_iff.trans (by simp)

theorem parseMode_succeeds_iff {value : String} :
    (∃ mode, parseMode value = .ok mode) ↔ normalized value ∈ modeNames := by
  unfold parseMode modeNames
  split_ifs <;> simp [*]

theorem parseTimeout_succeeds_iff {key value : String} {unitSecs : Nat} :
    (∃ timeout, parseTimeout key value unitSecs = .ok timeout) ↔
      (parseU64 (trim value)).isSome = true := by
  unfold parseTimeout
  split <;> simp [*]

theorem parseHook_succeeds_iff {commandKey timeoutKey wtCommandKey wtTimeoutKey : String} :
    (∃ hook, parseHook labels commandKey timeoutKey wtCommandKey wtTimeoutKey = .ok hook) ↔
      IsTimeout ((labels timeoutKey).or (labels wtTimeoutKey)) := by
  have htimeout : (∃ timeout, hookTimeout labels timeoutKey wtTimeoutKey = .ok timeout) ↔
      IsTimeout ((labels timeoutKey).or (labels wtTimeoutKey)) := by
    unfold hookTimeout IsTimeout
    cases hown : labels timeoutKey with
    | some v => simp [parseTimeout_succeeds_iff]
    | none =>
        cases hwt : labels wtTimeoutKey with
        | some v => simp [parseTimeout_succeeds_iff]
        | none => simp
  refine (bind_succeeds_iff (Q := True) fun timeout => ?_).trans ?_
  · exact iff_of_true ⟨_, rfl⟩ trivial
  · rw [htimeout, and_true]

/-- An enabled container is one whose enable label is valid and says so. -/
theorem enabled_iff : Enabled labels defaults ↔
    ∃ explicit, explicitEnable labels = .ok explicit ∧ explicit.getD defaults.watchAll = true := by
  have hbool (key v : String) : normalized v = "true" ↔
      ∃ explicit, some <$> parseBool key v = .ok explicit ∧
        explicit.getD defaults.watchAll = true := by
    unfold parseBool
    split_ifs <;> simp [*]
  unfold Enabled explicitEnable
  cases labels enableKey with
  | some v => exact hbool _ v
  | none =>
      cases labels wtEnable with
      | some v => exact hbool _ v
      | none => simp [pure, Except.pure]

end Reading

/-! ## Reading the other labels -/

/-- The mode of an enabled container, once `monitor-only` is checked. -/
def modeOr (labels : LabelMap) (defaults : PolicyDefaults) (monitorOnly : Bool) :
    Except LabelError Mode :=
  match labels modeKey with
  | some v => parseMode v
  | none => if monitorOnly then pure .watch else pure (defaults.mode.getD .watch)

/-- The policy of an enabled container, once `monitor-only` is checked. -/
def enabledPolicy (labels : LabelMap) (defaults : PolicyDefaults) (autoEnabled monitorOnly : Bool) :
    Except LabelError Policy := do
  let mode ← modeOr labels defaults monitorOnly
  let notify ← boolLabel labels "freshdock.notify" false
  let cleanup ← boolLabel labels "freshdock.cleanup" defaults.cleanup
  let preUpdate ← parseHook labels "freshdock.lifecycle.pre-update"
    "freshdock.lifecycle.pre-update-timeout" wtPreUpdate wtPreUpdateTimeout
  let postUpdate ← parseHook labels "freshdock.lifecycle.post-update"
    "freshdock.lifecycle.post-update-timeout" wtPostUpdate wtPostUpdateTimeout
  return {
    enabled := true, mode, notify, schedule := labels "freshdock.schedule", cleanup
    hooks := ⟨preUpdate, postUpdate⟩, autoEnabled }

section Overridden

variable {labels : LabelMap} {defaults : PolicyDefaults}

theorem parsePolicy_of_enabled {explicit : Option Bool}
    (hexplicit : explicitEnable labels = .ok explicit)
    (henabled : explicit.getD defaults.watchAll = true) :
    parsePolicy labels defaults =
      boolLabel labels wtMonitorOnly false >>= enabledPolicy labels defaults explicit.isNone := by
  rw [parsePolicy, hexplicit]
  simp only [bind, Except.bind, henabled, resolveMode, enabledPolicy, modeOr, Bool.and_true]
  cases boolLabel labels wtMonitorOnly false <;> rfl

theorem parsePolicy_of_not_enabled (h : ¬ Enabled labels defaults) :
    parsePolicy labels defaults = (explicitEnable labels).map fun _ => disabledPolicy := by
  rw [enabled_iff] at h
  rw [parsePolicy]
  cases hexplicit : explicitEnable labels with
  | error e => rfl
  | ok explicit =>
      have henabled : explicit.getD defaults.watchAll = false := by
        rw [← Bool.not_eq_true]
        exact fun henabled => h ⟨explicit, hexplicit, henabled⟩
      simp only [bind, Except.bind, henabled, Except.map]
      rfl

theorem enabledPolicy_succeeds_iff {autoEnabled monitorOnly : Bool}
    (present : (labels modeKey).isSome = true) :
    (∃ p, enabledPolicy labels defaults autoEnabled monitorOnly = .ok p) ↔ Readable labels := by
  obtain ⟨v, hv⟩ := Option.isSome_iff_exists.mp present
  have hmode : (∃ mode, modeOr labels defaults monitorOnly = .ok mode) ↔
      ∀ v, labels modeKey = some v → normalized v ∈ modeNames := by
    rw [modeOr, hv]
    exact parseMode_succeeds_iff.trans (by simp)
  refine (bind_succeeds_iff fun _ => bind_succeeds_iff fun _ => bind_succeeds_iff fun _ =>
    bind_succeeds_iff fun _ => bind_succeeds_iff (Q := True) fun _ =>
      iff_of_true ⟨_, rfl⟩ trivial).trans ?_
  rw [hmode, boolLabel_succeeds_iff, boolLabel_succeeds_iff, parseHook_succeeds_iff,
    parseHook_succeeds_iff]
  exact ⟨fun ⟨mode, notify, cleanup, pre, post, _⟩ => ⟨mode, notify, cleanup, pre, post⟩,
    fun h => ⟨h.mode, h.notify, h.cleanup, h.preTimeout, h.postTimeout, trivial⟩⟩

/-! ## Another value of an overridden label -/

section Update

variable {key : String} {value : Option String}

theorem boolLabel_update {read : String} (other : read ≠ key) (otherwise : Bool) :
    boolLabel (Function.update labels key value) read otherwise =
      boolLabel labels read otherwise := by
  rw [boolLabel, boolLabel, Function.update_of_ne other]

/-- An overridden label that is read at all is not the one that changed. -/
theorem update_of_absent {own read : String}
    (overridden : read = key → (labels own).isSome = true) (absent : labels own = none) :
    Function.update labels key value read = labels read := by
  have hne : read ≠ key := by
    intro hkey
    have hpresent := overridden hkey
    rw [absent] at hpresent
    cases hpresent
  exact Function.update_of_ne hne _ _

/-- The enable labels are read without Watchtower's when freshdock's is present. -/
theorem explicitEnable_update (other : enableKey ≠ key)
    (overridden : wtEnable = key → (labels enableKey).isSome = true) :
    explicitEnable (Function.update labels key value) = explicitEnable labels := by
  rw [explicitEnable, explicitEnable, Function.update_of_ne other]
  cases hown : labels enableKey with
  | some v => rfl
  | none => simp only [update_of_absent overridden hown]

/-- A hook is read without Watchtower's labels when freshdock's are present. -/
theorem parseHook_update {commandKey timeoutKey wtCommandKey wtTimeoutKey : String}
    (hcommand : commandKey ≠ key) (htimeout : timeoutKey ≠ key)
    (overridden : wtCommandKey = key → (labels commandKey).isSome = true)
    (overridden' : wtTimeoutKey = key → (labels timeoutKey).isSome = true) :
    parseHook (Function.update labels key value) commandKey timeoutKey wtCommandKey wtTimeoutKey =
      parseHook labels commandKey timeoutKey wtCommandKey wtTimeoutKey := by
  have hread : hookTimeout (Function.update labels key value) timeoutKey wtTimeoutKey =
      hookTimeout labels timeoutKey wtTimeoutKey := by
    rw [hookTimeout, hookTimeout, Function.update_of_ne htimeout]
    cases hown : labels timeoutKey with
    | some v => rfl
    | none => simp only [update_of_absent overridden' hown]
  have hcommands : (Function.update labels key value commandKey).or
      (Function.update labels key value wtCommandKey) =
        (labels commandKey).or (labels wtCommandKey) := by
    rw [Function.update_of_ne hcommand]
    cases hown : labels commandKey with
    | some v => rfl
    | none => rw [update_of_absent overridden hown]
  rw [parseHook, parseHook, hread, hcommands]

/-- The freshdock labels of an enabled container. -/
def freshdockKeys : List String :=
  [modeKey, "freshdock.notify", "freshdock.schedule", "freshdock.cleanup",
    "freshdock.lifecycle.pre-update", "freshdock.lifecycle.pre-update-timeout",
    "freshdock.lifecycle.post-update", "freshdock.lifecycle.post-update-timeout"]

theorem enabledPolicy_update (other : key ∉ freshdockKeys)
    (overridden : ∀ own, (key, own) ∈ counterparts → (labels own).isSome = true)
    (autoEnabled monitorOnly : Bool) :
    enabledPolicy (Function.update labels key value) defaults autoEnabled monitorOnly =
      enabledPolicy labels defaults autoEnabled monitorOnly := by
  have hne {read : String} (hread : read ∈ freshdockKeys) : read ≠ key := by
    rintro rfl
    exact other hread
  have hmode : modeOr (Function.update labels key value) defaults monitorOnly =
      modeOr labels defaults monitorOnly := by
    rw [modeOr, modeOr, Function.update_of_ne (hne (by decide))]
  rw [enabledPolicy, hmode, boolLabel_update (hne (by decide)), boolLabel_update (hne (by decide)),
    parseHook_update (hne (by decide)) (hne (by decide)), parseHook_update (hne (by decide))
      (hne (by decide)), Function.update_of_ne (hne (by decide))]
  · rfl
  all_goals
    rintro rfl
    exact overridden _ (by decide)

end Update

/-- **Other overridden labels than `monitor-only` are not read.** -/
theorem parsePolicy_update {key own : String} (pair : (key, own) ∈ counterparts)
    (present : (labels own).isSome = true) (other : key ≠ wtMonitorOnly) (value : Option String) :
    parsePolicy (Function.update labels key value) defaults = parsePolicy labels defaults := by
  have hdistinct : ∀ entry ∈ counterparts, ∀ entry' ∈ counterparts, entry.1 = entry'.1 →
      entry.2 = entry'.2 := by decide
  have hkeys : ∀ entry ∈ counterparts, entry.1 ∉ freshdockKeys ∧ enableKey ≠ entry.1 := by decide
  have overridden (own' : String) (pair' : (key, own') ∈ counterparts) :
      (labels own').isSome = true := by
    obtain rfl : own = own' := hdistinct _ pair _ pair' rfl
    exact present
  have hexplicit := @explicitEnable_update labels key value (hkeys _ pair).2 (by
    rintro rfl
    exact overridden _ (by decide))
  have henabled := @enabledPolicy_update labels defaults key value (hkeys _ pair).1 overridden
  by_cases h : Enabled labels defaults
  · obtain ⟨explicit, hok, hget⟩ := enabled_iff.mp h
    rw [parsePolicy_of_enabled hok hget, parsePolicy_of_enabled (hexplicit.trans hok) hget,
      boolLabel_update other.symm]
    exact congrArg _ (funext fun monitorOnly => henabled _ monitorOnly)
  · have h' : ¬ Enabled (Function.update labels key value) defaults := by
      rwa [enabled_iff, hexplicit, ← enabled_iff]
    rw [parsePolicy_of_not_enabled h, parsePolicy_of_not_enabled h', hexplicit]

/-- `monitor-only` is checked, and is otherwise overridden by the mode label. -/
theorem parsePolicy_toOption_of_enabled (present : (labels modeKey).isSome = true)
    {explicit : Option Bool} (hexplicit : explicitEnable labels = .ok explicit)
    (henabled : explicit.getD defaults.watchAll = true) :
    (IsBool (labels wtMonitorOnly) → (parsePolicy labels defaults).toOption =
        (enabledPolicy labels defaults explicit.isNone false).toOption) ∧
      (¬ IsBool (labels wtMonitorOnly) → (parsePolicy labels defaults).toOption = none) := by
  obtain ⟨v, hv⟩ := Option.isSome_iff_exists.mp present
  have hsame (monitorOnly : Bool) : enabledPolicy labels defaults explicit.isNone monitorOnly =
      enabledPolicy labels defaults explicit.isNone false := by
    simp only [enabledPolicy, modeOr, hv]
  rw [parsePolicy_of_enabled hexplicit henabled]
  constructor
  · intro hbool
    obtain ⟨monitorOnly, hmonitor⟩ := boolLabel_succeeds_iff.mpr hbool
    rw [hmonitor]
    exact congrArg Except.toOption (hsame monitorOnly)
  · intro hbool
    rw [toOption_eq_none_iff]
    rintro ⟨p, hp⟩
    obtain ⟨monitorOnly, hmonitor, -⟩ := bind_ok hp
    exact hbool (boolLabel_succeeds_iff.mp ⟨monitorOnly, hmonitor⟩)

/-- Another value of an overridden `monitor-only`. -/
theorem parsePolicy_monitorOnly_iff (present : (labels modeKey).isSome = true)
    (value : Option String) :
    (parsePolicy (Function.update labels wtMonitorOnly value) defaults).toOption =
        (parsePolicy labels defaults).toOption ↔
      ¬ (Enabled labels defaults ∧ Readable labels ∧
        ¬ (IsBool value ↔ IsBool (labels wtMonitorOnly))) := by
  have hexplicit : explicitEnable (Function.update labels wtMonitorOnly value) =
      explicitEnable labels :=
    explicitEnable_update (by decide) fun h => absurd h (by decide)
  by_cases henabled : Enabled labels defaults
  · obtain ⟨explicit, hok, hget⟩ := enabled_iff.mp henabled
    have hpolicy (monitorOnly : Bool) : enabledPolicy (Function.update labels wtMonitorOnly value)
        defaults explicit.isNone monitorOnly =
          enabledPolicy labels defaults explicit.isNone monitorOnly := by
      refine enabledPolicy_update (by decide) (fun own pair => ?_) _ _
      have hown : own = modeKey := by
        have hpairs : ∀ entry ∈ counterparts, entry.1 = wtMonitorOnly → entry.2 = modeKey := by
          decide
        exact hpairs _ pair rfl
      exact hown ▸ present
    have hupdated : Function.update labels wtMonitorOnly value wtMonitorOnly = value :=
      Function.update_self _ _ _
    have present' : (Function.update labels wtMonitorOnly value modeKey).isSome = true := by
      rwa [Function.update_of_ne (by decide)]
    obtain ⟨hvalid, hinvalid⟩ := parsePolicy_toOption_of_enabled present hok hget
    obtain ⟨hvalid', hinvalid'⟩ := parsePolicy_toOption_of_enabled present'
      (hexplicit.trans hok) hget
    rw [hupdated, hpolicy] at hvalid'
    rw [hupdated] at hinvalid'
    have hreadable : (enabledPolicy labels defaults explicit.isNone false).toOption = none ↔
        ¬ Readable labels := by
      rw [toOption_eq_none_iff, enabledPolicy_succeeds_iff present]
    by_cases hnew : IsBool value <;> by_cases hold : IsBool (labels wtMonitorOnly)
    · simp [hvalid hold, hvalid' hnew, hnew, hold]
    · simp [hinvalid hold, hvalid' hnew, hnew, hold, henabled, hreadable]
    · rw [hvalid hold, hinvalid' hnew, eq_comm, hreadable]
      simp [hnew, hold, henabled]
    · simp [hinvalid hold, hinvalid' hnew, hnew, hold]
  · have henabled' : ¬ Enabled (Function.update labels wtMonitorOnly value) defaults := by
      rwa [enabled_iff, hexplicit, ← enabled_iff]
    rw [parsePolicy_of_not_enabled henabled, parsePolicy_of_not_enabled henabled', hexplicit]
    simp [henabled]

/-- **Another value of an overridden label gives the same result, unless the label is
`monitor-only`, only one of the two values is valid, and all else that is read of the enabled
container is valid.** -/
theorem parsePolicy_overridden_iff {key own : String} (pair : (key, own) ∈ counterparts)
    (present : (labels own).isSome = true) (defaults : PolicyDefaults) (value : Option String) :
    (parsePolicy (Function.update labels key value) defaults).toOption =
        (parsePolicy labels defaults).toOption ↔
      ¬ (key = wtMonitorOnly ∧ Enabled labels defaults ∧ Readable labels ∧
        ¬ (IsBool value ↔ IsBool (labels wtMonitorOnly))) := by
  by_cases hkey : key = wtMonitorOnly
  · have hown : own = modeKey := by
      have hpairs : ∀ entry ∈ counterparts, entry.1 = wtMonitorOnly → entry.2 = modeKey := by
        decide
      exact hpairs _ pair hkey
    subst hkey hown
    rw [parsePolicy_monitorOnly_iff present]
    simp
  · rw [parsePolicy_update pair present hkey]
    simp [hkey]

theorem parsePolicy_overridden_iff_mode :
    (parsePolicy (Function.update (LabelMap.ofPairs [(enableKey, "true"), (modeKey, "live")])
        wtMonitorOnly (some "true")) ⟨none, false, false⟩).toOption =
        (parsePolicy (LabelMap.ofPairs [(enableKey, "true"), (modeKey, "live")])
          ⟨none, false, false⟩).toOption ↔
      ¬ (wtMonitorOnly = wtMonitorOnly ∧
        Enabled (LabelMap.ofPairs [(enableKey, "true"), (modeKey, "live")]) ⟨none, false, false⟩ ∧
        Readable (LabelMap.ofPairs [(enableKey, "true"), (modeKey, "live")]) ∧
        ¬ (IsBool (some "true") ↔ IsBool (LabelMap.ofPairs [(enableKey, "true"),
          (modeKey, "live")] wtMonitorOnly))) :=
  @parsePolicy_overridden_iff _ wtMonitorOnly modeKey (by decide) (by decide) _ _

/-- An invalid `monitor-only` makes the labels of a container with a mode label invalid. -/
theorem overridden_monitorOnly_read :
    (parsePolicy (LabelMap.ofPairs [(enableKey, "true"), (modeKey, "live")])
        ⟨none, false, false⟩).toOption.isSome = true ∧
      (parsePolicy (Function.update (LabelMap.ofPairs [(enableKey, "true"), (modeKey, "live")])
        wtMonitorOnly (some "maybe")) ⟨none, false, false⟩).toOption = none := by
  decide

end Overridden

end Freshdock.Labels
