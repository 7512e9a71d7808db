import Freshdock.Foundation.Fallible
import Freshdock.Foundation.Text

/-!
# Container labels and the policy they state

`parsePolicy` reads the `freshdock.*` labels of a container, with the Watchtower labels as a
fallback and the fleet-wide defaults below both. `explicitlyOptsOut` is the second gate: it
asks only whether the labels say no, and an absent label does not.

A label map is its lookup function.
-/

set_option autoImplicit false

namespace Freshdock

/-- A length of time, in nanoseconds. -/
abbrev Duration : Type := Nat

def Duration.fromSecs (seconds : Nat) : Duration := seconds * 1000000000

/-- A container's labels. -/
abbrev LabelMap : Type := String → Option String

/-- The label map with these entries; the first entry of a key counts. -/
def LabelMap.ofPairs (pairs : List (String × String)) : LabelMap := fun key => pairs.lookup key

namespace Labels

open Text

inductive Mode where
  | live
  | nightly
  | weekly
  | monthly
  | watch
  | off
  deriving DecidableEq, Repr

def Mode.name : Mode → String
  | .live => "live"
  | .nightly => "nightly"
  | .weekly => "weekly"
  | .monthly => "monthly"
  | .watch => "watch"
  | .off => "off"

/-- A command run inside the container, `none` for an unlimited timeout. -/
structure Hook where
  command : String
  timeout : Option Duration
  deriving DecidableEq, Repr

structure LifecycleHooks where
  preUpdate : Option Hook
  postUpdate : Option Hook
  deriving DecidableEq, Repr

def LifecycleHooks.default : LifecycleHooks := ⟨none, none⟩

structure Policy where
  enabled : Bool
  mode : Mode
  notify : Bool
  schedule : Option String
  cleanup : Bool
  hooks : LifecycleHooks
  autoEnabled : Bool
  deriving DecidableEq, Repr

/-- Fleet-wide defaults; a label of the container overrides each of them. -/
structure PolicyDefaults where
  mode : Option Mode
  cleanup : Bool
  watchAll : Bool
  deriving DecidableEq, Repr

inductive LabelError where
  | invalidBool (key value : String)
  | invalidMode (value : String)
  | invalidTimeout (key value : String)
  deriving DecidableEq, Repr

def LabelError.message : LabelError → String
  | .invalidBool key value =>
      "invalid value for label `" ++ key ++ "`: `" ++ value ++ "` (expected true/false)"
  | .invalidMode value =>
      "invalid value for label `freshdock.mode`: `" ++ value ++
        "` (expected one of live, nightly, weekly, monthly, watch, off)"
  | .invalidTimeout key value =>
      "invalid value for label `" ++ key ++ "`: `" ++ value ++
        "` (expected a whole number of seconds, 0 for no timeout)"

def enableKey : String := "freshdock.enable"
def modeKey : String := "freshdock.mode"
def wtEnable : String := "com.centurylinklabs.watchtower.enable"
def wtMonitorOnly : String := "com.centurylinklabs.watchtower.monitor-only"
def wtPreUpdate : String := "com.centurylinklabs.watchtower.lifecycle.pre-update"
def wtPreUpdateTimeout : String := "com.centurylinklabs.watchtower.lifecycle.pre-update-timeout"
def wtPostUpdate : String := "com.centurylinklabs.watchtower.lifecycle.post-update"
def wtPostUpdateTimeout : String := "com.centurylinklabs.watchtower.lifecycle.post-update-timeout"

/-- One minute, as Watchtower has it. -/
def defaultHookTimeout : Duration := Duration.fromSecs 60

/-- A label value as both gates read it: trimmed, ASCII letters in lower case. -/
def normalized (value : String) : String := toAsciiLowercase (trim value)

def parseBool (key value : String) : Except LabelError Bool :=
  if normalized value = "true" then .ok true
  else if normalized value = "false" then .ok false
  else .error (.invalidBool key value)

def parseMode (value : String) : Except LabelError Mode :=
  if normalized value = "live" then .ok .live
  else if normalized value = "nightly" then .ok .nightly
  else if normalized value = "weekly" then .ok .weekly
  else if normalized value = "monthly" then .ok .monthly
  else if normalized value = "watch" then .ok .watch
  else if normalized value = "off" then .ok .off
  else .error (.invalidMode value)

/-- A whole number of units of `unitSecs` seconds, `0` for no timeout. The product saturates
at the largest 64-bit value. -/
def parseTimeout (key value : String) (unitSecs : Nat) : Except LabelError (Option Duration) :=
  match parseU64 (trim value) with
  | some 0 => .ok none
  | some n => .ok (some (Duration.fromSecs (min (n * unitSecs) (2 ^ 64 - 1))))
  | none => .error (.invalidTimeout key value)

/-- The value of a true/false label, `otherwise` when it is absent. -/
def boolLabel (labels : LabelMap) (key : String) (otherwise : Bool) : Except LabelError Bool :=
  match labels key with
  | some v => parseBool key v
  | none => .ok otherwise

/-- The timeout of one hook. Watchtower counts minutes. -/
def hookTimeout (labels : LabelMap) (timeoutKey wtTimeoutKey : String) :
    Except LabelError (Option Duration) :=
  match labels timeoutKey with
  | some v => parseTimeout timeoutKey v 1
  | none =>
      match labels wtTimeoutKey with
      | some v => parseTimeout wtTimeoutKey v 60
      | none => .ok (some defaultHookTimeout)

/-- One hook. Its timeout label is checked even when no command is set, and command and
timeout fall back to the Watchtower labels independently. -/
def parseHook (labels : LabelMap) (commandKey timeoutKey wtCommandKey wtTimeoutKey : String) :
    Except LabelError (Option Hook) := do
  let timeout ← hookTimeout labels timeoutKey wtTimeoutKey
  let command := (labels commandKey).or (labels wtCommandKey)
  return command.map fun c => ⟨c, timeout⟩

/-- The policy of a container that is not enabled. -/
def disabledPolicy : Policy where
  enabled := false
  mode := .off
  notify := false
  schedule := none
  cleanup := false
  hooks := .default
  autoEnabled := false

/-- Either enable label states intent; `none` when neither is present. -/
def explicitEnable (labels : LabelMap) : Except LabelError (Option Bool) :=
  match labels enableKey with
  | some v => some <$> parseBool enableKey v
  | none =>
      match labels wtEnable with
      | some v => some <$> parseBool wtEnable v
      | none => pure none

/-- The mode of an enabled container. `monitor-only` beats the fleet-wide default and loses to
the container's own mode label, but its value is checked in any case. -/
def resolveMode (labels : LabelMap) (defaults : PolicyDefaults) : Except LabelError Mode := do
  let monitorOnly ← boolLabel labels wtMonitorOnly false
  match labels modeKey with
  | some v => parseMode v
  | none => if monitorOnly then pure .watch else pure (defaults.mode.getD .watch)

def parsePolicy (labels : LabelMap) (defaults : PolicyDefaults) : Except LabelError Policy := do
  let explicit ← explicitEnable labels
  let enabled := explicit.getD defaults.watchAll
  let autoEnabled := explicit.isNone && enabled
  if !enabled then return disabledPolicy
  let mode ← resolveMode labels defaults
  let notify ← boolLabel labels "freshdock.notify" false
  let schedule := labels "freshdock.schedule"
  let cleanup ← boolLabel labels "freshdock.cleanup" defaults.cleanup
  let preUpdate ← parseHook labels "freshdock.lifecycle.pre-update"
    "freshdock.lifecycle.pre-update-timeout" wtPreUpdate wtPreUpdateTimeout
  let postUpdate ← parseHook labels "freshdock.lifecycle.post-update"
    "freshdock.lifecycle.post-update-timeout" wtPostUpdate wtPostUpdateTimeout
  return { enabled, mode, notify, schedule, cleanup, hooks := ⟨preUpdate, postUpdate⟩, autoEnabled }

/-- An explicit opt-out: an enable label that says false, or `freshdock.mode=off`. -/
def explicitlyOptsOut (labels : LabelMap) : Bool :=
  let value := fun key => ((labels key).map normalized).getD ""
  value enableKey == "false" || value wtEnable == "false" || value modeKey == "off"

/-! ## The gates against what the labels say -/

/-- The labels say no: `freshdock.enable` is false, `freshdock.mode` is off, or Watchtower's
enable label is false and no `freshdock.enable` overrides it. Case and surrounding blanks do
not matter. -/
def SaysNo (labels : LabelMap) : Prop :=
  (∃ v, labels enableKey = some v ∧ normalized v = "false") ∨
    (∃ v, labels modeKey = some v ∧ normalized v = "off") ∨
      (labels enableKey = none ∧ ∃ v, labels wtEnable = some v ∧ normalized v = "false")

/-- **Labels that say no are an explicit opt-out.** -/
theorem explicitlyOptsOut_of_saysNo {labels : LabelMap} (h : SaysNo labels) :
    explicitlyOptsOut labels = true := by
  rcases h with ⟨v, hv, hn⟩ | ⟨v, hv, hn⟩ | ⟨-, v, hv, hn⟩ <;> simp [explicitlyOptsOut, hv, hn]

theorem parseBool_false {key value : String} (h : normalized value = "false") :
    parseBool key value = .ok false := by
  simp [parseBool, h]

theorem parseMode_off {value : String} (h : normalized value = "off") :
    parseMode value = .ok .off := by
  simp [parseMode, h]

theorem explicitEnable_of_saysNo {labels : LabelMap} (h : SaysNo labels) {b : Bool}
    (hb : explicitEnable labels = .ok (some b)) :
    b = false ∨ ∃ v, labels modeKey = some v ∧ normalized v = "off" := by
  rcases h with ⟨v, hv, hn⟩ | hoff | ⟨hnone, v, hv, hn⟩
  · rw [explicitEnable, hv] at hb
    simp only [parseBool_false hn, Except.map_ok] at hb
    cases hb
    exact .inl rfl
  · exact .inr hoff
  · rw [explicitEnable, hnone] at hb
    simp only [hv, parseBool_false hn, Except.map_ok] at hb
    cases hb
    exact .inl rfl

/-- What a policy that was read says about the labels it was read from. -/
theorem parsePolicy_cases {labels : LabelMap} {defaults : PolicyDefaults} {p : Policy}
    (h : parsePolicy labels defaults = .ok p) :
    ∃ explicit, explicitEnable labels = .ok explicit ∧
      ((explicit.getD defaults.watchAll = false ∧ p = disabledPolicy) ∨
        (explicit.getD defaults.watchAll = true ∧ p.enabled = true ∧
          resolveMode labels defaults = .ok p.mode)) := by
  unfold parsePolicy at h
  obtain ⟨explicit, hexplicit, h⟩ := bind_ok h
  refine ⟨explicit, hexplicit, ?_⟩
  cases henabled : explicit.getD defaults.watchAll with
  | false =>
      rw [henabled] at h
      exact .inl ⟨rfl, (Except.ok.inj h).symm⟩
  | true =>
      rw [henabled] at h
      obtain ⟨mode, hmode, h⟩ := bind_ok h
      obtain ⟨notify, -, h⟩ := bind_ok h
      obtain ⟨cleanup, -, h⟩ := bind_ok h
      obtain ⟨preUpdate, -, h⟩ := bind_ok h
      obtain ⟨postUpdate, -, h⟩ := bind_ok h
      cases h
      exact .inr ⟨rfl, rfl, hmode⟩

theorem resolveMode_off {labels : LabelMap} {defaults : PolicyDefaults} {mode : Mode} {v : String}
    (hv : labels modeKey = some v) (hn : normalized v = "off")
    (h : resolveMode labels defaults = .ok mode) : mode = .off := by
  unfold resolveMode at h
  obtain ⟨monitorOnly, -, h⟩ := bind_ok h
  simp only [hv, parseMode_off hn] at h
  cases h
  rfl

/-- **A policy that is enabled with a mode other than off was read from labels that do not
say no.** -/
theorem not_saysNo_of_enabled {labels : LabelMap} {defaults : PolicyDefaults} {p : Policy}
    (h : parsePolicy labels defaults = .ok p) (henabled : p.enabled = true)
    (hmode : p.mode ≠ .off) : ¬ SaysNo labels := by
  intro hno
  obtain ⟨explicit, hexplicit, ⟨-, rfl⟩ | ⟨hget, -, hresolve⟩⟩ := parsePolicy_cases h
  · cases henabled
  · cases explicit with
    | none =>
        rcases hno with ⟨v, hv, hn⟩ | ⟨v, hv, hn⟩ | ⟨hnone, v, hv, hn⟩
        · simp [explicitEnable, hv, parseBool_false hn, Except.map_ok] at hexplicit
        · exact hmode (resolveMode_off hv hn hresolve)
        · simp [explicitEnable, hnone, hv, parseBool_false hn, Except.map_ok] at hexplicit
    | some b =>
        rcases explicitEnable_of_saysNo hno hexplicit with rfl | ⟨v, hv, hn⟩
        · cases hget
        · exact hmode (resolveMode_off hv hn hresolve)

end Labels

end Freshdock
