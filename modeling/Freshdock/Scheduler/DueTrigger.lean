import Freshdock.Rollout.Gates
import Freshdock.Scheduler

/-!
# A due trigger is planned

The probe and the planner compare different things. The probe reports an update when upstream's
digest is not among the local ones or the container runs another image than its tag; the planner
skips a member that runs the image the tag resolves to. The scheduler hands the planner that
image only where the digests alone report no update, so the two verdicts never contradict each
other (`trigger_notAlreadyCurrent`).
-/

set_option autoImplicit false

namespace Freshdock.Scheduler

open Compose (ProjectMember)
open Labels (PolicyDefaults)
open Rollout (plan skipOf mem_skipped_plan PlanInput)

/-- **A container with an update available does not run the image that is handed on as the
current one.** -/
theorem not_current_of_available {digests : Probe.LocalDigests} {latest : String}
    {containerImageId tagImageId : Option String}
    (available : Probe.updateAvailableFor digests latest containerImageId tagImageId = some true)
    {current : String} (h : currentImage digests latest tagImageId = some current) :
    containerImageId ≠ some current := by
  rintro rfl
  -- the tag's image is handed on, and only the second half of the verdict is left
  have hlocal : Probe.updateAvailable digests latest = some false := by
    by_contra hne
    rw [currentImage, if_neg hne] at h
    cases h
  rw [currentImage, if_pos hlocal] at h
  subst h
  rw [Probe.updateAvailableFor, hlocal] at available
  simp [Registry.behindTag] at available

section Planner

variable {input : PlanInput} {m : ProjectMember}

/-- What is skipped as already current runs the current image. -/
theorem current_of_admission {oneShot : Bool}
    (h : input.admission oneShot m = .error .alreadyCurrent) :
    ∃ current, input.tagImageId = some current ∧ m.imageId = some current := by
  unfold PlanInput.admission at h
  split_ifs at h
  · cases h
  · cases h
  split at h
  · cases h
  by_cases hcurrent : !oneShot && input.tagImageId.isSome && m.imageId == input.tagImageId
  · simp only [Bool.and_eq_true, beq_iff_eq] at hcurrent
    obtain ⟨⟨-, hsome⟩, himage⟩ := hcurrent
    obtain ⟨current, htag⟩ := Option.isSome_iff_exists.mp hsome
    exact ⟨current, htag, himage.trans htag⟩
  · rw [PlanInput.admitPolicy, if_neg hcurrent] at h
    split_ifs at h <;> cases h

theorem current_of_skipOf {container : String}
    (h : skipOf input m = some ⟨container, .alreadyCurrent⟩) :
    container = m.name ∧ ∃ current, input.tagImageId = some current ∧ m.imageId = some current := by
  unfold skipOf at h
  split at h
  · cases h
  · split_ifs at h
    split at h
    · next reason hadmission =>
        obtain ⟨rfl, rfl⟩ := Rollout.SkippedMember.mk.inj (Option.some.inj h)
        exact ⟨rfl, current_of_admission hadmission⟩
    · cases h

end Planner

/-- **A trigger with an update available is not skipped as already current.** -/
theorem trigger_notAlreadyCurrent {digests : Probe.LocalDigests} {latest trigger : String}
    {tagImageId : Option String} {members : List ProjectMember} (target : Probe.ProbeTarget)
    (available : Probe.updateAvailableFor digests latest target.imageId tagImageId = some true)
    (reported : ∀ m ∈ members, m.name = trigger → m.imageId = target.imageId)
    (project : String) (defaults : PolicyDefaults) (own : Option String) :
    ⟨trigger, .alreadyCurrent⟩ ∉ (plan project members trigger
      (currentImage digests latest tagImageId) defaults own).skipped := by
  intro hskipped
  obtain ⟨origin, -, m, hm, hskip⟩ := mem_skipped_plan.mp hskipped
  obtain ⟨hname, current, hcurrent, himage⟩ := current_of_skipOf hskip
  rw [reported m (List.mem_filter.mp hm).1 hname.symm] at himage
  exact not_current_of_available available hcurrent himage

/-- A container behind its tag, which carries upstream's digest already: it is planned. -/
theorem trigger_notAlreadyCurrent_behind :
    let web : ProjectMember := ⟨"web", "1a", "app:2", some "sha256:old",
      LabelMap.ofPairs [("com.docker.compose.project", "p"), ("com.docker.compose.service", "web"),
        ("freshdock.enable", "true"), ("freshdock.mode", "live")], true⟩
    let planned := plan "p" [web] "web" (currentImage ["sha256:d"] "sha256:d" (some "sha256:new"))
      ⟨none, false, false⟩ none
    ⟨"web", .alreadyCurrent⟩ ∉ planned.skipped ∧
      planned.targets.map Rollout.PlannedTarget.container = ["web"] :=
  ⟨trigger_notAlreadyCurrent ⟨"app:2", some "sha256:old"⟩ rfl (by simp) "p" _ none, by decide⟩

end Freshdock.Scheduler
