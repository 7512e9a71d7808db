import Freshdock.Docker.ArchiveNames
import Freshdock.Scheduler

/-!
# Compose members and archive names

Compose names a container `<project>-<service>-<number>`. Such a name looks like an archive when
what comes before the number ends in `-old`, or in `-old-` and digits, and in no other case
(`isArchiveName_compose_iff`). The sweep and the plan leave out a member exactly then.
-/

set_option autoImplicit false

namespace Freshdock.Scheduler

open Interaction Docker Rollout SelfId Text
open Compose (ProjectMember)
open Cron (Instant)

/-- The name Compose gives to a container of a service. -/
def composeName (project service : String) (number : Nat) : String :=
  project ++ "-" ++ service ++ "-" ++ toString number

/-- The text ends in `-old`, or in `-old-` and digits. -/
def EndsLikeArchive (s : String) : Prop :=
  (∃ before, s = before ++ "-old") ∨ ∃ before ts, IsDigits ts ∧ s = before ++ "-old-" ++ ts

/-- Digits after the last dash of two texts: both parts are the same. -/
theorem append_digits_inj {s s' digits digits' : String} (h : IsDigits digits)
    (h' : IsDigits digits') (same : s ++ "-" ++ digits = s' ++ "-" ++ digits') :
    s = s' ∧ digits = digits' := by
  have hlists := congrArg String.toList same
  simp only [String.toList_append, List.append_assoc] at hlists
  obtain ⟨hs, hdigits⟩ := last_occurrence_inj (h.not_mem (by decide)) (h'.not_mem (by decide))
    hlists
  exact ⟨String.toList_inj.mp hs, String.toList_inj.mp hdigits⟩

/-- **A member's name looks like an archive when what comes before its number ends like one.** -/
theorem isArchiveName_compose_iff (project service : String) (number : Nat) :
    isArchiveName (composeName project service number) = true ↔
      EndsLikeArchive (project ++ "-" ++ service) := by
  have hnumber : IsDigits (toString number) := (numeral_toString number).digits
  rw [isArchiveName_iff, composeName]
  generalize project ++ "-" ++ service = stem
  constructor
  · rintro ⟨original, tail, hname, hdigits | ⟨ts, seq, hts, hseq, rfl⟩⟩
    · refine .inl ⟨original, ?_⟩
      have hsplit : stem ++ "-" ++ toString number = original ++ "-old" ++ "-" ++ tail := by
        rw [hname, ← String.toList_inj]
        simp
      exact (append_digits_inj hnumber hdigits hsplit).1
    · refine .inr ⟨original, ts, hts, ?_⟩
      rw [← String.append_assoc, ← String.append_assoc] at hname
      exact (append_digits_inj hnumber hseq hname).1
  · rintro (⟨before, rfl⟩ | ⟨before, ts, hts, rfl⟩)
    · refine ⟨before, toString number, ?_, .inl hnumber⟩
      rw [← String.toList_inj]
      simp
    · exact ⟨before, ts ++ "-" ++ toString number, by simp only [String.append_assoc],
        .inr ⟨ts, _, hts, hnumber, rfl⟩⟩

/-- What the sweep does with a container that is not an archive. -/
def visitListed (docker : Docker) (cfg : SchedulerConfig) (now : Instant)
    (settings : ResolvedSettings) (c : ContainerSummary) (sweep : Sweep) : Prog Sweep :=
  let name := containerName c
  if sweep.handled.contains name then pure (sweep.markLive name)
  else
    match Labels.parsePolicy (c.labels.getD fun _ => none) settings.policyDefaults with
    | .error _ => pure (sweep.markLive name)
    | .ok policy =>
        if !policy.enabled || policy.mode == .off then pure sweep
        else if policy.autoEnabled && isOwnContainer cfg.ownIdPrefix c.id then
          pure (sweep.markLive name)
        else visitEnabled docker cfg now name policy settings c (sweep.markLive name)

theorem visit_eq (docker : Docker) (cfg : SchedulerConfig) (now : Instant)
    (settings : ResolvedSettings) (c : ContainerSummary) (sweep : Sweep) :
    visit docker cfg now settings c sweep =
      if isArchiveName (containerName c) then pure sweep
      else visitListed docker cfg now settings c sweep := rfl

theorem mem_liveMembers_iff {members : List ProjectMember} {m : ProjectMember} :
    m ∈ liveMembers members ↔ m ∈ members ∧ isArchiveName m.name = false := by
  simp [liveMembers]

/-- **A member with Compose's name is an archive to the sweep and to the plan exactly when its
project and service end like one, and otherwise neither leaves it out.** -/
theorem compose_member_kept_iff (project service : String) (number : Nat) :
    (isArchiveName (composeName project service number) = false ↔
      ¬ EndsLikeArchive (project ++ "-" ++ service)) ∧
    (¬ EndsLikeArchive (project ++ "-" ++ service) →
      (∀ members m, m.name = composeName project service number →
        (m ∈ liveMembers members ↔ m ∈ members)) ∧
      ∀ docker cfg now settings c sweep, containerName c = composeName project service number →
        visit docker cfg now settings c sweep = visitListed docker cfg now settings c sweep) := by
  have hname : isArchiveName (composeName project service number) = false ↔
      ¬ EndsLikeArchive (project ++ "-" ++ service) := by
    rw [← isArchiveName_compose_iff, Bool.not_eq_true]
  refine ⟨hname, fun h => ⟨fun members m hm => ?_, fun docker cfg now settings c sweep hc => ?_⟩⟩
  · rw [mem_liveMembers_iff, hm]
    exact and_iff_left (hname.mpr h)
  · rw [visit_eq, hc, hname.mpr h]
    rfl

/-- The first container of the service `db-old` is left out by both. -/
theorem service_old_left_out :
    isArchiveName (composeName "shop" "db-old" 1) = true ∧
      (∀ members (m : ProjectMember), m.name = composeName "shop" "db-old" 1 →
        m ∉ liveMembers members) ∧
      ∀ docker cfg now settings c sweep, containerName c = composeName "shop" "db-old" 1 →
        visit docker cfg now settings c sweep = pure sweep := by
  have hname : isArchiveName (composeName "shop" "db-old" 1) = true := by decide
  refine ⟨hname, fun members m hm hmem => ?_, fun docker cfg now settings c sweep hc => ?_⟩
  · have hlive := (mem_liveMembers_iff.mp hmem).2
    rw [hm, hname] at hlive
    cases hlive
  · rw [visit_eq, hc, hname]
    rfl

end Freshdock.Scheduler
