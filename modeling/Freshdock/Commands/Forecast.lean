import Freshdock.Commands.Plain
import Freshdock.Scheduler.Watching

/-!
# What the check says is what the scheduler does

The check and the scheduler ask the same question of a container. As long as they are answered the
same, a container is changed, or its update announced, only when the table says that there is one;
and when the table says so, a visit that is due acts on the very digest that the table shows
(`check_foretells`).
-/

set_option autoImplicit false

namespace Freshdock.Check

open Interaction Docker Probe Scheduler
open Labels (Policy PolicyDefaults)
open Registry (shortDigest)
open Cron (Instant)

variable {world : (c : Call) → c.Reply}

/-! ## Rows -/

/-- The outcome says that there is an update to be had, to the digest. -/
def Newer (imageId : Option String) (outcome : ProbeOutcome) (digests : LocalDigests)
    (latest : String) (tagImageId : Option String) : Prop :=
  outcome = .fetched digests latest tagImageId ∧
    updateAvailableFor digests latest imageId tagImageId = some true

/-- A row says yes just when there is an update to be had, and then shows its digest. -/
theorem yes_iff {image : String} {imageId : Option String} {outcome : ProbeOutcome}
    {shown : String × String × String} (h : renderCells image imageId outcome = some shown) :
    (shown.2.2 = "yes" ↔ ∃ digests latest tag, Newer imageId outcome digests latest tag) ∧
      ∀ digests latest tag, Newer imageId outcome digests latest tag →
        shortDigest latest = some shown.2.1 := by
  have other (h : ∀ digests latest tag, outcome ≠ .fetched digests latest tag)
      (no : shown.2.2 ≠ "yes") :
      (shown.2.2 = "yes" ↔ ∃ digests latest tag, Newer imageId outcome digests latest tag) ∧
        ∀ digests latest tag, Newer imageId outcome digests latest tag →
          shortDigest latest = some shown.2.1 :=
    ⟨⟨fun yes => absurd yes no, fun ⟨digests, latest, tag, same, _⟩ => absurd same (h _ _ _)⟩,
      fun digests latest tag newer => absurd newer.1 (h _ _ _)⟩
  cases outcome with
  | fetched digests latest tag =>
      obtain ⟨current, -, hserved⟩ := Option.bind_eq_some_iff.mp h
      obtain ⟨served, hshort, rfl⟩ := Option.map_eq_some_iff.mp hserved
      refine ⟨⟨fun yes => ⟨digests, latest, tag, rfl, ?_⟩, fun ⟨_, _, _, same, newer⟩ => ?_⟩, ?_⟩
      · revert yes
        cases updateAvailableFor digests latest imageId tag with
        | none => exact fun yes => absurd yes (show answerTo none ≠ "yes" by decide)
        | some verdict => cases verdict <;> simp [answerTo]
      · cases same
        simp [answerTo, newer]
      · rintro _ _ _ ⟨same, -⟩
        cases same
        exact hshort
  | pinned =>
      obtain ⟨current, -, rfl⟩ := Option.map_eq_some_iff.mp h
      exact other (fun _ _ _ h => by cases h) (show dash ≠ "yes" by decide)
  | _ =>
      obtain rfl := Option.some.inj h
      exact other (fun _ _ _ h => by cases h) (show dash ≠ "yes" by decide)

/-- A result that is collected is there. -/
theorem mem_of_collected {α : Type} {results : List (Option α)} {as : List α}
    (h : collected results = some as) {result : Option α} (hresult : result ∈ results) :
    ∃ a ∈ as, result = some a := by
  induction results generalizing as with
  | nil => cases hresult
  | cons first results ih =>
      cases first with
      | none => cases h
      | some a =>
          obtain ⟨rest, hrest, rfl⟩ := Option.map_eq_some_iff.mp h
          rcases List.mem_cons.mp hresult with rfl | hresult
          · exact ⟨a, List.mem_cons_self, rfl⟩
          · obtain ⟨b, hb, hsame⟩ := ih hrest hresult
            exact ⟨b, List.mem_cons_of_mem _ hb, hsame⟩

/-- The row that the plain check makes of a listed container is in the table. -/
theorem row_of_check {defaults : PolicyDefaults} {ownIdPrefix : Option String}
    {resolving probing : List Nat} {events : List CallEvent} {cells : List Cells}
    (check : Produces (collectCells defaults ownIdPrefix resolving probing).run events
      (some (.ok cells))) (fixed : ∀ e ∈ events, AnsweredBy world e)
    {containers : List ContainerSummary} (listed : world .listRunning = .ok containers)
    {c : ContainerSummary} (hc : c ∈ containers) {p : Pending}
    (hp : pendingOf defaults ownIdPrefix c = some p) :
    ∃ row ∈ cells, (plainRow p).steady world = some row := by
  have plain := check.steady fixed
  rw [steady_collectCells] at plain
  obtain ⟨listing, hlisting, hrest⟩ := Option.bind_eq_some_iff.mp
    ((steady_bind _ _).symm.trans plain)
  obtain rfl : listing = world .listRunning := (Option.some.inj hlisting).symm
  rw [listed] at hrest
  change (Except.ok <$> inOrder _ : Prog _).steady world = some (.ok cells) at hrest
  rw [steady_map, steady_inOrder, Option.map_eq_some_iff] at hrest
  obtain ⟨cells', hcells, same⟩ := hrest
  obtain rfl := Except.ok.inj same
  refine mem_of_collected hcells (List.mem_map_of_mem (List.mem_map_of_mem ?_))
  exact List.mem_filterMap.mpr ⟨c, hc, hp⟩

/-! ## Visits -/

section Visits

variable {docker : Docker} {cfg : SchedulerConfig} {now : Instant} {settings : ResolvedSettings}
  {policy : Policy} {sweep s : Sweep} {c : ContainerSummary} {part : List CallEvent}

/-- A container that the scheduler considers is listed in the table, with its mode. -/
theorem pendingOf_considered (considered : Considered cfg settings c sweep policy) :
    pendingOf settings.policyDefaults cfg.ownIdPrefix c = some ⟨displayName c, policy.mode, c⟩ := by
  unfold pendingOf
  rw [considered.parsed]
  simp only [considered.enabled, considered.notSelf, Bool.not_true, Bool.false_eq_true, if_false]

/-- What a visit does once the probe has shown an update of the image to the digest: a watched one
is the one that was announced last, and another one is applied unless its digest failed before. -/
def ActsOn (docker : Docker) (cfg : SchedulerConfig) (now : Instant) (settings : ResolvedSettings)
    (c : ContainerSummary) (sweep : Sweep) (policy : Policy) (part : List CallEvent) (s : Sweep)
    (image digest : String) : Prop :=
  (policy.mode = .watch → policy.notify = true →
    noticed s.memory (containerName c) = some digest) ∧
  (policy.mode ≠ .watch → sweep.memory.failed.get? (containerName c) ≠ some digest →
    ∃ asked applied tag processed, part = asked ++ applied ∧
      (∀ e ∈ asked, reads e.call = true) ∧
      Produces (applyUpdate docker cfg now (containerName c) policy
        (c.labels.getD fun _ => none) image digest tag settings) applied (some processed))

/-- Nothing is done without an update to be had. -/
theorem acts_newer {name : String} {labels : LabelMap} {target : ProbeTarget}
    {lastFailed last : Option String} {outcome : ProbeOutcome} {rest : List CallEvent}
    {out : Option (Processed × Option String)}
    (h : Produces (actOnProbe docker cfg now name policy labels target lastFailed last settings
      outcome) rest out) :
    rest = [] ∨ ∃ digests latest tag, Newer target.imageId outcome digests latest tag := by
  unfold actOnProbe at h
  split at h
  · next digests latest tag =>
    split at h
    · exact .inl (produces_done_iff.mp h).1
    · exact .inl (produces_done_iff.mp h).1
    · next newer => exact .inr ⟨digests, latest, tag, rfl, newer⟩
  all_goals exact .inl (produces_done_iff.mp h).1

/-- A finished visit that the world answers: it only reads, or acts on what its image is probed to
be in the world. -/
theorem visit_in_world {resolved : ContainerSummary → Except DockerError ProbeTarget}
    (hresolved : ∀ c, (resolveTarget c).run.steady world = some (resolved c))
    (considered : Considered cfg settings c sweep policy)
    (hvisit : Produces (visit docker cfg now settings c sweep) part (some s))
    (same : ∀ e ∈ part.takeWhile fun e => reads e.call, AnsweredBy world e) :
    ((∀ e ∈ part, reads e.call = true) ∧
      (due policy (stateFor cfg now policy (containerName c) sweep) now cfg.pollInterval = true →
        ∃ e, resolved c = .error e)) ∨
    ∃ target asked rest last r, resolved c = .ok target ∧ part = asked ++ rest ∧
      (∀ e ∈ asked, reads e.call = true) ∧ noticed s.memory (containerName c) = r.2 ∧
      Produces (actOnProbe docker cfg now (containerName c) policy (c.labels.getD fun _ => none)
        target (sweep.memory.failed.get? (containerName c)) last settings
        (probedIn world target.image)) rest (some r) := by
  -- what is read before anything else is done is answered by the world
  have first_same {asked rest : List CallEvent} (hasked : ∀ e ∈ asked, reads e.call = true)
      (hparts : part = asked ++ rest) : ∀ e ∈ asked, AnsweredBy world e := fun e he => by
    refine same e ?_
    rw [hparts, List.takeWhile_append_of_pos hasked]
    exact List.mem_append_left _ he
  have answered {asked rest : List CallEvent} {target : Except DockerError ProbeTarget}
      (h : Produces (resolveTarget c).run asked (some target)) (hparts : part = asked ++ rest) :
      target = resolved c := by
    have steady := h.steady (first_same (resolves_of_resolveTarget h).reads hparts)
    exact Option.some.inj (steady.symm.trans (hresolved c))
  rcases produces_visit hvisit with ⟨passed, -⟩ | ⟨policy', handling, considered', course⟩
  · exact absurd considered (passed policy)
  obtain rfl : policy' = policy :=
    Except.ok.inj (considered'.parsed.symm.trans considered.parsed)
  cases course with
  | waited hdue hout =>
      refine .inl ⟨by simp, fun due => ?_⟩
      rw [hdue] at due
      cases due
  | notInspected hdue hresolve hout =>
      obtain ⟨e, rfl, -⟩ := hout s rfl
      exact .inl ⟨(resolves_of_resolveTarget hresolve).reads,
        fun _ => ⟨e, (answered hresolve (List.append_nil _).symm).symm⟩⟩
  | @processed first rest target done out hdue hresolve hprocess hout =>
      obtain ⟨r, rfl, rfl⟩ := hout s rfl
      have htarget := answered hresolve rfl
      obtain ⟨probe, outcome, acted, rfl, hprobe, hacted⟩ := hprocess.of_bind_some
      have hparts : first ++ (probe ++ acted) = (first ++ probe) ++ acted :=
        (List.append_assoc ..).symm
      have hasked : ∀ e ∈ first ++ probe, reads e.call = true := by
        intro e he
        rcases List.mem_append.mp he with he | he
        · exact (resolves_of_resolveTarget hresolve).reads e he
        · exact (probes_of_probeImage hprobe).reads e he
      have steady := hprobe.steady fun e he =>
        first_same hasked hparts e (List.mem_append_right _ he)
      rw [steady_probeImage] at steady
      obtain rfl := Option.some.inj steady
      exact .inr ⟨target, first ++ probe, acted, _, r, htarget.symm, hparts, hasked,
        noticed_settled _ r, hacted⟩

/-- What is done about an update that is to be had. -/
theorem actsOn_of_newer {target : ProbeTarget} {last : Option String} {outcome : ProbeOutcome}
    {asked rest : List CallEvent} {r : Processed × Option String} (hmode : policy.mode ≠ .off)
    {digests : LocalDigests} {latest : String} {tag : Option String}
    (newer : Newer target.imageId outcome digests latest tag)
    (hparts : part = asked ++ rest) (hasked : ∀ e ∈ asked, reads e.call = true)
    (hnoticed : noticed s.memory (containerName c) = r.2)
    (h : Produces (actOnProbe docker cfg now (containerName c) policy (c.labels.getD fun _ => none)
      target (sweep.memory.failed.get? (containerName c)) last settings outcome) rest (some r)) :
    ActsOn docker cfg now settings c sweep policy part s target.image latest := by
  obtain ⟨rfl, hverdict⟩ := newer
  simp only [actOnProbe, hverdict] at h
  refine ⟨fun hwatch hnotify => ?_, fun hwatch hfailed => ?_⟩
  · simp only [actOnUpdate, hwatch] at h
    rw [hnoticed]
    exact (announces_reportAvailable h).2.2 hnotify r rfl
  · have applied (h : Produces
        (if sweep.memory.failed.get? (containerName c) = some latest then
          pure (.probed .notUpdated, last)
        else do
          let processed ← applyUpdate docker cfg now (containerName c) policy
            (c.labels.getD fun _ => none) target.image latest (currentImage digests latest tag)
            settings
          pure (processed, last) : Prog (Processed × Option String)) rest (some r)) :
        ∃ asked applied tag processed, part = asked ++ applied ∧
          (∀ e ∈ asked, reads e.call = true) ∧
          Produces (applyUpdate docker cfg now (containerName c) policy
            (c.labels.getD fun _ => none) target.image latest tag settings) applied
            (some processed) := by
      rw [if_neg hfailed] at h
      obtain ⟨applied, processed, done, rfl, happlied, hdone⟩ := h.of_bind_some
      obtain ⟨rfl, -⟩ := hdone.of_done
      rw [List.append_nil] at hparts
      exact ⟨asked, applied, _, processed, hparts, hasked, happlied⟩
    unfold actOnUpdate at h
    split at h
    · next hmode => exact absurd hmode hwatch
    · next hoff => exact absurd hoff hmode
    all_goals exact applied h

/-- **The table foretells a visit.** When the check and what a visit reads first are answered by one
world, the container of the visit has a row in the table. The visit only reads unless that row says
yes; and when it says so and the visit is due, the visit acts on the image and the digest that the
row shows. -/
theorem check_foretells {resolving probing : List Nat} {events : List CallEvent}
    {cells : List Cells}
    (check : Produces (collectCells settings.policyDefaults cfg.ownIdPrefix resolving probing).run
      events (some (.ok cells))) (fixed : ∀ e ∈ events, AnsweredBy world e)
    {containers : List ContainerSummary} (listed : world .listRunning = .ok containers)
    (hc : c ∈ containers) (considered : Considered cfg settings c sweep policy)
    (hvisit : Produces (visit docker cfg now settings c sweep) part (some s))
    (same : ∀ e ∈ part.takeWhile fun e => reads e.call, AnsweredBy world e) :
    ∃ row ∈ cells, row.container = displayName c ∧ row.mode = policy.mode.name ∧
      (row.update ≠ "yes" → ∀ e ∈ part, reads e.call = true) ∧
      (row.update = "yes" →
        due policy (stateFor cfg now policy (containerName c) sweep) now cfg.pollInterval = true →
        ∃ digest, shortDigest digest = some row.latest ∧
          ActsOn docker cfg now settings c sweep policy part s row.image digest) := by
  obtain ⟨row, hrow, hplain⟩ := row_of_check check fixed listed hc (pendingOf_considered considered)
  refine ⟨row, hrow, ?_⟩
  obtain ⟨resolved, hresolved⟩ := exists_resolved world
  rw [plainRow, steady_bind, hresolved, Option.bind_some] at hplain
  rcases visit_in_world hresolved considered hvisit same with
      ⟨hreads, unresolved⟩ |
      ⟨target, asked, rest, last, r, htarget, hparts, hasked, hnoticed, hacted⟩
  · cases htarget : resolved c with
    | error e =>
        rw [htarget] at hplain
        obtain rfl := Option.some.inj hplain
        exact ⟨rfl, rfl, fun _ => hreads, fun yes => absurd yes (show dash ≠ "yes" by decide)⟩
    | ok target =>
        rw [htarget, plainProbed, steady_bind, steady_probeImage, Option.bind_some] at hplain
        unfold plainShown at hplain
        split at hplain
        · obtain rfl := Option.some.inj hplain
          refine ⟨rfl, rfl, fun _ => hreads, fun _ due => ?_⟩
          obtain ⟨e, herror⟩ := unresolved due
          rw [htarget] at herror
          cases herror
        · cases hplain
  · rw [htarget, plainProbed, steady_bind, steady_probeImage, Option.bind_some] at hplain
    unfold plainShown at hplain
    split at hplain
    · next shown hshown =>
      obtain rfl := Option.some.inj hplain
      obtain ⟨hyes, hserved⟩ := yes_iff hshown
      refine ⟨rfl, rfl, fun no => ?_, fun yes _ => ?_⟩
      · rcases acts_newer hacted with rfl | newer
        · rw [hparts, List.append_nil]
          exact hasked
        · exact absurd (hyes.mpr newer) no
      · obtain ⟨digests, latest, tag, newer⟩ := hyes.mp yes
        exact ⟨latest, hserved _ _ _ newer,
          actsOn_of_newer considered.mode newer hparts hasked hnoticed hacted⟩
    · cases hplain

end Visits

/-- The check of three watched containers, and the first visit to one of them. -/
def firstVisit : Run Call Call.Reply Unit Sweep :=
  play (always (host threeRows))
    (visit ⟨"1.44", none, 3⟩ stackConfig 0 .default (optedIn "api" "app") ⟨.empty, [], []⟩) ()

/-- The rows of the check. -/
def threeCells : List Cells :=
  [("web", "app"), ("db", "pg"), ("api", "app")].map fun (name, image) =>
    ⟨name, image, "watch", "sha256:old…", "sha256:new…", "yes"⟩

theorem sharedCheck_out : sharedCheck.out = some (.ok threeCells) := rfl

theorem check_foretells_visit : ∃ s, firstVisit.out = some s ∧ ∃ row ∈ threeCells,
    row.container = "api" ∧ ∃ digest policy, shortDigest digest = some row.latest ∧
      ActsOn ⟨"1.44", none, 3⟩ stackConfig 0 .default (optedIn "api" "app") ⟨.empty, [], []⟩ policy
        firstVisit.trace s row.image digest := by
  have considered : Considered stackConfig .default (optedIn "api" "app") ⟨.empty, [], []⟩ _ :=
    ⟨by decide, List.not_mem_nil, rfl, rfl, nofun, rfl⟩
  have check := play_produces (always (host threeRows))
    (collectCells ⟨none, false, false⟩ none [1] [1, 1, 0]).run ()
  have visited := play_produces (always (host threeRows))
    (visit ⟨"1.44", none, 3⟩ stackConfig 0 .default (optedIn "api" "app") ⟨.empty, [], []⟩) ()
  obtain ⟨s, hs⟩ : ∃ s, firstVisit.out = some s := Option.isSome_iff_exists.mp (by decide +kernel)
  refine ⟨s, hs, ?_⟩
  obtain ⟨row, hrow, hname, -, -, acts⟩ := check_foretells (sharedCheck_out ▸ check)
    (answeredBy_always _) rfl (show optedIn "api" "app" ∈ threeRows by simp [threeRows]) considered
    (hs ▸ visited) fun e he => answeredBy_always _ e ((List.takeWhile_sublist _).mem he)
  have yes : ∀ row ∈ threeCells, row.update = "yes" := by decide
  obtain ⟨digest, hdigest, hacts⟩ := acts (yes row hrow) rfl
  exact ⟨row, hrow, hname, digest, _, hdigest, hacts⟩

end Freshdock.Check
