import Freshdock.Docker.Creates
import Freshdock.Docker.Daemon
import Freshdock.Docker.Repairs
import Freshdock.Interaction.Tiling
import Freshdock.Rollout.FailStop

/-!
# The reference of a planned target

A plan is built on the references of a listing. A step inspects its target anew, and pulls and
creates from what the inspect reports: the reference of the listing, when nobody else changes
the containers and no earlier step has changed it (`execute_usesListed`). One thing an earlier
step may do is pin the target: the update of the container whose network namespace it shares
re-creates it, and from the image id when the tag has moved since, which the pull of that very
update may have done (`pinned_before_its_turn`).
-/

set_option autoImplicit false

namespace Freshdock.Rollout

open Interaction Docker Registry
open Compose (ProjectMember)
open Labels (LifecycleHooks PolicyDefaults)

/-! ## Calls that use an image -/

/-- The calls in which an update uses a reference: a pull, and the create of a replacement. -/
def usesImage (e : CallEvent) : Bool := Pulls e.call || updateCreate e

def Imageless (e : CallEvent) : Prop := usesImage e = false

theorem hushed_imageless : Hushed Imageless := by
  intro call reply hquiet hpull
  cases call <;> first | rfl | simp [Pulls, Call.quiet] at hpull hquiet

theorem reattach_imageless (dependent owner : String) (newOwnerId : Option String) :
    ReattachKeeps (fun _ => True) Imageless dependent owner newOwnerId where
  swap _ _ _ := { stop := fun _ _ _ => rfl, rename := fun _ _ => rfl, create := fun _ => rfl,
                  start := fun _ _ _ => rfl }
  restore _ _ _ := rfl
  restart _ := rfl
  clean _ _ _ := rfl

section Gates

variable {docker : Docker} {ts : TsProvider} (cycle : CycleResult)

theorem imageless_reattachDependents (newOwnerId : Option String) (dependents : List String) :
    Emits (fun _ => True) Imageless
      (reattachDependents cycle.ownerName newOwnerId ts dependents) fun _ => True :=
  emits_reattachDependents hushed_imageless (fun d _ => reattach_imageless d _ newOwnerId) ts

/-- From the gate on, an update uses no image. -/
theorem imageless_gateUpdate (cfg : HealthConfig) (cleanup : Cleanup) (hooks : LifecycleHooks) :
    Emits (fun _ => True) Imageless
      (gateUpdate docker cfg cleanup hooks ts (.completed cycle)).run fun _ => True := by
  have undone (reason : RollbackReason) :
      Emits (fun _ => True) Imageless (undoUpdate cycle reason ts).run fun _ => True := by
    refine emits_except_bind ((emits_rollback (fun _ _ _ => rfl) (fun _ => rfl) (fun _ => rfl)
      (fun _ => rfl) _ reason).weaken fun _ _ _ _ => trivial) (fun _ => trivial) fun _ _ => ?_
    exact emits_lift_bind (imageless_reattachDependents cycle none _) fun _ _ => emits_done trivial
  refine emits_lift_bind (emits_waitForHealth hushed_imageless docker _ cfg) fun verdict _ => ?_
  cases verdict with
  | healthy =>
      refine emits_lift ?_
      refine emits_bind (imageless_reattachDependents cycle _ _) fun _ _ => ?_
      refine emits_bind (emits_request (fun _ => rfl) fun _ _ => trivial) fun _ _ => ?_
      refine emits_bind (emits_runPostUpdateHook _ _ fun _ _ _ => rfl) fun _ _ => ?_
      exact emits_bind (emits_runCleanup _ _ (fun _ _ => rfl) fun _ => rfl)
        fun _ _ => emits_done trivial
  | timeout => exact undone .healthTimeout
  | crashed => exact undone .crashed

/-- And so does the re-run of a one-shot. -/
theorem imageless_gateOneShot (timeout pollInterval : Duration) (cleanup : Cleanup) :
    Emits (fun _ => True) Imageless
      (gateOneShot docker timeout pollInterval cleanup ts (.completed cycle)) fun _ => True := by
  refine emits_bind (emits_waitForExit hushed_imageless docker _ _ _) fun exit _ => ?_
  cases exit with
  | timedOut => exact emits_done trivial
  | exited exitCode =>
      simp only [concludeOneShot]
      split
      · refine emits_bind (imageless_reattachDependents cycle _ _) fun _ _ => ?_
        refine emits_bind (emits_request (fun _ => rfl) fun _ _ => trivial) fun _ _ => ?_
        exact emits_bind (emits_runCleanup _ _ (fun _ _ => rfl) fun _ => rfl)
          fun _ _ => emits_done trivial
      · exact emits_done trivial

end Gates

/-- A cycle uses the reference of an inspect of its container. -/
def CycleUses (rely : CallEvent → Prop) (name : String) (e : CallEvent) : Prop :=
  match e.call with
  | .createImage image => ∃ spec, Inspected rely name spec ∧ image = ImageRef.parse spec.imageRef
  | .createContainer role name' body =>
      role = .update ∧ ∃ spec, Inspected rely name spec ∧ name' = spec.name ∧
        body.image = some spec.imageRef
  | _ => True

theorem emits_recreateOne_uses (rely : CallEvent → Prop) (docker : Docker) (name : String)
    (hooks : LifecycleHooks) (ts : TsProvider) :
    Emits rely (CycleUses rely name) (recreateOne docker name hooks ts).run fun _ => True := by
  have hushed : Hushed (CycleUses rely name) := by
    intro call reply hquiet hpull
    cases call <;> trivial
  refine (emits_recreateOne hushed docker name hooks ts ?_ ?_ ?_).weaken fun _ _ => trivial
  · intro spec hspec reply
    exact ⟨spec, hspec, rfl⟩
  · intro hook _ reply
    trivial
  · intro spec hspec
    exact {
      stop := fun _ _ _ => trivial
      rename := fun _ _ => trivial
      create := fun _ => ⟨rfl, spec, hspec, rfl, rfl⟩
      start := fun _ _ _ => trivial }

/-! ## The parts of a step -/

/-- The parts of the steps for `names`: cycles of these, repairs, and what creates nothing. -/
inductive StepPart (docker : Docker) (ts : TsProvider) (names : List String) :
    List CallEvent → Prop where
  | idle {events : List CallEvent} : (∀ e ∈ events, NotCreate e) → StepPart docker ts names events
  | repair {events : List CallEvent} (owner : String) (newOwnerId : Option String) (d : String)
      (out : Option (Except DockerError Unit)) :
      Produces (reattachOne owner newOwnerId d ts).run events out → StepPart docker ts names events
  | cycle {events : List CallEvent} (name : String) (hooks : LifecycleHooks)
      (out : Option (Except DockerError CycleOutcome)) : name ∈ names →
      Produces (recreateOne docker name hooks ts).run events out → StepPart docker ts names events

section Parts

variable {docker : Docker} {ts : TsProvider} {names : List String}

theorem tiles_idle {α : Type} {p : Prog α} {post : α → Prop}
    (h : Emits (fun _ => True) NotCreate p post) : Tiles (StepPart docker ts names) p :=
  tiles_of_tile fun _ _ produced => .idle (notCreate_of_emits h produced)

theorem tiles_reattachDependents (owner : String) (newOwnerId : Option String)
    (dependents : List String) :
    Tiles (StepPart docker ts names) (reattachDependents owner newOwnerId ts dependents) := by
  induction dependents with
  | nil => exact tiles_done _
  | cons d ds ih =>
      exact tiles_bind (tiles_of_tile fun _ out produced => .repair owner newOwnerId d out produced)
        fun _ => ih

theorem tiles_cleanup (cleanup : Cleanup) (oldImageId : Option String) {α : Type} (a : α) :
    Tiles (StepPart docker ts names) (runCleanup cleanup oldImageId >>= fun _ => pure a) :=
  tiles_bind (tiles_idle (emits_runCleanup _ _ (fun _ _ => rfl) fun _ => rfl)) fun _ => tiles_done _

theorem tiles_recreateOne {name : String} (hname : name ∈ names) (hooks : LifecycleHooks) :
    Tiles (StepPart docker ts names) (recreateOne docker name hooks ts).run :=
  tiles_of_tile fun _ out produced => .cycle name hooks out hname produced

theorem tiles_remove (role : Role) (ref : String) (force : Bool) :
    Tiles (StepPart docker ts names) (remove role ref force).run := by
  have still : Emits (fun _ => True) NotCreate (remove role ref force).run fun _ => True :=
    emits_request (fun _ => rfl) fun _ _ => trivial
  exact tiles_idle still

theorem tiles_recreateWithHealth {name : String} (hname : name ∈ names) (cfg : HealthConfig)
    (cleanup : Cleanup) (hooks : LifecycleHooks) :
    Tiles (StepPart docker ts names) (recreateWithHealth docker name cfg cleanup hooks ts).run := by
  refine tiles_except_bind (tiles_recreateOne hname hooks) fun outcome => ?_
  cases outcome with
  | skipped reason => exact tiles_done _
  | completed cycle =>
      have undone (reason : RollbackReason) :
          Tiles (StepPart docker ts names) (undoUpdate cycle reason ts).run := by
        refine tiles_except_bind (tiles_idle (emits_rollback (fun _ _ _ => rfl) (fun _ => rfl)
          (fun _ => rfl) (fun _ => rfl) _ reason)) fun _ => ?_
        exact tiles_lift_bind (tiles_reattachDependents _ _ _) fun _ => tiles_done _
      refine tiles_lift_bind (tiles_idle (emits_waitForHealth quiet_notCreate docker _ cfg))
        fun verdict => ?_
      cases verdict with
      | healthy =>
          refine tiles_lift (tiles_bind (tiles_reattachDependents _ _ _) fun _ => ?_)
          refine tiles_bind (tiles_remove _ _ _) fun _ => ?_
          refine tiles_bind (tiles_idle (emits_runPostUpdateHook _ _ fun _ _ _ => rfl)) fun _ => ?_
          exact tiles_cleanup _ _ _
      | timeout => exact undone .healthTimeout
      | crashed => exact undone .crashed

theorem tiles_recreateOneShot {name : String} (hname : name ∈ names)
    (timeout pollInterval : Duration) (cleanup : Cleanup) (hooks : LifecycleHooks) :
    Tiles (StepPart docker ts names)
      (recreateOneShot docker name timeout pollInterval cleanup hooks ts).run := by
  refine tiles_except_bind (tiles_recreateOne hname _) fun outcome => tiles_lift ?_
  cases outcome with
  | skipped reason => exact tiles_done _
  | completed cycle =>
      refine tiles_bind (tiles_idle (emits_waitForExit quiet_notCreate docker _ _ _)) fun exit => ?_
      cases exit with
      | timedOut => exact tiles_done _
      | exited exitCode =>
          simp only [concludeOneShot]
          split
          · refine tiles_bind (tiles_reattachDependents _ _ _) fun _ => ?_
            exact tiles_bind (tiles_remove _ _ _) fun _ => tiles_cleanup _ _ _
          · exact tiles_done _

/-- **A step is a cycle of its target, repairs, and calls that create nothing.** -/
theorem tiles_runTarget (cfg : RolloutConfig) {target : PlannedTarget}
    (htarget : target.container ∈ names) :
    Tiles (StepPart docker ts names) (runTarget docker cfg ts target) := by
  unfold runTarget
  split
  · exact tiles_map (tiles_recreateOneShot htarget _ _ _ _)
  · exact tiles_map (tiles_recreateWithHealth htarget _ _ _)

theorem Ran.tiled {cfg : RolloutConfig} {targets : List PlannedTarget} {events : List CallEvent}
    {steps : List RolloutStep} (ran : Ran docker cfg ts targets events steps)
    (htargets : ∀ t ∈ targets, t.container ∈ names) :
    Tiled (StepPart docker ts names) events := by
  induction ran with
  | nil => exact .nil
  | cons run _ ih =>
      exact (tiles_runTarget cfg (htargets _ List.mem_cons_self) _ _ run).append
        (ih fun t ht => htargets t (List.mem_cons_of_mem _ ht))

end Parts

/-! ## References of a listing -/

/-- The reference that a listing gives a name. -/
def listedRef (members : List ProjectMember) (name : String) : Option String :=
  (members.find? fun m => m.name == name).map ProjectMember.imageRef

/-- The images that containers were created from under a name. -/
def createdImages (history : List CallEvent) (name : String) : List String :=
  history.filterMap fun e =>
    match e.call with
    | .createContainer _ name' body => if name' = name then body.image else none
    | _ => none

/-- An inspect by a listed name reports that name, and the reference of the listing or of a
container that was created under the name since. -/
def reportsTruth (members : List ProjectMember) (history : List CallEvent) (e : CallEvent) : Bool :=
  match e with
  | ⟨.inspectContainer name, some (.ok resp)⟩ =>
      match listedRef members name, ContainerSpec.fromInspect resp with
      | some ref, .ok spec =>
          spec.name == name && (ref :: createdImages history name).contains spec.imageRef
      | _, _ => true
  | _ => true

/-- Nobody else changed the containers of the listing. -/
def Undisturbed (members : List ProjectMember) (events : List CallEvent) : Prop :=
  ∀ before e after, events = before ++ e :: after → reportsTruth members before e = true

/-- A lookup that follows an inspect of `name` finds the image that the container runs. -/
def findsOwnImage (name : String) (e e' : CallEvent) : Bool :=
  match e, e' with
  | ⟨.inspectContainer name', some (.ok resp)⟩, ⟨.inspectImage _, some reply⟩ =>
      name' != name || resp.image.all fun id => resolvesTo id reply
  | _, _ => true

/-- Wherever a repair looked the tag of `name` up, it found the image that the container runs. -/
def TagKept (name : String) (events : List CallEvent) : Prop :=
  events.IsChain fun e e' => findsOwnImage name e e' = true

theorem mem_createdImages {history : List CallEvent} {name image : String} :
    image ∈ createdImages history name ↔
      ∃ e ∈ history, ∃ role body, e.call = .createContainer role name body ∧
        body.image = some image := by
  simp only [createdImages, List.mem_filterMap]
  constructor
  · rintro ⟨e, he, himage⟩
    refine ⟨e, he, ?_⟩
    split at himage
    · next role name' body hcall =>
      split at himage
      · next hname => exact ⟨role, body, by rw [hcall, hname], himage⟩
      · cases himage
    · cases himage
  · rintro ⟨e, he, role, body, hcall, himage⟩
    exact ⟨e, he, by simp [hcall, himage]⟩

/-- Every create under the name was made from `ref`. -/
def AllFrom (name ref : String) (events : List CallEvent) : Prop :=
  ∀ image ∈ createdImages events name, image = ref

section References

variable {members : List ProjectMember} {name ref : String} {events : List CallEvent}

theorem AllFrom.left {first rest : List CallEvent} (h : AllFrom name ref (first ++ rest)) :
    AllFrom name ref first := by
  intro image himage
  refine h image ?_
  rw [createdImages, List.filterMap_append]
  exact List.mem_append_left _ himage

/-- A history goes on being made from `ref` when its next event is. -/
theorem AllFrom.snoc {history : List CallEvent} {e : CallEvent} (h : AllFrom name ref history)
    (next : ∀ role body, e.call = .createContainer role name body → ∀ image,
      body.image = some image → image = ref) : AllFrom name ref (history ++ [e]) := by
  intro image himage
  obtain ⟨e', he', role, body, hcall, hbody⟩ := mem_createdImages.mp himage
  rcases List.mem_append.mp he' with he' | he'
  · exact h image (mem_createdImages.mpr ⟨e', he', role, body, hcall, hbody⟩)
  · obtain rfl := List.mem_singleton.mp he'
    exact next role body hcall image hbody

/-- An inspect by a listed name reports that name, and its reference while every create under it
was made from that. -/
theorem Undisturbed.reported (undisturbed : Undisturbed members events)
    (listed : listedRef members name = some ref) {before after : List CallEvent}
    {resp : ContainerInspectResponse} {spec : ContainerSpec}
    (hplace : events = before ++ ⟨.inspectContainer name, some (.ok resp)⟩ :: after)
    (read : ContainerSpec.fromInspect resp = .ok spec) :
    spec.name = name ∧ (AllFrom name ref before → spec.imageRef = ref) := by
  have htruth := undisturbed before _ after hplace
  simp only [reportsTruth, listed, read, Bool.and_eq_true, beq_iff_eq, List.contains_iff_mem,
    List.mem_cons] at htruth
  obtain ⟨hname, himage⟩ := htruth
  refine ⟨hname, fun allFrom => ?_⟩
  rcases himage with himage | himage
  · exact himage
  · exact allFrom _ himage

/-- What an inspect told before `e` is true of a listed container. -/
theorem Undisturbed.told (undisturbed : Undisturbed members events)
    (listed : listedRef members name = some ref) {first inner after : List CallEvent}
    {e : CallEvent} {spec : ContainerSpec} (hplace : events = first ++ inner ++ e :: after)
    (hcall : ∀ asked, e.call ≠ .inspectContainer asked)
    (hspec : Inspected (fun e' => e' ∈ inner ++ [e]) name spec) :
    spec.name = name ∧ (AllFrom name ref (first ++ inner) → spec.imageRef = ref) := by
  obtain ⟨resp, hmem, hread⟩ := hspec
  have hinner : ⟨.inspectContainer name, some (.ok resp)⟩ ∈ inner := by
    rcases List.mem_append.mp hmem with hmem | hmem
    · exact hmem
    · obtain rfl := List.mem_singleton.mp hmem
      exact absurd rfl (hcall name)
  obtain ⟨h1, h2, rfl⟩ := List.append_of_mem hinner
  have hinspect : events = (first ++ h1) ++ ⟨.inspectContainer name, some (.ok resp)⟩ ::
      (h2 ++ e :: after) := by rw [hplace]; simp
  obtain ⟨hname, himageRef⟩ := undisturbed.reported listed hinspect hread
  refine ⟨hname, fun allFrom => himageRef ?_⟩
  rw [← List.append_assoc] at allFrom
  exact allFrom.left

/-- **A cycle creates under a listed name from its reference.** -/
theorem created_of_cycleUses {name' ref' : String} {first inner after : List CallEvent}
    {e : CallEvent} (undisturbed : Undisturbed members events)
    (listed : listedRef members name = some ref) (listed' : listedRef members name' = some ref')
    (hplace : events = first ++ inner ++ e :: after)
    (uses : CycleUses (fun e' => e' ∈ inner ++ [e]) name' e)
    (allFrom : AllFrom name ref (first ++ inner)) :
    ∀ role body, e.call = .createContainer role name body → ∀ image, body.image = some image →
      image = ref := by
  intro role body hcall image himage
  unfold CycleUses at uses
  rw [hcall] at uses
  obtain ⟨-, spec, hspec, hname, hbody⟩ := uses
  have hnot : ∀ asked, e.call ≠ .inspectContainer asked := by simp [hcall]
  obtain rfl : name = name' := hname.trans (undisturbed.told listed' hplace hnot hspec).1
  rw [hbody] at himage
  cases himage
  exact (undisturbed.told listed hplace hnot hspec).2 allFrom

/-- **A repair creates under a listed name from its reference, where the tag has not moved.** -/
theorem created_of_repair {owner d : String} {newOwnerId : Option String} {ts : TsProvider}
    {out : Option (Except DockerError Unit)} {first inner last after : List CallEvent}
    {e : CallEvent} (undisturbed : Undisturbed members events)
    (listed : listedRef members name = some ref)
    (hplace : events = first ++ inner ++ e :: after) (kept : TagKept name (first ++ inner))
    (h : Produces (reattachOne owner newOwnerId d ts).run (inner ++ e :: last) out)
    (allFrom : AllFrom name ref (first ++ inner)) :
    ∀ role body, e.call = .createContainer role name body → ∀ image, body.image = some image →
      image = ref := by
  intro role body hcall image himage
  obtain ⟨rfl, resp, spec, image', asked, more, rfl, hread, hasked, hbody⟩ :=
    repair_creates h rfl hcall
  rw [hbody] at himage
  cases himage
  have hinspect : events = first ++ ⟨.inspectContainer name, some (.ok resp)⟩ ::
      (asked ++ more ++ e :: after) := by rw [hplace]; simp
  have href := (undisturbed.reported listed hinspect hread).2 allFrom.left
  obtain ⟨_, _, -, -, -, -, himageId, -⟩ := fromInspect_ok hread
  rcases produces_repairImage hasked with ⟨-, rfl, -⟩ | ⟨id, reply, hid, -, rfl, rfl⟩
  · rw [imageRef_repairSpec, href]
  · have hown : resp.image = some id := by rw [← himageId, ← hid, imageId_repairSpec]
    have hresolves : resolvesTo id reply = true := by
      have hpair := (List.isChain_cons_cons.mp kept.right_of_append).1
      simpa [findsOwnImage, hown] using hpair
    rw [hresolves, imageRef_repairSpec]
    exact href

/-- **Every create under a listed name is made from its reference**, in steps whose repairs of it
find its tag where it was. -/
theorem allFrom_of_parts {docker : Docker} {ts : TsProvider} {names : List String}
    {run rest : List CallEvent} (undisturbed : Undisturbed members (run ++ rest))
    (hnames : ∀ n ∈ names, ∃ ref, listedRef members n = some ref)
    (listed : listedRef members name = some ref) (kept : TagKept name run)
    (tiled : Tiled (StepPart docker ts names) run) : AllFrom name ref run := by
  have hall : ∀ before after, run = before ++ after → AllFrom name ref before := by
    intro before
    induction before using List.reverseRecOn with
    | nil =>
        intro after _ image himage
        cases himage
    | append_singleton before e ih =>
        intro after hplace
        have hplace' : run = before ++ e :: after := by rw [hplace]; simp
        have allFrom := ih (e :: after) hplace'
        refine allFrom.snoc ?_
        obtain ⟨first, inner, last, more, rfl, rfl, part⟩ := tiled.place hplace'
        have hevents : run ++ rest = first ++ inner ++ e :: (last ++ more ++ rest) := by
          rw [hplace']
          simp
        cases part with
        | idle still =>
            intro role body hcall image himage
            have hnot : Creates e.call = false := still e (by simp)
            rw [hcall] at hnot
            cases hnot
        | repair owner newOwnerId d out h =>
            refine created_of_repair undisturbed listed hevents ?_ h allFrom
            rw [hplace'] at kept
            exact kept.left_of_append
        | cycle name' hooks out hname' h =>
            obtain ⟨ref', listed'⟩ := hnames name' hname'
            have uses := emits_at_place
              (fun rely => emits_recreateOne_uses rely docker name' hooks ts) h rfl
            intro role body hcall image himage
            exact created_of_cycleUses undisturbed listed listed' hevents uses allFrom role body
              hcall image himage
  exact hall run [] (List.append_nil run).symm

end References

/-! ## The step of a target -/

/-- An event of the step of `name` pulls `ref`, and creates the replacement from it. -/
def Uses (name ref : String) (e : CallEvent) : Prop :=
  (∀ image, e.call = .createImage image → image = ImageRef.parse ref) ∧
  ∀ name' body, e.call = .createContainer .update name' body →
    name' = name ∧ body.image = some ref

theorem uses_of_imageless {name ref : String} {e : CallEvent} (h : Imageless e) :
    Uses name ref e := by
  unfold Imageless usesImage updateCreate at h
  constructor
  · intro image hcall
    rw [hcall] at h
    cases h
  · intro name' body hcall
    rw [hcall] at h
    cases h

section Step

variable {docker : Docker} {cfg : RolloutConfig} {ts : TsProvider} {target : PlannedTarget}

/-- A cycle that was followed by calls without an image, or was not followed. -/
theorem cycle_of_bind {ε : Type} {name : String} {hooks : LifecycleHooks}
    {k : CycleOutcome → Op ε} (imageless : ∀ outcome,
      Emits (fun _ => True) Imageless (k outcome).run fun _ => True)
    {run : List CallEvent} {out : Option (Except DockerError ε)}
    (h : Produces (recreateOne docker name hooks ts >>= k).run run out) :
    ∃ cycled gated out', run = cycled ++ gated ∧
      Produces (recreateOne docker name hooks ts).run cycled out' ∧ ∀ e ∈ gated, Imageless e := by
  rcases h.of_except_bind with
    ⟨-, hcycle⟩ | ⟨e, -, hcycle⟩ | ⟨cycled, outcome, gated, rfl, hcycle, hgate⟩
  · exact ⟨run, [], _, (List.append_nil run).symm, hcycle, by simp⟩
  · exact ⟨run, [], _, (List.append_nil run).symm, hcycle, by simp⟩
  · exact ⟨cycled, gated, _, rfl, hcycle, (imageless outcome _ _ hgate fun _ _ => trivial).1⟩

/-- A step is the cycle of its target, and then uses no image. -/
theorem cycle_of_runTarget {run : List CallEvent} {out : Option (Except AbortReason RolloutStep)}
    (h : Produces (runTarget docker cfg ts target) run out) :
    ∃ cycled gated hooks out', run = cycled ++ gated ∧
      Produces (recreateOne docker target.container hooks ts).run cycled out' ∧
      ∀ e ∈ gated, Imageless e := by
  unfold runTarget at h
  split at h
  · obtain ⟨_, h⟩ := h.exists_of_map
    obtain ⟨cycled, gated, out', parts⟩ := cycle_of_bind (fun outcome => by
      cases outcome with
      | skipped reason => exact emits_lift (emits_done trivial)
      | completed cycle => exact emits_lift (imageless_gateOneShot cycle _ _ _)) h
    exact ⟨cycled, gated, _, out', parts⟩
  · obtain ⟨_, h⟩ := h.exists_of_map
    obtain ⟨cycled, gated, out', parts⟩ := cycle_of_bind (fun outcome => by
      cases outcome with
      | skipped reason => exact emits_done trivial
      | completed cycle => exact imageless_gateUpdate cycle _ _ _) h
    exact ⟨cycled, gated, _, out', parts⟩

/-- **The step of a listed target pulls its reference and creates from it**, when every create under
its name before the step was made from it. -/
theorem uses_of_runTarget {members : List ProjectMember} {ref : String}
    {before run rest : List CallEvent} {out : Option (Except AbortReason RolloutStep)}
    (undisturbed : Undisturbed members (before ++ run ++ rest))
    (listed : listedRef members target.container = some ref)
    (allFrom : AllFrom target.container ref before)
    (h : Produces (runTarget docker cfg ts target) run out) :
    ∀ e ∈ run, Uses target.container ref e := by
  obtain ⟨cycled, gated, hooks, out', rfl, hcycle, himageless⟩ := cycle_of_runTarget h
  have uses {p q : List CallEvent} {e : CallEvent} (hplace : cycled = p ++ e :: q) :
      CycleUses (fun e' => e' ∈ p ++ [e]) target.container e :=
    emits_at_place (fun rely => emits_recreateOne_uses rely docker target.container hooks ts)
      hcycle hplace
  have hevents {p q : List CallEvent} {e : CallEvent} (hplace : cycled = p ++ e :: q) :
      before ++ (cycled ++ gated) ++ rest = before ++ p ++ e :: (q ++ gated ++ rest) := by
    rw [hplace]
    simp
  have allFromCycled : ∀ p q, cycled = p ++ q → AllFrom target.container ref (before ++ p) := by
    intro p
    induction p using List.reverseRecOn with
    | nil =>
        intro q _
        rwa [List.append_nil]
    | append_singleton p e ih =>
        intro q hplace
        have hplace' : cycled = p ++ e :: q := by rw [hplace]; simp
        have allFrom' := ih (e :: q) hplace'
        rw [← List.append_assoc]
        exact allFrom'.snoc (created_of_cycleUses undisturbed listed listed (hevents hplace')
          (uses hplace') allFrom')
  intro e he
  rcases List.mem_append.mp he with he | he
  · obtain ⟨p, q, hplace⟩ := List.append_of_mem he
    have huses := uses hplace
    have told {spec : ContainerSpec} (hcall : ∀ asked, e.call ≠ .inspectContainer asked)
        (hspec : Inspected (fun e' => e' ∈ p ++ [e]) target.container spec) :
        spec.name = target.container ∧ spec.imageRef = ref := by
      obtain ⟨hname, href⟩ := undisturbed.told listed (hevents hplace) hcall hspec
      exact ⟨hname, href (allFromCycled p _ hplace)⟩
    unfold CycleUses at huses
    constructor
    · intro image hcall
      rw [hcall] at huses
      obtain ⟨spec, hspec, rfl⟩ := huses
      rw [(told (by simp [hcall]) hspec).2]
    · intro name' body hcall
      rw [hcall] at huses
      obtain ⟨-, spec, hspec, rfl, hbody⟩ := huses
      obtain ⟨hname, href⟩ := told (by simp [hcall]) hspec
      exact ⟨hname, by rw [hbody, href]⟩
  · exact uses_of_imageless (himageless e he)

end Step

/-! ## The result -/

section Result

variable {docker : Docker} {cfg : RolloutConfig} {ts : TsProvider}

/-- `run` is what was seen of the step of `target`, and `before` what was seen of the steps of the
targets before it. -/
def Reaches (docker : Docker) (cfg : RolloutConfig) (ts : TsProvider)
    (targets : List PlannedTarget) (events before : List CallEvent) (target : PlannedTarget)
    (run : List CallEvent) : Prop :=
  ∃ finished todo steps out after, targets = finished ++ target :: todo ∧
    events = before ++ run ++ after ∧ Ran docker cfg ts finished before steps ∧
    Produces (runTarget docker cfg ts target) run out

/-- Every event of the targets belongs to the step of one of them. -/
theorem exists_reached_of_runTargets {targets : List PlannedTarget} {progress : Progress}
    {events : List CallEvent} {out : Option Progress}
    (h : Produces (runTargets docker cfg ts targets progress) events out) (after : List CallEvent) :
    ∀ e ∈ events, ∃ before target run,
      Reaches docker cfg ts targets (events ++ after) before target run ∧ e ∈ run := by
  induction targets generalizing progress events out after with
  | nil =>
      obtain ⟨rfl, -⟩ := produces_done_iff.mp h
      simp
  | cons head targets ih =>
      intro e he
      rcases h.of_bind with ⟨-, hhead⟩ | ⟨first, verdict, rest, rfl, hhead, hrest⟩
      · exact ⟨[], head, events, ⟨[], targets, [], _, after, rfl, rfl, .nil, hhead⟩, he⟩
      rcases List.mem_append.mp he with he | he
      · exact ⟨[], head, first, ⟨[], targets, [], _, rest ++ after, rfl, by simp, .nil, hhead⟩, he⟩
      cases verdict with
      | error reason =>
          obtain ⟨rfl, -⟩ := produces_done_iff.mp hrest
          cases he
      | ok step =>
          obtain ⟨before, target, run, ⟨finished, todo, steps, out', after', rfl, hevents, ran,
            reached⟩, he⟩ := ih hrest after e he
          refine ⟨first ++ before, target, run, ⟨head :: finished, todo, step :: steps, out', after',
            rfl, ?_, .cons hhead ran, reached⟩, he⟩
          rw [List.append_assoc, hevents]
          simp

theorem imageless_concludeRollout (p : RolloutPlan) (progress : Progress) :
    Emits (fun _ => True) Imageless (concludeRollout p progress) fun _ => True := by
  have restart (container : String) :
      Emits (fun _ => True) Imageless (restartDependent container).run fun _ => True := by
    have options : Emits (fun _ => True) Imageless (stopOptions container) fun _ => True :=
      emits_bind (emits_inspect hushed_imageless container) fun _ _ => emits_done trivial
    refine emits_lift_bind options fun _ _ => ?_
    exact emits_except_bind (emits_request (fun _ => rfl) fun _ _ _ _ => trivial) (fun _ => trivial)
      fun _ _ => emits_request (fun _ => rfl) fun _ _ => trivial
  have restarts (containers : List String) :
      Emits (fun _ => True) Imageless (runRestarts containers) fun _ => True := by
    induction containers with
    | nil => exact emits_done trivial
    | cons container containers ih =>
        exact emits_bind (restart container) fun _ _ => emits_bind ih fun _ _ => emits_done trivial
  unfold concludeRollout
  split
  · exact emits_done trivial
  · exact emits_bind (restarts _) fun _ _ => emits_done trivial

variable {project trigger : String} {members : List ProjectMember} {tag : Option String}
  {defaults : PolicyDefaults} {own : Option String}

theorem listedRef_of_target {target : PlannedTarget}
    (h : target ∈ (plan project members trigger tag defaults own).targets) :
    ∃ ref, listedRef members target.container = some ref := by
  obtain ⟨origin, -, m, hm, htarget⟩ := mem_targets_plan.mp h
  obtain ⟨_, -, -, -, hname, -⟩ := targetOf_eq_some.mp htarget
  have hsome : (members.find? fun m => m.name == target.container).isSome := by
    rw [List.find?_isSome]
    exact ⟨m, (List.mem_filter.mp hm).1, by simp [hname]⟩
  obtain ⟨found, hfound⟩ := Option.isSome_iff_exists.mp hsome
  exact ⟨found.imageRef, by rw [listedRef, hfound]; rfl⟩

/-- The pulls of a rollout, and the creates of its replacements, belong to the steps of its
targets. -/
theorem exists_reached_of_execute {p : RolloutPlan} {events : List CallEvent}
    {out : Option RolloutReport} (h : Produces (execute docker p cfg ts) events out) {e : CallEvent}
    (he : e ∈ events) (huses : usesImage e = true) :
    ∃ before target run, Reaches docker cfg ts p.targets events before target run ∧ e ∈ run := by
  rcases h.of_bind with ⟨-, hrun⟩ | ⟨first, progress, rest, rfl, hrun, hconclude⟩
  · have hreached := exists_reached_of_runTargets hrun [] e he
    rwa [List.append_nil] at hreached
  rcases List.mem_append.mp he with he | he
  · exact exists_reached_of_runTargets hrun rest e he
  · have himageless := (imageless_concludeRollout p progress _ _ hconclude fun _ _ => trivial).1 e he
    exact absurd (huses.symm.trans himageless) (by decide)

/-- **A rollout updates its targets from the references they were planned on.** Its pulls, and the
creates of its replacements, are those of the steps of its targets; and a step whose target's
tag was found in its place by the repairs before it pulls the reference of the listing, and
creates from it under the name of the listing. -/
theorem execute_usesListed {events : List CallEvent} {out : Option RolloutReport}
    (h : Produces (execute docker (plan project members trigger tag defaults own) cfg ts) events out)
    (undisturbed : Undisturbed members events) :
    (∀ e ∈ events, usesImage e = true → ∃ before target run,
      Reaches docker cfg ts (plan project members trigger tag defaults own).targets events before
        target run ∧ e ∈ run) ∧
    ∀ before target run,
      Reaches docker cfg ts (plan project members trigger tag defaults own).targets events before
        target run →
      TagKept target.container before →
      ∃ ref, listedRef members target.container = some ref ∧
        ∀ e ∈ run, Uses target.container ref e := by
  refine ⟨fun e he huses => exists_reached_of_execute h he huses, ?_⟩
  rintro before target run ⟨finished, todo, steps, out', after, htargets, rfl, ran, reached⟩ kept
  have hlisted : ∀ t ∈ finished ++ target :: todo, ∃ ref,
      listedRef members t.container = some ref := by
    intro t ht
    rw [← htargets] at ht
    exact listedRef_of_target ht
  obtain ⟨ref, listed⟩ := hlisted target (by simp)
  refine ⟨ref, listed, ?_⟩
  have tiled := @Ran.tiled docker ts (finished.map PlannedTarget.container) cfg _ _ _ ran
    fun t ht => List.mem_map_of_mem ht
  have allFrom : AllFrom target.container ref before := by
    rw [List.append_assoc] at undisturbed
    refine allFrom_of_parts undisturbed ?_ listed kept tiled
    intro n hn
    obtain ⟨t, ht, rfl⟩ := List.mem_map.mp hn
    exact hlisted t (List.mem_append_left _ ht)
  exact uses_of_runTarget undisturbed listed allFrom reached

end Result

/-! ## A sidecar of the same image -/

theorem undisturbed_of_all {members : List ProjectMember} {events : List CallEvent}
    (h : ((List.range events.length).all fun n =>
      events[n]?.all (reportsTruth members (events.take n))) = true) :
    Undisturbed members events := by
  rintro before e after rfl
  have hplace := List.all_eq_true.mp h before.length (by simp)
  simpa using hplace

/-- Two containers of the image `app`; `side` joins the network namespace of `app`. -/
def sharedRow (name : String) : ContainerSummary :=
  { stackRow name name "" "live" .running with
    networkMode := if name = "side" then some "container:app" else none }

def sharedMembers : List ProjectMember :=
  [projectMember (sharedRow "app"), projectMember (sharedRow "side")]

def sharedPlan : RolloutPlan :=
  plan "stack" sharedMembers "app" none ⟨none, false, false⟩ none

/-- Carries out every call. The containers run the image `sha256:old`, which the tag `app` resolves
to unless it has `moved`; then `side` is found pinned from the twentieth call on, after it was
created from that id. -/
def sharedDaemon (moved : Bool) : Oracle where
  fault _ := .none
  report n :=
    { inspectReport "" (if moved && 20 ≤ n then "sha256:old" else "app") (fun _ => none)
        ⟨some .running, some true, none, none, some .healthy⟩ with
      image := some "sha256:old" }
  shown _ _ := true
  row _ c := sharedRow c.name
  hook _ := .completed 0
  image _ := ⟨some (if moved then "sha256:new" else "sha256:old"), none⟩
  id n := "id" ++ toString n
  clock _ := 0
  unixTime _ := 0

def sharedRun (moved : Bool) : Run Call Call.Reply World RolloutReport :=
  play (sharedDaemon moved).answer (execute ⟨"1.44", none, 1⟩ sharedPlan .default (.fixed 5))
    ⟨[⟨"1a", "app", true⟩, ⟨"1b", "side", true⟩], ["1a", "1b"], 0⟩

theorem sharedRun_undisturbed (moved : Bool) : Undisturbed sharedMembers (sharedRun moved).trace := by
  cases moved with
  | false => exact undisturbed_of_all (by decide +kernel)
  | true => exact undisturbed_of_all (by decide +kernel)

theorem sharedRun_produced (moved : Bool) :
    Produces (execute ⟨"1.44", none, 1⟩ sharedPlan .default (.fixed 5)) (sharedRun moved).trace
      (sharedRun moved).out :=
  play_produces _ _ _

/-- With the tag in its place, both are updated from the reference of the listing. -/
theorem execute_usesListed_shared :
    TagKept "side" (sharedRun false).trace ∧ ∀ before target run,
      Reaches ⟨"1.44", none, 1⟩ .default (.fixed 5) sharedPlan.targets (sharedRun false).trace before
        target run →
      TagKept target.container before →
      ∃ ref, listedRef sharedMembers target.container = some ref ∧
        ∀ e ∈ run, Uses target.container ref e :=
  ⟨by unfold TagKept; decide +kernel,
    (execute_usesListed (sharedRun_produced false) (sharedRun_undisturbed false)).2⟩

theorem sharedPlan_targets : sharedPlan.targets.map PlannedTarget.container = ["app", "side"] := by
  decide +kernel

theorem listedRef_shared {name : String} (h : name ∈ ["app", "side"]) :
    listedRef sharedMembers name = some "app" := by
  rcases List.mem_cons.mp h with rfl | h
  · rfl
  · obtain rfl := List.mem_singleton.mp h
    rfl

/-- **With the tag moved, the update of `app` pins `side` before its turn**, and the step of `side`
pulls the image id. -/
theorem pinned_before_its_turn :
    Undisturbed sharedMembers (sharedRun true).trace ∧
      (∃ body reply, ⟨.createContainer .update "side" body, reply⟩ ∈ (sharedRun true).trace ∧
        body.image = some "sha256:old") ∧
      ¬ ∀ before target run,
        Reaches ⟨"1.44", none, 1⟩ .default (.fixed 5) sharedPlan.targets (sharedRun true).trace before
          target run →
        ∃ ref, listedRef sharedMembers target.container = some ref ∧
          ∀ e ∈ run, Uses target.container ref e := by
  refine ⟨sharedRun_undisturbed true, ⟨_, _, @List.mem_of_getElem? _ _ 27 _ rfl, rfl⟩, ?_⟩
  intro huses
  have hpull : ⟨.createImage (ImageRef.parse "sha256:old"), some (.ok ())⟩ ∈
      (sharedRun true).trace := @List.mem_of_getElem? _ _ 21 _ rfl
  obtain ⟨before, target, run, reached, hrun⟩ :=
    exists_reached_of_execute (sharedRun_produced true) hpull rfl
  obtain ⟨ref, hlisted, hall⟩ := huses before target run reached
  obtain ⟨finished, todo, -, -, -, htargets, -⟩ := reached
  have hmem : target.container ∈ ["app", "side"] := by
    rw [← sharedPlan_targets, htargets]
    simp
  rw [listedRef_shared hmem] at hlisted
  cases hlisted
  exact absurd ((hall _ hrun).1 _ rfl) (by decide)

end Freshdock.Rollout
