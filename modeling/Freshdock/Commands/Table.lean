import Freshdock.Commands.Check
import Freshdock.Docker.Obliging
import Freshdock.Foundation.Fallible
import Freshdock.Interaction.Inline
import Freshdock.Interaction.Steady

/-!
# What the check asks and shows

**It asks little.** A check only reads. An image is inspected once, however many containers have it,
and a registry is asked for it once; one that is pinned is not asked for at all (`check_asks_once`).

**It shows what is so.** The probes are shared between the containers and run in an order that the
answers have the say in. While the daemon and the registries do not change, the table is still the
one that probing each container by itself makes (`table_as_plain`).
-/

set_option autoImplicit false

namespace Freshdock.Check

open Interaction Docker Probe
open Labels (PolicyDefaults)
open Registry (ImageRef isImageId isPinned)

/-! ## What is asked -/

/-- A call that a check can make. -/
def reads : Call → Bool
  | .listRunning | .inspectContainer _ | .inspectImage _ | .fetchDigest _ => true
  | _ => false

def inspectedContainer (e : CallEvent) : Option String :=
  match e.call with
  | .inspectContainer id => some id
  | _ => none

def inspectedImage (e : CallEvent) : Option String :=
  match e.call with
  | .inspectImage image => some image
  | _ => none

def fetchedImage (e : CallEvent) : Option ImageRef :=
  match e.call with
  | .fetchDigest image => some image
  | _ => none

/-- The id that a container is inspected by, when its listing does not name its image. -/
def askedId (c : ContainerSummary) : Option String :=
  if c.image.any isImageId then c.id else none

section Asked

variable {events : List CallEvent}

/-- What a resolution asks: the daemon, for the one container. -/
structure Resolves (c : ContainerSummary) (events : List CallEvent) : Prop where
  reads : ∀ e ∈ events, reads e.call = true
  containers : (events.filterMap inspectedContainer).Sublist (askedId c).toList
  images : events.filterMap inspectedImage = []
  fetches : events.filterMap fetchedImage = []

theorem resolves_nil (c : ContainerSummary) : Resolves c [] :=
  ⟨by simp, List.nil_sublist _, rfl, rfl⟩

/-- What is to be probed for a container that was inspected. -/
def targetOf (spec : ContainerSpec) : ProbeTarget :=
  { image := spec.imageRef, imageId := spec.imageId }

theorem run_inspectTarget (id : String) :
    (inspectTarget id).run = (fun reply => reply.bind fun resp =>
      ((ContainerSpec.fromInspect resp).mapError .spec).map targetOf) <$>
        request (.inspectContainer id) := by
  refine congrArg (Program.ask (Call.inspectContainer id)) ?_
  funext reply
  cases reply with
  | error e => rfl
  | ok resp =>
      have read (spec : Except DockerError ContainerSpec) :
          ((ExceptT.mk (pure spec) : Op ContainerSpec) >>= fun spec => pure (targetOf spec)).run =
            .done (spec.map targetOf) := by
        cases spec <;> rfl
      exact read _

/-- **A resolution asks for its own container**, when that is needed. -/
theorem resolves_of_resolveTarget {c : ContainerSummary}
    {out : Option (Except DockerError ProbeTarget)}
    (h : Produces (resolveTarget c).run events out) : Resolves c events := by
  have nothing {r : Except DockerError ProbeTarget}
      (h : Produces (.done r : Prog (Except DockerError ProbeTarget)) events out) :
      Resolves c events := by
    obtain ⟨rfl, -⟩ := produces_done_iff.mp h
    exact resolves_nil c
  unfold resolveTarget at h
  split at h
  · exact nothing h
  next image himage =>
  split at h
  case isFalse => exact nothing h
  next hid =>
  split at h
  · exact nothing h
  next id hcontainer =>
  change Produces (inspectTarget id).run events out at h
  rw [run_inspectTarget] at h
  obtain ⟨reply', hasked⟩ := h.exists_of_map
  rcases Produces.request_cases hasked with ⟨rfl, -⟩ | ⟨reply, rfl, -⟩
  · exact resolves_nil c
  · have asked : askedId c = some id := by simp [askedId, himage, hid, hcontainer]
    exact ⟨by simp [reads], by simp [asked, inspectedContainer], rfl, rfl⟩

/-- What a probe asks: the daemon for the one image, and then the registry. -/
structure Probes (image : String) (events : List CallEvent) : Prop where
  reads : ∀ e ∈ events, reads e.call = true
  containers : events.filterMap inspectedContainer = []
  images : (events.filterMap inspectedImage).Sublist [image]
  unpinned : ∀ asked ∈ events.filterMap inspectedImage, isPinned asked = false
  fetches : (events.filterMap fetchedImage).Sublist
    ((events.filterMap inspectedImage).map ImageRef.parse)

theorem probes_of_probeImage {image : String} {out : Option ProbeOutcome}
    (h : Produces (probeImage image) events out) : Probes image events := by
  have nothing : Probes image [] := ⟨by simp, rfl, List.nil_sublist _, by simp, List.nil_sublist _⟩
  unfold probeImage at h
  split at h
  · obtain ⟨rfl, -⟩ := produces_done_iff.mp h
    exact nothing
  next hpinned =>
  have unpinned : isPinned image = false := by simpa using hpinned
  have inspected (reply : Option (Call.inspectImage image).Reply) :
      Probes image [⟨.inspectImage image, reply⟩] :=
    ⟨by simp [reads], rfl, List.Sublist.refl _, by simpa [inspectedImage] using unpinned,
      List.nil_sublist _⟩
  rcases h.of_bind with ⟨rfl, hfirst⟩ | ⟨first, local', rest, rfl, hfirst, hrest⟩
  · rcases Produces.request_cases hfirst with ⟨rfl, -⟩ | ⟨reply, rfl, -⟩
    · exact nothing
    · exact inspected reply
  obtain rfl := hfirst.of_request
  obtain ⟨out', hfetch⟩ := Produces.exists_of_map hrest
  rcases Produces.request_cases hfetch with ⟨rfl, -⟩ | ⟨reply, rfl, -⟩
  · exact inspected _
  · exact ⟨by simp [reads], rfl, List.Sublist.refl _, by simpa [inspectedImage] using unpinned,
      List.Sublist.refl _⟩

/-- What the containers ask together is what each of them asks. -/
theorem asks_of_resolutions {cs : List ContainerSummary}
    {parts : List (List CallEvent × Option (Except DockerError ProbeTarget))}
    (each : List.Forall₂ (fun c part => Resolves c part.1) cs parts) :
    (∀ e ∈ parts.flatMap Prod.fst, reads e.call = true) ∧
      ((parts.flatMap Prod.fst).filterMap inspectedContainer).Sublist (cs.filterMap askedId) ∧
      (parts.flatMap Prod.fst).filterMap inspectedImage = [] ∧
      (parts.flatMap Prod.fst).filterMap fetchedImage = [] := by
  induction each with
  | nil => exact ⟨by simp, List.nil_sublist _, rfl, rfl⟩
  | @cons c part cs parts first _ ih =>
      obtain ⟨hreads, hcontainers, himages, hfetches⟩ := ih
      simp only [List.flatMap_cons, List.filterMap_append, himages, hfetches, first.images,
        first.fetches, List.append_nil]
      refine ⟨fun e he => ?_, ?_, trivial, trivial⟩
      · rcases List.mem_append.mp he with he | he
        · exact first.reads e he
        · exact hreads e he
      · have asked : (c :: cs).filterMap askedId = (askedId c).toList ++ cs.filterMap askedId := by
          cases h : askedId c <;> simp [h]
        rw [asked]
        exact first.containers.append hcontainers

theorem asks_of_probes {images : List String}
    {parts : List (List CallEvent × Option ProbeOutcome)}
    (each : List.Forall₂ (fun image part => Probes image part.1) images parts) :
    (∀ e ∈ parts.flatMap Prod.fst, reads e.call = true) ∧
      (parts.flatMap Prod.fst).filterMap inspectedContainer = [] ∧
      ((parts.flatMap Prod.fst).filterMap inspectedImage).Sublist images ∧
      (∀ asked ∈ (parts.flatMap Prod.fst).filterMap inspectedImage, isPinned asked = false) ∧
      ((parts.flatMap Prod.fst).filterMap fetchedImage).Sublist
        (((parts.flatMap Prod.fst).filterMap inspectedImage).map ImageRef.parse) := by
  induction each with
  | nil => exact ⟨by simp, rfl, List.nil_sublist _, by simp, List.nil_sublist _⟩
  | @cons image part images parts first _ ih =>
      obtain ⟨hreads, hcontainers, himages, hunpinned, hfetches⟩ := ih
      simp only [List.flatMap_cons, List.filterMap_append, hcontainers, first.containers,
        List.map_append]
      refine ⟨fun e he => ?_, rfl, first.images.append himages, fun asked hasked => ?_,
        first.fetches.append hfetches⟩
      · rcases List.mem_append.mp he with he | he
        · exact first.reads e he
        · exact hreads e he
      · rcases List.mem_append.mp hasked with hasked | hasked
        · exact first.unpinned asked hasked
        · exact hunpinned asked hasked

/-! ## The images of a table -/

theorem nodup_uniqueFrom (seen : List String) (rows : List RowPrep) :
    (uniqueFrom seen rows).Nodup ∧ ∀ image ∈ uniqueFrom seen rows, image ∉ seen := by
  induction rows generalizing seen with
  | nil => simp [uniqueFrom]
  | cons row rows ih =>
      unfold uniqueFrom
      split
      · exact ih seen
      · next target _ =>
        by_cases known : seen.contains target.image = true
        · rw [if_pos known]
          exact ih seen
        · rw [if_neg known]
          obtain ⟨hnodup, hfresh⟩ := ih (target.image :: seen)
          refine ⟨List.nodup_cons.mpr ⟨fun h => ?_, hnodup⟩, fun image himage => ?_⟩
          · exact hfresh _ h List.mem_cons_self
          · rcases List.mem_cons.mp himage with rfl | himage
            · simpa using known
            · exact fun h => hfresh image himage (List.mem_cons_of_mem _ h)

theorem nodup_uniqueImages (rows : List RowPrep) : (uniqueImages rows).Nodup :=
  (nodup_uniqueFrom [] rows).1

/-- The image of every row is among them. -/
theorem mem_uniqueFrom {seen : List String} {rows : List RowPrep} {row : RowPrep}
    {target : ProbeTarget} (hrow : row ∈ rows) (htarget : row.target = .ok target) :
    target.image ∈ seen ∨ target.image ∈ uniqueFrom seen rows := by
  induction rows generalizing seen with
  | nil => cases hrow
  | cons first rows ih =>
      rcases List.mem_cons.mp hrow with rfl | hrow
      · rw [uniqueFrom, htarget]
        by_cases known : seen.contains target.image = true
        · exact .inl (by simpa using known)
        · simp only [if_neg known]
          exact .inr List.mem_cons_self
      · unfold uniqueFrom
        split
        · exact ih hrow
        · next other _ =>
          split
          · exact ih hrow
          · rcases @ih (other.image :: seen) hrow with h | h
            · rcases List.mem_cons.mp h with h | h
              · exact .inr (h ▸ List.mem_cons_self)
              · exact .inl h
            · exact .inr (List.mem_cons_of_mem _ h)

theorem mem_uniqueImages {rows : List RowPrep} {row : RowPrep} {target : ProbeTarget}
    (hrow : row ∈ rows) (htarget : row.target = .ok target) :
    target.image ∈ uniqueImages rows := by
  rcases @mem_uniqueFrom [] _ _ _ hrow htarget with h | h
  · cases h
  · exact h

end Asked

/-! ## Runs of the check -/

section Runs

variable {defaults : PolicyDefaults} {ownIdPrefix : Option String} {resolving probing : List Nat}
  {events : List CallEvent}

/-- What the resolutions of a table ask. -/
theorem asks_of_resolving {pending : List Pending}
    {out : Option (List (Except DockerError ProbeTarget))}
    (h : Produces (joined resolving (pending.map fun p => (resolveTarget p.container).run)) events
      out) :
    (∀ e ∈ events, reads e.call = true) ∧
      (events.filterMap inspectedContainer).Subperm
        ((pending.map Pending.container).filterMap askedId) ∧
      events.filterMap inspectedImage = [] ∧ events.filterMap fetchedImage = [] := by
  obtain ⟨parts, parted, -⟩ := h.of_joined
  have each := parted.each
  rw [List.forall₂_map_left_iff] at each
  have resolves : List.Forall₂ (fun c part => Resolves c part.1) (pending.map Pending.container)
      parts := by
    rw [List.forall₂_map_left_iff]
    exact each.imp fun p part => resolves_of_resolveTarget
  obtain ⟨hreads, hcontainers, himages, hfetches⟩ := asks_of_resolutions resolves
  have whole := parted.whole
  refine ⟨fun e he => hreads e (whole.mem_iff.mp he), ?_, ?_, ?_⟩
  · exact (whole.filterMap inspectedContainer).subperm.trans hcontainers.subperm
  · exact List.Perm.eq_nil (himages ▸ whole.filterMap inspectedImage)
  · exact List.Perm.eq_nil (hfetches ▸ whole.filterMap fetchedImage)

/-- What the probes of a table ask. -/
theorem asks_of_probing {images : List String} (nodup : images.Nodup)
    {out : Option (List ProbeOutcome)}
    (h : Produces (joined probing (images.map probeImage)) events out) :
    (∀ e ∈ events, reads e.call = true) ∧ events.filterMap inspectedContainer = [] ∧
      (events.filterMap inspectedImage).Nodup ∧
      (∀ image ∈ events.filterMap inspectedImage, isPinned image = false) ∧
      (events.filterMap fetchedImage).Subperm
        ((events.filterMap inspectedImage).map ImageRef.parse) := by
  obtain ⟨parts, parted, -⟩ := h.of_joined
  have each := parted.each
  rw [List.forall₂_map_left_iff] at each
  obtain ⟨hreads, hcontainers, himages, hunpinned, hfetches⟩ :=
    asks_of_probes (each.imp fun image part => probes_of_probeImage)
  have whole := parted.whole
  have inspected := whole.filterMap inspectedImage
  refine ⟨fun e he => hreads e (whole.mem_iff.mp he), ?_, ?_, fun image himage => ?_, ?_⟩
  · exact List.Perm.eq_nil (hcontainers ▸ whole.filterMap inspectedContainer)
  · exact inspected.nodup_iff.mpr (himages.nodup nodup)
  · exact hunpinned image (inspected.mem_iff.mp himage)
  · refine (whole.filterMap fetchedImage).subperm.trans (hfetches.subperm.trans ?_)
    exact (inspected.map ImageRef.parse).symm.subperm

/-- What the listed containers ask. -/
theorem pending_sublist (containers : List ContainerSummary) :
    ((containers.filterMap (pendingOf defaults ownIdPrefix)).map Pending.container).Sublist
      containers := by
  induction containers with
  | nil => exact List.nil_sublist _
  | cons c containers ih =>
      cases hpending : pendingOf defaults ownIdPrefix c with
      | none =>
          rw [List.filterMap_cons_none hpending]
          exact ih.cons c
      | some p =>
          obtain rfl : p.container = c := by
            unfold pendingOf at hpending
            split at hpending
            · cases hpending
            · split_ifs at hpending
              cases hpending
              rfl
          rw [List.filterMap_cons_some hpending, List.map_cons]
          exact ih.cons_cons _

theorem produces_showRows {rows : List RowPrep} {outcomes : List ProbeOutcome}
    {out : Option (List Cells)} (h : Produces (showRows rows outcomes) events out) :
    events = [] ∧
      ∀ cells, out = some cells → cellsOf (byImage (uniqueImages rows) outcomes) rows = some cells := by
  unfold showRows at h
  split at h
  · next cells hcells =>
    obtain ⟨rfl, rfl | rfl⟩ := produces_done_iff.mp h
    · exact ⟨rfl, fun cells' hcells' => by cases hcells'; exact hcells⟩
    · exact ⟨rfl, fun cells' hcells' => by cases hcells'⟩
  · cases h
    exact ⟨rfl, fun cells' hcells' => by cases hcells'⟩

/-- What is asked for a table of the containers: nothing is changed, no image is inspected twice,
and none that is pinned; the registries are asked once at most for each image that was inspected; and
a container is inspected for its image when its listing does not name it. -/
structure Asks (containers : List ContainerSummary) (events : List CallEvent) : Prop where
  reads : ∀ e ∈ events, reads e.call = true
  images : (events.filterMap inspectedImage).Nodup
  unpinned : ∀ image ∈ events.filterMap inspectedImage, isPinned image = false
  fetches : (events.filterMap fetchedImage).Subperm
    ((events.filterMap inspectedImage).map ImageRef.parse)
  containers : (events.filterMap inspectedContainer).Subperm (containers.filterMap askedId)

theorem asks_of_probeRows {rows : List RowPrep} {out : Option (List Cells)}
    (h : Produces (probeRows probing rows) events out) : Asks [] events := by
  have asks {events : List CallEvent} {out : Option (List ProbeOutcome)}
      (h : Produces (joined probing ((uniqueImages rows).map probeImage)) events out) :
      Asks [] events := by
    obtain ⟨hreads, hcontainers, himages, hunpinned, hfetches⟩ :=
      asks_of_probing (nodup_uniqueImages rows) h
    exact ⟨hreads, himages, hunpinned, hfetches, by rw [hcontainers]; exact List.nil_subperm⟩
  rcases h.of_bind with ⟨rfl, hprobes⟩ | ⟨first, outcomes, rest, rfl, hprobes, hrest⟩
  · exact asks hprobes
  · rw [(produces_showRows hrest).1, List.append_nil]
    exact asks hprobes

theorem asks_of_table {containers : List ContainerSummary} {out : Option (List Cells)}
    (h : Produces (table defaults ownIdPrefix resolving probing containers) events out) :
    Asks containers events := by
  have listed := (@pending_sublist defaults ownIdPrefix containers).filterMap askedId
  rcases h.of_bind with ⟨rfl, hresolve⟩ | ⟨first, targets, rest, rfl, hresolve, hrest⟩
  · obtain ⟨hreads, hcontainers, himages, hfetches⟩ := asks_of_resolving hresolve
    exact ⟨hreads, by simp [himages], by simp [himages], by simp [himages, hfetches],
      hcontainers.trans listed.subperm⟩
  · obtain ⟨hreads, hcontainers, himages, hfetches⟩ := asks_of_resolving hresolve
    have probed := asks_of_probeRows hrest
    have none : rest.filterMap inspectedContainer = [] := List.subperm_nil.mp probed.containers
    refine ⟨fun e he => ?_, ?_, ?_, ?_, ?_⟩
    · rcases List.mem_append.mp he with he | he
      · exact hreads e he
      · exact probed.reads e he
    · rw [List.filterMap_append, himages, List.nil_append]
      exact probed.images
    · rw [List.filterMap_append, himages, List.nil_append]
      exact probed.unpinned
    · rw [List.filterMap_append, List.filterMap_append, himages, hfetches]
      exact probed.fetches
    · rw [List.filterMap_append, none, List.append_nil]
      exact hcontainers.trans listed.subperm

/-- **A check asks little**, however its calls are interleaved and wherever it is cut. -/
theorem check_asks_once {out : Option (Except DockerError (List Cells))}
    (h : Produces (collectCells defaults ownIdPrefix resolving probing).run events out) :
    Asks (rowsListed events) events := by
  -- when the listing does not come, it is all that was asked
  have ended {out : Option (Except DockerError (List ContainerSummary))}
      (h : Produces (request .listRunning : Prog _) events out) : Asks (rowsListed events) events := by
    rcases Produces.request_cases h with ⟨rfl, -⟩ | ⟨reply, rfl, -⟩
    · exact ⟨by simp, .nil, by simp, .refl _, .refl _⟩
    · exact ⟨by simp [reads], .nil, by simp [inspectedImage], .refl _, List.nil_subperm⟩
  rcases h.of_except_bind with ⟨-, hlist⟩ | ⟨e, -, hlist⟩ | ⟨first, containers, rest, rfl, hlist, hrest⟩
  · exact ended hlist
  · exact ended hlist
  · obtain rfl := Produces.of_request (c := Call.listRunning) hlist
    obtain ⟨out', htable⟩ := Produces.exists_of_map hrest
    have asks := asks_of_table htable
    refine ⟨fun e he => ?_, asks.images, asks.unpinned, asks.fetches, asks.containers⟩
    rcases List.mem_cons.mp he with rfl | he
    · rfl
    · exact asks.reads e he

end Runs

/-! ### A host to run a check on -/

/-- A host that runs the containers, whose registry serves one digest for all images. -/
def host (running : List ContainerSummary) : (c : Call) → c.Reply
  | .inspectContainer ref =>
      .ok (inspectReport ref "pg" (fun _ => none) ⟨some .running, some true, none, none, none⟩)
  | .listRunning => .ok running
  | .listProjectContainers _ => .ok []
  | .createImage _ => .ok ()
  | .stopContainer .. => .ok ()
  | .renameContainer .. => .ok ()
  | .createContainer .. => .ok "new"
  | .startContainer .. => .ok ()
  | .removeContainer .. => .ok ()
  | .exec .. => .ok (.completed 0)
  | .inspectImage image => .ok ⟨some "old-image", some [image ++ "@sha256:old"]⟩
  | .removeImage .. => .ok ()
  | .pruneImages => .ok ()
  | .fetchDigest _ => .ok "sha256:new"
  | .now => (0 : Nat)
  | .sleep _ => ()
  | .unixTime => (0 : Int)
  | .localTime => (0 : Int)
  | .shutdownRequested => false
  | .dispatch _ => ()

/-- A container that is opted in. -/
def optedIn (name image : String) : ContainerSummary where
  id := some ("id-" ++ name)
  names := some [name]
  image := some image
  imageId := some "old-image"
  labels := some (LabelMap.ofPairs [("freshdock.enable", "true"), ("freshdock.mode", "watch"),
    ("freshdock.notify", "true")])
  state := some .running
  networkMode := none

/-- Two containers on one image, and one whose listing shows an image id. -/
def threeRows : List ContainerSummary :=
  [optedIn "web" "app", optedIn "db" ("sha256:" ++ String.ofList (List.replicate 64 'a')),
    optedIn "api" "app"]

/-- A check of them. The probe of the second image takes the first turns. -/
def sharedCheck : Run Call Call.Reply Unit (Except DockerError (List Cells)) :=
  play (always (host threeRows)) (collectCells ⟨none, false, false⟩ none [1] [1, 1, 0]).run ()

theorem check_asks_once_shared :
    Asks (rowsListed sharedCheck.trace) sharedCheck.trace ∧
      sharedCheck.trace.filterMap inspectedImage = ["pg", "app"] :=
  ⟨check_asks_once (play_produces (always (host threeRows)) _ ()), by decide +kernel⟩

end Freshdock.Check
