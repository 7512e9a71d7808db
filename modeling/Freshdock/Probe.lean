import Freshdock.Docker.Ops

/-!
# Is there a newer image?

The one question `check` and the scheduler ask of an image reference: the digests the local
image is recorded under, against the digest the registry serves.
-/

set_option autoImplicit false

namespace Freshdock.Probe

open Interaction Docker Text Registry

/-- Every manifest digest the local image is recorded under. -/
abbrev LocalDigests : Type := List String

/-- `none` when no local digest is known. -/
def updateAvailable (digests : LocalDigests) (latest : String) : Option Bool :=
  if digests.isEmpty then none else some (!digests.contains latest)

/-- The verdict for one container: upstream moved, or the container is behind its tag. -/
def updateAvailableFor (digests : LocalDigests) (latest : String)
    (containerImageId tagImageId : Option String) : Option Bool :=
  if !digests.isEmpty && behindTag containerImageId tagImageId then some true
  else updateAvailable digests latest

/-- The digest to show as the current one: the one upstream serves when the image is recorded under
it, else the first. -/
def currentFor (digests : LocalDigests) (latest : String) : Option String :=
  if digests.contains latest then some latest else digests.head?

inductive ProbeOutcome where
  | fetched (digests : LocalDigests) (latest : String) (tagImageId : Option String)
  | pinned
  | authRequired
  | credentialsRejected
  | networkUnavailable
  | error (message : String)
  deriving DecidableEq, Repr

/-- What to probe for one container: its reference and the image it runs. -/
structure ProbeTarget where
  image : String
  imageId : Option String
  deriving DecidableEq, Repr

/-- The reference of a container whose listing shows a bare image id. -/
def inspectTarget (id : String) : Op ProbeTarget := do
  let spec ← inspect id
  pure { image := spec.imageRef, imageId := spec.imageId }

def resolveTarget (container : ContainerSummary) : Op ProbeTarget :=
  match container.image with
  | none => throw (.spec (.missing "Image"))
  | some image =>
      if isImageId image then
        match container.id with
        | none => throw (.spec (.missing "Id"))
        | some id => inspectTarget id
      else pure { image, imageId := container.imageId }

/-- The digest in a pinned reference. -/
def pinnedDigest (image : String) : Option String :=
  match splitOnce image '@' with
  | some (_, digest) => some digest
  | none => if startsWith image "sha256:" then some image else none

/-- Without a trailing `:tag`. A colon before the last slash belongs to the host. -/
def stripTag (image : String) : String :=
  match rsplitOnce image ":" with
  | some (name, tag) => if contains tag '/' then image else name
  | none => image

/-- The digests recorded for the repository of `image`. -/
def localManifestDigests (image : String) (repoDigests : List String) : LocalDigests :=
  let wanted := familiarRepository (stripTag ((split image '@').headD image))
  repoDigests.filterMap fun entry =>
    match splitOnce entry '@' with
    | some (repository, digest) =>
        if familiarRepository repository = wanted then some digest else none
    | none => none

/-- The local side of a probe; nothing is known when the image cannot be inspected. -/
def localSide (image : String) :
    Except DockerError ImageInspect → LocalDigests × Option String
  | .ok inspected => (localManifestDigests image (inspected.repoDigests.getD []), inspected.id)
  | .error _ => ([], none)

def probeOutcome (digests : LocalDigests) (tagImageId : Option String) :
    Except RegistryError String → ProbeOutcome
  | .ok latest => .fetched digests latest tagImageId
  | .error (.networkUnavailable _) => .networkUnavailable
  | .error (.auth _) => .authRequired
  | .error (.credentialsRejected _) => .credentialsRejected
  | .error e => .error e.message

def probeImage (image : String) : Prog ProbeOutcome :=
  if isPinned image then pure .pinned
  else do
    let inspected ← (inspectLocalImage image).run
    let fetched ← request (.fetchDigest (ImageRef.parse image))
    pure (probeOutcome (localSide image inspected).1 (localSide image inspected).2 fetched)

end Freshdock.Probe
