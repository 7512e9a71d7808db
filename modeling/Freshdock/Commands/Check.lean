import Freshdock.Foundation.LastWins
import Freshdock.Interaction.Joined
import Freshdock.Labels
import Freshdock.Probe
import Freshdock.SelfId

/-!
# The check

`check` lists the containers that the operator opted in, probes their images, and prints a table. It
changes nothing. The containers are inspected side by side, and so are the images probed
(`Interaction.joined`), in an order that the daemon and the registries have the say in.
-/

set_option autoImplicit false

namespace Freshdock.Check

open Interaction Docker Text Probe
open Labels (Mode PolicyDefaults)
open Registry (behindTag shortDigest)

/-! ## The table -/

/-- A row of the table. -/
structure Cells where
  container : String
  image : String
  mode : String
  current : String
  latest : String
  update : String
  deriving DecidableEq, Repr

def authRequired : String := "auth required (set credentials)"

def credentialsRejected : String := "credentials rejected (check token)"

def networkUnavailable : String := "network unavailable"

def pinned : String := "pinned (no check)"

def dash : String := "-"

/-- A digest cut short, a dash for none. The cut can panic: `none`. -/
def shown : Option String → Option String
  | none => some dash
  | some digest => shortDigest digest

/-- The verdict on an update. -/
def answerTo : Option Bool → String
  | some true => "yes"
  | some false => "no"
  | none => "?"

/-- The current digest, the latest one and the verdict. The image that a container behind its tag
runs may be recorded under no digest. -/
def renderCells (image : String) (containerImageId : Option String) :
    ProbeOutcome → Option (String × String × String)
  | .fetched digests latest tagImageId =>
      (shown (if behindTag containerImageId tagImageId then none
        else currentFor digests latest)).bind fun current =>
          (shortDigest latest).map fun served =>
            (current, served,
              answerTo (updateAvailableFor digests latest containerImageId tagImageId))
  | .pinned => (shown (pinnedDigest image)).map fun current => (current, pinned, dash)
  | .authRequired => some (dash, authRequired, dash)
  | .credentialsRejected => some (dash, credentialsRejected, dash)
  | .networkUnavailable => some (dash, networkUnavailable, dash)
  | .error message => some (dash, "error: " ++ message, dash)

/-! ## Its rows -/

/-- A container that the table lists. -/
structure Pending where
  name : String
  mode : Mode
  container : ContainerSummary

/-- The name that the table shows. -/
def displayName (c : ContainerSummary) : String :=
  match c.names.bind List.head? with
  | some name => trimStartMatches name '/'
  | none => "?"

/-- A container that is opted in, and is not freshdock's own unless it was opted in by name. One whose
labels are invalid is left out. -/
def pendingOf (defaults : PolicyDefaults) (ownIdPrefix : Option String) (c : ContainerSummary) :
    Option Pending :=
  match Labels.parsePolicy (c.labels.getD fun _ => none) defaults with
  | .error _ => none
  | .ok policy =>
      if !policy.enabled then none
      else if policy.autoEnabled && SelfId.isOwnContainer ownIdPrefix c.id then none
      else some ⟨displayName c, policy.mode, c⟩

/-- A container and what to probe for it, or why that is not known. -/
structure RowPrep where
  name : String
  mode : Mode
  target : Except String ProbeTarget
  listedImage : String

def rowOf (p : Pending) (target : Except DockerError ProbeTarget) : RowPrep where
  name := p.name
  mode := p.mode
  target := target.mapError DockerError.message
  listedImage := p.container.image.getD "?"

/-- The images to probe, each once, where it comes first. -/
def uniqueFrom (seen : List String) : List RowPrep → List String
  | [] => []
  | row :: rows =>
      match row.target with
      | .error _ => uniqueFrom seen rows
      | .ok target =>
          if seen.contains target.image then uniqueFrom seen rows
          else target.image :: uniqueFrom (target.image :: seen) rows

def uniqueImages (rows : List RowPrep) : List String := uniqueFrom [] rows

/-- The image that a row shows, the image that its container runs, and the outcome of the probe. -/
def RowPrep.probed (row : RowPrep) (byImage : SortedMap String ProbeOutcome) :
    String × Option String × ProbeOutcome :=
  match row.target with
  | .ok target =>
      (target.image, target.imageId,
        (byImage.get? target.image).getD (.error "internal: missing fetch result"))
  | .error message => (row.listedImage, none, .error ("container inspect failed: " ++ message))

def RowPrep.cells (row : RowPrep) (byImage : SortedMap String ProbeOutcome) : Option Cells :=
  let (image, imageId, outcome) := row.probed byImage
  (renderCells image imageId outcome).map fun (current, latest, update) =>
    { container := row.name, image, mode := row.mode.name, current, latest, update }

/-- The rows as they are shown. -/
def cellsOf (byImage : SortedMap String ProbeOutcome) : List RowPrep → Option (List Cells)
  | [] => some []
  | row :: rows =>
      (row.cells byImage).bind fun cells => (cellsOf byImage rows).map (cells :: ·)

/-! ## The command -/

/-- What was probed, by its image. -/
def byImage (images : List String) (outcomes : List ProbeOutcome) : SortedMap String ProbeOutcome :=
  (images.zip outcomes).foldl (fun m entry => m.insert entry.1 entry.2) .empty

/-- The table of the rows. Cutting a digest within a character panics. -/
def showRows (rows : List RowPrep) (outcomes : List ProbeOutcome) : Prog (List Cells) :=
  match cellsOf (byImage (uniqueImages rows) outcomes) rows with
  | some cells => pure cells
  | none => .stalled

def probeRows (probing : List Nat) (rows : List RowPrep) : Prog (List Cells) := do
  let outcomes ← joined probing ((uniqueImages rows).map probeImage)
  showRows rows outcomes

/-- The table of the listed containers. -/
def table (defaults : PolicyDefaults) (ownIdPrefix : Option String) (resolving probing : List Nat)
    (containers : List ContainerSummary) : Prog (List Cells) := do
  let pending := containers.filterMap (pendingOf defaults ownIdPrefix)
  let targets ← joined resolving (pending.map fun p => (resolveTarget p.container).run)
  probeRows probing (List.zipWith rowOf pending targets)

def collectCells (defaults : PolicyDefaults) (ownIdPrefix : Option String)
    (resolving probing : List Nat) : Op (List Cells) := do
  let containers ← listRunning
  Op.lift (table defaults ownIdPrefix resolving probing containers)

end Freshdock.Check
