import Freshdock.Labels
import Freshdock.Foundation.SortedMap

/-!
# Container specs

What the daemon reports of a container, the spec that is read off it, and the body a new
container is created from.

**Daemon data.** The daemon's records carry many settings that are copied and never looked
at. A record keeps a field of its own for every setting that some function reads or changes,
and for the scalar ones next to them; the remainder of `HostConfig`, an endpoint's settings
and a healthcheck's settings stay opaque and are compared as they are.
-/

set_option autoImplicit false

namespace Freshdock.Docker

open Text

/-! ## What the daemon reports -/

inductive ContainerStatus where
  | empty | created | running | paused | restarting | removing | exited | dead
  deriving DecidableEq, Repr

inductive HealthStatus where
  | empty | none | starting | healthy | unhealthy
  deriving DecidableEq, Repr

/-- The `State` section of an inspect response. -/
structure ContainerState where
  status : Option ContainerStatus
  running : Option Bool
  restarting : Option Bool
  exitCode : Option Int
  /-- `State.Health.Status`. -/
  health : Option HealthStatus
  deriving DecidableEq, Repr

/-- The host-side settings: the network mode, and everything else as one value. -/
structure HostConfig where
  networkMode : Option String
  other : String
  deriving DecidableEq, Repr

/-- How a container is attached to one network. -/
structure EndpointSettings where
  settings : String
  deriving DecidableEq, Repr

/-- A declared healthcheck. -/
structure Healthcheck where
  settings : String
  deriving DecidableEq, Repr

abbrev Endpoints : Type := SortedMap String EndpointSettings

structure ContainerConfig where
  hostname : Option String
  domainname : Option String
  user : Option String
  attachStdin : Option Bool
  attachStdout : Option Bool
  attachStderr : Option Bool
  exposedPorts : Option (List String)
  tty : Option Bool
  openStdin : Option Bool
  stdinOnce : Option Bool
  env : Option (List String)
  cmd : Option (List String)
  healthcheck : Option Healthcheck
  argsEscaped : Option Bool
  image : Option String
  volumes : Option (List String)
  workingDir : Option String
  entrypoint : Option (List String)
  networkDisabled : Option Bool
  onBuild : Option (List String)
  labels : Option LabelMap
  stopSignal : Option String
  stopTimeout : Option Int
  shell : Option (List String)

/-- A configuration with nothing set. -/
def ContainerConfig.default : ContainerConfig where
  hostname := none
  domainname := none
  user := none
  attachStdin := none
  attachStdout := none
  attachStderr := none
  exposedPorts := none
  tty := none
  openStdin := none
  stdinOnce := none
  env := none
  cmd := none
  healthcheck := none
  argsEscaped := none
  image := none
  volumes := none
  workingDir := none
  entrypoint := none
  networkDisabled := none
  onBuild := none
  labels := none
  stopSignal := none
  stopTimeout := none
  shell := none

structure ContainerInspectResponse where
  id : Option String
  name : Option String
  image : Option String
  state : Option ContainerState
  config : Option ContainerConfig
  hostConfig : Option HostConfig
  /-- `NetworkSettings.Networks`. -/
  networks : Option Endpoints

inductive ContainerSummaryState where
  | empty | created | running | paused | restarting | exited | removing | stopping | dead
  deriving DecidableEq, Repr

/-- One row of a container listing. -/
structure ContainerSummary where
  id : Option String
  names : Option (List String)
  image : Option String
  imageId : Option String
  labels : Option LabelMap
  state : Option ContainerSummaryState
  /-- `HostConfig.NetworkMode`. -/
  networkMode : Option String

/-- The body of a create request. -/
structure ContainerCreateBody extends ContainerConfig where
  hostConfig : Option HostConfig
  /-- `NetworkingConfig.EndpointsConfig`. -/
  endpoints : Option Endpoints

structure ImageInspect where
  id : Option String
  repoDigests : Option (List String)
  deriving DecidableEq, Repr

/-! ## Errors -/

/-- The errors of the Docker client that are told apart. -/
inductive BollardKind where
  | dockerResponseServerError (statusCode : Nat) (message : String)
  | dockerStreamError (error : String)
  | other
  deriving DecidableEq, Repr

/-- An error of the Docker client and the client's own rendering of it. -/
structure BollardError where
  kind : BollardKind
  text : String
  deriving DecidableEq, Repr

/-- An inspect response without a field that a recreate needs. -/
inductive SpecError where
  | missing (field : String)
  deriving DecidableEq, Repr

def SpecError.message : SpecError → String
  | .missing field => "inspect response is missing the " ++ field ++ " field"

inductive DockerError where
  | bollard (error : BollardError)
  | spec (error : SpecError)
  | apiTooOldForMultiNetwork (apiVersion : String) (networks : Nat)
  deriving DecidableEq, Repr

def DockerError.message : DockerError → String
  | .bollard error => "docker daemon error: " ++ error.text
  | .spec error => "container inspect produced an incomplete spec: " ++ error.message
  | .apiTooOldForMultiNetwork apiVersion networks =>
      "the daemon speaks Docker API " ++ apiVersion ++ ", which cannot attach a container to " ++
        toString networks ++ " networks in one create (that needs API 1.44 / Docker 25.0); " ++
        "upgrade the daemon, or detach the extra networks and re-attach them after the update"

/-! ## The spec -/

structure ContainerSpec where
  name : String
  imageRef : String
  /-- The id of the image the container was created from. -/
  imageId : Option String
  config : ContainerConfig
  hostConfig : Option HostConfig
  networkEndpoints : Option Endpoints

/-- Docker names a container after its own first twelve id characters when it is given no
hostname. -/
def isDaemonAssignedHostname (containerId hostname : String) : Bool :=
  hostname.utf8ByteSize == 12 && 12 ≤ containerId.utf8ByteSize && startsWith containerId hostname

/-- The configured hostname, unless the daemon chose it. -/
def keptHostname (id hostname : Option String) : Option String :=
  match id, hostname with
  | some id, some host => if isDaemonAssignedHostname id host then none else some host
  | _, hostname => hostname

def ContainerSpec.fromInspect (resp : ContainerInspectResponse) :
    Except SpecError ContainerSpec :=
  match resp.name with
  | none => .error (.missing "Name")
  | some name =>
    match resp.config with
    | none => .error (.missing "Config")
    | some config =>
      match config.image with
      | none => .error (.missing "Config.Image")
      | some imageRef =>
        .ok {
          name := trimStartMatches name '/'
          imageRef := imageRef
          imageId := resp.image
          config := { config with hostname := keptHostname resp.id config.hostname }
          hostConfig := resp.hostConfig
          networkEndpoints := resp.networks }

def ContainerSpec.toCreateBody (spec : ContainerSpec) (newImage : String) : ContainerCreateBody :=
  { spec.config with
    image := some newImage
    hostConfig := spec.hostConfig
    endpoints := spec.networkEndpoints }

/-- What a successful read says about the response. -/
theorem fromInspect_ok {resp : ContainerInspectResponse} {spec : ContainerSpec}
    (read : ContainerSpec.fromInspect resp = .ok spec) :
    ∃ name config, resp.name = some name ∧ resp.config = some config ∧
      config.image = some spec.imageRef ∧ spec.name = trimStartMatches name '/' ∧
      spec.imageId = resp.image ∧
      spec.config = { config with hostname := keptHostname resp.id config.hostname } ∧
      spec.hostConfig = resp.hostConfig ∧ spec.networkEndpoints = resp.networks := by
  unfold ContainerSpec.fromInspect at read
  split at read
  case h_1 => cases read
  case h_2 name hname =>
    split at read
    case h_1 => cases read
    case h_2 config hconfig =>
      split at read
      case h_1 => cases read
      case h_2 imageRef himage =>
        cases read
        exact ⟨name, config, hname, hconfig, himage, rfl, rfl, rfl, rfl, rfl⟩

end Freshdock.Docker
