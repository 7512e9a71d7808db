import Freshdock.Compose
import Freshdock.Docker.Rename
import Freshdock.SelfId

/-!
# Daemon operations

The operations a recreate is built from, each over the daemon calls it makes, and how daemon
data is read: a listing row as a project member, a reported state as what the gates ask of it,
a network mode as a reference to the container that owns the namespace.
-/

set_option autoImplicit false

namespace Freshdock

open Interaction Text Registry SelfId
open Compose (ProjectMember)

/-- What a connection to a daemon fixes: the agreed API version, the hostname freshdock sees
as its own, and how often one gate may poll before a run of it is left unfinished. The last is
no limit of the program; every result holds for each value of it. -/
structure Docker where
  apiVersion : String
  hostname : Option String
  polls : Nat

namespace Docker

/-- The part of a container's state that the gates ask for. -/
inductive ContainerRuntimeState where
  | healthStarting
  | healthHealthy
  | healthUnhealthy
  | runningNoHealthcheck
  | exited (exitCode : Int)
  deriving DecidableEq, Repr

/-! ## Reading daemon data -/

/-- The names by which a registry reports a rate limit. -/
def rateLimitNeedles : List String := ["toomanyrequests", "too many requests", "http 429"]

/-- A registry rate limit that clears within seconds; a pull quota does not count. -/
def isTransientRateLimit : DockerError → Bool
  | .bollard ⟨.dockerResponseServerError status message, _⟩ =>
      let message := toAsciiLowercase message
      (status == 429 || rateLimitNeedles.any fun needle => containsText message needle) &&
        !containsText message "pull rate limit"
  | .bollard ⟨.dockerStreamError error, _⟩ =>
      let message := toAsciiLowercase error
      (rateLimitNeedles.any fun needle => containsText message needle) &&
        !containsText message "pull rate limit"
  | _ => false

/-- The API version from which one create can attach several networks. -/
def multiNetworkMinApi : Nat × Nat := (1, 44)

/-- `MAJOR.MINOR`, with an optional `v` and anything after the minor's digits. -/
def parseApiVersion (raw : String) : Option (Nat × Nat) :=
  let raw := String.ofList ((trim raw).toList.dropWhile fun c => c == 'v' || c == 'V')
  match splitOnce raw '.' with
  | none => none
  | some (major, rest) =>
      match parseU32 major, parseU32 (String.ofList (rest.toList.takeWhile isAsciiDigit)) with
      | some major, some minor => some (major, minor)
      | _, _ => none

def olderThan (version bound : Nat × Nat) : Bool :=
  version.1 < bound.1 || (version.1 == bound.1 && version.2 < bound.2)

/-- Refuse a create with several networks on a daemon known to be too old for it. -/
def multiNetworkGuard (apiVersion : String) (networks : Nat) : Except DockerError Unit :=
  if networks ≤ 1 then .ok ()
  else
    match parseApiVersion apiVersion with
    | some version =>
        if olderThan version multiNetworkMinApi then
          .error (.apiTooOldForMultiNetwork apiVersion networks)
        else .ok ()
    | none => .ok ()

/-- Name of a listed container: the first name without slashes, else its id. -/
def containerName (c : ContainerSummary) : String :=
  match c.names.bind List.head? with
  | some name => trimStartMatches name '/'
  | none => c.id.getD "?"

/-- Restarting and paused containers count as running: neither has finished. -/
def projectMember (c : ContainerSummary) : ProjectMember where
  name := containerName c
  id := c.id.getD ""
  imageRef := c.image.getD ""
  imageId := c.imageId
  labels := c.labels.getD fun _ => none
  running :=
    match c.state with
    | some .running | some .restarting | some .paused => true
    | _ => false

/-- The container a network mode joins. -/
def containerReference (mode : String) : Option String := stripPrefix mode "container:"

/-- Does `mode` join the container `name` with id `fullId`: by name, by id, or by an id prefix
of at least twelve characters? -/
def networkModeReferences (mode name fullId : String) : Bool :=
  match containerReference mode with
  | none => false
  | some reference =>
      reference == name ||
        (fullId != "" &&
          (reference == fullId || (12 ≤ reference.utf8ByteSize && startsWith fullId reference)))

/-- Absent labels do not opt out. -/
def explicitlyOptsOut (summary : ContainerSummary) : Bool :=
  summary.labels.any Labels.explicitlyOptsOut

/-- The listed container, when it shares the owner's namespace and may be repaired. -/
def networkDependent (ownerName fullId : String) (selfHostname : Option String)
    (summary : ContainerSummary) : Option String :=
  match summary.networkMode with
  | none => none
  | some mode =>
      if !networkModeReferences mode ownerName fullId then none
      else if containerName summary == ownerName then none
      else if isOwnContainer selfHostname summary.id then none
      else if explicitlyOptsOut summary then none
      else some (containerName summary)

def networkDependentNames (running : List ContainerSummary) (ownerName fullId : String)
    (selfHostname : Option String) : List String :=
  running.filterMap (networkDependent ownerName fullId selfHostname)

def isRunning (state : ContainerState) : Bool :=
  state.status == some .running || state.running == some true

/-- An absent state counts as exited with code 0, and so does an absent exit code. -/
def classifyRuntimeState : Option ContainerState → ContainerRuntimeState
  | none => .exited 0
  | some state =>
      if !isRunning state then .exited (state.exitCode.getD 0)
      else
        match state.health with
        | some .healthy => .healthHealthy
        | some .unhealthy => .healthUnhealthy
        | some .starting => .healthStarting
        | _ => .runningNoHealthcheck

/-! ## Operations -/

def inspect (name : String) : Op ContainerSpec := do
  let resp ← Op.call (request (.inspectContainer name))
  ExceptT.mk (pure ((ContainerSpec.fromInspect resp).mapError .spec))

/-- Refuse a recreate that this daemon could not finish. -/
def preflightRecreate (docker : Docker) (spec : ContainerSpec) : Except DockerError Unit :=
  multiNetworkGuard docker.apiVersion
    (match spec.networkEndpoints with
      | some endpoints => endpoints.entries.length
      | none => 0)

def inspectLocalImage (image : String) : Op ImageInspect :=
  Op.call (request (.inspectImage image))

def localImageId (reference : String) : Op (Option String) := do
  let image ← inspectLocalImage reference
  pure image.id

def pullRetryDelays : List Duration :=
  [Duration.fromSecs 2, Duration.fromSecs 5, Duration.fromSecs 10]

/-- Pull, and again after each delay while the registry limits the rate. -/
def retryRateLimited (pull : Prog (Except DockerError Unit)) :
    List Duration → Prog (Except DockerError Unit)
  | [] => pull
  | delay :: delays => do
      let result ← pull
      match result with
      | .ok _ => pure result
      | .error e =>
          if isTransientRateLimit e then do
            request (.sleep delay)
            retryRateLimited pull delays
          else pure result

def pull (image : ImageRef) : Op Unit :=
  Op.call (retryRateLimited (request (.createImage image)) pullRetryDelays)

/-- A timeout the stop call cannot carry becomes the largest it can. -/
def stopTimeout (timeout : Int) : Int :=
  if -2 ^ 31 ≤ timeout ∧ timeout < 2 ^ 31 then timeout else 2 ^ 31 - 1

def stop (role : Role) (name : String) (signal : Option String) (timeout : Option Int) :
    Op Unit :=
  Op.call (request (.stopContainer role name signal (timeout.map stopTimeout)))

def createFromSpec (role : Role) (name : String) (spec : ContainerSpec) (image : String) :
    Op String :=
  Op.call (request (.createContainer role name (spec.toCreateBody image)))

def start (role : Role) (nameOrId : String) : Op Unit :=
  Op.call (request (.startContainer role nameOrId))

def remove (role : Role) (nameOrId : String) (force : Bool) : Op Unit :=
  Op.call (request (.removeContainer role nameOrId force))

def renameTo (role : Role) (source target : String) : Op Unit :=
  Op.call (request (.renameContainer role source target))

def removeImage (id : String) (force : Bool) : Op Unit :=
  Op.call (request (.removeImage id force))

def pruneDanglingImages : Op Unit := Op.call (request .pruneImages)

def execHook (nameOrId command : String) (timeout : Option Duration) : Op HookStatus :=
  Op.call (request (.exec nameOrId command timeout))

def listRunning : Op (List ContainerSummary) := Op.call (request .listRunning)

/-- The containers that a program was listed first of all. -/
def rowsListed : List CallEvent → List ContainerSummary
  | ⟨.listRunning, some (.ok rows)⟩ :: _ => rows
  | _ => []

/-- The owner's name as the daemon has it, the caller's when it has none. -/
def ownerName (resp : ContainerInspectResponse) (name : String) : String :=
  ((resp.name.map fun n => trimStartMatches n '/').filter (· ≠ "")).getD name

def listNetworkDependents (docker : Docker) (name : String) : Op (List String) := do
  let resp ← Op.call (request (.inspectContainer name))
  let running ← listRunning
  pure (networkDependentNames running (ownerName resp name) (resp.id.getD "")
    (ownContainerIdPrefix docker.hostname))

/-- A member whose listed image is a bare image id gets its reference from an inspect. -/
def resolveMemberImage (member : ProjectMember) : Op ProjectMember :=
  if isImageId member.imageRef then do
    let spec ← inspect member.id
    pure { member with imageRef := spec.imageRef, imageId := spec.imageId }
  else pure member

def resolveMemberImages : List ProjectMember → Op (List ProjectMember)
  | [] => pure []
  | member :: members => do
      let member ← resolveMemberImage member
      let members ← resolveMemberImages members
      pure (member :: members)

/-- Every container of a compose project, stopped ones included. -/
def listProject (project : String) : Op (List ProjectMember) := do
  let summaries ← Op.call (request (.listProjectContainers project))
  resolveMemberImages (summaries.map projectMember)

def probeState (nameOrId : String) : Op ContainerRuntimeState := do
  let resp ← Op.call (request (.inspectContainer nameOrId))
  pure (classifyRuntimeState resp.state)

end Docker

end Freshdock
