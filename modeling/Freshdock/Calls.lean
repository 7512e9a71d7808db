import Freshdock.Docker.Spec
import Freshdock.Interaction.Handler
import Freshdock.Registry

/-!
# The calls freshdock makes

Every effect of the program is a call: to the Docker daemon, to a registry, to a clock, or to
the notifier. A program of this development is a `Prog`, and one that ends with the first
failing daemon call is an `Op`.

**Replies.** Any reply is possible at any call, errors included. What a daemon promises is
stated where a result needs it, as a condition on the observed events.

**Roles.** The calls that move a container say on whose behalf they are made: the container's
own update, the repair of a container that shares the updated one's network namespace, or a
restart that a Compose file asks for. The daemon does not see the role; the results do.
-/

set_option autoImplicit false

namespace Freshdock

open Interaction Docker Registry

/-- Why a container is stopped, renamed, created, started or removed. -/
inductive Role where
  | update | repair | restart
  deriving DecidableEq, Repr

/-- How a hook command ended. -/
inductive HookStatus where
  | completed (exitCode : Int)
  | timedOut
  deriving DecidableEq, Repr

/-- Why an update was rolled back. -/
inductive RollbackReason where
  | healthTimeout | crashed
  deriving DecidableEq, Repr

/-- Why a registry gave no digest. -/
inductive RegistryError where
  | networkUnavailable (reason : String)
  | http (text : String)
  | auth (reason : String)
  | credentialsRejected (host : String)
  | missingDigest
  | invalidEndpoint (url : String)
  deriving DecidableEq, Repr

def RegistryError.message : RegistryError → String
  | .networkUnavailable reason => "network unavailable: " ++ reason
  | .http text => "registry HTTP error: " ++ text
  | .auth reason => "authentication failed: " ++ reason
  | .credentialsRejected host => "configured credentials rejected for " ++ host
  | .missingDigest => "manifest digest header missing or unparseable"
  | .invalidEndpoint url => "invalid endpoint url: " ++ url

/-- What an operator can be notified of. -/
inductive NotifyEvent where
  | updateAvailable (container image latestDigest : String)
  | updateSucceeded (container image newId : String)
  | updateFailed (container : String) (reason : RollbackReason)
      (oldImageRef newImageRef restoredFrom : String)
  | rolloutAborted (project reason : String) (completed remaining : List String)
  deriving DecidableEq, Repr

inductive Call where
  | inspectContainer (nameOrId : String)
  | listRunning
  /-- Running or not, by the project label. -/
  | listProjectContainers (project : String)
  | createImage (image : ImageRef)
  | stopContainer (role : Role) (nameOrId : String) (signal : Option String)
      (timeout : Option Int)
  | renameContainer (role : Role) (nameOrId newName : String)
  | createContainer (role : Role) (name : String) (body : ContainerCreateBody)
  | startContainer (role : Role) (nameOrId : String)
  | removeContainer (role : Role) (nameOrId : String) (force : Bool)
  /-- `sh -c command` in a running container, to its end or to the timeout. -/
  | exec (nameOrId command : String) (timeout : Option Duration)
  | inspectImage (reference : String)
  | removeImage (id : String) (force : Bool)
  | pruneImages
  | fetchDigest (image : ImageRef)
  /-- A monotonic clock. -/
  | now
  | sleep (duration : Duration)
  | unixTime
  /-- The wall clock, in nanoseconds since the Unix epoch. -/
  | localTime
  | shutdownRequested
  | dispatch (event : NotifyEvent)

def Call.Reply : Call → Type
  | .inspectContainer _ => Except DockerError ContainerInspectResponse
  | .listRunning => Except DockerError (List ContainerSummary)
  | .listProjectContainers _ => Except DockerError (List ContainerSummary)
  | .createImage _ => Except DockerError Unit
  | .stopContainer .. => Except DockerError Unit
  | .renameContainer .. => Except DockerError Unit
  | .createContainer .. => Except DockerError String
  | .startContainer .. => Except DockerError Unit
  | .removeContainer .. => Except DockerError Unit
  | .exec .. => Except DockerError HookStatus
  | .inspectImage _ => Except DockerError ImageInspect
  | .removeImage .. => Except DockerError Unit
  | .pruneImages => Except DockerError Unit
  | .fetchDigest _ => Except RegistryError String
  | .now => Nat
  | .sleep _ => Unit
  | .unixTime => Int
  | .localTime => Int
  | .shutdownRequested => Bool
  | .dispatch _ => Unit

/-- A program of freshdock. -/
abbrev Prog (α : Type) : Type := Program Call Call.Reply α

/-- A program that ends with the first failing daemon call. -/
abbrev Op (α : Type) : Type := Fallible Call Call.Reply DockerError α

abbrev CallEvent : Type := Event Call Call.Reply

/-- One call, returning its reply. -/
abbrev request (c : Call) : Prog c.Reply := Program.request c

/-- A call whose failure ends the program. -/
abbrev Op.call {α : Type} (p : Prog (Except DockerError α)) : Op α := ExceptT.mk p

/-- A program that cannot fail. -/
abbrev Op.lift {α : Type} (p : Prog α) : Op α := liftM p

/-- The container a call moves: stops, renames, creates, starts or removes. -/
def Call.moves : Call → Option (Role × String)
  | .stopContainer role name _ _ => some (role, name)
  | .renameContainer role name _ => some (role, name)
  | .createContainer role name _ => some (role, name)
  | .startContainer role name => some (role, name)
  | .removeContainer role name _ => some (role, name)
  | _ => none

/-- A call that moves no container, runs nothing in one, and removes no image. -/
def Call.quiet : Call → Bool
  | .stopContainer .. | .renameContainer .. | .createContainer .. | .startContainer ..
  | .removeContainer .. | .exec .. | .removeImage .. | .pruneImages => false
  | _ => true

/-- Where a program reads the time it stamps archive names with. -/
inductive TsProvider where
  | fixed (timestamp : Int)
  | system

def TsProvider.read : TsProvider → Prog Int
  | .fixed timestamp => pure timestamp
  | .system => request .unixTime

end Freshdock
