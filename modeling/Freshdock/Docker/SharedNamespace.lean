import Freshdock.Docker.Cycle
import Freshdock.Docker.Obliging

/-!
# Create bodies of containers in another's network namespace

A daemon refuses a create in a container-scoped network mode that also carries a hostname, a
domainname, exposed ports or network endpoints. A repair strips them (`repairSpec`); an update
sends what the inspect reported, less a hostname the daemon assigned.
-/

set_option autoImplicit false

namespace Freshdock.Docker

open Interaction Registry
open Labels (LifecycleHooks)

/-- A body that carries none of the settings a daemon refuses in a container-scoped network
mode. -/
structure Acceptable (body : ContainerCreateBody) : Prop where
  hostname : ∀ host, body.hostname = some host → host = ""
  domainname : ∀ domain, body.domainname = some domain → domain = ""
  exposedPorts : ∀ ports, body.exposedPorts = some ports → ports = []
  endpoints : ∀ endpoints, body.endpoints = some endpoints → endpoints.entries = []

/-- The event, if it is a create, sends an acceptable body. -/
def CreatesAcceptable (e : CallEvent) : Prop :=
  ∀ role name body reply, e = ⟨.createContainer role name body, reply⟩ → Acceptable body

/-- The event, if it is an answered inspect of `name`, was answered with `resp`. -/
def InspectedAs (name : String) (resp : ContainerInspectResponse) (e : CallEvent) : Prop :=
  ∀ reply, e = ⟨.inspectContainer name, some reply⟩ → reply = .ok resp

/-- **Create bodies are acceptable, for one inspect response**: whatever the rest of the
daemon does, an update and a repair of a container that is inspected as `resp` send only
acceptable bodies. -/
structure BodiesAcceptable (resp : ContainerInspectResponse) : Prop where
  update : ∀ (docker : Docker) (name : String) (hooks : LifecycleHooks) (ts : TsProvider)
    (events : List CallEvent) (out : Option (Except DockerError CycleOutcome)),
    Produces (recreateOne docker name hooks ts).run events out →
    (∀ e ∈ events, InspectedAs name resp e) → ∀ e ∈ events, CreatesAcceptable e
  repair : ∀ (name owner : String) (newOwnerId : Option String) (ts : TsProvider)
    (events : List CallEvent) (out : Option (Except DockerError Unit)),
    Produces (reattachOne owner newOwnerId name ts).run events out →
    (∀ e ∈ events, InspectedAs name resp e) → ∀ e ∈ events, CreatesAcceptable e

/-- A response that carries, where it can be read as a spec, no hostname but a blank or a
daemon-assigned one, no domainname, no exposed ports and no endpoints. -/
def NothingToRefuse (resp : ContainerInspectResponse) : Prop :=
  ∀ config, resp.name.isSome → resp.config = some config → config.image.isSome →
    (∀ host, config.hostname = some host →
      host = "" ∨ ∃ id, resp.id = some id ∧ isDaemonAssignedHostname id host = true) ∧
    (∀ domain, config.domainname = some domain → domain = "") ∧
    (∀ ports, config.exposedPorts = some ports → ports = []) ∧
    ∀ endpoints, resp.networks = some endpoints → endpoints.entries = []

/-! ## Bodies -/

theorem quiet_createsAcceptable : Quiet CreatesAcceptable := by
  intro call reply hquiet role name body reply' h
  cases h
  cases hquiet

theorem keptHostname_blank_iff (id hostname : Option String) :
    (∀ host, keptHostname id hostname = some host → host = "") ↔
      ∀ host, hostname = some host →
        host = "" ∨ ∃ i, id = some i ∧ isDaemonAssignedHostname i host = true := by
  cases id with
  | none => cases hostname <;> simp [keptHostname]
  | some id =>
      cases hostname with
      | none => simp [keptHostname]
      | some host =>
          cases hassigned : isDaemonAssignedHostname id host <;>
            simp [keptHostname, hassigned]

/-- The body of an update is acceptable exactly for a response with nothing to refuse. -/
theorem acceptable_iff_nothingToRefuse {resp : ContainerInspectResponse} {spec : ContainerSpec}
    (read : ContainerSpec.fromInspect resp = .ok spec) (image : String) :
    Acceptable (spec.toCreateBody image) ↔ NothingToRefuse resp := by
  obtain ⟨name, config, hname, hconfig, himage, -, -, hspecConfig, -, hnetworks⟩ :=
    fromInspect_ok read
  constructor
  · intro acceptable config' _ hconfig' _
    obtain rfl : config = config' := by simpa [hconfig] using hconfig'
    obtain ⟨hhost, hdomain, hports, hendpoints⟩ := acceptable
    simp only [ContainerSpec.toCreateBody, hspecConfig, hnetworks] at hhost hdomain hports hendpoints
    exact ⟨(keptHostname_blank_iff _ _).mp hhost, hdomain, hports, hendpoints⟩
  · intro nothing
    obtain ⟨hhost, hdomain, hports, hendpoints⟩ :=
      nothing config (by simp [hname]) hconfig (by simp [himage])
    constructor <;> simp only [ContainerSpec.toCreateBody, hspecConfig, hnetworks]
    · exact (keptHostname_blank_iff _ _).mpr hhost
    · exact hdomain
    · exact hports
    · exact hendpoints

theorem containerReference_container (id : String) :
    containerReference ("container:" ++ id) = some id := by
  simp [containerReference, Text.stripPrefix, Text.startsWith]

/-- Repointing the reference keeps the container in another's namespace. -/
theorem sharesNamespace_rewrite {spec : ContainerSpec} (owner : String)
    (newOwnerId : Option String) (shared : sharesNamespace spec.hostConfig = true) :
    sharesNamespace (rewriteOwnerReference spec owner newOwnerId).hostConfig = true := by
  unfold rewriteOwnerReference
  split
  · split
    · split
      · exact shared
      · simp [sharesNamespace, containerReference_container]
    · exact shared
  · exact shared

/-- **The body of a repair is acceptable.** -/
theorem acceptable_repairSpec {spec : ContainerSpec} (owner : String)
    (newOwnerId : Option String) (image : String)
    (shared : sharesNamespace spec.hostConfig = true) :
    Acceptable ((repairSpec spec owner newOwnerId).toCreateBody image) := by
  rw [repairSpec, stripSharedNamespaceConflicts,
    if_pos (sharesNamespace_rewrite owner newOwnerId shared)]
  constructor <;> simp [ContainerSpec.toCreateBody]

/-! ## Runs -/

/-- A spec read in a run that inspects `name` as `resp` is `resp`'s. -/
theorem read_of_inspectedAs {name : String} {resp : ContainerInspectResponse}
    {spec : ContainerSpec} (h : Inspected (InspectedAs name resp) name spec) :
    ContainerSpec.fromInspect resp = .ok spec := by
  obtain ⟨resp', hrely, read⟩ := h
  have hresp : Except.ok resp' = Except.ok resp := hrely _ rfl
  cases hresp
  exact read

theorem swapKeeps_createsAcceptable {rely : CallEvent → Prop} {role : Role}
    {name image : String} {spec : ContainerSpec}
    (acceptable : Acceptable (spec.toCreateBody image)) :
    SwapKeeps rely CreatesAcceptable role name spec image where
  stop _ _ _ _ _ _ _ h := by cases h
  rename _ _ _ _ _ _ h := by cases h
  create _ _ _ _ _ h := by
    cases h
    exact acceptable
  start _ _ _ _ _ _ _ h := by cases h

theorem bodiesAcceptable_of_nothingToRefuse {resp : ContainerInspectResponse}
    (shared : sharesNamespace resp.hostConfig = true) (nothing : NothingToRefuse resp) :
    BodiesAcceptable resp where
  update docker name hooks ts events out produced inspected := by
    refine (emits_recreateOne quiet_createsAcceptable docker name hooks ts
      (fun spec _ reply role n body reply' h => by cases h)
      (fun hook _ reply role n body reply' h => by cases h) (fun spec hspec => ?_) events out
      produced inspected).1
    exact swapKeeps_createsAcceptable
      ((acceptable_iff_nothingToRefuse (read_of_inspectedAs hspec) _).mpr nothing)
  repair name owner newOwnerId ts events out produced inspected := by
    have keeps : ReattachKeeps (InspectedAs name resp) CreatesAcceptable name owner newOwnerId := {
      swap := fun spec image hspec => swapKeeps_createsAcceptable
        (acceptable_repairSpec owner newOwnerId image (by
          obtain ⟨_, _, _, _, _, _, _, _, hhost, _⟩ := fromInspect_ok (read_of_inspectedAs hspec)
          rw [hhost]
          exact shared))
      restore := fun _ _ _ _ _ _ _ h => by cases h
      restart := fun _ _ _ _ _ h => by cases h
      clean := fun _ _ _ _ _ _ _ h => by cases h }
    exact (keeps.reattachOne quiet_createsAcceptable ts events out produced inspected).1

/-- A daemon that inspects every container as `resp`. -/
def uniformDaemon (resp : ContainerInspectResponse) : Obliging where
  inspect _ := .ok resp
  running := []
  project := []
  create _ := .ok "new"
  rename _ := .ok ()

theorem uniformDaemon_inspectedAs (resp : ContainerInspectResponse) (name : String) (call : Call)
    (t : Nat) : InspectedAs name resp ⟨call, ((uniformDaemon resp).answer call t).1⟩ := by
  intro reply h
  cases call <;> cases h
  rfl

/-- An update of a container with a readable response sends the body made from it. -/
theorem exists_update {resp : ContainerInspectResponse} {spec : ContainerSpec}
    (read : ContainerSpec.fromInspect resp = .ok spec) :
    ∃ events out, Produces (recreateOne ⟨"1.44", none, 0⟩ "web" .default (.fixed 0)).run events out ∧
      (∀ e ∈ events, InspectedAs "web" resp e) ∧
      ⟨.createContainer .update spec.name (spec.toCreateBody spec.imageRef), some (.ok "new")⟩ ∈
        events := by
  have hpreflight : (⟨"1.44", none, 0⟩ : Docker).preflightRecreate spec = .ok () := by
    have hversion : parseApiVersion "1.44" = some (1, 44) := by decide
    unfold preflightRecreate multiNetworkGuard
    rw [hversion]
    exact ite_self _
  obtain ⟨cycle, ⟨hout, -⟩, hid, -⟩ := @Obliging.returns_recreateOne (uniformDaemon resp) 0
    ⟨"1.44", none, 0⟩ "web" "new" (.fixed 0) resp spec rfl read rfl hpreflight rfl
    (fun _ _ => rfl) .default
  have hrun := play_produces (uniformDaemon resp).answer
    (recreateOne ⟨"1.44", none, 0⟩ "web" .default (.fixed 0)).run 0
  have hinspected := @play_events _ _ _ _ (uniformDaemon resp).answer (InspectedAs "web" resp)
    (uniformDaemon_inspectedAs resp "web")
    (recreateOne ⟨"1.44", none, 0⟩ "web" .default (.fixed 0)).run 0
  rw [hout] at hrun
  obtain ⟨resp', spec', before, read', hevents, -, -⟩ := produces_recreateOne hrun
  refine ⟨_, _, hrun, hinspected, ?_⟩
  rw [hevents] at hinspected ⊢
  have hresp : Except.ok resp' = Except.ok resp := hinspected _ List.mem_cons_self _ rfl
  cases hresp
  rw [read] at read'
  cases read'
  rw [hid]
  exact List.mem_append_right _ List.mem_cons_self

/-- **An update and a repair of a container in another's network namespace send acceptable
create bodies exactly when its inspect response holds nothing a daemon would refuse.** -/
theorem bodiesAcceptable_iff (resp : ContainerInspectResponse)
    (shared : sharesNamespace resp.hostConfig = true) :
    BodiesAcceptable resp ↔ NothingToRefuse resp := by
  constructor
  · intro acceptable config hname hconfig himage
    obtain ⟨name, hname'⟩ := Option.isSome_iff_exists.mp hname
    obtain ⟨image, himage'⟩ := Option.isSome_iff_exists.mp himage
    obtain ⟨spec, read⟩ : ∃ spec, ContainerSpec.fromInspect resp = .ok spec := by
      simp [ContainerSpec.fromInspect, hname', hconfig, himage']
    obtain ⟨events, out, hrun, hinspected, hcreate⟩ := exists_update read
    have hbody := acceptable.update _ _ _ _ events out hrun hinspected _ hcreate _ _ _ _ rfl
    exact (acceptable_iff_nothingToRefuse read _).mp hbody config hname hconfig himage
  · exact bodiesAcceptable_of_nothingToRefuse shared

/-- A sidecar as a daemon reports it: in the namespace of `vpn`, with the ports its image
exposes. -/
def sidecar : ContainerInspectResponse where
  id := some "9f8e7d6c5b4a3210"
  name := some "/torrent"
  image := none
  state := none
  config := some { ContainerConfig.default with
    image := some "torrent:latest", hostname := some "9f8e7d6c5b4a",
    exposedPorts := some ["8080/tcp"] }
  hostConfig := some ⟨some "container:vpn", ""⟩
  networks := none

/-- An update sends the exposed ports of a sidecar. -/
theorem sidecar_refused :
    sharesNamespace sidecar.hostConfig = true ∧ ¬ BodiesAcceptable sidecar := by
  refine ⟨by decide, fun acceptable => ?_⟩
  obtain ⟨events, out, hrun, hinspected, hcreate⟩ := @exists_update sidecar _ rfl
  have hbody := acceptable.update _ _ _ _ events out hrun hinspected _ hcreate _ _ _ _ rfl
  have hports := hbody.exposedPorts ["8080/tcp"] rfl
  cases hports

/-- The condition at this sidecar. -/
theorem bodiesAcceptable_iff_sidecar : BodiesAcceptable sidecar ↔ NothingToRefuse sidecar :=
  bodiesAcceptable_iff sidecar (by decide)

end Freshdock.Docker
