import Freshdock.Docker.Recreate

/-!
# What daemon operations can be observed to do

One lemma for each operation: the calls it makes and what its value says about the events. A
result about a whole update is put together from them.

**Facts from events.** The names in this file say what an event told the program: `Inspected`
that a container was inspected and read as a spec, `Archived` that a rename succeeded,
`CreatedFrom` that a create made from a spec returned an id, `ListedDependent` that a listing
showed a container in the owner's namespace. Each is stated of the environment's promise
`rely`, so that a promise about events becomes a fact about the program's data.
-/

set_option autoImplicit false

namespace Freshdock.Docker

open Interaction Registry
open Labels (Hook LifecycleHooks)

/-- Every quiet event keeps `guar`. -/
def Quiet (guar : CallEvent → Prop) : Prop :=
  ∀ (call : Call) (reply : Option call.Reply), call.quiet = true → guar ⟨call, reply⟩

/-- A call that pulls an image. -/
def Pulls : Call → Bool
  | .createImage _ => true
  | _ => false

/-- Every quiet event other than a pull keeps `guar`. -/
def Hushed (guar : CallEvent → Prop) : Prop :=
  ∀ (call : Call) (reply : Option call.Reply), call.quiet = true → Pulls call = false →
    guar ⟨call, reply⟩

theorem Quiet.hushed {guar : CallEvent → Prop} (quiet : Quiet guar) : Hushed guar :=
  fun call reply hquiet _ => quiet call reply hquiet

instance {guar : CallEvent → Prop} : Coe (Quiet guar) (Hushed guar) := ⟨Quiet.hushed⟩

section Facts

variable (rely : CallEvent → Prop)

def Inspected (ref : String) (spec : ContainerSpec) : Prop :=
  ∃ resp, rely ⟨.inspectContainer ref, some (.ok resp)⟩ ∧
    ContainerSpec.fromInspect resp = .ok spec

def Archived (role : Role) (name archive : String) : Prop :=
  rely ⟨.renameContainer role name archive, some (.ok ())⟩

/-- A create from `spec` under `name` returned `id`. -/
def CreatedFrom (role : Role) (name : String) (spec : ContainerSpec) (image id : String) : Prop :=
  rely ⟨.createContainer role name (spec.toCreateBody image), some (.ok id)⟩

def ListedDependent (docker : Docker) (owner dependent : String) : Prop :=
  ∃ resp running, rely ⟨.inspectContainer owner, some (.ok resp)⟩ ∧
    rely ⟨.listRunning, some (.ok running)⟩ ∧
    dependent ∈ networkDependentNames running (ownerName resp owner) (resp.id.getD "")
      (SelfId.ownContainerIdPrefix docker.hostname)

/-- The dependents that one listing showed, or none. -/
def ListedDependents (docker : Docker) (owner : String) (dependents : List String) : Prop :=
  dependents = [] ∨ ∃ resp running, rely ⟨.inspectContainer owner, some (.ok resp)⟩ ∧
    rely ⟨.listRunning, some (.ok running)⟩ ∧
    dependents = networkDependentNames running (ownerName resp owner) (resp.id.getD "")
      (SelfId.ownContainerIdPrefix docker.hostname)

theorem ListedDependents.listed {docker : Docker} {owner : String} {dependents : List String}
    (h : ListedDependents rely docker owner dependents) :
    ∀ d ∈ dependents, ListedDependent rely docker owner d := by
  intro d hd
  rcases h with rfl | ⟨resp, running, hresp, hrunning, rfl⟩
  · cases hd
  · exact ⟨resp, running, hresp, hrunning, hd⟩

end Facts

variable {rely guar : CallEvent → Prop}

/-! ## Reading -/

section Reading

variable (hushed : Hushed guar)

include hushed

/-- One quiet call, of which the reply is kept. -/
theorem emits_quiet {call : Call} (hcall : call.quiet = true) (hpull : Pulls call = false) :
    Emits rely guar (request call) fun reply => rely ⟨call, some reply⟩ :=
  emits_request (fun reply => hushed call reply hcall hpull) fun _ hr => hr

theorem emits_inspectContainer (ref : String) :
    Emits rely guar (Op.call (request (.inspectContainer ref))).run fun r =>
      ∀ resp, r = .ok resp → rely ⟨.inspectContainer ref, some (.ok resp)⟩ :=
  (emits_quiet hushed rfl rfl).weaken fun _ hr _ h => h ▸ hr

theorem emits_listRunning :
    Emits rely guar listRunning.run fun r =>
      ∀ running, r = .ok running → rely ⟨.listRunning, some (.ok running)⟩ :=
  (emits_quiet hushed rfl rfl).weaken fun _ hr _ h => h ▸ hr

theorem emits_inspect (ref : String) :
    Emits rely guar (inspect ref).run fun r => ∀ spec, r = .ok spec → Inspected rely ref spec := by
  refine emits_except_bind (emits_inspectContainer hushed ref) (fun e spec h => by cases h) ?_
  intro resp hresp
  refine emits_done fun spec h => ⟨resp, hresp, ?_⟩
  cases hread : ContainerSpec.fromInspect resp with
  | error e => simp [hread, Except.mapError] at h
  | ok spec' =>
      simp only [hread, Except.mapError, Except.ok.injEq] at h
      rw [h]

theorem emits_localImageId (reference : String) :
    Emits rely guar (localImageId reference).run fun _ => True :=
  emits_try_bind (fun _ => True)
    ((emits_quiet hushed rfl rfl).weaken fun r _ => by cases r <;> trivial)
    fun _ _ => emits_done trivial

theorem emits_retryRateLimited {pull : Prog (Except DockerError Unit)}
    (once : Emits rely guar pull fun _ => True) (delays : List Duration) :
    Emits rely guar (retryRateLimited pull delays) fun _ => True := by
  induction delays with
  | nil => exact once
  | cons delay delays ih =>
      refine emits_bind once fun result _ => ?_
      cases result with
      | ok _ => exact emits_done trivial
      | error e =>
          cases hlimit : isTransientRateLimit e with
          | false => simpa [hlimit] using emits_done trivial
          | true =>
              simp only [hlimit, ite_true]
              exact emits_bind (emits_quiet hushed rfl rfl) fun _ _ => ih

theorem emits_pull (image : ImageRef) (pulled : ∀ reply, guar ⟨.createImage image, reply⟩) :
    Emits rely guar (pull image).run fun _ => True :=
  emits_retryRateLimited hushed (emits_request pulled fun _ _ => trivial) _

theorem emits_ts (ts : TsProvider) : Emits rely guar ts.read fun _ => True := by
  cases ts with
  | fixed timestamp => exact emits_done trivial
  | system => exact (emits_quiet hushed rfl rfl).weaken fun _ _ => trivial

theorem emits_probeState (ref : String) :
    Emits rely guar (probeState ref).run fun _ => True :=
  emits_except_bind (emits_inspectContainer hushed ref) (fun _ => trivial)
    fun _ _ => emits_done trivial

theorem emits_listNetworkDependents (docker : Docker) (owner : String) :
    Emits rely guar (listNetworkDependents docker owner).run fun r =>
      ∀ dependents, r = .ok dependents → ListedDependents rely docker owner dependents := by
  refine emits_except_bind (emits_inspectContainer hushed owner) (fun e d h => by cases h) ?_
  intro resp hresp
  refine emits_except_bind (emits_listRunning hushed) (fun e d h => by cases h) ?_
  intro running hrunning
  refine emits_done ?_
  intro dependents h
  cases h
  exact .inr ⟨resp, running, hresp, hrunning, rfl⟩

theorem emits_dependentsOf (docker : Docker) (owner : String) :
    Emits rely guar (dependentsOf docker owner) (ListedDependents rely docker owner) := by
  refine emits_bind (emits_listNetworkDependents hushed docker owner) fun listed hlisted => ?_
  cases listed with
  | error e => exact emits_done (.inl rfl)
  | ok dependents => exact emits_done (hlisted dependents rfl)

/-! ## The gates -/

theorem emits_orPollAgain {α : Type} {again : Prog α} (start limit pollInterval : Duration)
    (verdict : α) (goesOn : Emits rely guar again fun _ => True) :
    Emits rely guar (orPollAgain start limit pollInterval verdict again) fun _ => True := by
  refine emits_bind (emits_quiet hushed rfl rfl) fun now _ => ?_
  by_cases hlimit : limit ≤ now - start
  · simpa [hlimit] using emits_done trivial
  · simp only [hlimit, ite_false]
    exact emits_bind (emits_quiet hushed rfl rfl) fun _ _ => goesOn

theorem emits_pollHealth (id : String) (cfg : HealthConfig) (start : Duration) (polls : Nat)
    (errorDeadline : Duration) :
    Emits rely guar (pollHealth id cfg start polls errorDeadline) fun _ => True := by
  induction polls generalizing errorDeadline with
  | zero => exact emits_stalled
  | succ polls ih =>
      refine emits_bind (emits_probeState hushed id) fun probed _ => ?_
      match probed with
      | .ok .healthHealthy => exact emits_done trivial
      | .ok (.exited _) => exact emits_done trivial
      | .ok .healthStarting => exact emits_orPollAgain hushed _ _ _ _ (ih _)
      | .ok .healthUnhealthy => exact emits_orPollAgain hushed _ _ _ _ (ih _)
      | .ok .runningNoHealthcheck => exact emits_orPollAgain hushed _ _ _ _ (ih _)
      | .error _ => exact emits_orPollAgain hushed _ _ _ _ (ih _)

theorem emits_waitForHealth (docker : Docker) (id : String) (cfg : HealthConfig) :
    Emits rely guar (waitForHealth docker id cfg) fun _ => True :=
  emits_bind (emits_quiet hushed rfl rfl) fun _ _ => emits_pollHealth hushed _ _ _ _ _

theorem emits_pollExit (id : String) (timeout pollInterval start : Duration) (polls : Nat) :
    Emits rely guar (pollExit id timeout pollInterval start polls) fun _ => True := by
  induction polls with
  | zero => exact emits_stalled
  | succ polls ih =>
      refine emits_bind (emits_probeState hushed id) fun probed _ => ?_
      cases exitReported probed with
      | some exitCode => exact emits_done trivial
      | none => exact emits_orPollAgain hushed _ _ _ _ ih

theorem emits_waitForExit (docker : Docker) (id : String) (timeout pollInterval : Duration) :
    Emits rely guar (waitForExit docker id timeout pollInterval) fun _ => True :=
  emits_bind (emits_quiet hushed rfl rfl) fun _ _ => emits_pollExit hushed _ _ _ _ _

end Reading

/-! ## The swap -/

/-- What an update or a repair of `name` from `spec` may be observed to do. -/
structure SwapKeeps (rely guar : CallEvent → Prop) (role : Role) (name : String)
    (spec : ContainerSpec) (image : String) : Prop where
  stop : ∀ signal timeout reply, guar ⟨.stopContainer role name signal timeout, reply⟩
  rename : ∀ archive reply, guar ⟨.renameContainer role name archive, reply⟩
  create : ∀ reply, guar ⟨.createContainer role name (spec.toCreateBody image), reply⟩
  start : ∀ id reply, CreatedFrom rely role name spec image id →
    guar ⟨.startContainer role id, reply⟩

/-- What the end of a swap says about its events. -/
def Swapped (rely : CallEvent → Prop) (role : Role) (name : String) (spec : ContainerSpec)
    (image : String) : Except SwapError (String × String) → Prop
  | .ok (archive, id) => Archived rely role name archive ∧ CreatedFrom rely role name spec image id
  | .error (.afterStop _ (some archive)) => Archived rely role name archive
  | .error _ => True

theorem emits_renameTo (role : Role) (source target : String)
    (keeps : ∀ reply, guar ⟨.renameContainer role source target, reply⟩) :
    Emits rely guar (renameTo role source target).run fun r =>
      ∀ u, r = .ok u → Archived rely role source target := by
  refine emits_request keeps fun r hr u h => ?_
  subst h
  exact hr

theorem emits_renameToOld (hushed : Hushed guar) (role : Role) (name : String) (tsUnix : Int)
    (keeps : ∀ archive reply, guar ⟨.renameContainer role name archive, reply⟩) :
    Emits rely guar (renameToOld role name tsUnix).run fun r =>
      ∀ archive, r = .ok archive → Archived rely role name archive := by
  refine emits_lift_bind (emits_nextAvailableOldName (fun n reply => hushed _ reply rfl rfl) name tsUnix)
    fun archive _ => ?_
  refine emits_except_bind (emits_renameTo role name archive (keeps archive))
    (fun e a h => by cases h) fun u harchived => ?_
  refine emits_done fun a ha => ?_
  cases ha
  exact harchived

theorem emits_createFromSpec (role : Role) (name : String) (spec : ContainerSpec)
    (image : String)
    (keeps : ∀ reply, guar ⟨.createContainer role name (spec.toCreateBody image), reply⟩) :
    Emits rely guar (createFromSpec role name spec image).run fun r =>
      ∀ id, r = .ok id → CreatedFrom rely role name spec image id := by
  refine emits_request keeps fun r hr id h => ?_
  subst h
  exact hr

theorem emits_swapStep {α : Type} {onError : DockerError → SwapError} {op : Op α}
    {post : Except SwapError α → Prop}
    (h : Emits rely guar op.run fun r => post (Except.mapError onError r)) :
    Emits rely guar (swapStep onError op).run post :=
  emits_map h

/-- **A swap makes the calls of its order, on its container and on the id it created**, and
its end says which of them succeeded. -/
theorem emits_swapContainer {role : Role} {name image : String} {spec : ContainerSpec}
    (hushed : Hushed guar) (keeps : SwapKeeps rely guar role name spec image) (ts : TsProvider) :
    Emits rely guar (swapContainer role name spec image ts).run
      (Swapped rely role name spec image) := by
  refine emits_try_bind (fun _ => True) (emits_swapStep ?_) fun _ _ => ?_
  · refine emits_request (keeps.stop _ _) fun r _ => ?_
    cases r <;> trivial
  refine emits_lift_bind (emits_ts hushed ts) fun tsUnix _ => ?_
  refine emits_try_bind (Archived rely role name) (emits_swapStep ?_) fun archive harchived => ?_
  · refine (emits_renameToOld hushed role name tsUnix keeps.rename).weaken fun r hr => ?_
    cases r with
    | error e => trivial
    | ok archive => exact hr archive rfl
  refine emits_try_bind (CreatedFrom rely role name spec image) (emits_swapStep ?_)
    fun id hcreated => ?_
  · refine (emits_createFromSpec role name spec image keeps.create).weaken fun r hr => ?_
    cases r with
    | error e => exact harchived
    | ok id => exact hr id rfl
  refine emits_try_bind (fun _ => True) (emits_swapStep ?_) fun _ _ => ?_
  · refine emits_request (keeps.start id · hcreated) fun r _ => ?_
    cases r with
    | error e => exact harchived
    | ok _ => trivial
  exact emits_done ⟨harchived, hcreated⟩

/-! ## Repairs -/

/-- What a repair of `dependent` may be observed to do. -/
structure ReattachKeeps (rely guar : CallEvent → Prop) (dependent owner : String)
    (newOwnerId : Option String) : Prop where
  swap : ∀ inspected image, Inspected rely dependent inspected →
    SwapKeeps rely guar .repair dependent (repairSpec inspected owner newOwnerId) image
  restore : ∀ archive reply, Archived rely .repair dependent archive →
    guar ⟨.renameContainer .repair archive dependent, reply⟩
  restart : ∀ reply, guar ⟨.startContainer .repair dependent, reply⟩
  clean : ∀ archive reply, Archived rely .repair dependent archive →
    guar ⟨.removeContainer .repair archive false, reply⟩

theorem emits_repairImage (hushed : Hushed guar) (spec : ContainerSpec) :
    Emits rely guar (repairImage spec) fun _ => True := by
  unfold repairImage
  split
  · exact emits_done trivial
  · split
    · exact emits_done trivial
    · refine emits_bind (emits_localImageId hushed _) fun resolved _ => ?_
      split
      · split <;> exact emits_done trivial
      · exact emits_done trivial

section Repair

variable {dependent owner : String} {newOwnerId : Option String}
  (keeps : ReattachKeeps rely guar dependent owner newOwnerId)

include keeps

theorem ReattachKeeps.restoreAfterFailedReattach {archive : String}
    (harchive : Archived rely .repair dependent archive) :
    Emits rely guar (restoreAfterFailedReattach dependent archive) fun _ => True := by
  refine emits_bind (emits_renameTo .repair archive dependent (keeps.restore archive · harchive))
    fun renamed _ => ?_
  cases renamed with
  | error e => exact emits_done trivial
  | ok _ =>
      exact emits_bind (emits_request keeps.restart fun _ _ => trivial) fun _ _ => emits_done trivial

theorem ReattachKeeps.finishReattach {image : String} {spec : ContainerSpec}
    {swapped : Except SwapError (String × String)}
    (facts : Swapped rely .repair dependent spec image swapped) :
    Emits rely guar (finishReattach dependent swapped).run fun _ => True := by
  match swapped, facts with
  | .ok (archive, id), ⟨harchived, _⟩ =>
      exact emits_lift_bind (emits_request (keeps.clean archive · harchived) fun _ _ => trivial)
        fun _ _ => emits_done trivial
  | .error (.stop error), _ => exact emits_done trivial
  | .error (.afterStop error none), _ => exact emits_done trivial
  | .error (.afterStop error (some archive)), harchived =>
      exact emits_lift_bind (keeps.restoreAfterFailedReattach harchived)
        fun _ _ => emits_done trivial

/-- **A repair makes the calls of its swap, and of restoring the dependent when that fails.** -/
theorem ReattachKeeps.reattachOne (hushed : Hushed guar) (ts : TsProvider) :
    Emits rely guar (reattachOne owner newOwnerId dependent ts).run fun _ => True := by
  refine emits_except_bind (emits_inspect hushed dependent) (fun _ => trivial)
    fun inspected hinspected => ?_
  refine emits_lift_bind (emits_repairImage hushed _) fun image _ => ?_
  refine emits_lift_bind (emits_swapContainer hushed (keeps.swap inspected image hinspected) ts)
    fun swapped hswapped => ?_
  exact keeps.finishReattach hswapped

end Repair

theorem emits_reattachDependents (hushed : Hushed guar) {owner : String}
    {newOwnerId : Option String} {dependents : List String}
    (keeps : ∀ d ∈ dependents, ReattachKeeps rely guar d owner newOwnerId) (ts : TsProvider) :
    Emits rely guar (reattachDependents owner newOwnerId ts dependents) fun _ => True := by
  induction dependents with
  | nil => exact emits_done trivial
  | cons dependent dependents ih =>
      refine emits_bind ((keeps _ List.mem_cons_self).reattachOne hushed ts) fun _ _ => ?_
      exact ih fun d hd => keeps d (List.mem_cons_of_mem _ hd)

end Freshdock.Docker
