import Freshdock.Docker.Recreate

/-!
# An obliging environment

A daemon that does whatever it is asked, whose reports are chosen freely, next to a clock that
advances by its sleeps. Results that need some environment to exist choose the reports and take
this one.
-/

set_option autoImplicit false

namespace Freshdock

open Interaction Docker Registry

/-- The reports of an obliging environment. -/
structure Obliging where
  inspect : String → Except DockerError ContainerInspectResponse
  running : List ContainerSummary
  project : List ContainerSummary
  /-- The id of a container created under a name, or why it is refused. -/
  create : String → Except DockerError String
  /-- May a container be renamed to a name? -/
  rename : String → Except DockerError Unit

/-- Answer a call at a time of the clock. -/
def Obliging.answer (env : Obliging) : Handler Call Call.Reply Nat
  | .inspectContainer ref, t => (some (env.inspect ref), t)
  | .listRunning, t => (some (.ok env.running), t)
  | .listProjectContainers _, t => (some (.ok env.project), t)
  | .createImage _, t => (some (.ok ()), t)
  | .stopContainer .., t => (some (.ok ()), t)
  | .renameContainer _ _ target, t => (some (env.rename target), t)
  | .createContainer _ name _, t => (some (env.create name), t)
  | .startContainer .., t => (some (.ok ()), t)
  | .removeContainer .., t => (some (.ok ()), t)
  | .exec .., t => (some (.ok (.completed 0)), t)
  | .inspectImage _, t => (some (.ok ⟨none, none⟩), t)
  | .removeImage .., t => (some (.ok ()), t)
  | .pruneImages, t => (some (.ok ()), t)
  | .fetchDigest _, t => (some (.ok ""), t)
  | .now, t => (some t, t)
  | .sleep d, t => (some (), t + d)
  | .unixTime, t => (some (0 : Int), t)
  | .localTime, t => (some (0 : Int), t)
  | .shutdownRequested, t => (some false, t)
  | .dispatch _, t => (some (), t)

/-- What an inspect of a container reports: its name, its image, its labels and its state. -/
def inspectReport (name image : String) (labels : LabelMap) (state : ContainerState) :
    ContainerInspectResponse where
  id := none
  name := some name
  image := none
  state := some state
  config := some { ContainerConfig.default with image := some image, labels := some labels }
  hostConfig := none
  networks := none

/-! ## Updates in an obliging environment -/

namespace Obliging

variable {env : Obliging} {t : Nat}

theorem returns_inspectContainer (ref : String) :
    Returns env.answer (Op.call (request (.inspectContainer ref))).run t (env.inspect ref) t :=
  returns_request rfl

theorem returns_inspect {ref : String} {resp : ContainerInspectResponse} {spec : ContainerSpec}
    (hresp : env.inspect ref = .ok resp) (hspec : ContainerSpec.fromInspect resp = .ok spec) :
    Returns env.answer (Docker.inspect ref).run t (.ok spec) t := by
  have hinspect := @returns_inspectContainer env t ref
  rw [hresp] at hinspect
  refine returns_except_bind hinspect ?_
  rw [hspec]
  exact returns_done _

theorem returns_resolveMemberImages {rows : List ContainerSummary}
    (named : ∀ row ∈ rows, isImageId (projectMember row).imageRef = false) :
    Returns env.answer (resolveMemberImages (rows.map projectMember)).run t
      (.ok (rows.map projectMember)) t := by
  induction rows with
  | nil => exact returns_done _
  | cons row rows ih =>
      have hrow : Returns env.answer (resolveMemberImage (projectMember row)).run t
          (.ok (projectMember row)) t := by
        rw [resolveMemberImage, named row List.mem_cons_self]
        exact returns_done _
      have hrows := ih fun row' hrow' => named row' (List.mem_cons_of_mem _ hrow')
      exact returns_except_bind hrow (returns_except_bind hrows (returns_done _))

/-- A project whose rows name their images is listed as it is. -/
theorem returns_listProject {project : String}
    (named : ∀ row ∈ env.project, isImageId (projectMember row).imageRef = false) :
    Returns env.answer (listProject project).run t (.ok (env.project.map projectMember)) t := by
  have hrows : Returns env.answer (Op.call (request (.listProjectContainers project))).run t
      (.ok env.project) t := returns_request rfl
  exact returns_except_bind hrows (returns_resolveMemberImages named)

theorem returns_nameTaken (name : String) :
    Returns env.answer (nameTaken name) t (Except.isOk (env.inspect name)) t :=
  returns_bind (returns_request rfl) (returns_done _)

theorem returns_firstAvailable (base : String) (numbers : List Nat) :
    ∃ name, Returns env.answer (firstAvailable base nameTaken numbers) t name t ∧
      ∃ n : Nat, name = base ++ "-" ++ toString n := by
  induction numbers with
  | nil => exact ⟨_, returns_done _, maxCollisionAttempts, rfl⟩
  | cons n rest ih =>
      have hname := @returns_nameTaken env t (base ++ "-" ++ toString n)
      cases htaken : Except.isOk (env.inspect (base ++ "-" ++ toString n)) with
      | true =>
          obtain ⟨name, hrest, harchive⟩ := ih
          rw [htaken] at hname
          exact ⟨name, returns_bind hname hrest, harchive⟩
      | false =>
          rw [htaken] at hname
          exact ⟨_, returns_bind hname (returns_done _), n, rfl⟩

theorem returns_nextAvailableOldName (original : String) (tsUnix : Int) :
    ∃ name, Returns env.answer (nextAvailableOldNameAsync original tsUnix) t name t ∧
      IsArchiveOf original tsUnix name := by
  have hname := @returns_nameTaken env t (oldNameFor original tsUnix)
  cases htaken : Except.isOk (env.inspect (oldNameFor original tsUnix)) with
  | true =>
      obtain ⟨name, hrest, harchive⟩ := @returns_firstAvailable env t (oldNameFor original tsUnix)
        (List.range' 1 maxCollisionAttempts)
      rw [htaken] at hname
      exact ⟨name, returns_bind hname hrest, .inr harchive⟩
  | false =>
      rw [htaken] at hname
      exact ⟨_, returns_bind hname (returns_done _), .inl rfl⟩

theorem returns_renameToOld (role : Role) {original : String} {tsUnix : Int}
    (archives : ∀ name, IsArchiveOf original tsUnix name → env.rename name = .ok ()) :
    ∃ archive, Returns env.answer (renameToOld role original tsUnix).run t (.ok archive) t := by
  obtain ⟨archive, hname, harchive⟩ := @returns_nextAvailableOldName env t original tsUnix
  have hrename : Returns env.answer
      (Op.call (request (.renameContainer role original archive))).run t (.ok ()) t := by
    refine returns_request ?_
    rw [← archives archive harchive]
    rfl
  exact ⟨archive, returns_lift_bind hname (returns_except_bind hrename (returns_done _))⟩

/-- The timestamp a provider reads in an obliging environment. -/
def timestamp : TsProvider → Int
  | .fixed timestamp => timestamp
  | .system => 0

theorem returns_ts (ts : TsProvider) : Returns env.answer ts.read t (timestamp ts) t := by
  cases ts with
  | fixed timestamp => exact returns_done _
  | system => exact returns_request rfl

/-- Every archive name of `name` may be taken. -/
def Archives (env : Obliging) (ts : TsProvider) (name : String) : Prop :=
  ∀ archive, IsArchiveOf name (timestamp ts) archive → env.rename archive = .ok ()

/-- A swap goes through when its rename and its create do. -/
theorem returns_swapContainer {role : Role} {name image id : String} {spec : ContainerSpec}
    {ts : TsProvider} (archives : env.Archives ts name) (hcreate : env.create name = .ok id) :
    ∃ archive, Returns env.answer (swapContainer role name spec image ts).run t
      (.ok (archive, id)) t := by
  have hts := @returns_ts env t ts
  obtain ⟨archive, hrename⟩ := @returns_renameToOld env t role name (timestamp ts) archives
  have hstop : Returns env.answer
      (stop role name spec.config.stopSignal spec.config.stopTimeout).run t (.ok ()) t :=
    returns_request rfl
  have hcreated : Returns env.answer (createFromSpec role name spec image).run t (.ok id) t := by
    refine returns_request ?_
    rw [← hcreate]
    rfl
  have hstart : Returns env.answer (start role id).run t (.ok ()) t := returns_request rfl
  refine ⟨archive, ?_⟩
  refine returns_except_bind (returns_map hstop) ?_
  refine returns_lift_bind hts ?_
  refine returns_except_bind (returns_map hrename) ?_
  refine returns_except_bind (returns_map hcreated) ?_
  exact returns_except_bind (returns_map hstart) (returns_done _)

theorem returns_pull (image : ImageRef) : Returns env.answer (pull image).run t (.ok ()) t :=
  returns_bind (returns_request rfl) (returns_done _)

theorem returns_runPreUpdateHook (name : String) (hook : Option Labels.Hook) :
    Returns env.answer (runPreUpdateHook name hook) t none t := by
  cases hook with
  | none => exact returns_done _
  | some hook => exact returns_bind (returns_request rfl) (returns_done _)

theorem returns_runPostUpdateHook (newId : String) (hook : Option Labels.Hook) :
    Returns env.answer (runPostUpdateHook newId hook) t () t := by
  cases hook with
  | none => exact returns_done _
  | some hook => exact returns_bind (returns_request rfl) (returns_done _)

theorem returns_runCleanup (cleanup : Cleanup) (oldImageId : Option String) :
    Returns env.answer (runCleanup cleanup oldImageId) t () t := by
  have hremoved : Returns env.answer (removeReplacedImage cleanup oldImageId) t () t := by
    unfold removeReplacedImage
    split
    · exact returns_bind (returns_request rfl) (returns_done _)
    · exact returns_done _
  refine returns_bind hremoved ?_
  cases cleanup.pruneDangling with
  | true => exact returns_bind (returns_request rfl) (returns_done _)
  | false => exact returns_done _

theorem returns_dependentsOf (docker : Docker) (name : String) (quiet : env.running = []) :
    Returns env.answer (dependentsOf docker name) t [] t := by
  have hrunning : Returns env.answer listRunning.run t (.ok []) t := by
    rw [← quiet]
    exact returns_request rfl
  cases hinspect : env.inspect name with
  | error e =>
      have h := @returns_inspectContainer env t name
      rw [hinspect] at h
      exact returns_bind (returns_bind h (returns_done _)) (returns_done _)
  | ok resp =>
      have h := @returns_inspectContainer env t name
      rw [hinspect] at h
      refine returns_bind (returns_except_bind h (returns_except_bind hrunning
        (returns_done _))) (returns_done _)

/-- A container without endpoints passes the preflight. -/
theorem preflight_of_none {docker : Docker} {spec : ContainerSpec}
    (hnetworks : spec.networkEndpoints = none) : docker.preflightRecreate spec = .ok () := by
  simp [preflightRecreate, hnetworks, multiNetworkGuard]

/-- A cycle goes through for a container that passes the preflight and that nothing depends
on. -/
theorem returns_recreateOne {docker : Docker} {name id : String} {ts : TsProvider}
    {resp : ContainerInspectResponse} {spec : ContainerSpec} (hresp : env.inspect name = .ok resp)
    (hspec : ContainerSpec.fromInspect resp = .ok spec) (hcreate : env.create spec.name = .ok id)
    (hpreflight : docker.preflightRecreate spec = .ok ()) (quiet : env.running = [])
    (archives : env.Archives ts spec.name) (hooks : Labels.LifecycleHooks) :
    ∃ cycle, Returns env.answer (recreateOne docker name hooks ts).run t
      (.ok (.completed cycle)) t ∧ cycle.newId = id ∧ cycle.dependents = [] := by
  obtain ⟨archive, hswap⟩ := @returns_swapContainer env t .update spec.name spec.imageRef id spec
    ts archives hcreate
  have hclear : Returns env.answer (clearUpdate docker name hooks).run t (.ok (spec, none)) t := by
    refine returns_except_bind (returns_inspect hresp hspec) ?_
    refine returns_except_bind (by rw [hpreflight]; exact returns_done _) ?_
    refine returns_except_bind (returns_pull _) ?_
    exact returns_lift_bind (returns_runPreUpdateHook name _) (returns_done _)
  refine ⟨⟨spec.name, archive, id, spec.imageRef, spec.imageRef, spec.imageId, []⟩, ?_, rfl, rfl⟩
  refine returns_except_bind hclear ?_
  refine returns_lift_bind (returns_dependentsOf docker name quiet) ?_
  exact returns_except_bind (returns_map hswap) (returns_done _)

theorem returns_rollback {name : String} (hname : env.rename name = .ok ())
    (newId oldName : String) (images : String × String) (reason : RollbackReason) :
    ∃ event, Returns env.answer (rollback name newId oldName images reason).run t (.ok event) t := by
  have hremove : Returns env.answer (remove .update newId true).run t (.ok ()) t :=
    returns_request rfl
  have hrename : Returns env.answer (renameTo .update oldName name).run t (.ok ()) t := by
    refine returns_request ?_
    rw [← hname]
    rfl
  have hstart : Returns env.answer (start .update name).run t (.ok ()) t := returns_request rfl
  refine ⟨⟨name, reason, images.1, images.2, oldName⟩, ?_⟩
  refine returns_lift_bind (returns_request rfl) ?_
  refine returns_except_bind hremove (returns_except_bind hrename ?_)
  exact returns_except_bind hstart (returns_done _)

/-! ## Verdicts -/

theorem returns_probeState {ref : String} {resp : ContainerInspectResponse}
    {state : ContainerRuntimeState} (hresp : env.inspect ref = .ok resp)
    (hstate : classifyRuntimeState resp.state = state) :
    Returns env.answer (probeState ref).run t (.ok state) t := by
  have h := @returns_inspectContainer env t ref
  rw [hresp] at h
  subst hstate
  exact returns_except_bind h (returns_done _)

/-- The gate rejects a container that has exited. -/
theorem returns_waitForHealth_exited {docker : Docker} {id : String} {exitCode : Int}
    {resp : ContainerInspectResponse} (hpolls : 0 < docker.polls)
    (hresp : env.inspect id = .ok resp)
    (hstate : classifyRuntimeState resp.state = .exited exitCode) (cfg : HealthConfig) :
    Returns env.answer (waitForHealth docker id cfg) t .crashed t := by
  obtain ⟨polls, hpolls⟩ := Nat.exists_eq_succ_of_ne_zero hpolls.ne'
  refine returns_bind (returns_request rfl) ?_
  rw [hpolls]
  exact returns_bind (returns_probeState hresp hstate) (returns_done _)

/-- The gate accepts a container that reports healthy. -/
theorem returns_waitForHealth_healthy {docker : Docker} {id : String}
    {resp : ContainerInspectResponse} (hpolls : 0 < docker.polls)
    (hresp : env.inspect id = .ok resp)
    (hstate : classifyRuntimeState resp.state = .healthHealthy) (cfg : HealthConfig) :
    Returns env.answer (waitForHealth docker id cfg) t .healthy t := by
  obtain ⟨polls, hpolls⟩ := Nat.exists_eq_succ_of_ne_zero hpolls.ne'
  refine returns_bind (returns_request rfl) ?_
  rw [hpolls]
  exact returns_bind (returns_probeState hresp hstate) (returns_done _)

theorem returns_waitForExit_exited {docker : Docker} {id : String} {exitCode : Int}
    {resp : ContainerInspectResponse} (hpolls : 0 < docker.polls)
    (hresp : env.inspect id = .ok resp)
    (hstate : classifyRuntimeState resp.state = .exited exitCode)
    (timeout pollInterval : Duration) :
    Returns env.answer (waitForExit docker id timeout pollInterval) t (.exited exitCode) t := by
  obtain ⟨polls, hpolls⟩ := Nat.exists_eq_succ_of_ne_zero hpolls.ne'
  refine returns_bind (returns_request rfl) ?_
  rw [hpolls]
  exact returns_bind (returns_probeState hresp hstate) (returns_done _)

/-- The containers whose recreate goes through, with the report of the replacement. -/
structure Swappable (env : Obliging) (ts : TsProvider) (name : String)
    (state : Option ContainerState) : Prop where
  quiet : env.running = []
  spec : ∃ resp spec id new, env.inspect name = .ok resp ∧
    ContainerSpec.fromInspect resp = .ok spec ∧ env.Archives ts spec.name ∧
    env.create spec.name = .ok id ∧ spec.networkEndpoints = none ∧ env.inspect id = .ok new ∧
    new.state = state

variable {docker : Docker} {ts : TsProvider} {name : String} {state : Option ContainerState}

/-- **The update of a container whose replacement is healthy succeeds.** -/
theorem Swappable.recreated (swappable : Swappable env ts name state) (hpolls : 0 < docker.polls)
    (hstate : classifyRuntimeState state = .healthHealthy) (cfg : HealthConfig)
    (cleanup : Cleanup) (hooks : Labels.LifecycleHooks) :
    ∃ oldName newId, Returns env.answer (recreateWithHealth docker name cfg cleanup hooks ts).run t
      (.ok (.recreated oldName newId)) t := by
  obtain ⟨resp, spec, id, new, hresp, hspec, archives, hcreate, hnetworks, hnew, hnewState⟩ :=
    swappable.spec
  obtain ⟨cycle, hcycle, hid, hdependents⟩ := @returns_recreateOne env t docker name id ts resp
    spec hresp hspec hcreate (preflight_of_none hnetworks) swappable.quiet archives hooks
  refine ⟨cycle.oldName, cycle.newId, returns_except_bind hcycle ?_⟩
  have hgate : Returns env.answer (waitForHealth docker cycle.newId cfg) t .healthy t := by
    rw [hid]
    exact returns_waitForHealth_healthy hpolls hnew (by rw [hnewState, hstate]) cfg
  refine returns_lift_bind hgate (returns_lift ?_)
  unfold settleUpdate
  rw [hdependents]
  refine returns_bind (returns_done ()) ?_
  refine returns_bind (returns_request rfl) ?_
  refine returns_bind (returns_runPostUpdateHook _ _) ?_
  exact returns_bind (returns_runCleanup _ _) (returns_done _)

/-- The update of a container whose replacement has exited is rolled back. -/
theorem Swappable.rolledBack (swappable : Swappable env ts name state)
    (renames : ∀ target, env.rename target = .ok ()) (hpolls : 0 < docker.polls)
    {exitCode : Int} (hstate : classifyRuntimeState state = .exited exitCode)
    (cfg : HealthConfig) (cleanup : Cleanup) (hooks : Labels.LifecycleHooks) :
    ∃ event, Returns env.answer (recreateWithHealth docker name cfg cleanup hooks ts).run t
      (.ok (.rolledBack event)) t := by
  obtain ⟨resp, spec, id, new, hresp, hspec, archives, hcreate, hnetworks, hnew, hnewState⟩ :=
    swappable.spec
  obtain ⟨cycle, hcycle, hid, hdependents⟩ := @returns_recreateOne env t docker name id ts resp
    spec hresp hspec hcreate (preflight_of_none hnetworks) swappable.quiet archives hooks
  have hgate : Returns env.answer (waitForHealth docker cycle.newId cfg) t .crashed t := by
    rw [hid]
    exact returns_waitForHealth_exited hpolls hnew (by rw [hnewState, hstate]) cfg
  obtain ⟨event, hrollback⟩ := @returns_rollback env t cycle.ownerName (renames _) cycle.newId
    cycle.oldName (cycle.oldImageRef, cycle.newImageRef) .crashed
  refine ⟨event, returns_except_bind hcycle (returns_lift_bind hgate ?_)⟩
  refine returns_except_bind hrollback ?_
  rw [hdependents]
  exact returns_lift_bind (returns_done ()) (returns_done _)

/-- **The re-run of a one-shot that exits 0 completes.** -/
theorem Swappable.completed (swappable : Swappable env ts name state) (hpolls : 0 < docker.polls)
    (hstate : classifyRuntimeState state = .exited 0) (timeout pollInterval : Duration)
    (cleanup : Cleanup) (hooks : Labels.LifecycleHooks) :
    Returns env.answer
      (recreateOneShot docker name timeout pollInterval cleanup hooks ts).run t (.ok .completed)
      t := by
  obtain ⟨resp, spec, id, new, hresp, hspec, archives, hcreate, hnetworks, hnew, hnewState⟩ :=
    swappable.spec
  obtain ⟨cycle, hcycle, hid, hdependents⟩ := @returns_recreateOne env t docker name id ts resp
    spec hresp hspec hcreate (preflight_of_none hnetworks) swappable.quiet archives .default
  have hgate : Returns env.answer (waitForExit docker cycle.newId timeout pollInterval) t
      (.exited 0) t := by
    rw [hid]
    exact returns_waitForExit_exited hpolls hnew (by rw [hnewState, hstate]) _ _
  refine returns_except_bind hcycle (returns_lift ?_)
  refine returns_bind hgate ?_
  simp only [concludeOneShot, ite_true, settleOneShot]
  rw [hdependents]
  refine returns_bind (returns_done ()) ?_
  refine returns_bind (returns_request rfl) ?_
  exact returns_bind (returns_runCleanup _ _) (returns_done _)

end Obliging

/-- A daemon on which every container exits 0. -/
def exitingDaemon : Obliging where
  inspect ref := .ok (inspectReport ref "app" (fun _ => none)
    ⟨some .exited, some false, none, some 0, none⟩)
  running := []
  project := []
  create _ := .ok "new"
  rename _ := .ok ()

theorem exitingDaemon_swappable (ts : TsProvider) (name : String) :
    exitingDaemon.Swappable ts name (some ⟨some .exited, some false, none, some 0, none⟩) where
  quiet := rfl
  spec := ⟨_, _, _, _, rfl, rfl, fun _ _ => rfl, rfl, rfl, rfl, rfl⟩

end Freshdock
