import Freshdock.Docker.FailedRepair
import Freshdock.Docker.PreviousContainer
import Freshdock.Docker.Repairs
import Freshdock.Docker.SharedNamespace
import Freshdock.Interaction.Asked

/-!
# Faithful repairs

A repair re-creates a container that shared the updated one's network namespace. The body it
sends joins the namespace of the replacement, or after a rollback of the restored container
(`JoinsOwner`), and names the image the dependent runs (`FaithfulBody`). The daemon is one that
tells the truth about the network modes and images of its containers (`Catalogue.tells`).

**References by a beginning of an id.** The scan takes twelve characters of an id for the
container. The daemon does so too where they begin no other id and are no container's name; the
result for a rollback holds where they are not (`Alone`), and fails where they are.
-/

set_option autoImplicit false

namespace Freshdock.Docker

open Interaction Registry Text
open Labels (LifecycleHooks)

/-! ## What a daemon tells -/

/-- The containers of a daemon, by id, and its images, by reference. -/
structure Catalogue where
  networkMode : String → Option String
  /-- The reference a container was created from. -/
  image : String → Option String
  imageId : String → Option String
  /-- The image id a reference resolves to in the local store. -/
  store : String → Option String

namespace Catalogue

/-- What the event reports of containers or of an image is as the catalogue has it. -/
def tells (cat : Catalogue) : CallEvent → Bool
  | ⟨.inspectContainer _, some (.ok resp)⟩ =>
      resp.id.all fun id =>
        resp.hostConfig.bind HostConfig.networkMode == cat.networkMode id &&
          resp.config.bind ContainerConfig.image == cat.image id && resp.image == cat.imageId id
  | ⟨.listRunning, some (.ok running)⟩ =>
      running.all fun row => row.id.all fun id => row.networkMode == cat.networkMode id
  | ⟨.inspectImage reference, some (.ok image)⟩ => image.id == cat.store reference
  | _ => true

/-- Ids and references pinned to a digest name fixed bits: each still resolves to the image of
every container that was created from it. -/
structure Fixed (cat : Catalogue) : Prop where
  ids : ∀ container id, cat.imageId container = some id → cat.store id = some id
  pinned : ∀ container reference id, cat.image container = some reference →
    isPinned reference = true → cat.imageId container = some id → cat.store reference = some id

/-- Does `d` reference `c`: by its name, its id, or twelve characters or more of its id? -/
def references (cat : Catalogue) (d c : Container) : Bool :=
  (cat.networkMode d.id).any fun mode => networkModeReferences mode c.name c.id

end Catalogue

/-! ## References -/

/-- The container that a body or a spec joins. -/
def joinedReference (hostConfig : Option HostConfig) : Option String :=
  (hostConfig.bind HostConfig.networkMode).bind containerReference

/-- No container but `c` has an id that begins with `ref`, or has that name. -/
def Alone (w : World) (c : Container) (ref : String) : Prop :=
  ∀ c' ∈ w.containers, c'.id ≠ c.id → startsWith c'.id ref = false ∧ c'.name ≠ ref

/-- The reference resolves to `owner`, which is `prev` or its replacement. Where it is `prev` a
reference by the beginning of its id has to stand alone. -/
structure JoinsOwner (prev owner : Container) (ref : String) (w : World) : Prop where
  replaced : owner.id ≠ prev.id → w.resolve ref = some owner
  restored : owner.id = prev.id → ref = prev.name ∨ ref = prev.id ∨ Alone w prev ref →
    w.resolve ref = some owner

/-- A create body of a repair of `d`, sent to `w`: it joins `owner` and runs the image of `d`. -/
structure FaithfulBody (cat : Catalogue) (prev owner d : Container) (body : ContainerCreateBody)
    (w : World) : Prop where
  present : owner ∈ w.containers
  joins : ∃ ref, joinedReference body.hostConfig = some ref ∧ JoinsOwner prev owner ref w
  image : ∀ id, cat.imageId d.id = some id →
    ∃ image, body.image = some image ∧ cat.store image = some id

/-- The reference a repair writes. -/
def repairedReference (ownerName : String) : Option String → String → String
  | some newId, ref => if ref == ownerName then ref else newId
  | none, ref => ref

theorem hostConfig_repairSpec (spec : ContainerSpec) (ownerName : String)
    (newOwnerId : Option String) :
    (repairSpec spec ownerName newOwnerId).hostConfig =
      (rewriteOwnerReference spec ownerName newOwnerId).hostConfig := by
  unfold repairSpec stripSharedNamespaceConflicts
  split <;> rfl

theorem joinedReference_repairSpec {spec : ContainerSpec} {ref : String}
    (href : joinedReference spec.hostConfig = some ref) (ownerName : String)
    (newOwnerId : Option String) :
    joinedReference (repairSpec spec ownerName newOwnerId).hostConfig =
      some (repairedReference ownerName newOwnerId ref) := by
  rw [hostConfig_repairSpec]
  cases newOwnerId with
  | none =>
      have hkept : rewriteOwnerReference spec ownerName none = spec := by simp [rewriteOwnerReference]
      rw [hkept, href, repairedReference]
  | some newId =>
      obtain ⟨hostConfig, hhost, hmode⟩ : ∃ hostConfig, spec.hostConfig = some hostConfig ∧
          hostConfig.networkMode.bind containerReference = some ref := by
        cases hhost : spec.hostConfig with
        | none => simp [joinedReference, hhost] at href
        | some hostConfig => exact ⟨hostConfig, rfl, by simpa [joinedReference, hhost] using href⟩
      by_cases hname : ref = ownerName
      · have hkept : rewriteOwnerReference spec ownerName (some newId) = spec := by
          simp [rewriteOwnerReference, hhost, hmode, hname]
        simp [hkept, href, repairedReference, hname]
      · simp [rewriteOwnerReference, hhost, hmode, hname, repairedReference, joinedReference,
          containerReference_container]

theorem startsWith_self (s : String) : startsWith s s = true := by simp [startsWith]

/-- A mode that references a container does so by its name or by a beginning of its id. -/
theorem reference_of_references {mode name id : String}
    (h : networkModeReferences mode name id = true) :
    ∃ ref, containerReference mode = some ref ∧ (ref = name ∨ startsWith id ref = true) := by
  unfold networkModeReferences at h
  cases hmode : containerReference mode with
  | none => simp [hmode] at h
  | some ref =>
      simp only [hmode, Bool.or_eq_true, Bool.and_eq_true, beq_iff_eq] at h
      refine ⟨ref, rfl, ?_⟩
      rcases h with hname | ⟨-, hid | ⟨-, hbegins⟩⟩
      · exact .inl hname
      · exact .inr (hid ▸ startsWith_self ref)
      · exact .inr hbegins

section Owner

variable {w : World} {prev owner : Container} {ref : String}

/-- After a success a name is left as it is, and every other reference is the new id. -/
theorem joins_replacement (valid : w.Valid) (howner : owner ∈ w.containers)
    (hname : owner.name = prev.name) (hne : owner.id ≠ prev.id) (ref : String) :
    JoinsOwner prev owner (repairedReference prev.name (some owner.id) ref) w where
  replaced _ := by
    by_cases href : ref = prev.name
    · simp only [repairedReference, href, beq_self_eq_true, ite_true]
      exact hname ▸ valid.resolve_name howner
    · simp only [repairedReference, beq_eq_false_iff_ne.mpr href, Bool.false_eq_true, ite_false]
      exact valid.resolve_id howner
  restored heq := absurd heq hne

/-- After a rollback every reference is left as it is. -/
theorem joins_restored (valid : w.Valid) (howner : owner ∈ w.containers)
    (hname : owner.name = prev.name) (hid : owner.id = prev.id)
    (href : ref = prev.name ∨ startsWith prev.id ref = true) :
    JoinsOwner prev owner (repairedReference prev.name none ref) w where
  replaced hne := absurd hid hne
  restored _ := by
    have hnamed (heq : ref = prev.name) : w.resolve ref = some owner := by
      rw [heq, ← hname]
      exact valid.resolve_name howner
    rintro (heq | heq | alone)
    · exact hnamed heq
    · have heq : ref = owner.id := hid ▸ heq
      rw [heq, repairedReference]
      exact valid.resolve_id howner
    · rcases href with heq | hbegins
      · exact hnamed heq
      · rw [← hid] at hbegins
        refine valid.resolve_beginning howner hbegins fun c' hc' hne => ?_
        exact alone c' hc' (hid ▸ hne)

end Owner

/-! ## Images -/

/-- **A repair creates from the image its dependent runs**, as far as the daemon tells. -/
theorem store_of_repairImage {cat : Catalogue} (fixed : cat.Fixed) {spec : ContainerSpec}
    {container image : String} {asked : List CallEvent}
    (hid : spec.imageId = cat.imageId container) (href : cat.image container = some spec.imageRef)
    (told : ∀ e ∈ asked, cat.tells e = true) (h : Produces (repairImage spec) asked (some image))
    (id : String) (known : cat.imageId container = some id) : cat.store image = some id := by
  rw [known] at hid
  rcases produces_repairImage h with ⟨-, rfl, hkept⟩ | ⟨id', reply, hid', -, rfl, rfl⟩
  · rcases hkept with hnone | hpinned
    · rw [hid] at hnone
      cases hnone
    · exact fixed.pinned container _ id href hpinned known
  · obtain rfl : id = id' := Option.some.inj (hid.symm.trans hid')
    have hreply := told _ (List.mem_singleton.mpr rfl)
    rcases reply with e | found
    · exact fixed.ids container id known
    · by_cases hsame : found.id = some id
      · have hstore : found.id = cat.store spec.imageRef := by simpa [Catalogue.tells] using hreply
        simp only [resolvesTo, hsame, beq_self_eq_true, ite_true]
        rw [← hstore, hsame]
      · have hmoved : (found.id == some id) = false := by simpa using hsame
        simp only [resolvesTo, hmoved, Bool.false_eq_true, ite_false]
        exact fixed.ids container id known

/-! ## One repair -/

/-- The call, if it is the create of a repair, sends a body that is good for its name. -/
def OnRepairs (good : String → ContainerCreateBody → World → Prop) (call : Call) (w : World) :
    Prop :=
  ∀ name body, call = .createContainer .repair name body → good name body w

/-- An event that is no create of a repair. -/
def NotRepair (e : CallEvent) : Prop := ∀ name body, e.call ≠ .createContainer .repair name body

theorem notRepair_of_notCreate {e : CallEvent} (h : NotCreate e) : NotRepair e := by
  intro name body hcall
  unfold NotCreate at h
  rw [hcall] at h
  cases h

theorem quiet_notRepair : Quiet NotRepair := fun call reply hquiet =>
  notRepair_of_notCreate (quiet_notCreate call reply hquiet)

section Watch

variable {oracle : Oracle} {promise : CallEvent → Prop} {w : World} {α β : Type}

/-- Nothing is asked of the creates of a part that makes none for a repair. -/
theorem watches_notRepair {p : Prog α} {out : α → Prop}
    (emits : Emits (fun _ => True) NotRepair p out)
    (good : Option α → String → ContainerCreateBody → World → Prop) :
    Watches oracle.answer promise p w fun result => OnRepairs (good result) :=
  watches_of_emits emits fun _ hnot _ _ name body hcall => absurd hcall (hnot name body)

theorem watches_notRepair_first {p : Prog α} {out : α → Prop}
    (emits : Emits (fun _ => True) NotRepair p out)
    (good : Option β → String → ContainerCreateBody → World → Prop) :
    Watches oracle.answer promise p w fun _ call s => ∀ result, OnRepairs (good result) call s :=
  watches_of_emits emits fun _ hnot _ _ _ name body hcall => absurd hcall (hnot name body)

end Watch

theorem emits_notRepair {rely : CallEvent → Prop} {α : Type} {p : Prog α} {post : α → Prop}
    (h : Emits rely NotCreate p post) : Emits rely NotRepair p post :=
  h.mono (fun _ hrely => hrely) fun _ hnot => notRepair_of_notCreate hnot

section Repair

variable {oracle : Oracle} {cat : Catalogue} {w : World} {prev owner d : Container}

/-- The create of a swap under way is asked while every other container is as it was. -/
theorem watches_swapContainer {promise : CallEvent → Prop} (valid : w.Valid)
    (hd : d ∈ w.containers) (spec : ContainerSpec) (image : String) (ts : TsProvider)
    {good : String → ContainerCreateBody → World → Prop}
    (holds : ∀ s, Evolves [d.id] w s → good d.name (spec.toCreateBody image) s) :
    Watches oracle.answer promise (swapContainer .repair d.name spec image ts).run w
      fun _ => OnRepairs good := by
  have archives := emits_notRepair (emits_archiveContainer_notCreate .repair d.name spec ts)
  rw [swapContainer_eq]
  refine watches_except_bind _ (watches_notRepair_first archives _)
    (ensures_archiveContainer valid hd .repair spec ts) ?_
  intro archive _ w₁ ⟨swapping, _, _⟩ _
  refine watches_except_bind (fun _ _ _ => True) (watches_map (watches_request ?_)) trivial ?_
  · intro reply out name body hcall
    cases hcall
    exact holds w₁ swapping.evolves
  · intro newId _ w₂ _ _
    have starts : Emits (fun _ => True) NotRepair
        ((swapStep (.afterStop · (some archive)) (start .repair newId) >>=
          fun _ => pure (archive, newId) : Fallible Call Call.Reply SwapError _)).run
        fun _ => True :=
      emits_except_bind (emits_swapStep (emits_request (fun _ _ _ h => by cases h)
        fun _ _ _ _ => trivial)) (fun _ => trivial) fun _ _ => emits_done trivial
    exact watches_notRepair starts fun _ => good

/-- What the inspect of a container is read as agrees with the catalogue. -/
structure ReadAs (cat : Catalogue) (d : Container) (spec : ContainerSpec) : Prop where
  networkMode : spec.hostConfig.bind HostConfig.networkMode = cat.networkMode d.id
  image : cat.image d.id = some spec.imageRef
  imageId : spec.imageId = cat.imageId d.id

theorem readAs_of_inspected (valid : w.Valid) (hd : d ∈ w.containers) {spec : ContainerSpec}
    (h : Inspected (fun e => Told oracle w e ∧ cat.tells e = true) d.name spec) :
    ReadAs cat d spec := by
  obtain ⟨resp, ⟨htold, htells⟩, hread⟩ := h
  obtain ⟨c, hc, hid, -⟩ := told_inspect htold
  obtain rfl : d = c := Option.some.inj ((valid.resolve_name hd).symm.trans hc)
  obtain ⟨_, config, -, hconfig, himage, -, himageId, -, hhost, -⟩ := fromInspect_ok hread
  simp only [Catalogue.tells, hid, Option.all_some, hconfig, Option.bind_some, himage,
    Bool.and_eq_true, beq_iff_eq] at htells
  obtain ⟨⟨hmode, hcat⟩, hcatId⟩ := htells
  exact ⟨hhost ▸ hmode, hcat.symm, himageId.trans hcatId⟩

/-- The create of a repair sends a body that is faithful to one of `ds`. -/
def FaithfulTo (cat : Catalogue) (prev owner : Container) (ds : List Container) (name : String)
    (body : ContainerCreateBody) (w : World) : Prop :=
  ∃ d ∈ ds, d.name = name ∧ FaithfulBody cat prev owner d body w

/-- **The body of a repair is faithful** where the reference it writes joins the owner. -/
theorem watches_reattachOne (fixed : cat.Fixed) (valid : w.Valid) (hd : d ∈ w.containers)
    (howner : owner ∈ w.containers) (hne : owner.id ≠ d.id) {mode ref ownerName : String}
    {newOwnerId : Option String} (hmode : cat.networkMode d.id = some mode)
    (href : containerReference mode = some ref)
    (joins : ∀ s : World, s.Valid → owner ∈ s.containers →
      JoinsOwner prev owner (repairedReference ownerName newOwnerId ref) s) (ts : TsProvider) :
    Watches oracle.answer (fun e => cat.tells e = true)
      (reattachOne ownerName newOwnerId d.name ts).run w
      fun _ => OnRepairs (FaithfulTo cat prev owner [d]) := by
  refine watches_except_bind _ (watches_notRepair_first (emits_inspect quiet_notRepair d.name) _)
    (ensures_promised (fun _ => emits_inspect (quiet_moves _).hushed d.name) .rfl) ?_
  intro inspected _ w₁ ⟨same₁, hinspected⟩ told₁
  have read := readAs_of_inspected valid hd (hinspected _ told₁ _ rfl _ rfl)
  -- the image
  let spec := repairSpec inspected ownerName newOwnerId
  refine watches_lift_bind _ (watches_notRepair_first (emits_repairImage quiet_notRepair spec) _)
    ((ensures_promised (fun _ => emits_repairImage (quiet_moves _).hushed spec) .rfl).and
      (ensures_produces _ w₁)) ?_
  intro image asked w₂ ⟨⟨same₂, _⟩, himage⟩ told₂
  have same := same₁.trans same₂
  have hstore := store_of_repairImage fixed (imageId_repairSpec.trans read.imageId)
    (by rw [imageRef_repairSpec]; exact read.image) told₂ himage
  -- the swap
  have hd₂ : d ∈ w₂.containers := by rwa [same.containers]
  have howner₂ : owner ∈ w₂.containers := by rwa [same.containers]
  refine watches_lift_bind (fun _ _ _ => True)
    ((watches_swapContainer (same.valid valid) hd₂ spec image ts ?_).weaken fun _ _ _ h _ => h)
    trivial fun swapped _ w₃ _ _ =>
      watches_notRepair (emits_notRepair (notCreate_finishReattach d.name swapped)) _
  intro s evolves
  refine ⟨d, List.mem_singleton.mpr rfl, rfl, ?_⟩
  have howner₃ := evolves.kept owner howner₂ fun h => hne (List.mem_singleton.mp h)
  refine ⟨howner₃, ?_, ?_⟩
  · refine ⟨_, joinedReference_repairSpec ?_ ownerName newOwnerId, joins s evolves.valid howner₃⟩
    rw [joinedReference, read.networkMode, hmode]
    exact href
  · intro id known
    exact ⟨image, rfl, hstore id known⟩

/-- **The bodies of repairs are faithful**, one dependent after the other. -/
theorem watches_reattachDependents (fixed : cat.Fixed) {newOwnerId : Option String}
    (joins : ∀ (ref : String) (s : World), s.Valid → owner ∈ s.containers →
      (ref = prev.name ∨ startsWith prev.id ref = true) →
      JoinsOwner prev owner (repairedReference prev.name newOwnerId ref) s)
    {ds : List Container} (valid : w.Valid) (nodup : ds.Nodup)
    (hds : ∀ d ∈ ds, d ∈ w.containers) (hne : ∀ d ∈ ds, d.id ≠ owner.id)
    (references : ∀ d ∈ ds, cat.references d prev = true) (howner : owner ∈ w.containers)
    (ts : TsProvider) :
    Watches oracle.answer (fun e => cat.tells e = true)
      (reattachDependents prev.name newOwnerId ts (ds.map Container.name)) w
      fun _ => OnRepairs (FaithfulTo cat prev owner ds) := by
  induction ds generalizing w with
  | nil => exact watches_done _ _
  | cons d ds ih =>
      obtain ⟨hnotMem, nodup⟩ := List.nodup_cons.mp nodup
      have hd := hds d List.mem_cons_self
      have howner_ne : owner.id ≠ d.id := (hne d List.mem_cons_self).symm
      obtain ⟨mode, hmode, hreferences⟩ :=
        (Option.any_eq_true _ _).mp (references d List.mem_cons_self)
      obtain ⟨ref, href, hfits⟩ := reference_of_references hreferences
      have first := @watches_reattachOne oracle cat w prev owner d fixed valid hd howner howner_ne
        mode ref prev.name newOwnerId hmode href (fun s hs hmem => joins ref s hs hmem hfits) ts
      refine watches_bind _ (first.weaken ?_)
        (ensures_reattachOne valid hd prev.name newOwnerId ts) ?_
      · intro _ call s holds _ name body hcall
        obtain ⟨d', hd', hname, faithful⟩ := holds name body hcall
        obtain rfl := List.mem_singleton.mp hd'
        exact ⟨d', List.mem_cons_self, hname, faithful⟩
      · intro _ _ w₁ evolves _
        have rest := ih evolves.valid nodup (evolves.kept_others valid hds hnotMem)
          (fun d' hd' => hne d' (List.mem_cons_of_mem _ hd'))
          (fun d' hd' => references d' (List.mem_cons_of_mem _ hd'))
          (evolves.kept owner howner fun h => howner_ne (List.mem_singleton.mp h))
        refine rest.weaken ?_
        intro _ call s holds name body hcall
        obtain ⟨d', hd', hname, faithful⟩ := holds name body hcall
        exact ⟨d', List.mem_cons_of_mem _ hd', hname, faithful⟩

end Repair

end Freshdock.Docker
