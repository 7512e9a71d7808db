import Freshdock.Docker.Cycle

/-!
# What a repair creates

A repair inspects its dependent, looks the tag of its image up, and creates the replacement
from what it found: the dependent's own reference, or its image id where the tag has moved or
does not resolve (`produces_repairImage`, `repair_creates`).
-/

set_option autoImplicit false

namespace Freshdock.Docker

open Interaction Registry

/-! ## The spec and the image -/

section Spec

variable {spec : ContainerSpec} {owner : String} {newOwnerId : Option String}

theorem imageRef_repairSpec : (repairSpec spec owner newOwnerId).imageRef = spec.imageRef := by
  unfold repairSpec stripSharedNamespaceConflicts rewriteOwnerReference
  grind

theorem imageId_repairSpec : (repairSpec spec owner newOwnerId).imageId = spec.imageId := by
  unfold repairSpec stripSharedNamespaceConflicts rewriteOwnerReference
  grind

end Spec

/-- The lookup of a tag found the image of this id. -/
def resolvesTo (id : String) : Except DockerError ImageInspect → Bool
  | .ok image => image.id == some id
  | .error _ => false

theorem produces_localImageId {reference : String} {events : List CallEvent}
    {resolved : Except DockerError (Option String)}
    (h : Produces (localImageId reference).run events (some resolved)) :
    ∃ reply, events = [⟨.inspectImage reference, some reply⟩] ∧
      resolved = reply.map ImageInspect.id := by
  rcases h.of_except_bind with ⟨hnone, -⟩ | ⟨e, hout, hfirst⟩ | ⟨first, image, rest, rfl, hfirst, hrest⟩
  · cases hnone
  · obtain rfl := (of_call hfirst).of_request
    rcases hout with hout | hout
    · cases hout
      exact ⟨.error e, rfl, rfl⟩
    · cases hout
  · obtain rfl := (of_call hfirst).of_request
    obtain ⟨rfl, rfl⟩ := Produces.of_done hrest
    exact ⟨.ok image, rfl, rfl⟩

/-- **The image of a repair**: the reference, without a question when there is no image id or the
reference is pinned, and when its tag resolves to that id; else the id. -/
theorem produces_repairImage {spec : ContainerSpec} {asked : List CallEvent} {image : String}
    (h : Produces (repairImage spec) asked (some image)) :
    (asked = [] ∧ image = spec.imageRef ∧
        (spec.imageId = none ∨ isPinned spec.imageRef = true)) ∨
      ∃ id reply, spec.imageId = some id ∧ isPinned spec.imageRef = false ∧
        asked = [⟨.inspectImage spec.imageRef, some reply⟩] ∧
        image = if resolvesTo id reply then spec.imageRef else id := by
  unfold repairImage at h
  cases hid : spec.imageId with
  | none =>
      rw [hid] at h
      obtain ⟨rfl, rfl⟩ := h.of_done
      exact .inl ⟨rfl, rfl, .inl rfl⟩
  | some id =>
      cases hpinned : isPinned spec.imageRef with
      | true =>
          simp only [hid, hpinned, ite_true] at h
          obtain ⟨rfl, rfl⟩ := h.of_done
          exact .inl ⟨rfl, rfl, .inr rfl⟩
      | false =>
          simp only [hid, hpinned, Bool.false_eq_true, ite_false] at h
          refine .inr ⟨id, ?_⟩
          obtain ⟨first, resolved, rest, rfl, hfirst, hrest⟩ := h.of_bind_some
          obtain ⟨reply, rfl, rfl⟩ := produces_localImageId hfirst
          rcases reply with e | ⟨_ | tagId, digests⟩
          · obtain ⟨rfl, rfl⟩ := hrest.of_done
            exact ⟨.error e, rfl, rfl, rfl, rfl⟩
          · obtain ⟨rfl, rfl⟩ := hrest.of_done
            exact ⟨.ok ⟨none, digests⟩, rfl, rfl, rfl, rfl⟩
          · refine ⟨.ok ⟨some tagId, digests⟩, rfl, rfl, ?_⟩
            by_cases hsame : tagId = id
            · subst hsame
              simp only [Except.map, behindTag, bne_self_eq_false, Bool.false_eq_true,
                ite_false] at hrest
              obtain ⟨rfl, rfl⟩ := hrest.of_done
              exact ⟨rfl, by simp [resolvesTo]⟩
            · have hbehind : (id != tagId) = true := by simpa using Ne.symm hsame
              simp only [Except.map, behindTag, hbehind, ite_true] at hrest
              obtain ⟨rfl, rfl⟩ := hrest.of_done
              exact ⟨rfl, by simp [resolvesTo, hsame]⟩

/-! ## The create -/

theorem notCreate_finishReattach (dependent : String)
    (swapped : Except SwapError (String × String)) :
    Emits (fun _ => True) NotCreate (finishReattach dependent swapped).run fun _ => True := by
  match swapped with
  | .ok (archive, id) =>
      exact emits_lift_bind (emits_request (fun _ => rfl) fun _ _ => trivial)
        fun _ _ => emits_done trivial
  | .error (.stop error) => exact emits_done trivial
  | .error (.afterStop error none) => exact emits_done trivial
  | .error (.afterStop error (some archive)) =>
      have restore : Emits (fun _ => True) NotCreate
          (restoreAfterFailedReattach dependent archive) fun _ => True := by
        refine emits_bind (emits_renameTo .repair archive dependent fun _ => rfl) fun renamed _ => ?_
        cases renamed with
        | error e => exact emits_done trivial
        | ok _ =>
            exact emits_bind (emits_request (fun _ => rfl) fun _ _ => trivial)
              fun _ _ => emits_done trivial
      exact emits_lift_bind restore fun _ _ => emits_done trivial

/-- A create of a repair of `d` is made for it, from `image`. -/
def RepairsFrom (d image : String) (e : CallEvent) : Prop :=
  match e.call with
  | .createContainer role name body => role = .repair ∧ name = d ∧ body.image = some image
  | _ => True

theorem repairsFrom_swapContainer (d image : String) (spec : ContainerSpec) (ts : TsProvider) :
    Emits (fun _ => True) (RepairsFrom d image) (swapContainer .repair d spec image ts).run
      fun _ => True := by
  have hushed : Hushed (RepairsFrom d image) := by
    intro call reply hquiet _
    cases call <;> trivial
  refine (emits_swapContainer hushed ?_ ts).weaken fun _ _ => trivial
  exact {
    stop := fun _ _ _ => trivial
    rename := fun _ _ => trivial
    create := fun _ => ⟨rfl, rfl, rfl⟩
    start := fun _ _ _ => trivial }

/-- **A repair creates from the image it found after the inspect it began with.** -/
theorem repair_creates {owner : String} {newOwnerId : Option String} {d : String} {ts : TsProvider}
    {events before after : List CallEvent} {out : Option (Except DockerError Unit)}
    {e : CallEvent} (h : Produces (reattachOne owner newOwnerId d ts).run events out)
    (hplace : events = before ++ e :: after) {role : Role} {name : String}
    {body : ContainerCreateBody} (hcall : e.call = .createContainer role name body) :
    name = d ∧ ∃ resp spec image asked more,
      before = ⟨.inspectContainer d, some (.ok resp)⟩ :: (asked ++ more) ∧
      ContainerSpec.fromInspect resp = .ok spec ∧
      Produces (repairImage (repairSpec spec owner newOwnerId)) asked (some image) ∧
      body.image = some image := by
  have notMem {α : Type} {p : Prog α} {post : α → Prop} {evs : List CallEvent} {o : Option α}
      (still : Emits (fun _ => True) NotCreate p post) (produced : Produces p evs o) : e ∉ evs := by
    intro he
    have hnot : Creates e.call = false := notCreate_of_emits still produced e he
    rw [hcall] at hnot
    cases hnot
  have hmem : e ∈ events := by
    rw [hplace]
    simp
  -- the inspect
  have hinspect := @emits_inspect (fun _ => True) NotCreate quiet_notCreate d
  rcases h.of_except_bind with ⟨-, hfirst⟩ | ⟨_, -, hfirst⟩ | ⟨first, spec, rest, rfl, hfirst, hrest⟩
  · exact absurd hmem (notMem hinspect hfirst)
  · exact absurd hmem (notMem hinspect hfirst)
  have hnotFirst := notMem hinspect hfirst
  obtain ⟨resp, rfl, hread⟩ := produces_inspect hfirst
  rcases place_of_append hplace with ⟨after', hfirst'⟩ | ⟨before', rfl, rfl⟩
  · exact absurd (by rw [hfirst']; simp) hnotFirst
  -- the image
  rw [run_lift_bind] at hrest
  have himage := @emits_repairImage (fun _ => True) NotCreate quiet_notCreate
    (repairSpec spec owner newOwnerId)
  rcases hrest.of_bind with ⟨-, hasked⟩ | ⟨asked, image, rest, hsplit, hasked, hrest⟩
  · exact absurd (by simp) (notMem himage hasked)
  rcases place_of_append hsplit.symm with ⟨after', hasked'⟩ | ⟨more, rfl, rfl⟩
  · exact absurd (by rw [hasked']; simp) (notMem himage hasked)
  -- the swap
  have hmade : RepairsFrom d image e := by
    rw [run_lift_bind] at hrest
    have hswap := repairsFrom_swapContainer d image (repairSpec spec owner newOwnerId) ts
    rcases hrest.of_bind with ⟨-, hswapped⟩ | ⟨swapping, swapped, finishing, hparts, hswapped, hfinish⟩
    · exact (hswap _ _ hswapped fun _ _ => trivial).1 e (by simp)
    · have he : e ∈ swapping ++ finishing := by
        rw [← hparts]
        simp
      rcases List.mem_append.mp he with he | he
      · exact (hswap _ _ hswapped fun _ _ => trivial).1 e he
      · exact absurd he (notMem (notCreate_finishReattach d swapped) hfinish)
  unfold RepairsFrom at hmade
  rw [hcall] at hmade
  exact ⟨hmade.2.1, resp, spec, image, asked, more, rfl, hread, hasked, hmade.2.2⟩

end Freshdock.Docker
