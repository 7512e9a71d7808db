import Freshdock.Commands.Table
import Freshdock.Interaction.Steady

/-!
# The check as it would be without sharing

A check that takes the containers one after the other, and probes the image of each for itself. While
the daemon and the registries do not change, it makes the same table as the check that shares its
probes between the containers and lets them run side by side (`check_as_plain`).
-/

set_option autoImplicit false

namespace Freshdock.Check

open Interaction Docker Probe
open Labels (PolicyDefaults)
open Registry (isPinned ImageRef)

/-! ## The plain check -/

def rowFor (p : Pending) (image : String) (shown : String × String × String) : Cells where
  container := p.name
  image := image
  mode := p.mode.name
  current := shown.1
  latest := shown.2.1
  update := shown.2.2

/-- The row of a container that was probed by itself. A cut within a character panics. -/
def plainShown (p : Pending) (target : ProbeTarget) (outcome : ProbeOutcome) : Prog Cells :=
  match renderCells target.image target.imageId outcome with
  | some shown => pure (rowFor p target.image shown)
  | none => .stalled

def plainProbed (p : Pending) : Except DockerError ProbeTarget → Prog Cells
  | .ok target => do
      let outcome ← probeImage target.image
      plainShown p target outcome
  | .error e =>
      pure (rowFor p (p.container.image.getD "?")
        (dash, "error: container inspect failed: " ++ e.message, dash))

def plainRow (p : Pending) : Prog Cells := do
  let target ← (resolveTarget p.container).run
  plainProbed p target

/-- The table, one row after the other. -/
def plainCheck (defaults : PolicyDefaults) (ownIdPrefix : Option String) : Op (List Cells) := do
  let containers ← listRunning
  Op.lift (inOrder ((containers.filterMap (pendingOf defaults ownIdPrefix)).map plainRow))

/-! ## One row -/

variable {world : (c : Call) → c.Reply}

/-- What probing an image comes to. -/
def probedIn (world : (c : Call) → c.Reply) (image : String) : ProbeOutcome :=
  if isPinned image then .pinned
  else
    let known := localSide image (world (.inspectImage image))
    probeOutcome known.1 known.2 (world (.fetchDigest (ImageRef.parse image)))

theorem steady_probeImage (image : String) :
    (probeImage image).steady world = some (probedIn world image) := by
  unfold probeImage probedIn
  split <;> rfl

/-- A container can always be resolved, or it is known why not. -/
theorem exists_resolved (world : (c : Call) → c.Reply) : ∃ resolved : ContainerSummary →
    Except DockerError ProbeTarget, ∀ c, (resolveTarget c).run.steady world = some (resolved c) := by
  have each (c : ContainerSummary) : ∃ target, (resolveTarget c).run.steady world = some target := by
    unfold resolveTarget
    split
    · exact ⟨_, rfl⟩
    split
    · split
      · exact ⟨_, rfl⟩
      · next id _ =>
        rw [run_inspectTarget, steady_map, steady_request]
        exact ⟨_, rfl⟩
    · exact ⟨_, rfl⟩
  choose resolved h using each
  exact ⟨resolved, h⟩

/-! ## One table -/

section Rows

variable {images : List String} {outcomeOf : String → ProbeOutcome}

theorem zip_map_self (images : List String) (outcomeOf : String → ProbeOutcome) :
    images.zip (images.map outcomeOf) = images.map fun image => (image, outcomeOf image) := by
  induction images with
  | nil => rfl
  | cons image images ih => rw [List.map_cons, List.zip_cons_cons, ih, List.map_cons]

/-- What is looked up by an image was probed for it. -/
theorem get?_byImage {image : String} (h : image ∈ images) :
    (byImage images (images.map outcomeOf)).get? image = some (outcomeOf image) := by
  unfold byImage
  rw [zip_map_self, SortedMap.get?_foldl_insert, List.filterMap_map]
  have found : outcomeOf image ∈ images.filterMap
      ((fun entry : String × ProbeOutcome => if entry.1 = image then some entry.2 else none) ∘
        fun image => (image, outcomeOf image)) :=
    List.mem_filterMap.mpr ⟨image, h, if_pos rfl⟩
  obtain ⟨last, hlast⟩ := Option.ne_none_iff_exists'.mp
    (mt List.getLast?_eq_none_iff.mp (List.ne_nil_of_mem found))
  rw [hlast, Option.some_or]
  obtain ⟨image', -, hvalue⟩ := List.mem_filterMap.mp (List.mem_of_getLast? hlast)
  simp only [Function.comp_apply, Option.ite_none_right_eq_some, Option.some.injEq] at hvalue
  obtain ⟨rfl, rfl⟩ := hvalue
  rfl

/-- The row of a container, from what its own image was probed to be. -/
theorem cells_of_target {p : Pending} {target : Except DockerError ProbeTarget}
    {probed : SortedMap String ProbeOutcome}
    (known : ∀ t, target = .ok t → probed.get? t.image = some (probedIn world t.image)) :
    (rowOf p target).cells probed = (plainProbed p target).steady world := by
  cases target with
  | error e => rfl
  | ok t =>
      have outcome := known t rfl
      rw [plainProbed, steady_bind, steady_probeImage, Option.bind_some]
      change (renderCells t.image t.imageId ((probed.get? t.image).getD _)).map _ = _
      rw [outcome, Option.getD_some]
      unfold plainShown
      cases renderCells t.image t.imageId (probedIn world t.image) <;> rfl

/-- The rows of a table, each from what its own image was probed to be. -/
theorem cellsOf_eq {resolved : ContainerSummary → Except DockerError ProbeTarget}
    (hresolved : ∀ c, (resolveTarget c).run.steady world = some (resolved c))
    {probed : SortedMap String ProbeOutcome} {pending : List Pending}
    (known : ∀ p ∈ pending, ∀ t, resolved p.container = .ok t →
      probed.get? t.image = some (probedIn world t.image)) :
    cellsOf probed (pending.map fun p => rowOf p (resolved p.container)) =
      (inOrder (pending.map plainRow)).steady world := by
  rw [steady_inOrder, List.map_map]
  induction pending with
  | nil => rfl
  | cons p pending ih =>
      have row : (plainRow p).steady world = (rowOf p (resolved p.container)).cells probed := by
        rw [plainRow, steady_bind, hresolved, Option.bind_some]
        exact (cells_of_target (known p List.mem_cons_self)).symm
      rw [List.map_cons, List.map_cons, cellsOf, ih fun q hq => known q (List.mem_cons_of_mem _ hq),
        Function.comp_apply, row]
      cases (rowOf p (resolved p.container)).cells probed <;> rfl

end Rows

/-! ## The command -/

theorem zipWith_map_self (pending : List Pending)
    (resolved : ContainerSummary → Except DockerError ProbeTarget) :
    List.zipWith rowOf pending (pending.map fun p => resolved p.container) =
      pending.map fun p => rowOf p (resolved p.container) := by
  induction pending with
  | nil => rfl
  | cons p pending ih => rw [List.map_cons, List.zipWith_cons_cons, ih, List.map_cons]

theorem steady_table (defaults : PolicyDefaults) (ownIdPrefix : Option String)
    (resolving probing : List Nat) (containers : List ContainerSummary) :
    (table defaults ownIdPrefix resolving probing containers).steady world =
      (inOrder ((containers.filterMap (pendingOf defaults ownIdPrefix)).map plainRow)).steady
        world := by
  obtain ⟨resolved, hresolved⟩ := exists_resolved world
  generalize hpending : containers.filterMap (pendingOf defaults ownIdPrefix) = pending
  have targets : (joined resolving (pending.map fun p => (resolveTarget p.container).run)).steady
      world = some (pending.map fun p => resolved p.container) := by
    rw [steady_joined, List.map_map, ← collected_some, List.map_map]
    refine congrArg collected (List.map_congr_left fun p _ => ?_)
    exact hresolved p.container
  have outcomes (images : List String) : (joined probing (images.map probeImage)).steady world =
      some (images.map (probedIn world)) := by
    rw [steady_joined, List.map_map, ← collected_some, List.map_map]
    refine congrArg collected (List.map_congr_left fun image _ => ?_)
    exact steady_probeImage image
  unfold table
  rw [hpending, steady_bind, targets, Option.bind_some, zipWith_map_self]
  unfold probeRows
  rw [steady_bind, outcomes, Option.bind_some]
  have shown := @cellsOf_eq world resolved hresolved (byImage
    (uniqueImages (pending.map fun p => rowOf p (resolved p.container)))
    ((uniqueImages (pending.map fun p => rowOf p (resolved p.container))).map (probedIn world)))
    pending fun p hp t ht => get?_byImage (@mem_uniqueImages _ (rowOf p (resolved p.container)) t
      (List.mem_map_of_mem hp) (by rw [rowOf, ht]; rfl))
  unfold showRows
  rw [shown]
  cases (inOrder (pending.map plainRow)).steady world <;> rfl

theorem steady_collectCells (defaults : PolicyDefaults) (ownIdPrefix : Option String)
    (resolving probing : List Nat) (world : (c : Call) → c.Reply) :
    (collectCells defaults ownIdPrefix resolving probing).run.steady world =
      (plainCheck defaults ownIdPrefix).run.steady world := by
  unfold collectCells plainCheck
  rw [ExceptT.run_bind, ExceptT.run_bind, steady_bind, steady_bind]
  refine congrArg (Option.bind _) ?_
  funext listed
  cases listed with
  | error e => rfl
  | ok containers =>
      change (Except.ok <$> table defaults ownIdPrefix resolving probing containers :
        Prog _).steady world = (Except.ok <$> inOrder _ : Prog _).steady world
      rw [steady_map, steady_map, steady_table]

/-- **The check makes the table of the plain check**: in a world that does not change, whatever turns
its calls take, it returns what the plain check returns there. -/
theorem check_as_plain (defaults : PolicyDefaults) (ownIdPrefix : Option String)
    (resolving probing : List Nat) (world : (c : Call) → c.Reply)
    (r : Except DockerError (List Cells)) :
    (∃ events, Produces (collectCells defaults ownIdPrefix resolving probing).run events (some r) ∧
        ∀ e ∈ events, AnsweredBy world e) ↔
      ∃ events, Produces (plainCheck defaults ownIdPrefix).run events (some r) ∧
        ∀ e ∈ events, AnsweredBy world e := by
  rw [← steady_iff, ← steady_iff, steady_collectCells]

end Freshdock.Check
