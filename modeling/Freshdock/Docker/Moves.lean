import Freshdock.Docker.Updates

/-!
# The containers an update moves

`Moves P` says of an event that a container it moves is one that `P` allows for the role the
move is made in. A health-gated update, and the re-run of a one-shot, only move the container
they were asked for, its archive, its replacement, and the same three of every container that
shares its network namespace: when `P` allows these (`Updatable`), every event of the update
satisfies `Moves P`.
-/

set_option autoImplicit false

namespace Freshdock.Docker

open Interaction Registry Text
open Labels (Hook LifecycleHooks)

/-- The container an event moves is allowed for its role. -/
def Moves (P : Role → String → Prop) (e : CallEvent) : Prop :=
  ∀ role ref, e.call.moves = some (role, ref) → P role ref

theorem quiet_moves (P : Role → String → Prop) : Quiet (Moves P) := by
  intro call reply hquiet role ref hmoves
  cases call <;> simp [Call.moves, Call.quiet] at hmoves hquiet

/-- An event that moves nothing is allowed. -/
theorem moves_of_none {P : Role → String → Prop} {call : Call} {reply : Option call.Reply}
    (still : call.moves = none) : Moves P ⟨call, reply⟩ := by
  intro role ref hmoves
  exact absurd (still.symm.trans hmoves) (by simp)

theorem still_moves (P : Role → String → Prop) : Still (Moves P) :=
  fun _ _ still => moves_of_none still

/-- An event that moves `ref` is allowed when `P` allows it. -/
theorem moves_of_some {P : Role → String → Prop} {call : Call} {reply : Option call.Reply}
    {role : Role} {ref : String} (moved : call.moves = some (role, ref)) (allowed : P role ref) :
    Moves P ⟨call, reply⟩ := by
  intro role' ref' hmoves
  rw [moved] at hmoves
  cases hmoves
  exact allowed

variable {rely guar : CallEvent → Prop}

/-! ## Repairs -/

/-- The containers a repair of `dependent` may move are allowed. -/
structure Repairable (rely : CallEvent → Prop) (P : Role → String → Prop) (dependent : String) :
    Prop where
  itself : P .repair dependent
  archive : ∀ archive, Archived rely .repair dependent archive → P .repair archive
  replacement : ∀ inspected owner newOwnerId image id, Inspected rely dependent inspected →
    CreatedFrom rely .repair dependent (repairSpec inspected owner newOwnerId) image id →
    P .repair id

section Repair

variable {P : Role → String → Prop}

/-- A swap of an allowed container moves allowed containers. -/
theorem swapKeeps_moves {role : Role} {name image : String} {spec : ContainerSpec}
    (hname : P role name) (hid : ∀ id, CreatedFrom rely role name spec image id → P role id) :
    SwapKeeps rely (Moves P) role name spec image where
  stop _ _ _ := moves_of_some rfl hname
  rename _ _ := moves_of_some rfl hname
  create _ := moves_of_some rfl hname
  start id _ created := moves_of_some rfl (hid id created)

/-- The repair of a repairable container moves allowed containers. -/
theorem Repairable.keeps {dependent : String} (repairable : Repairable rely P dependent)
    (owner : String) (newOwnerId : Option String) :
    ReattachKeeps rely (Moves P) dependent owner newOwnerId where
  swap inspected image hinspected := swapKeeps_moves repairable.itself fun id created =>
    repairable.replacement inspected owner newOwnerId image id hinspected created
  restore archive _ harchive := moves_of_some rfl (repairable.archive archive harchive)
  restart _ := moves_of_some rfl repairable.itself
  clean archive _ harchive := moves_of_some rfl (repairable.archive archive harchive)

end Repair

/-! ## Whole updates -/

/-- The containers an update of `name` may move are allowed. -/
structure Updatable (rely : CallEvent → Prop) (P : Role → String → Prop) (docker : Docker)
    (name : String) : Prop where
  owner : ∀ spec, Inspected rely name spec → P .update spec.name
  archive : ∀ spec archive, Inspected rely name spec → Archived rely .update spec.name archive →
    P .update archive
  replacement : ∀ spec id, Inspected rely name spec →
    CreatedFrom rely .update spec.name spec spec.imageRef id → P .update id
  dependents : ∀ d, ListedDependent rely docker name d → Repairable rely P d

section Update

variable {P : Role → String → Prop} {docker : Docker} {name : String}
  (updatable : Updatable rely P docker name)

include updatable

theorem Updatable.swap : ∀ spec, Inspected rely name spec →
    SwapKeeps rely (Moves P) .update spec.name spec spec.imageRef := by
  intro spec hspec
  exact swapKeeps_moves (updatable.owner spec hspec)
    fun id created => updatable.replacement spec id hspec created

theorem Updatable.settle : ∀ cycle spec, Cycled rely docker name cycle spec →
    SettleKeeps rely (Moves P) cycle := by
  intro cycle spec cycled
  exact {
    still := still_moves P
    remove := fun _ => moves_of_some rfl
      (updatable.archive spec cycle.oldName cycled.inspected cycled.archived)
    reattach := fun d hd => (updatable.dependents d (cycled.dependents d hd)).keeps _ _ }

theorem Updatable.undo : ∀ cycle spec, Cycled rely docker name cycle spec →
    UndoKeeps rely (Moves P) cycle := by
  intro cycle spec cycled
  have hnew := updatable.replacement spec cycle.newId cycled.inspected cycled.created
  have hold := updatable.archive spec cycle.oldName cycled.inspected cycled.archived
  have howner := updatable.owner spec cycled.inspected
  rw [← cycled.ownerName] at howner
  exact {
    quiet := quiet_moves P
    stop := fun _ _ _ => moves_of_some rfl hnew
    remove := fun _ => moves_of_some rfl hnew
    rename := fun _ => moves_of_some rfl hold
    start := fun _ => moves_of_some rfl howner
    reattach := fun d hd => (updatable.dependents d (cycled.dependents d hd)).keeps _ _ }

/-- **A health-gated update moves only allowed containers.** -/
theorem Updatable.recreateWithHealth (cfg : HealthConfig) (cleanup : Cleanup)
    (hooks : LifecycleHooks) (ts : TsProvider) :
    Emits rely (Moves P) (recreateWithHealth docker name cfg cleanup hooks ts).run
      fun _ => True :=
  emits_recreateWithHealth updatable.swap updatable.settle updatable.undo (still_moves P) cfg
    cleanup hooks ts

/-- **The re-run of a one-shot moves only allowed containers.** -/
theorem Updatable.recreateOneShot (timeout pollInterval : Duration) (cleanup : Cleanup)
    (hooks : LifecycleHooks) (ts : TsProvider) :
    Emits rely (Moves P)
      (recreateOneShot docker name timeout pollInterval cleanup hooks ts).run fun _ => True :=
  emits_recreateOneShot updatable.swap updatable.settle (still_moves P) timeout pollInterval
    cleanup hooks ts

end Update

theorem Updatable.mono {P P' : Role → String → Prop} {docker : Docker} {name : String}
    (updatable : Updatable rely P docker name) (weaker : ∀ role ref, P role ref → P' role ref) :
    Updatable rely P' docker name where
  owner spec hspec := weaker _ _ (updatable.owner spec hspec)
  archive spec archive hspec harchive :=
    weaker _ _ (updatable.archive spec archive hspec harchive)
  replacement spec id hspec hid := weaker _ _ (updatable.replacement spec id hspec hid)
  dependents d hd :=
    { itself := weaker _ _ (updatable.dependents d hd).itself
      archive := fun archive harchive =>
        weaker _ _ ((updatable.dependents d hd).archive archive harchive)
      replacement := fun inspected owner newOwnerId image id hinspected hid =>
        weaker _ _ ((updatable.dependents d hd).replacement inspected owner newOwnerId image id
          hinspected hid) }

/-- An update makes no move of a restart. -/
theorem Updatable.noRestart {P : Role → String → Prop} {docker : Docker} {name : String}
    (updatable : Updatable rely P docker name) :
    Updatable rely (fun role ref => role ≠ .restart ∧ P role ref) docker name where
  owner spec hspec := ⟨nofun, updatable.owner spec hspec⟩
  archive spec archive hspec harchive := ⟨nofun, updatable.archive spec archive hspec harchive⟩
  replacement spec id hspec hid := ⟨nofun, updatable.replacement spec id hspec hid⟩
  dependents d hd :=
    { itself := ⟨nofun, (updatable.dependents d hd).itself⟩
      archive := fun archive harchive => ⟨nofun, (updatable.dependents d hd).archive archive harchive⟩
      replacement := fun inspected owner newOwnerId image id hinspected hid =>
        ⟨nofun, (updatable.dependents d hd).replacement inspected owner newOwnerId image id
          hinspected hid⟩ }

/-! ## Names in use -/

/-- What a daemon promises about names that are in use: an inspect by one is answered with it, no
rename of one takes one, and a new id is not one. -/
structure NamesApart (names : List String) (e : CallEvent) : Prop where
  inspected : ∀ n ∈ names, ∀ resp name, e = ⟨.inspectContainer n, some (.ok resp)⟩ →
    resp.name = some name → trimStartMatches name '/' = n
  renamed : ∀ n ∈ names, ∀ n' ∈ names, e ≠ ⟨.renameContainer .update n n', some (.ok ())⟩
  created : ∀ name body id, e = ⟨.createContainer .update name body, some (.ok id)⟩ → id ∉ names

theorem NamesApart.mono {names names' : List String} {e : CallEvent} (apart : NamesApart names e)
    (sub : names' ⊆ names) : NamesApart names' e where
  inspected n hn := apart.inspected n (sub hn)
  renamed n hn n' hn' := apart.renamed n (sub hn) n' (sub hn')
  created name body id h hid := apart.created name body id h (sub hid)

/-- Of the names in use, an update moves `container` only. -/
def MovesOnly (names : List String) (container : String) (role : Role) (ref : String) : Prop :=
  role ≠ .repair → ref ∈ names → ref = container

section Names

variable {names : List String} {container : String}

theorem repairable_movesOnly {dependent : String} :
    Repairable rely (MovesOnly names container) dependent where
  itself h := absurd rfl h
  archive _ _ h := absurd rfl h
  replacement _ _ _ _ _ _ _ h := absurd rfl h

/-- The update of a container in use, by whatever reference its inspects are answered for, moves
no other container in use. -/
theorem updatable_movesOnly {docker : Docker} {ref : String} (inUse : container ∈ names)
    (apart : ∀ e, rely e → NamesApart names e)
    (answers : ∀ resp name, rely ⟨.inspectContainer ref, some (.ok resp)⟩ →
      resp.name = some name → trimStartMatches name '/' = container) :
    Updatable rely (MovesOnly names container) docker ref := by
  have owner : ∀ spec, Inspected rely ref spec → spec.name = container := by
    rintro spec ⟨resp, holds, hread⟩
    obtain ⟨name, _, hname, _, _, hspecName, _⟩ := fromInspect_ok hread
    rw [hspecName, answers resp name holds hname]
  exact {
    owner := fun spec hspec _ _ => owner spec hspec
    archive := fun spec archive hspec holds _ harchive => by
      have hrename := (apart _ holds).renamed container inUse archive harchive
      rw [← owner spec hspec] at hrename
      exact absurd rfl hrename
    replacement := fun spec id _ holds _ hid => absurd hid ((apart _ holds).created _ _ _ rfl)
    dependents := fun _ _ => repairable_movesOnly }

/-- The update of a container in use by its name. -/
theorem updatable_movesOnly_self {docker : Docker} (inUse : container ∈ names)
    (apart : ∀ e, rely e → NamesApart names e) :
    Updatable rely (MovesOnly names container) docker container :=
  updatable_movesOnly inUse apart fun resp name holds =>
    (apart _ holds).inspected container inUse resp name rfl

end Names

end Freshdock.Docker
