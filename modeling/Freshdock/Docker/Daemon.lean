import Freshdock.Docker.Recreate

/-!
# A daemon with containers

A daemon that keeps containers, with the rules of names and ids: a reference resolves to the
container of that id, else of that name, else of the one id it begins; a name is held by one
container; an id is issued once. Everything else is up to an oracle: which containers a listing
shows, the contents of reports and rows, the clock, the ids, and for every call whether it is
carried out, refused, carried out with an error as its reply, or never answered.

**Evolution.** A step of the daemon touches the containers its reference resolves to and adds
containers with fresh ids; the others stay as they are (`Evolves`).
-/

set_option autoImplicit false

namespace Freshdock.Docker

open Interaction Registry Text

/-! ## The daemon -/

structure Container where
  id : String
  name : String
  /-- Was it started, and not stopped since? -/
  running : Bool
  deriving DecidableEq, Repr

def Container.stopped (c : Container) : Container := { c with running := false }

def Container.started (c : Container) : Container := { c with running := true }

def Container.named (name : String) (c : Container) : Container := { c with name := name }

structure World where
  containers : List Container
  /-- Every id that was ever given to a container. -/
  issued : List String
  /-- How many calls were made. -/
  calls : Nat
  deriving DecidableEq, Repr

/-- What becomes of a call. -/
inductive Fault where
  | none
  | refused (error : DockerError)
  /-- Carried out, and answered with an error. -/
  | lost (error : DockerError)
  | unanswered (done : Bool)
  deriving DecidableEq, Repr

/-- What the daemon is free to choose at each call. -/
structure Oracle where
  fault : Nat → Fault
  report : Nat → ContainerInspectResponse
  shown : Nat → Container → Bool
  row : Nat → Container → ContainerSummary
  hook : Nat → HookStatus
  image : Nat → ImageInspect
  id : Nat → String
  clock : Nat → Nat
  unixTime : Nat → Int

namespace World

def tick (w : World) : World := { w with calls := w.calls + 1 }

/-- The container a reference names: by id, by name, or by a prefix of one id only. -/
def resolve (w : World) (ref : String) : Option Container :=
  match w.containers.find? (·.id == ref) with
  | some c => some c
  | none =>
      match w.containers.find? (·.name == ref) with
      | some c => some c
      | none =>
          match w.containers.filter fun c => startsWith c.id ref with
          | [c] => some c
          | _ => none

/-- Not empty, and without a slash in front. -/
def properName (name : String) : Bool := name != "" && !startsWith name "/"

/-- May a container take this name? Names are proper, held once, and no ids. -/
def free (w : World) (name : String) : Bool :=
  !(w.containers.any fun c => c.name == name) && !w.issued.contains name && properName name

/-- Change the container of an id. -/
def put (w : World) (id : String) (change : Container → Container) : World :=
  { w with containers := w.containers.map fun c => if c.id = id then change c else c }

def notFound : DockerError := .bollard ⟨.dockerResponseServerError 404 "no such container", ""⟩

def conflict : DockerError := .bollard ⟨.dockerResponseServerError 409 "conflict", ""⟩

/-- Act on the container of a reference. -/
def act (w : World) (ref : String) (effect : Container → Except DockerError World) :
    Except DockerError (Unit × World) :=
  match w.resolve ref with
  | none => .error notFound
  | some c => (effect c).map fun w' => ((), w')

def stop (w : World) (c : Container) : World := w.put c.id Container.stopped

def start (w : World) (c : Container) : World := w.put c.id Container.started

def rename (w : World) (target : String) (c : Container) : World :=
  w.put c.id (Container.named target)

def remove (w : World) (c : Container) : World :=
  { w with containers := w.containers.filter (·.id ≠ c.id) }

def add (w : World) (id name : String) : World :=
  { w with containers := w.containers ++ [⟨id, name, false⟩], issued := id :: w.issued }

/-- A fresh id is no container's, was none, and is no name. -/
def fresh (w : World) (id name : String) : Bool :=
  !w.issued.contains id && !(w.containers.any fun c => c.name == id) && !(id == name)

def create (w : World) (id name : String) : Except DockerError (String × World) :=
  if w.free name && w.fresh id name then .ok (id, w.add id name) else .error conflict

/-- What an inspect reports: the container's own id and name, and whatever else. -/
def report (w : World) (ref : String) (resp : ContainerInspectResponse) :
    Except DockerError ContainerInspectResponse :=
  match w.resolve ref with
  | none => .error notFound
  | some c => .ok { resp with id := some c.id, name := some ("/" ++ c.name) }

/-- The row of a container: its own id and name, and whatever else. -/
def rowOf (row : Container → ContainerSummary) (c : Container) : ContainerSummary :=
  { row c with id := some c.id, names := some ["/" ++ c.name] }

def list (w : World) (shown : Container → Bool) (row : Container → ContainerSummary) :
    List ContainerSummary :=
  (w.containers.filter shown).map (rowOf row)

end World

/-- Carry out a call with its fault. -/
def perform {α : Type} (fault : Fault) (w : World) (effect : Except DockerError (α × World)) :
    Option (Except DockerError α) × World :=
  match fault, effect with
  | .none, .ok (a, w') => (some (.ok a), w')
  | .none, .error e => (some (.error e), w)
  | .refused e, _ => (some (.error e), w)
  | .lost e, .ok (_, w') => (some (.error e), w')
  | .lost e, .error _ => (some (.error e), w)
  | .unanswered true, .ok (_, w') => (none, w')
  | .unanswered _, _ => (none, w)

/-- Answer a question with its fault. -/
def reply {α : Type} (fault : Fault) (w : World) (answer : Except DockerError α) :
    Option (Except DockerError α) × World :=
  perform fault w (answer.map fun a => (a, w))

/-- Answer a call. -/
def Oracle.answer (oracle : Oracle) : Handler Call Call.Reply World
  | .inspectContainer ref, w =>
      reply (oracle.fault w.calls) w.tick (w.report ref (oracle.report w.calls))
  | .listRunning, w =>
      reply (oracle.fault w.calls) w.tick (.ok (w.list (oracle.shown w.calls) (oracle.row w.calls)))
  | .listProjectContainers _, w =>
      reply (oracle.fault w.calls) w.tick (.ok (w.list (oracle.shown w.calls) (oracle.row w.calls)))
  | .createImage _, w => reply (oracle.fault w.calls) w.tick (.ok ())
  | .stopContainer _ ref _ _, w =>
      perform (oracle.fault w.calls) w.tick (w.tick.act ref fun c => .ok (w.tick.stop c))
  | .renameContainer _ source target, w =>
      perform (oracle.fault w.calls) w.tick (w.tick.act source fun c =>
        if w.tick.free target then .ok (w.tick.rename target c) else .error World.conflict)
  | .createContainer _ name _, w =>
      perform (oracle.fault w.calls) w.tick (w.tick.create (oracle.id w.calls) name)
  | .startContainer _ ref, w =>
      perform (oracle.fault w.calls) w.tick (w.tick.act ref fun c => .ok (w.tick.start c))
  | .removeContainer _ ref _, w =>
      perform (oracle.fault w.calls) w.tick (w.tick.act ref fun c => .ok (w.tick.remove c))
  | .exec .., w => reply (oracle.fault w.calls) w.tick (.ok (oracle.hook w.calls))
  | .inspectImage _, w => reply (oracle.fault w.calls) w.tick (.ok (oracle.image w.calls))
  | .removeImage .., w => reply (oracle.fault w.calls) w.tick (.ok ())
  | .pruneImages, w => reply (oracle.fault w.calls) w.tick (.ok ())
  | .fetchDigest _, w => (some (.ok ""), w.tick)
  | .now, w => (some (oracle.clock w.calls), w.tick)
  | .sleep _, w => (some (), w.tick)
  | .unixTime, w => (some (oracle.unixTime w.calls), w.tick)
  | .localTime, w => (some (oracle.unixTime w.calls), w.tick)
  | .shutdownRequested, w => (some false, w.tick)
  | .dispatch _, w => (some (), w.tick)

/-! ## Valid worlds -/

/-- Ids and names are held once and kept apart, and names are proper. -/
structure World.Valid (w : World) : Prop where
  ids : (w.containers.map Container.id).Nodup
  names : (w.containers.map Container.name).Nodup
  issued : ∀ c ∈ w.containers, c.id ∈ w.issued
  apart : ∀ c ∈ w.containers, c.name ∉ w.issued
  proper : ∀ c ∈ w.containers, World.properName c.name = true

namespace World

variable {w : World}

theorem free_iff {name : String} :
    w.free name = true ↔
      (∀ c ∈ w.containers, c.name ≠ name) ∧ name ∉ w.issued ∧ properName name = true := by
  simp [free, and_assoc]

theorem fresh_iff {id name : String} :
    w.fresh id name = true ↔
      id ∉ w.issued ∧ (∀ c ∈ w.containers, c.name ≠ id) ∧ id ≠ name := by
  simp [fresh, and_assoc]

theorem Valid.eq_of_id (valid : w.Valid) {c c' : Container} (hc : c ∈ w.containers)
    (hc' : c' ∈ w.containers) (h : c.id = c'.id) : c = c' :=
  List.inj_on_of_nodup_map valid.ids hc hc' h

theorem Valid.eq_of_name (valid : w.Valid) {c c' : Container} (hc : c ∈ w.containers)
    (hc' : c' ∈ w.containers) (h : c.name = c'.name) : c = c' :=
  List.inj_on_of_nodup_map valid.names hc hc' h

theorem mem_of_resolve {ref : String} {c : Container} (h : w.resolve ref = some c) :
    c ∈ w.containers := by
  unfold resolve at h
  split at h
  · next c' hfind =>
    cases h
    exact List.mem_of_find?_eq_some hfind
  · split at h
    · next c' hfind =>
      cases h
      exact List.mem_of_find?_eq_some hfind
    · split at h
      · next hfilter =>
        cases h
        have hmem : c ∈ w.containers.filter fun c => startsWith c.id ref := by
          rw [hfilter]
          exact List.mem_cons_self
        exact (List.mem_filter.mp hmem).1
      · cases h

theorem Valid.resolve_id (valid : w.Valid) {c : Container} (hc : c ∈ w.containers) :
    w.resolve c.id = some c := by
  have hfind : w.containers.find? (·.id == c.id) = some c := by
    cases hfound : w.containers.find? (·.id == c.id) with
    | none => exact absurd (List.find?_eq_none.mp hfound c hc) (by simp)
    | some c' =>
        have hid : c'.id = c.id := by simpa using List.find?_some hfound
        rw [valid.eq_of_id (List.mem_of_find?_eq_some hfound) hc hid]
  rw [resolve, hfind]

/-- **The name of a container resolves to it.** -/
theorem Valid.resolve_name (valid : w.Valid) {c : Container} (hc : c ∈ w.containers) :
    w.resolve c.name = some c := by
  have hnone : w.containers.find? (·.id == c.name) = none := by
    rw [List.find?_eq_none]
    intro c' hc' hid
    have hid : c'.id = c.name := by simpa using hid
    exact valid.apart c hc (hid ▸ valid.issued c' hc')
  have hfind : w.containers.find? (·.name == c.name) = some c := by
    cases hfound : w.containers.find? (·.name == c.name) with
    | none => exact absurd (List.find?_eq_none.mp hfound c hc) (by simp)
    | some c' =>
        have hname : c'.name = c.name := by simpa using List.find?_some hfound
        rw [valid.eq_of_name (List.mem_of_find?_eq_some hfound) hc hname]
  rw [resolve, hnone, hfind]

/-- **A beginning of an id resolves to its container** when it begins no other id and is no
other container's name. -/
theorem Valid.resolve_beginning (valid : w.Valid) {c : Container} (hc : c ∈ w.containers)
    {ref : String} (hbegins : startsWith c.id ref = true)
    (alone : ∀ c' ∈ w.containers, c'.id ≠ c.id → startsWith c'.id ref = false ∧ c'.name ≠ ref) :
    w.resolve ref = some c := by
  have same {c' : Container} (hc' : c' ∈ w.containers)
      (hfits : startsWith c'.id ref = true ∨ c'.name = ref) : c' = c := by
    by_contra hne
    obtain ⟨hother, hname⟩ := alone c' hc' fun hid => hne (valid.eq_of_id hc' hc hid)
    rcases hfits with hfits | hfits
    · simp [hother] at hfits
    · exact hname hfits
  have hself (s : String) : startsWith s s = true := by simp [startsWith]
  unfold resolve
  split
  · next c' hfind =>
    have hid : c'.id = ref := by simpa using List.find?_some hfind
    rw [same (List.mem_of_find?_eq_some hfind) (.inl (hid ▸ hself c'.id))]
  · split
    · next c' hfind =>
      have hname : c'.name = ref := by simpa using List.find?_some hfind
      rw [same (List.mem_of_find?_eq_some hfind) (.inr hname)]
    · have hnodup : w.containers.Nodup := List.Nodup.of_map _ valid.ids
      have hfilter : (w.containers.filter fun c' => startsWith c'.id ref) = [c] := by
        have hsame : ∀ c' ∈ w.containers, startsWith c'.id ref = (c' == c) := by
          intro c' hc'
          by_cases heq : c' = c
          · rw [heq, hbegins, beq_self_eq_true]
          · rw [beq_false_of_ne heq]
            exact Bool.eq_false_iff.mpr fun hfits => heq (same hc' (.inl hfits))
        rw [List.filter_congr hsame, List.filter_beq, List.count_eq_one_of_mem hnodup hc]
        rfl
      rw [hfilter]

end World

/-! ## Evolution -/

/-- From `w` to `w'`, only the containers of the ids `touched` have changed or gone, and the new
ones have ids that were never issued. -/
structure Evolves (touched : List String) (w w' : World) : Prop where
  valid : w'.Valid
  kept : ∀ c ∈ w.containers, c.id ∉ touched → c ∈ w'.containers
  issued : ∀ i ∈ w.issued, i ∈ w'.issued
  born : ∀ c' ∈ w'.containers, (∃ c ∈ w.containers, c.id = c'.id) ∨ c'.id ∉ w.issued

namespace Evolves

variable {touched touched' : List String} {w w' w'' : World}

theorem refl (valid : w.Valid) : Evolves touched w w where
  valid := valid
  kept _ hc _ := hc
  issued _ hi := hi
  born c hc := .inl ⟨c, hc, rfl⟩

/-- Ids that no container of `w` has do not count as touched. -/
theorem trans (first : Evolves touched w w') (second : Evolves touched' w' w'')
    (sub : ∀ c ∈ w.containers, c.id ∈ touched' → c.id ∈ touched) : Evolves touched w w'' where
  valid := second.valid
  kept c hc hid := second.kept c (first.kept c hc hid) fun h => hid (sub c hc h)
  issued i hi := second.issued i (first.issued i hi)
  born c'' hc'' := by
    rcases second.born c'' hc'' with ⟨c', hc', hid⟩ | hnew
    · rcases first.born c' hc' with ⟨c, hc, hid'⟩ | hnew
      · exact .inl ⟨c, hc, hid'.trans hid⟩
      · exact .inr (hid ▸ hnew)
    · exact .inr fun h => hnew (first.issued _ h)

theorem mono (h : Evolves touched w w')
    (sub : ∀ c ∈ w.containers, c.id ∈ touched → c.id ∈ touched') : Evolves touched' w w' where
  valid := h.valid
  kept c hc hid := h.kept c hc fun h => hid (sub c hc h)
  issued := h.issued
  born := h.born

end Evolves

/-- The daemon answered a question: the containers are as they were. -/
structure Same (w w' : World) : Prop where
  containers : w'.containers = w.containers
  issued : w'.issued = w.issued

namespace Same

variable {w w' w'' : World}

theorem rfl : Same w w := ⟨Eq.refl _, Eq.refl _⟩

theorem trans (first : Same w w') (second : Same w' w'') : Same w w'' :=
  ⟨second.containers.trans first.containers, second.issued.trans first.issued⟩

theorem tick (w : World) : Same w w.tick := ⟨Eq.refl _, Eq.refl _⟩

theorem valid (same : Same w w') (valid : w.Valid) : w'.Valid := by
  obtain ⟨hcontainers, hissued⟩ := same
  constructor <;> simp only [hcontainers, hissued]
  · exact valid.ids
  · exact valid.names
  · exact valid.issued
  · exact valid.apart
  · exact valid.proper

theorem evolves (same : Same w w') (valid : w.Valid) {touched : List String} :
    Evolves touched w w' where
  valid := same.valid valid
  kept c hc _ := by rwa [same.containers]
  issued i hi := by rwa [same.issued]
  born c hc := .inl ⟨c, by rwa [same.containers] at hc, Eq.refl _⟩

theorem resolve (same : Same w w') (ref : String) : w'.resolve ref = w.resolve ref := by
  simp only [World.resolve, same.containers]

end Same

/-! ## What an action does -/

namespace World

variable {w : World}

theorem mem_put {id : String} {change : Container → Container} {c : Container} :
    c ∈ (w.put id change).containers ↔
      ∃ c0 ∈ w.containers, (if c0.id = id then change c0 else c0) = c := by
  simp [put]

/-- A change that keeps the id, and names that stay held once, leave a valid world. -/
theorem evolves_put (valid : w.Valid) {id : String} {change : Container → Container}
    (keepsId : ∀ c, (change c).id = c.id)
    (names : ((w.put id change).containers.map Container.name).Nodup)
    (named : ∀ c ∈ w.containers, c.id = id →
      (change c).name ∉ w.issued ∧ properName (change c).name = true) :
    Evolves [id] w (w.put id change) where
  valid := by
    have hids : (w.put id change).containers.map Container.id = w.containers.map Container.id := by
      simp only [put, List.map_map]
      refine List.map_congr_left fun c _ => ?_
      simp only [Function.comp]
      split
      · exact keepsId c
      · rfl
    constructor
    · rw [hids]
      exact valid.ids
    · exact names
    · intro c hc
      obtain ⟨c0, hc0, rfl⟩ := mem_put.mp hc
      split
      · rw [keepsId]
        exact valid.issued c0 hc0
      · exact valid.issued c0 hc0
    · intro c hc
      obtain ⟨c0, hc0, rfl⟩ := mem_put.mp hc
      split
      · next hid => exact (named c0 hc0 hid).1
      · exact valid.apart c0 hc0
    · intro c hc
      obtain ⟨c0, hc0, rfl⟩ := mem_put.mp hc
      split
      · next hid => exact (named c0 hc0 hid).2
      · exact valid.proper c0 hc0
  kept c hc hid := mem_put.mpr ⟨c, hc, if_neg fun h => hid (by simp [h])⟩
  issued _ hi := hi
  born c hc := by
    obtain ⟨c0, hc0, rfl⟩ := mem_put.mp hc
    refine .inl ⟨c0, hc0, ?_⟩
    split
    · exact (keepsId c0).symm
    · rfl

theorem mem_put_self {c : Container} (hc : c ∈ w.containers) (change : Container → Container) :
    change c ∈ (w.put c.id change).containers :=
  mem_put.mpr ⟨c, hc, if_pos rfl⟩

/-- A change of no name keeps the names. -/
theorem names_put {id : String} {change : Container → Container}
    (keepsName : ∀ c, (change c).name = c.name) :
    (w.put id change).containers.map Container.name = w.containers.map Container.name := by
  simp only [put, List.map_map]
  refine List.map_congr_left fun c _ => ?_
  simp only [Function.comp]
  split
  · exact keepsName c
  · rfl

theorem evolves_stop (valid : w.Valid) (c : Container) :
    Evolves [c.id] w (w.stop c) := by
  refine evolves_put valid (fun _ => rfl) ?_ fun c' hc' _ => ⟨valid.apart c' hc', valid.proper c' hc'⟩
  rw [@names_put w c.id Container.stopped fun _ => rfl]
  exact valid.names

theorem evolves_start (valid : w.Valid) (c : Container) :
    Evolves [c.id] w (w.start c) := by
  refine evolves_put valid (fun _ => rfl) ?_ fun c' hc' _ => ⟨valid.apart c' hc', valid.proper c' hc'⟩
  rw [@names_put w c.id Container.started fun _ => rfl]
  exact valid.names

/-- A rename to a free name. -/
theorem evolves_rename (valid : w.Valid) {c : Container} {target : String}
    (hfree : w.free target = true) : Evolves [c.id] w (w.rename target c) := by
  obtain ⟨hunused, hissued, hproper⟩ := free_iff.mp hfree
  refine evolves_put valid (fun _ => rfl) ?_ fun _ _ _ => ⟨hissued, hproper⟩
  -- two containers of one name: both unchanged, both of the renamed id, or one of the free name
  simp only [put, List.map_map]
  refine (List.nodup_map_iff_inj_on (List.Nodup.of_map _ valid.ids)).mpr ?_
  intro a ha b hb hname
  simp only [Function.comp] at hname
  split at hname <;> split at hname
  · next ha' hb' => exact valid.eq_of_id ha hb (ha'.trans hb'.symm)
  · exact absurd hname.symm (hunused b hb)
  · exact absurd hname (hunused a ha)
  · exact valid.eq_of_name ha hb hname

theorem evolves_remove (valid : w.Valid) (c : Container) : Evolves [c.id] w (w.remove c) where
  valid := by
    have hsub : List.Sublist (w.remove c).containers w.containers := List.filter_sublist
    constructor
    · exact valid.ids.sublist (hsub.map _)
    · exact valid.names.sublist (hsub.map _)
    · exact fun c' hc' => valid.issued c' (hsub.subset hc')
    · exact fun c' hc' => valid.apart c' (hsub.subset hc')
    · exact fun c' hc' => valid.proper c' (hsub.subset hc')
  kept c' hc' hid := List.mem_filter.mpr ⟨hc', by simpa using hid⟩
  issued _ hi := hi
  born c' hc' := .inl ⟨c', (List.mem_filter.mp hc').1, rfl⟩

theorem evolves_add (valid : w.Valid) {id name : String} (hfree : w.free name = true)
    (hfresh : w.fresh id name = true) : Evolves [] w (w.add id name) := by
  obtain ⟨hunused, hissued, hproper⟩ := free_iff.mp hfree
  obtain ⟨hnew, hnoName, hne⟩ := fresh_iff.mp hfresh
  have hmem {c : Container} (hc : c ∈ (w.add id name).containers) :
      c ∈ w.containers ∨ c = ⟨id, name, false⟩ := by
    simpa [add] using hc
  constructor
  · constructor
    · simp only [add, List.map_append, List.map_cons, List.map_nil]
      refine List.nodup_append.mpr ⟨valid.ids, by simp, ?_⟩
      intro i hi j hj
      obtain ⟨c, hc, rfl⟩ := List.mem_map.mp hi
      obtain rfl := List.mem_singleton.mp hj
      intro h
      exact hnew (h ▸ valid.issued c hc)
    · simp only [add, List.map_append, List.map_cons, List.map_nil]
      refine List.nodup_append.mpr ⟨valid.names, by simp, ?_⟩
      intro n hn j hj
      obtain ⟨c, hc, rfl⟩ := List.mem_map.mp hn
      obtain rfl := List.mem_singleton.mp hj
      exact hunused c hc
    · intro c hc
      rcases hmem hc with hc | rfl
      · exact List.mem_cons_of_mem _ (valid.issued c hc)
      · exact List.mem_cons_self
    · intro c hc h
      rcases hmem hc with hc | rfl
      · rcases List.mem_cons.mp h with h | h
        · exact hnoName c hc h
        · exact valid.apart c hc h
      · rcases List.mem_cons.mp h with h | h
        · exact hne h.symm
        · exact hissued h
    · intro c hc
      rcases hmem hc with hc | rfl
      · exact valid.proper c hc
      · exact hproper
  · exact fun c hc _ => List.mem_append_left _ hc
  · exact fun i hi => List.mem_cons_of_mem _ hi
  · intro c hc
    rcases hmem hc with hc | rfl
    · exact .inl ⟨c, hc, rfl⟩
    · exact .inr hnew

end World

end Freshdock.Docker
