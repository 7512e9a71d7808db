import Freshdock.Docker.Daemon
import Freshdock.Docker.Moves

/-!
# What a call does to a daemon

One lemma for each call of a recreate, run against the daemon of `Docker/Daemon.lean`. A call
that moves no container leaves all of them as they are, and what it reports is true of them
(`ensures_still`). A call that acts on a container changes it or leaves it, and has changed it
when it succeeded (`Acted`).
-/

set_option autoImplicit false

namespace Freshdock.Docker

open Interaction Registry Text

/-! ## Faults -/

section Faults

variable {α : Type} {fault : Fault} {w w' : World}

/-- A call that would fail changes nothing and does not succeed. -/
theorem perform_error (e : DockerError) :
    (@perform α fault w (.error e)).2 = w ∧
      ∀ a, (@perform α fault w (.error e)).1 ≠ some (.ok a) := by
  rcases fault with _ | _ | _ | _ | _ <;> simp [perform]

/-- A call that would succeed is carried out, or changes nothing and does not succeed. -/
theorem perform_ok (a : α) :
    ((perform fault w (.ok (a, w'))).2 = w ∧
        ∀ b, (perform fault w (.ok (a, w'))).1 ≠ some (.ok b)) ∨
      ((perform fault w (.ok (a, w'))).2 = w' ∧
        ∀ b, (perform fault w (.ok (a, w'))).1 = some (.ok b) → b = a) := by
  rcases fault with _ | _ | _ | _ | _ <;> simp [perform]

theorem reply_state (answer : Except DockerError α) : (reply fault w answer).2 = w := by
  cases answer with
  | error e => exact (perform_error e).1
  | ok a => rcases @perform_ok α fault w w a with ⟨h, -⟩ | ⟨h, -⟩ <;> exact h

theorem ok_of_reply {answer : Except DockerError α} {a : α}
    (h : (reply fault w answer).1 = some (.ok a)) : answer = .ok a := by
  cases answer with
  | error e => exact absurd h ((perform_error e).2 a)
  | ok b =>
      rcases @perform_ok α fault w w b with ⟨-, hfail⟩ | ⟨-, hvalue⟩
      · exact absurd h (hfail a)
      · rw [hvalue a h]

end Faults

variable {oracle : Oracle} {w : World}

/-! ## Calls that move nothing -/

theorem same_of_still {call : Call} (still : call.moves = none) :
    Same w (oracle.answer call w).2 := by
  have hreply {α : Type} {answer : Except DockerError α} :
      Same w (reply (oracle.fault w.calls) w.tick answer).2 := by
    rw [reply_state]
    exact .tick w
  cases call with
  | inspectContainer ref => exact hreply
  | listRunning => exact hreply
  | listProjectContainers project => exact hreply
  | createImage image => exact hreply
  | exec ref command timeout => exact hreply
  | inspectImage ref => exact hreply
  | removeImage id force => exact hreply
  | pruneImages => exact hreply
  | fetchDigest image => exact .tick w
  | now => exact .tick w
  | sleep d => exact .tick w
  | unixTime => exact .tick w
  | localTime => exact .tick w
  | shutdownRequested => exact .tick w
  | dispatch event => exact .tick w
  | stopContainer role ref signal timeout => cases still
  | renameContainer role ref name => cases still
  | createContainer role name body => cases still
  | startContainer role ref => cases still
  | removeContainer role ref force => cases still

/-- The reply was given with the containers of `w`. -/
def Told (oracle : Oracle) (w : World) (e : CallEvent) : Prop :=
  ∃ w', Same w w' ∧ e.reply = (oracle.answer e.call w').1

/-- **A program that moves nothing leaves the containers as they are, and what is known of its
value from true reports holds.** -/
theorem ensures_still {α : Type} {p : Prog α} {out : α → Prop}
    (emits : Emits (Told oracle w) (Moves fun _ _ => False) p out) {s : World} (hs : Same w s) :
    Ensures oracle.answer p s fun r trace s' =>
      Same w s' ∧ (∀ e ∈ trace, e.call.moves = none) ∧ ∀ a, r = some a → out a := by
  have hnone {e : CallEvent} (h : Moves (fun _ _ => False) e) : e.call.moves = none := by
    cases hmoves : e.call.moves with
    | none => rfl
    | some moved => exact absurd (h moved.1 moved.2 hmoves) id
  refine (ensures_of_emits (Same w) ?_ ?_ emits hs).weaken ?_
  · intro call s hs
    exact ⟨s, hs, rfl⟩
  · intro call s hs hmoves
    exact hs.trans (same_of_still (hnone hmoves))
  · intro r trace s' ⟨hs', htrace, hout⟩
    exact ⟨hs', fun e he => hnone (htrace e he), hout⟩

/-- What a program that moves nothing makes of its replies it makes of what the daemon told it,
and of whatever else its replies are known to keep. -/
theorem ensures_promised {α : Type} {p : Prog α} {out : (CallEvent → Prop) → α → Prop}
    (emits : ∀ rely, Emits rely (Moves fun _ _ => False) p (out rely)) {s : World}
    (hs : Same w s) :
    Ensures oracle.answer p s fun r trace s' =>
      Same w s' ∧ ∀ promise : CallEvent → Prop, (∀ e ∈ trace, promise e) →
        ∀ a, r = some a → out (fun e => Told oracle w e ∧ promise e) a := by
  have hkept := @ensures_kept _ _ _ _ oracle.answer (Told oracle w) (Moves fun _ _ => False) p _
    (Same w) (fun call s hs => ⟨s, hs, rfl⟩) (fun call s hs hmoves => ?_) (emits _) s hs
  · refine (hkept.and (ensures_produces p s)).weaken ?_
    intro r trace s' ⟨⟨hs', htrace⟩, produced⟩
    refine ⟨hs', fun promise kept => ?_⟩
    exact (emits _ trace r produced fun e he => ⟨(htrace e he).1, kept e he⟩).2
  · refine hs.trans (same_of_still ?_)
    cases hmoved : call.moves with
    | none => rfl
    | some moved => exact absurd (hmoves moved.1 moved.2 hmoved) id

/-! ## Reports -/

/-- A proper name is read back from the daemon's spelling of it. -/
theorem trim_name {name : String} (proper : World.properName name = true) :
    trimStartMatches ("/" ++ name) '/' = name := by
  have hbare : startsWith name "/" = false := by
    simp only [World.properName, Bool.and_eq_true, Bool.not_eq_true'] at proper
    exact proper.2
  have hslash : ("/" ++ name).toList = '/' :: name.toList := by simp
  unfold trimStartMatches
  rw [hslash, List.dropWhile_cons_of_pos (by simp)]
  cases hchars : name.toList with
  | nil =>
      rw [List.dropWhile_nil, ← hchars, String.ofList_toList]
  | cons c rest =>
      have hc : c ≠ '/' := by
        rintro rfl
        simp [startsWith, hchars] at hbare
      rw [List.dropWhile_cons_of_neg (by simpa using hc), ← hchars, String.ofList_toList]

theorem World.Valid.trim (valid : w.Valid) {c : Container} (hc : c ∈ w.containers) :
    trimStartMatches ("/" ++ c.name) '/' = c.name :=
  trim_name (valid.proper c hc)

/-- An inspect reports the container that its reference names. -/
theorem told_inspect {ref : String} {resp : ContainerInspectResponse}
    (h : Told oracle w ⟨.inspectContainer ref, some (.ok resp)⟩) :
    ∃ c, w.resolve ref = some c ∧ resp.id = some c.id ∧ resp.name = some ("/" ++ c.name) := by
  obtain ⟨w', same, h⟩ := h
  have hreport : w'.report ref (oracle.report w'.calls) = .ok resp := ok_of_reply h.symm
  unfold World.report at hreport
  rw [same.resolve] at hreport
  cases hresolve : w.resolve ref with
  | none =>
      rw [hresolve] at hreport
      cases hreport
  | some c =>
      rw [hresolve] at hreport
      cases hreport
      exact ⟨c, rfl, rfl, rfl⟩

theorem told_listRunning {running : List ContainerSummary}
    (h : Told oracle w ⟨.listRunning, some (.ok running)⟩) :
    ∃ shown row, running = w.list shown row := by
  obtain ⟨w', same, h⟩ := h
  have hlist : Except.ok (w'.list (oracle.shown w'.calls) (oracle.row w'.calls)) = .ok running :=
    ok_of_reply h.symm
  cases hlist
  exact ⟨_, _, by rw [World.list, World.list, same.containers]⟩

/-- The name in an inspected spec is the container's. -/
theorem name_of_inspected (valid : w.Valid) {ref : String} {spec : ContainerSpec} {c : Container}
    (hc : w.resolve ref = some c) (h : Inspected (Told oracle w) ref spec) : spec.name = c.name := by
  obtain ⟨resp, htold, hread⟩ := h
  obtain ⟨c', hc', -, hname⟩ := told_inspect htold
  obtain ⟨name, config, hname', -, -, hspec, -⟩ := fromInspect_ok hread
  rw [hc] at hc'
  cases hc'
  rw [hname] at hname'
  cases hname'
  rw [hspec]
  exact valid.trim (World.mem_of_resolve hc)

/-- Where `f` is `g` or nothing, `filterMap` maps `g`. -/
theorem filterMap_eq_map_filter {α β : Type} {f : α → Option β} {g : α → β} {l : List α}
    (h : ∀ a ∈ l, ∀ b, f a = some b → b = g a) :
    l.filterMap f = (l.filter fun a => (f a).isSome).map g := by
  induction l with
  | nil => rfl
  | cons a l ih =>
      have ih := ih fun a ha => h a (List.mem_cons_of_mem _ ha)
      cases ha : f a with
      | none => rw [List.filterMap_cons_none ha, ih, List.filter_cons_of_neg (by simp [ha])]
      | some b =>
          rw [List.filterMap_cons_some ha, ih, List.filter_cons_of_pos (by simp [ha]),
            List.map_cons, h a List.mem_cons_self b ha]

/-- A listing that keeps `rely` shows `d` in the network namespace of `c`. -/
def ShowsJoined (rely : CallEvent → Prop) (c d : Container) : Prop :=
  ∃ running row mode, rely ⟨.listRunning, some (.ok running)⟩ ∧ row ∈ running ∧
    row.id = some d.id ∧ row.networkMode = some mode ∧
    networkModeReferences mode c.name c.id = true

/-- The listed dependents are containers of their names, each listed once and shown in the
owner's namespace, and the owner is none of them. -/
theorem dependents_of_listed {rely : CallEvent → Prop} (valid : w.Valid)
    (told : ∀ e, rely e → Told oracle w e) {docker : Docker} {owner : String}
    {dependents : List String} {c : Container} (hc : w.resolve owner = some c)
    (h : ListedDependents rely docker owner dependents) :
    ∃ ds : List Container, dependents = ds.map Container.name ∧ ds.Nodup ∧
      ∀ d ∈ ds, (d ∈ w.containers ∧ d ≠ c) ∧ ShowsJoined rely c d := by
  rcases h with rfl | ⟨resp, running, hresp, hrunning, rfl⟩
  · exact ⟨[], rfl, List.nodup_nil, by simp⟩
  obtain ⟨c', hc', hid, hname⟩ := told_inspect (told _ hresp)
  obtain ⟨shown, row, rfl⟩ := told_listRunning (told _ hrunning)
  rw [hc] at hc'
  cases hc'
  have hmem := World.mem_of_resolve hc
  have hproper := valid.proper c hmem
  have howner : ownerName resp owner = c.name := by
    have hne : c.name ≠ "" := by
      simp only [World.properName, Bool.and_eq_true, bne_iff_ne] at hproper
      exact hproper.1
    simp only [ownerName, hname, Option.map_some, valid.trim hmem]
    rw [Option.filter_some_pos (by simpa using hne), Option.getD_some]
  -- a listed dependent goes by its container's name, and is not the owner
  let dependent (d : Container) : Option String :=
    networkDependent (ownerName resp owner) (resp.id.getD "")
      (SelfId.ownContainerIdPrefix docker.hostname) (World.rowOf row d)
  have hdependent {d : Container} (hd : d ∈ w.containers) {name : String}
      (h : dependent d = some name) :
      name = d.name ∧ d ≠ c ∧ ∃ mode, (World.rowOf row d).networkMode = some mode ∧
        networkModeReferences mode c.name c.id = true := by
    have hrow : containerName (World.rowOf row d) = d.name := valid.trim hd
    simp only [dependent, networkDependent, hrow, howner, hid, Option.getD_some] at h
    split at h
    · cases h
    · next mode hmode =>
      split at h
      · cases h
      · next hreferences =>
        split at h
        · cases h
        · next hne =>
          split at h
          · cases h
          · split at h
            · cases h
            · cases h
              refine ⟨rfl, ?_, mode, hmode, by simpa using hreferences⟩
              rintro rfl
              simp at hne
  have hids : w.containers.Nodup := List.Nodup.of_map _ valid.ids
  refine ⟨(w.containers.filter shown).filter fun d => (dependent d).isSome, ?_, ?_, ?_⟩
  · rw [networkDependentNames, World.list, List.filterMap_map]
    exact filterMap_eq_map_filter fun d hd name hname =>
      (hdependent (List.mem_filter.mp hd).1 hname).1
  · exact (hids.filter _).filter _
  · intro d hd
    obtain ⟨hshown, hsome⟩ := List.mem_filter.mp hd
    obtain ⟨name, hname⟩ := Option.isSome_iff_exists.mp hsome
    have hd := (List.mem_filter.mp hshown).1
    obtain ⟨-, hne, mode, hmode, hreferences⟩ := hdependent hd hname
    exact ⟨⟨hd, hne⟩, _, _, mode, hrunning, List.mem_map_of_mem hshown, rfl, hmode, hreferences⟩

/-! ## Calls that act on a container -/

/-- A call changed a container or left it as it is, and changed it if it succeeded. -/
structure Acted (c : Container) (change : Container → Container)
    (out : Option (Except DockerError Unit)) (w w' : World) : Prop where
  evolves : Evolves [c.id] w w'
  left : ∃ c' ∈ w'.containers, (c' = c ∨ c' = change c) ∧ (out = some (.ok ()) → c' = change c)

theorem evolves_tick {touched : List String} {w' : World} (h : Evolves touched w.tick w') :
    Evolves touched w w' :=
  ⟨h.valid, h.kept, h.issued, h.born⟩

variable {c : Container}

theorem act_of_resolve {ref : String} (href : w.resolve ref = some c)
    (effect : Container → Except DockerError World) :
    w.tick.act ref effect = (effect c).map fun w' => ((), w') := by
  have htick : w.tick.resolve ref = some c := href
  rw [World.act, htick]

variable (valid : w.Valid)

include valid

theorem acted_of_perform (hc : c ∈ w.containers) {change : Container → Container} {fault : Fault}
    {effect : Except DockerError (Unit × World)}
    (h : (∃ e, effect = .error e) ∨ (effect = .ok ((), w.tick.put c.id change) ∧
      Evolves [c.id] w.tick (w.tick.put c.id change))) :
    Acted c change (perform fault w.tick effect).1 w (perform fault w.tick effect).2 := by
  have still : Evolves [c.id] w w.tick := (Same.tick w).evolves valid
  rcases h with ⟨e, rfl⟩ | ⟨rfl, evolves⟩
  · obtain ⟨hstate, hfail⟩ := @perform_error Unit fault w.tick e
    rw [hstate]
    exact ⟨still, c, hc, .inl rfl, fun h => absurd h (hfail ())⟩
  · rcases @perform_ok Unit fault w.tick (w.tick.put c.id change) () with
      ⟨hstate, hfail⟩ | ⟨hstate, -⟩
    · rw [hstate]
      exact ⟨still, c, hc, .inl rfl, fun h => absurd h (hfail ())⟩
    · rw [hstate]
      exact ⟨evolves_tick evolves, change c, @World.mem_put_self w.tick _ hc change, .inr rfl,
        fun _ => rfl⟩

variable {ref : String} (href : w.resolve ref = some c)

include href

theorem ensures_stop (role : Role) (signal : Option String) (timeout : Option Int) :
    Ensures oracle.answer (stop role ref signal timeout).run w fun out trace w' =>
      Acted c Container.stopped out w w' ∧
        ∃ timeout', trace = [⟨.stopContainer role ref signal timeout', out⟩] := by
  refine ensures_request ⟨?_, _, rfl⟩
  refine acted_of_perform valid (World.mem_of_resolve href) (.inr ⟨?_, ?_⟩)
  · rw [act_of_resolve href]
    rfl
  · exact World.evolves_stop ((Same.tick w).valid valid) c

theorem ensures_start (role : Role) :
    Ensures oracle.answer (start role ref).run w fun out trace w' =>
      Acted c Container.started out w w' ∧ trace = [⟨.startContainer role ref, out⟩] := by
  refine ensures_request ⟨?_, rfl⟩
  refine acted_of_perform valid (World.mem_of_resolve href) (.inr ⟨?_, ?_⟩)
  · rw [act_of_resolve href]
    rfl
  · exact World.evolves_start ((Same.tick w).valid valid) c

theorem ensures_renameTo (role : Role) (target : String) :
    Ensures oracle.answer (renameTo role ref target).run w fun out trace w' =>
      Acted c (Container.named target) out w w' ∧
        trace = [⟨.renameContainer role ref target, out⟩] := by
  refine ensures_request ⟨?_, rfl⟩
  refine acted_of_perform valid (World.mem_of_resolve href) ?_
  rw [act_of_resolve href]
  cases hfree : w.tick.free target with
  | false => exact .inl ⟨World.conflict, rfl⟩
  | true =>
      refine .inr ⟨rfl, ?_⟩
      exact World.evolves_rename ((Same.tick w).valid valid) hfree

theorem ensures_remove (role : Role) (force : Bool) :
    Ensures oracle.answer (remove role ref force).run w fun out trace w' =>
      Evolves [c.id] w w' ∧ (out = some (.ok ()) → ∀ c' ∈ w'.containers, c'.id ≠ c.id) ∧
        trace = [⟨.removeContainer role ref force, out⟩] := by
  have hact := act_of_resolve href fun c => .ok (w.tick.remove c)
  have hanswer : oracle.answer (.removeContainer role ref force) w =
      perform (oracle.fault w.calls) w.tick (.ok ((), w.tick.remove c)) :=
    congrArg (perform (oracle.fault w.calls) w.tick) hact
  refine ensures_request ?_
  rw [hanswer]
  rcases @perform_ok Unit (oracle.fault w.calls) w.tick (w.tick.remove c) () with
    ⟨hstate, hfail⟩ | ⟨hstate, -⟩
  · rw [hstate]
    exact ⟨(Same.tick w).evolves valid, fun h => absurd h (hfail ()), rfl⟩
  · rw [hstate]
    refine ⟨evolves_tick (World.evolves_remove ((Same.tick w).valid valid) c), fun _ c' hc' => ?_,
      rfl⟩
    simpa using (List.mem_filter.mp hc').2

omit href

/-- A create adds a container of a fresh id, or nothing. -/
theorem ensures_createFromSpec (role : Role) (name : String) (spec : ContainerSpec)
    (image : String) :
    Ensures oracle.answer (createFromSpec role name spec image).run w fun out trace w' =>
      Evolves [] w w' ∧
        (∀ id, out = some (.ok id) →
          (⟨id, name, false⟩ : Container) ∈ w'.containers ∧ id ∉ w.issued ∧ id ≠ name) ∧
        trace = [⟨.createContainer role name (spec.toCreateBody image), out⟩] := by
  have still : Evolves [] w w.tick := (Same.tick w).evolves valid
  have hanswer : oracle.answer (.createContainer role name (spec.toCreateBody image)) w =
      perform (oracle.fault w.calls) w.tick (w.tick.create (oracle.id w.calls) name) := rfl
  refine ensures_request ?_
  rw [hanswer, World.create]
  cases hnew : w.tick.free name && w.tick.fresh (oracle.id w.calls) name with
  | false =>
      obtain ⟨hstate, hfail⟩ := @perform_error String (oracle.fault w.calls) w.tick World.conflict
      simp only [Bool.false_eq_true, ite_false, hstate]
      exact ⟨still, fun id h => absurd h (hfail id), trivial⟩
  | true =>
      obtain ⟨hfree, hfresh⟩ := Bool.and_eq_true_iff.mp hnew
      simp only [ite_true]
      rcases @perform_ok String (oracle.fault w.calls) w.tick
        (w.tick.add (oracle.id w.calls) name) (oracle.id w.calls) with
        ⟨hstate, hfail⟩ | ⟨hstate, hvalue⟩
      · rw [hstate]
        exact ⟨still, fun id h => absurd h (hfail id), trivial⟩
      · rw [hstate]
        obtain ⟨hissued, -, hne⟩ := World.fresh_iff.mp hfresh
        refine ⟨evolves_tick (World.evolves_add ((Same.tick w).valid valid) hfree hfresh), ?_, trivial⟩
        intro id h
        obtain rfl := hvalue id h
        exact ⟨List.mem_append_right _ (List.mem_singleton.mpr rfl), hissued, hne⟩

end Freshdock.Docker
