import Freshdock.Docker.DaemonSwap
import Freshdock.Docker.Cycle
import Freshdock.Docker.Obliging

/-!
# A repair that failed

`reattachOne` undoes the rename of a dependent whose replacement could not be created or
started. The undo gives the archive its name back and starts it, and removes nothing: it works
when the name is free, as after a refused create, and cannot when the replacement holds the
name, as after a failed start. Then the dependent stays stopped under its archive name.
-/

set_option autoImplicit false

namespace Freshdock.Docker

open Interaction Registry

/-! ## The books of a daemon -/

section Books

variable {oracle : Oracle} {w : World}

/-- A call leaves the state it found, or the one of its effect. -/
theorem perform_state {α : Type} (fault : Fault) (w : World)
    (effect : Except DockerError (α × World)) :
    (perform fault w effect).2 = w ∨
      ∃ a w', effect = .ok (a, w') ∧ (perform fault w effect).2 = w' := by
  cases effect with
  | error e => exact .inl (perform_error e).1
  | ok result =>
      obtain ⟨a, w'⟩ := result
      rcases @perform_ok α fault w w' a with ⟨hstate, -⟩ | ⟨hstate, -⟩
      · exact .inl hstate
      · exact .inr ⟨a, w', rfl, hstate⟩

/-- An action on the container of a reference is its effect on some container. -/
theorem effect_of_act {ref : String} {effect : Container → Except DockerError World}
    {result : Unit × World} (h : w.act ref effect = .ok result) :
    ∃ c, effect c = .ok result.2 := by
  unfold World.act at h
  cases hresolve : w.resolve ref with
  | none =>
      rw [hresolve] at h
      cases h
  | some c =>
      rw [hresolve] at h
      cases heffect : effect c with
      | error e =>
          simp only [heffect] at h
          cases h
      | ok w' =>
          simp only [heffect] at h
          cases h
          exact ⟨c, heffect⟩

/-- **A call is counted, and only a create issues an id.** -/
theorem answer_books (oracle : Oracle) (call : Call) (w : World) :
    (oracle.answer call w).2.calls = w.calls + 1 ∧
      (Creates call = false → (oracle.answer call w).2.issued = w.issued) := by
  have still {α : Type} {answer : Except DockerError α} :
      (reply (oracle.fault w.calls) w.tick answer).2.calls = w.calls + 1 ∧
        (Creates call = false →
          (reply (oracle.fault w.calls) w.tick answer).2.issued = w.issued) := by
    rw [reply_state]
    exact ⟨rfl, fun _ => rfl⟩
  have acted {ref : String} {effect : Container → Except DockerError World}
      (heffect : ∀ c w', effect c = .ok w' → w'.calls = w.calls + 1 ∧ w'.issued = w.issued) :
      (perform (oracle.fault w.calls) w.tick (w.tick.act ref effect)).2.calls = w.calls + 1 ∧
        (Creates call = false →
          (perform (oracle.fault w.calls) w.tick (w.tick.act ref effect)).2.issued =
            w.issued) := by
    rcases perform_state (oracle.fault w.calls) w.tick (w.tick.act ref effect) with
      hstate | ⟨u, w', hact, hstate⟩
    · rw [hstate]
      exact ⟨rfl, fun _ => rfl⟩
    · obtain ⟨c, hc⟩ := effect_of_act hact
      obtain ⟨hcalls, hissued⟩ := heffect c w' hc
      rw [hstate]
      exact ⟨hcalls, fun _ => hissued⟩
  cases call with
  | inspectContainer ref => exact still
  | listRunning => exact still
  | listProjectContainers project => exact still
  | createImage image => exact still
  | exec ref command timeout => exact still
  | inspectImage ref => exact still
  | removeImage id force => exact still
  | pruneImages => exact still
  | fetchDigest image => exact ⟨rfl, fun _ => rfl⟩
  | now => exact ⟨rfl, fun _ => rfl⟩
  | sleep d => exact ⟨rfl, fun _ => rfl⟩
  | unixTime => exact ⟨rfl, fun _ => rfl⟩
  | localTime => exact ⟨rfl, fun _ => rfl⟩
  | shutdownRequested => exact ⟨rfl, fun _ => rfl⟩
  | dispatch event => exact ⟨rfl, fun _ => rfl⟩
  | stopContainer role ref signal timeout =>
      refine acted fun c w' h => ?_
      cases h
      exact ⟨rfl, rfl⟩
  | renameContainer role ref name =>
      refine acted fun c w' h => ?_
      split at h
      · cases h
        exact ⟨rfl, rfl⟩
      · cases h
  | startContainer role ref =>
      refine acted fun c w' h => ?_
      cases h
      exact ⟨rfl, rfl⟩
  | removeContainer role ref force =>
      refine acted fun c w' h => ?_
      cases h
      exact ⟨rfl, rfl⟩
  | createContainer role name body =>
      refine ⟨?_, fun h => by cases h⟩
      rcases perform_state (oracle.fault w.calls) w.tick
        (w.tick.create (oracle.id w.calls) name) with hstate | ⟨id, w', hcreate, hstate⟩
      · exact congrArg World.calls hstate
      · refine (congrArg World.calls hstate).trans ?_
        unfold World.create at hcreate
        split at hcreate
        · cases hcreate
          rfl
        · cases hcreate

/-- **A run counts its calls.** -/
theorem ensures_calls (oracle : Oracle) {α : Type} (p : Prog α) (w : World) :
    Ensures oracle.answer p w fun _ trace w' => w'.calls = w.calls + trace.length := by
  induction p generalizing w with
  | done a => rfl
  | stalled => rfl
  | ask call next ih =>
      have hcall := (answer_books oracle call w).1
      unfold Ensures at ih ⊢
      rw [play]
      rcases answer : oracle.answer call w with ⟨_ | r, w₁⟩
      · rw [answer] at hcall
        exact hcall
      · rw [answer] at hcall
        have hrest : (play oracle.answer (next r) w₁).state.calls =
            w₁.calls + (play oracle.answer (next r) w₁).trace.length := ih r w₁
        change (play oracle.answer (next r) w₁).state.calls =
          w.calls + ((play oracle.answer (next r) w₁).trace.length + 1)
        rw [hrest, show w₁.calls = w.calls + 1 from hcall]
        omega

/-- A run without a create issues no id. -/
theorem ensures_issued (oracle : Oracle) {α : Type} {p : Prog α} {out : α → Prop}
    (emits : Emits (fun _ => True) NotCreate p out) (w : World) :
    Ensures oracle.answer p w fun _ _ w' => w'.issued = w.issued := by
  refine (ensures_of_emits (fun s : World => s.issued = w.issued) (fun _ _ _ => trivial) ?_ emits
    rfl).weaken fun _ _ _ h => h.1
  intro call s hs hcreates
  exact ((answer_books oracle call s).2 hcreates).trans hs

end Books

/-! ## The name of an archived container -/

/-- Another container holds the name. -/
def Taken (c : Container) (w : World) : Prop :=
  ∃ n ∈ w.containers, n.name = c.name ∧ n.id ≠ c.id

section Names

variable {w w' : World} {c : Container}

/-- A container that holds its name leaves it to no other. -/
theorem not_taken (valid : w.Valid) {c' : Container} (hc' : c' ∈ w.containers)
    (hid : c'.id = c.id) (hname : c'.name = c.name) : ¬ Taken c w := by
  rintro ⟨n, hn, hn_name, hn_id⟩
  have heq := valid.eq_of_name hn hc' (hn_name.trans hname.symm)
  exact hn_id ((congrArg Container.id heq).trans hid)

theorem ne_of_isArchiveOf {original archive : String} {tsUnix : Int}
    (h : IsArchiveOf original tsUnix archive) : archive ≠ original := by
  intro heq
  have hmark : "-old-".length = 5 := rfl
  have hlength : original.length + 5 ≤ archive.length := by
    rcases h with rfl | ⟨n, rfl⟩ <;> simp [oldNameFor, String.length_append] <;> omega
  rw [heq] at hlength
  omega

/-- While no id is issued, the name of an archived container stays free. -/
theorem Shelved.free {archive : String} (shelved : Shelved c archive w') (valid : w.Valid)
    (hc : c ∈ w.containers) (evolves : Evolves [c.id] w w') (issued : w'.issued = w.issued) :
    w'.free c.name = true := by
  refine World.free_iff.mpr ⟨?_, ?_, valid.proper c hc⟩
  · intro n hn hname
    rcases evolves.born n hn with ⟨c₀, hc₀, hid⟩ | hnew
    · by_cases hown : c₀.id = c.id
      · -- the container itself, which has an archive name
        have heq := evolves.valid.eq_of_id hn shelved.stopped (hid.symm.trans hown)
        obtain ⟨tsUnix, harchive⟩ := shelved.isArchive
        exact ne_of_isArchiveOf harchive (by rw [← hname, heq])
      · -- a container that was there before, under the same name
        have hkept := evolves.kept c₀ hc₀ (by simpa using hown)
        have heq := evolves.valid.eq_of_id hkept hn hid
        exact hown (congrArg Container.id (valid.eq_of_name hc₀ hc (heq ▸ hname)))
    · exact hnew (issued ▸ evolves.valid.issued n hn)
  · rw [issued]
    exact valid.apart c hc

end Names

/-! ## The undo -/

section Undo

variable {oracle : Oracle} {w : World} {d : Container} {archive : String}

/-- A rename that is not refused for another reason succeeds exactly when the name is free. -/
theorem ensures_renameTo_accepted {c : Container} {ref : String} (href : w.resolve ref = some c)
    (accepted : oracle.fault w.calls = .none) (role : Role) (target : String) :
    Ensures oracle.answer (renameTo role ref target).run w fun out _ w' =>
      if w.free target then out = some (.ok ())
      else out = some (.error World.conflict) ∧ Same w w' := by
  have hanswer : oracle.answer (.renameContainer role ref target) w =
      perform (oracle.fault w.calls) w.tick (w.tick.act ref fun c =>
        if w.tick.free target then .ok (w.tick.rename target c) else .error World.conflict) := rfl
  rw [act_of_resolve href, accepted] at hanswer
  refine ensures_request ?_
  rw [hanswer]
  cases hfree : w.free target with
  | false =>
      have hfree : w.tick.free target = false := hfree
      simp only [hfree, Bool.false_eq_true, ite_false]
      exact ⟨rfl, Same.tick w⟩
  | true =>
      have hfree : w.tick.free target = true := hfree
      simp only [hfree, ite_true]
      rfl

theorem ensures_start_accepted {c : Container} {ref : String} (href : w.resolve ref = some c)
    (accepted : oracle.fault w.calls = .none) (role : Role) :
    Ensures oracle.answer (start role ref).run w fun out _ _ => out = some (.ok ()) := by
  have hanswer : oracle.answer (.startContainer role ref) w =
      perform (oracle.fault w.calls) w.tick
        (w.tick.act ref fun c => .ok (w.tick.start c)) := rfl
  rw [act_of_resolve href, accepted] at hanswer
  refine ensures_request ?_
  rw [hanswer]
  rfl

theorem Same.free {w w' : World} (same : Same w w') (name : String) :
    w'.free name = w.free name := by
  simp only [World.free, same.containers, same.issued]

theorem Taken.of_same {w' : World} (taken : Taken d w) (same : Same w w') : Taken d w' := by
  obtain ⟨n, hn, hname, hid⟩ := taken
  exact ⟨n, by rwa [same.containers], hname, hid⟩

/-- **The undo works exactly when the name is free**, on a daemon that takes every call it can. -/
theorem ensures_undo (valid : w.Valid) (shelved : Shelved d archive w)
    (obliging : ∀ n, w.calls ≤ n → oracle.fault n = .none) :
    Ensures oracle.answer (restoreAfterFailedReattach d.name archive) w fun _ _ w' =>
      (w.free d.name = true → (⟨d.id, d.name, true⟩ : Container) ∈ w'.containers ∧ ¬ Taken d w') ∧
        (Taken d w → Taken d w' ∧ Shelved d archive w') := by
  have href := valid.resolve_name shelved.stopped
  have hrename := ((@ensures_renameTo oracle w _ valid _ href .repair d.name).and
    (ensures_renameTo_accepted href (obliging _ le_rfl) .repair d.name)).and
    (ensures_calls oracle (renameTo .repair archive d.name).run w)
  refine ensures_bind _ hrename ?_ ?_
  · intro trace w₁ ⟨⟨_, hreply⟩, _⟩
    split at hreply
    · cases hreply
    · cases hreply.1
  intro renamed trace w₁ ⟨⟨⟨acted, _⟩, hreply⟩, hcalls⟩
  cases hfree : w.free d.name with
  | false =>
      rw [hfree] at hreply
      obtain ⟨hrenamed, same⟩ := hreply
      cases hrenamed
      refine ensures_done ⟨fun h => (by cases h), fun taken => ?_⟩
      exact ⟨taken.of_same same, shelved.evolves (@Same.evolves _ _ same valid []) (by simp)⟩
  | true =>
      rw [hfree] at hreply
      cases hreply
      obtain ⟨d₁, hd₁, -, hnamed⟩ := acted.left
      obtain rfl := hnamed rfl
      have valid₁ := acted.evolves.valid
      have href₁ := valid₁.resolve_name hd₁
      have hstart := (@ensures_start oracle w₁ _ valid₁ _ href₁ .repair).and
        (ensures_start_accepted href₁ (obliging _ (by omega)) .repair)
      refine ensures_bind _ hstart ?_ ?_
      · intro _ w₂ ⟨_, hreply⟩
        cases hreply
      intro started _ w₂ ⟨⟨acted₂, _⟩, hreply⟩
      obtain ⟨d₂, hd₂, -, hstarted⟩ := acted₂.left
      obtain rfl := hstarted hreply
      refine ensures_done ⟨fun _ => ⟨hd₂, not_taken acted₂.evolves.valid hd₂ rfl rfl⟩, fun taken => ?_⟩
      obtain ⟨n, hn, hname, -⟩ := taken
      exact absurd hname ((World.free_iff.mp hfree).1 n hn)

end Undo

/-! ## What a failed swap leaves -/

section Failures

variable {oracle : Oracle} {w : World} {d : Container} {archive : String}

/-- What the failed call `e`, the `n`-th of the daemon, leaves: the container archived, and its
name free unless another container holds it. -/
structure Broken (oracle : Oracle) (d : Container) (archive : String) (e : CallEvent) (n : Nat)
    (w : World) : Prop where
  valid : w.Valid
  shelved : Shelved d archive w
  free : ¬ Taken d w → w.free d.name = true
  ofStart : (∃ role ref, e.call = .startContainer role ref) → Taken d w
  ofCreate : (∃ role name body, e.call = .createContainer role name body) →
    (∀ error, oracle.fault n ≠ .lost error) → ¬ Taken d w

/-- A create that failed and was not carried out leaves the containers as they were. -/
theorem ensures_createFromSpec_failed (role : Role) (name : String) (spec : ContainerSpec)
    (image : String) :
    Ensures oracle.answer (createFromSpec role name spec image).run w fun out _ w' =>
      ∀ error, out = some (.error error) →
        Same w w' ∨ (∃ lost, oracle.fault w.calls = .lost lost) ∧
          ∃ id, w' = w.tick.add id name := by
  have hanswer : oracle.answer (.createContainer role name (spec.toCreateBody image)) w =
      perform (oracle.fault w.calls) w.tick (w.tick.create (oracle.id w.calls) name) := rfl
  refine ensures_request ?_
  rw [hanswer, World.create]
  intro error herror
  split at herror
  · next hnew =>
    rw [if_pos hnew]
    rcases hfault : oracle.fault w.calls with _ | refused | lost | done
    · rw [hfault] at herror
      cases herror
    · exact .inl (Same.tick w)
    · exact .inr ⟨⟨lost, rfl⟩, _, rfl⟩
    · rw [hfault] at herror
      cases done <;> cases herror
  · next hold =>
    rw [if_neg hold, (perform_error _).1]
    exact .inl (Same.tick w)

/-- A container that bears the name of an archived one has taken it. -/
theorem Shelved.taken (shelved : Shelved d archive w) (valid : w.Valid) {n : Container}
    (hn : n ∈ w.containers) (hname : n.name = d.name) : Taken d w := by
  refine ⟨n, hn, hname, fun hid => ?_⟩
  have heq := valid.eq_of_id hn shelved.stopped hid
  obtain ⟨tsUnix, harchive⟩ := shelved.isArchive
  exact ne_of_isArchiveOf harchive (by rw [← hname, heq])

theorem not_taken_of_free (hfree : w.free d.name = true) : ¬ Taken d w := by
  rintro ⟨n, hn, hname, -⟩
  exact (World.free_iff.mp hfree).1 n hn hname

/-- The failure that ended a swap with `out`, after events none of which failed. -/
def BrokenAt (oracle : Oracle) (w : World) (d : Container)
    (out : Option (Except SwapError (String × String))) (trace : List CallEvent) (w' : World) :
    Prop :=
  ∀ error archive, out = some (.error (.afterStop error (some archive))) →
    ∃ before e, trace = before ++ [e] ∧ (∀ e' ∈ before, ¬ Fails .repair d.name e') ∧
      Fails .repair d.name e ∧ Broken oracle d archive e (w.calls + before.length) w'

/-- The second half of a swap under a free name. -/
theorem ensures_replaceArchived_broken (valid : w.Valid) (shelved : Shelved d archive w)
    (hfree : w.free d.name = true) (spec : ContainerSpec) (image : String) :
    Ensures oracle.answer (replaceArchived .repair d.name spec image archive).run w
      (BrokenAt oracle w d) := by
  have hcreate := ((@ensures_createFromSpec oracle w valid .repair d.name spec image).and
    (ensures_createFromSpec_failed .repair d.name spec image)).and
    (ensures_calls oracle (createFromSpec .repair d.name spec image).run w)
  refine ensures_swapStep_bind _ hcreate ?_ ?_ ?_
  · intro trace w₁ _ error archive' h
    cases h
  · intro e trace w₁ ⟨⟨⟨evolves, _, htrace⟩, hfailed⟩, _⟩ error archive' h
    cases h
    refine ⟨[], _, htrace, by simp, rfl, ?_⟩
    have shelved₁ := shelved.evolves evolves (by simp)
    rcases hfailed e rfl with same | ⟨hlost, id, rfl⟩
    · -- no container was made
      have hfree₁ : w₁.free d.name = true := by rwa [same.free]
      exact {
        valid := evolves.valid
        shelved := shelved₁
        free := fun _ => hfree₁
        ofStart := fun ⟨_, _, h⟩ => by cases h
        ofCreate := fun _ _ => not_taken_of_free hfree₁ }
    · -- the daemon made it, and reported an error
      have taken := shelved₁.taken evolves.valid
        (List.mem_append_right _ (List.mem_singleton.mpr rfl)) rfl
      exact {
        valid := evolves.valid
        shelved := shelved₁
        free := fun h => absurd taken h
        ofStart := fun _ => taken
        ofCreate := fun _ h => absurd hlost.choose_spec (h _) }
  intro id trace w₁ ⟨⟨⟨evolves, hcreated, htrace⟩, _⟩, hcalls⟩
  obtain ⟨hn, hissued, hname⟩ := hcreated id rfl
  have shelved₁ := shelved.evolves evolves (by simp)
  have hne : d.id ∉ [id] := fun h =>
    hissued (List.mem_singleton.mp h ▸ valid.issued ⟨d.id, archive, false⟩ shelved.stopped)
  refine ensures_swapStep_bind _
    (ensures_start evolves.valid (evolves.valid.resolve_id hn) .repair) ?_ ?_ ?_
  · intro more w₂ _ error archive' h
    cases h
  · intro e more w₂ ⟨acted, hmore⟩ error archive' h
    cases h
    refine ⟨trace, ⟨.startContainer .repair id, some (.error e)⟩, congrArg (trace ++ ·) hmore,
      not_fails_of_single htrace fun h => h, ⟨rfl, hname⟩, ?_⟩
    have shelved₂ := shelved₁.evolves acted.evolves hne
    obtain ⟨n, hn₂, hleft, -⟩ := acted.left
    have taken := shelved₂.taken acted.evolves.valid hn₂ (by rcases hleft with rfl | rfl <;> rfl)
    exact {
      valid := acted.evolves.valid
      shelved := shelved₂
      free := fun h => absurd taken h
      ofStart := fun _ => taken
      ofCreate := fun ⟨_, _, _, h⟩ => by cases h }
  · intro _ more w₂ _
    exact ensures_done fun error archive' h => by cases h

/-- The first half of a swap issues no id. -/
theorem emits_archiveContainer_notCreate (role : Role) (name : String) (spec : ContainerSpec)
    (ts : TsProvider) :
    Emits (fun _ => True) NotCreate (archiveContainer role name spec ts).run fun _ => True := by
  refine emits_except_bind
    (emits_swapStep (emits_request (fun _ => rfl) fun _ _ _ _ => trivial)) (fun _ => trivial)
    fun _ _ => ?_
  refine emits_lift_bind (emits_ts quiet_notCreate ts) fun tsUnix _ => ?_
  exact emits_swapStep ((emits_renameToOld quiet_notCreate role name tsUnix fun _ _ => rfl).weaken
    fun _ _ => trivial)

/-- **What a repair's swap leaves when it fails after the rename.** -/
theorem ensures_swapContainer_broken (valid : w.Valid) (hd : d ∈ w.containers)
    (spec : ContainerSpec) (image : String) (ts : TsProvider) :
    Ensures oracle.answer (swapContainer .repair d.name spec image ts).run w
      (BrokenAt oracle w d) := by
  have harchive := ((@ensures_archiveContainer oracle w d valid hd .repair spec ts).and
    (ensures_issued oracle (emits_archiveContainer_notCreate .repair d.name spec ts) w)).and
    (ensures_calls oracle (archiveContainer .repair d.name spec ts).run w)
  rw [swapContainer_eq]
  refine ensures_except_bind _ harchive ?_ ?_ ?_
  · intro trace w₁ _ error archive h
    cases h
  · intro e trace w₁ ⟨⟨⟨_, hstage, _⟩, _⟩, _⟩ error archive h
    obtain ⟨e', rfl | rfl⟩ := hstage e rfl <;> cases h
  intro archive trace w₁ ⟨⟨⟨swapping, _, harchived⟩, hissued⟩, hcalls⟩
  have shelved := harchived archive rfl
  have hfree := shelved.free valid hd swapping.evolves hissued
  refine (ensures_replaceArchived_broken swapping.evolves.valid shelved hfree spec image).weaken ?_
  intro out more w₂ h error archive' hout
  obtain ⟨before, e, rfl, hbefore, hfails, hbroken⟩ := h error archive' hout
  refine ⟨trace ++ before, e, (List.append_assoc ..).symm, ?_, hfails, ?_⟩
  · intro e' he'
    rcases List.mem_append.mp he' with he' | he'
    · exact swapping.unfailed e' he'
    · exact hbefore e' he'
  · rwa [List.length_append, ← Nat.add_assoc, ← hcalls]

end Failures

/-! ## The result -/

section Result

variable {oracle : Oracle} {w : World} {d : Container}

/-- What the repair of `d` leaves when its `n`-th call `e`, the create or the start of the
replacement, failed. -/
structure Undone (oracle : Oracle) (d : Container) (e : CallEvent) (n : Nat) (w : World) :
    Prop where
  running : (⟨d.id, d.name, true⟩ : Container) ∈ w.containers ↔ ¬ Taken d w
  shelved : Taken d w → ∃ archive, Shelved d archive w
  ofStart : (∃ role ref, e.call = .startContainer role ref) → Taken d w
  ofCreate : (∃ role name body, e.call = .createContainer role name body) →
    (∀ error, oracle.fault n ≠ .lost error) → ¬ Taken d w

/-- The undo of a failed swap. -/
theorem ensures_restore_undone {archive : String} {e : CallEvent} {n : Nat}
    (broken : Broken oracle d archive e n w)
    (obliging : ∀ n, w.calls ≤ n → oracle.fault n = .none) :
    Ensures oracle.answer (restoreAfterFailedReattach d.name archive) w fun _ _ w' =>
      Undone oracle d e n w' := by
  refine ((ensures_restoreAfterFailedReattach broken.valid broken.shelved).and
    (ensures_undo broken.valid broken.shelved obliging)).weaken ?_
  intro _ _ w' ⟨evolves, hfree, htaken⟩
  by_cases taken : Taken d w
  · obtain ⟨taken', shelved⟩ := htaken taken
    exact {
      running := ⟨fun hd => not_taken evolves.valid hd rfl rfl, fun h => absurd taken' h⟩
      shelved := fun _ => ⟨archive, shelved⟩
      ofStart := fun _ => taken'
      ofCreate := fun he h => absurd taken (broken.ofCreate he h) }
  · obtain ⟨hd, not_taken'⟩ := hfree (broken.free taken)
    exact {
      running := ⟨fun _ => not_taken', fun _ => hd⟩
      shelved := fun h => absurd h not_taken'
      ofStart := fun he => absurd (broken.ofStart he) taken
      ofCreate := fun _ _ => not_taken' }

/-- The undo creates nothing, and starts the container by its name. -/
theorem ensures_restore_unfailed (name archive : String) :
    Ensures oracle.answer (restoreAfterFailedReattach name archive) w fun _ trace _ =>
      ∀ e ∈ trace, ¬ Fails .repair name e := by
  have emits : Emits (fun _ => True) (fun e => ¬ Fails .repair name e)
      (restoreAfterFailedReattach name archive) fun _ => True := by
    refine emits_bind (emits_renameTo .repair archive name fun _ h => h) fun renamed _ => ?_
    cases renamed with
    | error e => exact emits_done trivial
    | ok _ =>
        have restart (reply : Option (Except DockerError Unit)) :
            ¬ Fails .repair name ⟨.startContainer .repair name, reply⟩ := by
          intro hfails
          rcases reply with _ | ⟨e | u⟩
          · exact hfails
          · exact hfails.2 rfl
          · exact hfails
        exact emits_bind (emits_request restart fun _ _ => trivial) fun _ _ => emits_done trivial
  exact (ensures_of_emits (fun _ => True) (fun _ _ _ => trivial) (fun _ _ _ _ => trivial) emits
    trivial).weaken fun _ _ _ h => h.2.1

/-- What the failure of a repair leaves, at its place in a trace from the `n`-th call on. -/
def LeavesUndone (oracle : Oracle) (d : Container) (n : Nat) (trace : List CallEvent) (w : World) :
    Prop :=
  ∀ before e after, trace = before ++ e :: after → Fails .repair d.name e →
    (∀ m, n + before.length < m → oracle.fault m = .none) →
    Undone oracle d e (n + before.length) w

theorem LeavesUndone.of_unfailed {n : Nat} {trace : List CallEvent}
    (unfailed : ∀ e ∈ trace, ¬ Fails .repair d.name e) : LeavesUndone oracle d n trace w := by
  rintro before e after rfl hfails
  exact absurd hfails (unfailed e (by simp))

theorem LeavesUndone.prepend {n : Nat} {first rest : List CallEvent}
    (h : LeavesUndone oracle d (n + first.length) rest w)
    (unfailed : ∀ e ∈ first, ¬ Fails .repair d.name e) :
    LeavesUndone oracle d n (first ++ rest) w := by
  intro before e after hplace hfails obliging
  rcases place_of_append hplace with ⟨after', rfl⟩ | ⟨before', rfl, rfl⟩
  · exact absurd hfails (unfailed e (by simp))
  · rw [List.length_append, ← Nat.add_assoc] at obliging ⊢
    exact h before' e after rfl hfails obliging

/-- What follows the swap of a dependent undoes it. -/
theorem ensures_finishReattach_undone {trace : List CallEvent} {w' : World}
    {swapped : Except SwapError (String × String)}
    (h : SwapEnd .repair d w (some swapped) trace w')
    (broken : BrokenAt oracle w d (some swapped) trace w')
    (hcalls : w'.calls = w.calls + trace.length) :
    Ensures oracle.answer (finishReattach d.name swapped).run w' fun _ more w'' =>
      LeavesUndone oracle d w.calls (trace ++ more) w'' := by
  have unfailed (hout : ∀ e archive, swapped ≠ .error (.afterStop e (some archive))) :
      ∀ e ∈ trace, ¬ Fails .repair d.name e := by
    intro e he hfails
    obtain ⟨e', archive, heq⟩ := h.faults ⟨e, he, hfails⟩
    exact hout e' archive (Option.some.inj heq)
  match swapped, h, broken, unfailed with
  | .ok (archive, id), h, _, unfailed =>
      have unfailed := unfailed fun _ _ h => by cases h
      obtain ⟨shelved, -⟩ := h.swapped archive id rfl
      have hremove := @ensures_remove oracle w' _ h.evolves.valid _
        (h.evolves.valid.resolve_name shelved.stopped) .repair false
      have removed {more : List CallEvent} {out : Option (Except DockerError Unit)} {w'' : World}
          (htrace : more = [⟨.removeContainer .repair archive false, out⟩]) :
          LeavesUndone oracle d w.calls (trace ++ more) w'' := by
        refine .of_unfailed fun e he => ?_
        rcases List.mem_append.mp he with he | he
        · exact unfailed e he
        · exact not_fails_of_single htrace (fun h => h) e he
      refine ensures_lift_bind _ hremove ?_ ?_
      · intro more w'' ⟨_, _, htrace⟩
        exact removed htrace
      · intro _ more w'' ⟨_, _, htrace⟩
        refine ensures_done ?_
        rw [List.append_nil]
        exact removed htrace
  | .error (.stop error), _, _, unfailed =>
      refine ensures_done (.of_unfailed ?_)
      rw [List.append_nil]
      exact unfailed fun _ _ h => by cases h
  | .error (.afterStop error none), _, _, unfailed =>
      refine ensures_done (.of_unfailed ?_)
      rw [List.append_nil]
      exact unfailed fun _ _ h => by cases h
  | .error (.afterStop error (some archive)), h, broken, _ =>
      obtain ⟨before₀, e₀, rfl, hbefore₀, hfails₀, hbroken⟩ := broken error archive rfl
      have undone {more : List CallEvent} {w'' : World}
          (hmore : ∀ e ∈ more, ¬ Fails .repair d.name e)
          (restored : (∀ n, w'.calls ≤ n → oracle.fault n = .none) →
            Undone oracle d e₀ (w.calls + before₀.length) w'') :
          LeavesUndone oracle d w.calls (before₀ ++ [e₀] ++ more) w'' := by
        intro before e after hplace hfails obliging
        rw [List.append_assoc, List.singleton_append] at hplace
        obtain ⟨rfl, rfl⟩ := place_unique hplace hbefore₀ hmore hfails
        refine restored fun n hn => obliging n ?_
        rw [hcalls, List.length_append, List.length_singleton] at hn
        omega
      have hrestore : Ensures oracle.answer (restoreAfterFailedReattach d.name archive) w'
          fun _ more w'' => (∀ e ∈ more, ¬ Fails .repair d.name e) ∧
            ((∀ n, w'.calls ≤ n → oracle.fault n = .none) →
              Undone oracle d e₀ (w.calls + before₀.length) w'') :=
        ⟨ensures_restore_unfailed d.name archive, ensures_restore_undone hbroken⟩
      refine ensures_lift_bind _ hrestore ?_ ?_
      · intro more w'' ⟨hmore, restored⟩
        exact undone hmore restored
      · intro _ more w'' ⟨hmore, restored⟩
        refine ensures_done ?_
        rw [List.append_nil]
        exact undone hmore restored

theorem ensures_reattachOne_undone (valid : w.Valid) (hd : d ∈ w.containers) (ownerName : String)
    (newOwnerId : Option String) (ts : TsProvider) :
    Ensures oracle.answer (reattachOne ownerName newOwnerId d.name ts).run w fun _ trace w' =>
      LeavesUndone oracle d w.calls trace w' := by
  have hinspect := (@ensures_still oracle w _ _ _
    (emits_inspect (quiet_moves _).hushed d.name) w .rfl).and
    (ensures_calls oracle (inspect d.name).run w)
  refine ensures_except_bind _ hinspect ?_ ?_ ?_
  · intro trace w₁ ⟨⟨_, htrace, _⟩, _⟩
    exact .of_unfailed fun e he => not_fails_of_still (htrace e he)
  · intro _ trace w₁ ⟨⟨_, htrace, _⟩, _⟩
    exact .of_unfailed fun e he => not_fails_of_still (htrace e he)
  intro inspected trace₁ w₁ ⟨⟨same₁, htrace₁, _⟩, hcalls₁⟩
  have himage := (@ensures_still oracle w₁ _ _ _
    (emits_repairImage (quiet_moves _).hushed (repairSpec inspected ownerName newOwnerId)) w₁ .rfl).and
    (ensures_calls oracle (repairImage (repairSpec inspected ownerName newOwnerId)) w₁)
  have prefixed {rest : List CallEvent} {w' : World} (h : LeavesUndone oracle d w₁.calls rest w') :
      LeavesUndone oracle d w.calls (trace₁ ++ rest) w' := by
    rw [hcalls₁] at h
    exact h.prepend fun e he => not_fails_of_still (htrace₁ e he)
  refine ensures_lift_bind _ himage ?_ ?_
  · intro trace₂ w₂ ⟨⟨_, htrace₂, _⟩, _⟩
    exact prefixed (.of_unfailed fun e he => not_fails_of_still (htrace₂ e he))
  intro image trace₂ w₂ ⟨⟨same₂, htrace₂, _⟩, hcalls₂⟩
  have valid₂ := same₂.valid (same₁.valid valid)
  have hd₂ : d ∈ w₂.containers := by rwa [same₂.containers, same₁.containers]
  let spec := repairSpec inspected ownerName newOwnerId
  have hswap := ((@ensures_swapContainer oracle w₂ d valid₂ hd₂ .repair spec image ts).and
    (ensures_swapContainer_broken valid₂ hd₂ spec image ts)).and
    (ensures_calls oracle (swapContainer .repair d.name spec image ts).run w₂)
  have prefixed₂ {rest : List CallEvent} {w' : World}
      (h : LeavesUndone oracle d w₂.calls rest w') :
      LeavesUndone oracle d w.calls (trace₁ ++ (trace₂ ++ rest)) w' := by
    rw [hcalls₂] at h
    exact prefixed (h.prepend fun e he => not_fails_of_still (htrace₂ e he))
  refine ensures_lift_bind _ hswap ?_ ?_
  · intro trace₃ w₃ ⟨⟨h, _⟩, _⟩
    refine prefixed₂ (.of_unfailed fun e he hfails => ?_)
    obtain ⟨e', archive, heq⟩ := h.faults ⟨e, he, hfails⟩
    cases heq
  intro swapped trace₃ w₃ ⟨⟨h, broken⟩, hcalls₃⟩
  refine (ensures_finishReattach_undone h broken hcalls₃).weaken ?_
  intro _ more w₄ hmore
  exact prefixed₂ hmore

/-- **A repair whose create or start failed leaves the dependent running under its name exactly
when no other container holds it**, on a daemon that takes every later call it can. A failed
start leaves the replacement with the name, and the dependent stopped under an archive name; a
failed create leaves the name free, unless the daemon made the container all the same. -/
theorem undone_of_failedRepair (valid : w.Valid) (hd : d ∈ w.containers) (ownerName : String)
    (newOwnerId : Option String) (ts : TsProvider) {before after : List CallEvent} {e : CallEvent}
    (hplace : (play oracle.answer (reattachOne ownerName newOwnerId d.name ts).run w).trace =
      before ++ e :: after)
    (hfails : Fails .repair d.name e)
    (obliging : ∀ n, w.calls + before.length < n → oracle.fault n = .none) :
    Undone oracle d e (w.calls + before.length)
      (play oracle.answer (reattachOne ownerName newOwnerId d.name ts).run w).state :=
  ensures_reattachOne_undone valid hd ownerName newOwnerId ts before e after hplace hfails obliging

end Result

/-! ## A refused create and a refused start -/

/-- Refuses one call and carries out every other. -/
def refusesOnly (refused : Nat) : Oracle where
  fault n := if n = refused then .refused World.conflict else .none
  report _ := inspectReport "" "tunnel:1" (fun _ => none)
    ⟨some .running, some true, none, none, none⟩
  shown _ _ := false
  row _ _ := ⟨none, none, none, none, none, none, none⟩
  hook _ := .completed 0
  image _ := ⟨none, none⟩
  id _ := "2b"
  clock _ := 0
  unixTime _ := 0

def tunnel : Container := ⟨"1a", "tunnel", true⟩

def tunnelWorld : World := ⟨[tunnel], ["1a"], 0⟩

/-- The repair of `tunnel`: its fifth call is the create, its sixth the start. -/
def tunnelRun (refused : Nat) : Run Call Call.Reply World (Except DockerError Unit) :=
  play (refusesOnly refused).answer (reattachOne "vpn" none "tunnel" (.fixed 5)).run tunnelWorld

theorem tunnelWorld_valid : tunnelWorld.Valid := by
  constructor <;> decide

theorem accepts_after {refused n : Nat} (h : refused < n) : (refusesOnly refused).fault n = .none :=
  if_neg (by omega)

/-- A refused create is undone. -/
theorem undone_of_failedRepair_create :
    (∃ body, Undone (refusesOnly 4) tunnel
        ⟨.createContainer .repair "tunnel" body, some (.error World.conflict)⟩ 4
        (tunnelRun 4).state) ∧
      (tunnelRun 4).state.containers = [tunnel] := by
  have hplace := @place_of_getElem? _ (tunnelRun 4).trace 4
    ⟨.createContainer .repair "tunnel" _, some (.error World.conflict)⟩ rfl
  have hundone := undone_of_failedRepair (d := tunnel) tunnelWorld_valid
    (List.mem_singleton.mpr rfl) "vpn" none (.fixed 5) hplace (Eq.refl Role.repair)
    fun _ h => accepts_after h
  exact ⟨⟨_, hundone⟩, rfl⟩

/-- **The start is refused, every later call is taken that can be, and the dependent ends
stopped under its archive name.** -/
theorem refused_start_not_undone :
    tunnelWorld.Valid ∧ tunnel ∈ tunnelWorld.containers ∧
      (∃ before e after, (tunnelRun 5).trace = before ++ e :: after ∧
        Fails .repair "tunnel" e ∧
        ∀ n, tunnelWorld.calls + before.length < n → (refusesOnly 5).fault n = .none) ∧
      (tunnelRun 5).state.containers = [⟨"1a", "tunnel-old-5", false⟩, ⟨"2b", "tunnel", false⟩] ∧
      tunnel ∉ (tunnelRun 5).state.containers := by
  have hcontainers : (tunnelRun 5).state.containers =
      [⟨"1a", "tunnel-old-5", false⟩, ⟨"2b", "tunnel", false⟩] := rfl
  refine ⟨tunnelWorld_valid, List.mem_singleton.mpr rfl, ?_, hcontainers, ?_⟩
  · refine ⟨(tunnelRun 5).trace.take 5, _, _, place_of_getElem? (n := 5) rfl, ?_, ?_⟩
    · exact ⟨rfl, by decide⟩
    · exact fun _ h => accepts_after h
  · rw [hcontainers]
    decide

end Freshdock.Docker
