import Freshdock.Docker.DaemonSteps

/-!
# Swaps, repairs and rollbacks on a daemon

What the operations of an update leave behind when any of their calls may fail: a swap leaves
the container under its name or an archive name, with its replacement next to it when it
succeeded; a rollback that succeeded has given the archive its name back and has removed the
replacement; a repair touches nothing but the container it repairs.
-/

set_option autoImplicit false

namespace Freshdock.Docker

open Interaction Registry

/-- The container still exists, under its name or an archive name of it. -/
def Kept (c : Container) (w : World) : Prop :=
  ∃ c' ∈ w.containers, c'.id = c.id ∧ (c'.name = c.name ∨ ∃ ts, IsArchiveOf c.name ts c'.name)

/-- The container is stopped, under an archive name. -/
structure Shelved (c : Container) (archive : String) (w : World) : Prop where
  stopped : (⟨c.id, archive, false⟩ : Container) ∈ w.containers
  isArchive : ∃ ts, IsArchiveOf c.name ts archive

/-- The create of a replacement, or its start, failed. -/
def Fails (role : Role) (name : String) : CallEvent → Prop
  | ⟨.createContainer role' _ _, some (.error _)⟩ => role' = role
  | ⟨.startContainer role' ref, some (.error _)⟩ => role' = role ∧ ref ≠ name
  | _ => False

theorem Shelved.kept {c : Container} {archive : String} {w : World} (h : Shelved c archive w) :
    Kept c w :=
  ⟨_, h.stopped, rfl, .inr h.isArchive⟩

theorem Shelved.evolves {c : Container} {archive : String} {w w' : World} {touched : List String}
    (h : Shelved c archive w) (evolves : Evolves touched w w') (hid : c.id ∉ touched) :
    Shelved c archive w' :=
  ⟨evolves.kept _ h.stopped hid, h.isArchive⟩

theorem not_fails_of_still {role : Role} {name : String} {e : CallEvent}
    (still : e.call.moves = none) : ¬ Fails role name e := by
  intro hfails
  obtain ⟨call, reply⟩ := e
  cases call <;> first | exact hfails | cases still

variable {oracle : Oracle} {w : World}

/-! ## The swap -/

/-- A step of a swap, with what follows it. -/
theorem ensures_swapStep_bind {α β : Type} {onError : DockerError → SwapError} {op : Op α}
    {k : α → Fallible Call Call.Reply SwapError β}
    (mid : Option (Except DockerError α) → List CallEvent → World → Prop)
    {post : Option (Except SwapError β) → List CallEvent → World → Prop}
    (first : Ensures oracle.answer op.run w mid)
    (stuck : ∀ trace w', mid none trace w' → post none trace w')
    (failed : ∀ e trace w', mid (some (.error e)) trace w' →
      post (some (.error (onError e))) trace w')
    (rest : ∀ a trace w', mid (some (.ok a)) trace w' →
      Ensures oracle.answer (k a).run w' fun out more w'' => post out (trace ++ more) w'') :
    Ensures oracle.answer (swapStep onError op >>= k).run w post := by
  refine ensures_except_bind
    (fun out trace w' => ∃ r, out = r.map (Except.mapError onError) ∧ mid r trace w')
    (ensures_map (first.weaken fun r _ _ h => ⟨r, rfl, h⟩)) ?_ ?_ ?_
  · rintro trace w' ⟨r, hr, h⟩
    rcases r with _ | r
    · exact stuck trace w' h
    · cases hr
  · rintro e trace w' ⟨r, hr, h⟩
    rcases r with _ | ⟨e' | a⟩
    · cases hr
    · cases hr
      exact failed e' trace w' h
    · cases hr
  · rintro a trace w' ⟨r, hr, h⟩
    rcases r with _ | ⟨e | a⟩
    · cases hr
    · cases hr
    · cases hr
      exact rest a trace w' h

/-- A swap under way: the container is kept, and nothing has failed. -/
structure Swapping (role : Role) (c : Container) (w : World) (trace : List CallEvent)
    (w' : World) : Prop where
  evolves : Evolves [c.id] w w'
  kept : Kept c w'
  unfailed : ∀ e ∈ trace, ¬ Fails role c.name e

/-- What a swap leaves behind. -/
structure SwapEnd (role : Role) (c : Container) (w : World)
    (out : Option (Except SwapError (String × String))) (trace : List CallEvent) (w' : World) :
    Prop where
  evolves : Evolves [c.id] w w'
  kept : Kept c w'
  swapped : ∀ archive id, out = some (.ok (archive, id)) →
    Shelved c archive w' ∧ (⟨id, c.name, true⟩ : Container) ∈ w'.containers ∧ id ∉ w.issued ∧
      id ≠ c.name
  failed : ∀ e archive, out = some (.error (.afterStop e (some archive))) → Shelved c archive w'
  faults : (∃ e ∈ trace, Fails role c.name e) →
    ∃ e archive, out = some (.error (.afterStop e (some archive)))

section Swap

variable {role : Role} {c : Container} {trace more : List CallEvent} {w' w'' : World}

/-- A swap that ends before the create. -/
theorem Swapping.ended (h : Swapping role c w trace w')
    {out : Option (Except SwapError (String × String))}
    (hout : ∀ r, out = some r → ∃ e, r = .error (.stop e) ∨ r = .error (.afterStop e none)) :
    SwapEnd role c w out trace w' where
  evolves := h.evolves
  kept := h.kept
  swapped archive id heq := by
    obtain ⟨e, he | he⟩ := hout _ heq <;> cases he
  failed e archive heq := by
    obtain ⟨e', he | he⟩ := hout _ heq <;> cases he
  faults := fun ⟨e, he, hfails⟩ => absurd hfails (h.unfailed e he)

/-- A swap that ends after the rename, with an error. -/
theorem SwapEnd.of_failed {archive : String} (evolves : Evolves [c.id] w w')
    (shelved : Shelved c archive w') (e : DockerError) :
    SwapEnd role c w (some (.error (.afterStop e (some archive)))) trace w' where
  evolves := evolves
  kept := shelved.kept
  swapped archive' id heq := by cases heq
  failed e' archive' heq := by
    cases heq
    exact shelved
  faults _ := ⟨e, archive, rfl⟩

theorem Swapping.append (h : Swapping role c w trace w') {touched : List String}
    (evolves : Evolves touched w' w'')
    (sub : ∀ c' ∈ w.containers, c'.id ∈ touched → c'.id ∈ [c.id]) (kept : Kept c w'')
    (unfailed : ∀ e ∈ more, ¬ Fails role c.name e) : Swapping role c w (trace ++ more) w'' where
  evolves := h.evolves.trans evolves sub
  kept := kept
  unfailed e he := by
    rcases List.mem_append.mp he with he | he
    · exact h.unfailed e he
    · exact unfailed e he

/-- Renaming to an archive name keeps the container, and archives it when it succeeds. -/
theorem ensures_renameToOld (valid : w.Valid) (hc : c ∈ w.containers) (role : Role)
    (tsUnix : Int) :
    Ensures oracle.answer (renameToOld role c.name tsUnix).run w fun out trace w' =>
      Evolves [c.id] w w' ∧ Kept c w' ∧ (∀ role' name, ∀ e ∈ trace, ¬ Fails role' name e) ∧
        ∀ archive, out = some (.ok archive) →
          c.named archive ∈ w'.containers ∧ IsArchiveOf c.name tsUnix archive := by
  refine ensures_lift_bind _
    (ensures_still (emits_nextAvailableOldName (fun _ _ => moves_of_none rfl) c.name tsUnix) .rfl)
    ?_ ?_
  · intro trace w' ⟨same, htrace, _⟩
    exact ⟨same.evolves valid, ⟨c, by rwa [same.containers], rfl, .inl rfl⟩,
      fun _ _ e he => not_fails_of_still (htrace e he), fun _ h => by cases h⟩
  intro archive trace w₁ ⟨same, htrace, harchive⟩
  have harchive := harchive archive rfl
  have valid₁ := same.valid valid
  have hc₁ : c ∈ w₁.containers := by rwa [same.containers]
  have ended {out : Option (Except DockerError Unit)} {more : List CallEvent} {w₂ : World}
      (h : Acted c (Container.named archive) out w₁ w₂ ∧
        more = [⟨.renameContainer role c.name archive, out⟩]) :
      Evolves [c.id] w w₂ ∧ Kept c w₂ ∧
        ∀ role' name, ∀ e ∈ trace ++ more, ¬ Fails role' name e := by
    obtain ⟨⟨evolves, c', hc', hleft, -⟩, rfl⟩ := h
    refine ⟨(same.evolves valid).trans evolves fun _ _ h => h, ⟨c', hc', ?_⟩, ?_⟩
    · rcases hleft with rfl | rfl
      · exact ⟨rfl, .inl rfl⟩
      · exact ⟨rfl, .inr ⟨tsUnix, harchive⟩⟩
    · intro role' name e he
      rcases List.mem_append.mp he with he | he
      · exact not_fails_of_still (htrace e he)
      · obtain rfl := List.mem_singleton.mp he
        exact id
  refine ensures_except_bind _ (ensures_renameTo valid₁ (valid₁.resolve_name hc₁) role archive)
    ?_ ?_ ?_
  · intro more w₂ h
    obtain ⟨evolves, kept, unfailed⟩ := ended h
    exact ⟨evolves, kept, unfailed, fun _ h => by cases h⟩
  · intro e more w₂ h
    obtain ⟨evolves, kept, unfailed⟩ := ended h
    exact ⟨evolves, kept, unfailed, fun _ h => by cases h⟩
  · intro u more w₂ h
    obtain ⟨evolves, kept, unfailed⟩ := ended h
    obtain ⟨⟨-, c', hc', -, hdone⟩, -⟩ := h
    refine ensures_done ⟨evolves, kept, by simpa using unfailed, fun archive' h => ?_⟩
    cases h
    obtain rfl := hdone rfl
    exact ⟨hc', harchive⟩

theorem not_fails_of_single {e : CallEvent} {events : List CallEvent}
    (single : events = [e]) (unfailed : ¬ Fails role c.name e) :
    ∀ e' ∈ events, ¬ Fails role c.name e' := by
  intro e' he'
  rw [single] at he'
  rw [List.mem_singleton.mp he']
  exact unfailed

/-- The start of a swap's replacement, which ends the swap. -/
theorem ensures_startReplacement (valid : w.Valid) (hc : c ∈ w.containers) {archive id : String}
    (swapping : Swapping role c w trace w') (shelved : Shelved c archive w')
    (hn : (⟨id, c.name, false⟩ : Container) ∈ w'.containers) (hnew : id ∉ w.issued)
    (hname : id ≠ c.name) :
    Ensures oracle.answer
      (swapStep (.afterStop · (some archive)) (start role id) >>= fun _ => pure (archive, id)).run w'
      fun out more w'' => SwapEnd role c w out (trace ++ more) w'' := by
  have hne : c.id ∉ [id] := fun h => hnew (List.mem_singleton.mp h ▸ valid.issued c hc)
  have sub : ∀ c' ∈ w.containers, c'.id ∈ [id] → c'.id ∈ [c.id] := fun c' hc' h =>
    absurd (List.mem_singleton.mp h ▸ valid.issued c' hc') hnew
  refine ensures_swapStep_bind _ (ensures_start swapping.evolves.valid
    (swapping.evolves.valid.resolve_id hn) role) ?_ ?_ ?_
  · intro more w₁ ⟨acted, htrace⟩
    have kept := (shelved.evolves acted.evolves hne).kept
    exact (swapping.append acted.evolves sub kept (not_fails_of_single htrace fun h => h)).ended
      fun r hr => by cases hr
  · intro e more w₁ ⟨acted, _⟩
    exact .of_failed (swapping.evolves.trans acted.evolves sub) (shelved.evolves acted.evolves hne) e
  intro u more w₁ ⟨acted, htrace⟩
  have shelved₁ := shelved.evolves acted.evolves hne
  have swapping₁ := swapping.append acted.evolves sub shelved₁.kept
    (not_fails_of_single htrace fun h => h)
  obtain ⟨n, hn₁, -, hstarted⟩ := acted.left
  obtain rfl := hstarted rfl
  refine ensures_done ?_
  rw [List.append_nil]
  constructor
  · exact swapping₁.evolves
  · exact swapping₁.kept
  · intro archive' id' heq
    cases heq
    exact ⟨shelved₁, hn₁, hnew, hname⟩
  · intro e archive' heq
    cases heq
  · rintro ⟨e, he, hfails⟩
    exact absurd hfails (swapping₁.unfailed e he)

/-- The create of a swap's replacement, and its start. -/
theorem ensures_createReplacement (valid : w.Valid) (hc : c ∈ w.containers) (spec : ContainerSpec)
    (image : String) {archive : String} (swapping : Swapping role c w trace w')
    (shelved : Shelved c archive w') :
    Ensures oracle.answer
      (swapStep (.afterStop · (some archive)) (createFromSpec role c.name spec image) >>= fun newId =>
        swapStep (.afterStop · (some archive)) (start role newId) >>= fun _ => pure (archive, newId)).run
      w' fun out more w'' => SwapEnd role c w out (trace ++ more) w'' := by
  refine ensures_swapStep_bind _
    (ensures_createFromSpec swapping.evolves.valid role c.name spec image) ?_ ?_ ?_
  · intro more w₁ ⟨evolves, _, htrace⟩
    have kept := (shelved.evolves evolves (by simp)).kept
    exact (swapping.append evolves (fun _ _ h => by cases h) kept
      (not_fails_of_single htrace id)).ended fun r hr => by cases hr
  · intro e more w₁ ⟨evolves, _, _⟩
    exact .of_failed (swapping.evolves.trans evolves fun _ _ h => by cases h)
      (shelved.evolves evolves (by simp)) e
  intro id more w₁ ⟨evolves, hcreated, htrace⟩
  obtain ⟨hn, hissued, hname⟩ := hcreated id rfl
  have shelved₁ := shelved.evolves evolves (by simp)
  have swapping₁ := swapping.append evolves (fun _ _ h => by cases h) shelved₁.kept
    (not_fails_of_single htrace fun h => h)
  have hnew : id ∉ w.issued := fun h => hissued (swapping.evolves.issued id h)
  refine (ensures_startReplacement valid hc swapping₁ shelved₁ hn hnew hname).weaken ?_
  intro out last w₂ h
  rwa [List.append_assoc] at h

/-- The first half of a swap: stop the container and give it an archive name. -/
def archiveContainer (role : Role) (name : String) (spec : ContainerSpec) (ts : TsProvider) :
    Fallible Call Call.Reply SwapError String := do
  swapStep .stop (stop role name spec.config.stopSignal spec.config.stopTimeout)
  let tsUnix ← (liftM ts.read : Fallible Call Call.Reply SwapError Int)
  swapStep (.afterStop · none) (renameToOld role name tsUnix)

/-- The second half: create the replacement and start it. -/
def replaceArchived (role : Role) (name : String) (spec : ContainerSpec) (image archive : String) :
    Fallible Call Call.Reply SwapError (String × String) := do
  let newId ← swapStep (.afterStop · (some archive)) (createFromSpec role name spec image)
  swapStep (.afterStop · (some archive)) (start role newId)
  pure (archive, newId)

theorem swapContainer_eq (role : Role) (name : String) (spec : ContainerSpec) (image : String)
    (ts : TsProvider) :
    swapContainer role name spec image ts =
      archiveContainer role name spec ts >>= replaceArchived role name spec image := by
  simp only [swapContainer, archiveContainer, bind_assoc]
  rfl

/-- The first half of a swap archives the container when it succeeds. -/
theorem ensures_archiveContainer (valid : w.Valid) (hc : c ∈ w.containers) (role : Role)
    (spec : ContainerSpec) (ts : TsProvider) :
    Ensures oracle.answer (archiveContainer role c.name spec ts).run w fun out trace w' =>
      Swapping role c w trace w' ∧
        (∀ e, out = some (.error e) → ∃ e', e = .stop e' ∨ e = .afterStop e' none) ∧
        ∀ archive, out = some (.ok archive) → Shelved c archive w' := by
  -- the stop
  have stopping {out : Option (Except DockerError Unit)} {trace : List CallEvent} {w₁ : World}
      {signal : Option String}
      (h : Acted c Container.stopped out w w₁ ∧
        ∃ timeout, trace = [⟨.stopContainer role c.name signal timeout, out⟩]) :
      Swapping role c w trace w₁ := by
    obtain ⟨⟨evolves, c', hc', hleft, -⟩, timeout, rfl⟩ := h
    refine ⟨evolves, ⟨c', hc', ?_⟩, not_fails_of_single rfl id⟩
    rcases hleft with rfl | rfl <;> exact ⟨rfl, .inl rfl⟩
  refine ensures_swapStep_bind _ (ensures_stop valid (valid.resolve_name hc) role _ _) ?_ ?_ ?_
  · intro trace w₁ h
    exact ⟨stopping h, fun _ h => (by cases h), fun _ h => (by cases h)⟩
  · intro e trace w₁ h
    exact ⟨stopping h, fun _ h => ⟨e, .inl (by cases h; rfl)⟩, fun _ h => (by cases h)⟩
  intro u trace₁ w₁ h
  have swapping₁ := stopping h
  obtain ⟨⟨-, c₁, hc₁, -, hstopped⟩, -⟩ := h
  obtain rfl := hstopped rfl
  -- the clock
  refine ensures_lift_bind _ (ensures_still (emits_ts (quiet_moves _).hushed ts) .rfl) ?_ ?_
  · intro trace₂ w₂ ⟨same, htrace, _⟩
    refine ⟨swapping₁.append (same.evolves swapping₁.evolves.valid) (fun _ _ h => h)
      ⟨c.stopped, by rwa [same.containers], rfl, .inl rfl⟩ ?_, fun _ h => (by cases h),
      fun _ h => (by cases h)⟩
    exact fun e he => not_fails_of_still (htrace e he)
  intro tsUnix trace₂ w₂ ⟨same, htrace, _⟩
  have hc₂ : c.stopped ∈ w₂.containers := by rwa [same.containers]
  have swapping₂ := swapping₁.append (same.evolves swapping₁.evolves.valid) (fun _ _ h => h)
    ⟨_, hc₂, rfl, .inl rfl⟩ fun e he => not_fails_of_still (htrace e he)
  -- the rename
  refine ensures_map ((ensures_renameToOld swapping₂.evolves.valid hc₂ role tsUnix).weaken ?_)
  intro out trace₃ w₃ ⟨evolves₃, kept, unfailed, hrenamed⟩
  rw [← List.append_assoc]
  refine ⟨swapping₂.append evolves₃ (fun _ _ h => h) kept (unfailed role c.name), ?_, ?_⟩
  · intro e he
    rcases out with _ | ⟨e' | archive⟩
    · cases he
    · cases he
      exact ⟨e', .inr rfl⟩
    · cases he
  · intro archive harchive
    rcases out with _ | ⟨e' | archive'⟩
    · cases harchive
    · cases harchive
    · cases harchive
      obtain ⟨hstopped, harchive⟩ := hrenamed archive rfl
      exact ⟨hstopped, tsUnix, harchive⟩

/-- **A swap keeps the container, whatever fails.** When it succeeds the container is archived
and its replacement runs under its name; when the create or the start of the replacement fails
the container stays archived, and stopped. -/
theorem ensures_swapContainer (valid : w.Valid) (hc : c ∈ w.containers) (role : Role)
    (spec : ContainerSpec) (image : String) (ts : TsProvider) :
    Ensures oracle.answer (swapContainer role c.name spec image ts).run w (SwapEnd role c w) := by
  rw [swapContainer_eq]
  refine ensures_except_bind _ (ensures_archiveContainer valid hc role spec ts) ?_ ?_ ?_
  · intro trace w₁ ⟨swapping, _, _⟩
    exact swapping.ended fun r hr => by cases hr
  · intro e trace w₁ ⟨swapping, hstage, _⟩
    obtain ⟨e', he⟩ := hstage e rfl
    refine swapping.ended fun r hr => ⟨e', ?_⟩
    cases hr
    rcases he with rfl | rfl
    · exact .inl rfl
    · exact .inr rfl
  · intro archive trace w₁ ⟨swapping, _, harchived⟩
    exact ensures_createReplacement valid hc spec image swapping (harchived archive rfl)

end Swap

/-! ## Repairs -/

section Repair

variable {d : Container}

/-- A program that moves nothing touches nothing. -/
theorem ensures_untouched {α : Type} {p : Prog α} {out : α → Prop} (valid : w.Valid)
    (emits : Emits (Told oracle w) (Moves fun _ _ => False) p out) (touched : List String) :
    Ensures oracle.answer p w fun _ _ w' =>
      Evolves touched w w' ∧ ∀ c ∈ w.containers, c ∈ w'.containers := by
  refine (ensures_still emits .rfl).weaken ?_
  intro _ _ w' ⟨same, _, _⟩
  exact ⟨same.evolves valid, fun c hc => by rwa [same.containers]⟩

theorem ensures_restoreAfterFailedReattach {archive : String} (valid : w.Valid)
    (shelved : Shelved d archive w) :
    Ensures oracle.answer (restoreAfterFailedReattach d.name archive) w fun _ _ w' =>
      Evolves [d.id] w w' := by
  refine ensures_bind _ (ensures_renameTo valid (valid.resolve_name shelved.stopped) .repair d.name)
    (fun _ _ h => h.1.evolves) ?_
  intro renamed trace w₁ ⟨acted, _⟩
  cases renamed with
  | error e => exact ensures_done acted.evolves
  | ok u =>
      obtain ⟨d', hd', -, hnamed⟩ := acted.left
      obtain rfl := hnamed rfl
      have valid₁ := acted.evolves.valid
      refine ensures_bind _ (ensures_start valid₁ (valid₁.resolve_name hd') .repair) ?_ ?_
      · intro _ w₂ ⟨started, _⟩
        exact acted.evolves.trans started.evolves fun _ _ h => h
      · intro _ _ w₂ ⟨started, _⟩
        exact ensures_done (acted.evolves.trans started.evolves fun _ _ h => h)

theorem ensures_finishReattach {trace : List CallEvent} {w' : World}
    {swapped : Except SwapError (String × String)}
    (h : SwapEnd .repair d w (some swapped) trace w') :
    Ensures oracle.answer (finishReattach d.name swapped).run w' fun _ _ w'' =>
      Evolves [d.id] w w'' := by
  have valid := h.evolves.valid
  match swapped, h with
  | .ok (archive, id), h =>
      obtain ⟨shelved, -⟩ := h.swapped archive id rfl
      refine ensures_lift_bind _
        (ensures_remove valid (valid.resolve_name shelved.stopped) .repair false) ?_ ?_
      · intro _ w'' ⟨evolves, _⟩
        exact h.evolves.trans evolves fun _ _ h => h
      · intro _ _ w'' ⟨evolves, _⟩
        exact ensures_done (h.evolves.trans evolves fun _ _ h => h)
  | .error (.stop error), h => exact ensures_done h.evolves
  | .error (.afterStop error none), h => exact ensures_done h.evolves
  | .error (.afterStop error (some archive)), h =>
      refine ensures_lift_bind _
        (ensures_restoreAfterFailedReattach valid (h.failed error archive rfl)) ?_ ?_
      · intro _ w'' evolves
        exact h.evolves.trans evolves fun _ _ h => h
      · intro _ _ w'' evolves
        exact ensures_done (h.evolves.trans evolves fun _ _ h => h)

/-- **A repair touches only the container it repairs.** -/
theorem ensures_reattachOne (valid : w.Valid) (hd : d ∈ w.containers) (ownerName : String)
    (newOwnerId : Option String) (ts : TsProvider) :
    Ensures oracle.answer (reattachOne ownerName newOwnerId d.name ts).run w fun _ _ w' =>
      Evolves [d.id] w w' := by
  refine ensures_except_bind _
    (ensures_untouched valid (emits_inspect (quiet_moves _).hushed d.name) [d.id])
    (fun _ _ h => h.1) (fun _ _ _ h => h.1) ?_
  intro inspected _ w₁ ⟨evolves₁, kept₁⟩
  refine ensures_lift_bind _
    (ensures_untouched evolves₁.valid (emits_repairImage (quiet_moves _).hushed _) [d.id])
    (fun _ w' h => evolves₁.trans h.1 fun _ _ h => h) ?_
  intro image _ w₂ ⟨evolves₂, kept₂⟩
  have evolves := evolves₁.trans evolves₂ fun _ _ h => h
  refine ensures_lift_bind _
    (ensures_swapContainer evolves.valid (kept₂ d (kept₁ d hd)) .repair _ image ts)
    (fun _ w' h => evolves.trans h.evolves fun _ _ h => h) ?_
  intro swapped _ w₃ h
  refine (ensures_finishReattach h).weaken ?_
  intro _ _ w₄ evolves₃
  exact evolves.trans evolves₃ fun _ _ h => h

/-- What touches one container leaves the others: none of them has its id. -/
theorem Evolves.kept_others {ds : List Container} {w' : World} (evolves : Evolves [d.id] w w')
    (valid : w.Valid) (hds : ∀ d' ∈ d :: ds, d' ∈ w.containers) (hnotMem : d ∉ ds) :
    ∀ d' ∈ ds, d' ∈ w'.containers := by
  intro d' hd'
  refine evolves.kept d' (hds d' (List.mem_cons_of_mem _ hd')) fun h => ?_
  have heq := valid.eq_of_id (hds d' (List.mem_cons_of_mem _ hd')) (hds d List.mem_cons_self)
    (List.mem_singleton.mp h)
  exact hnotMem (heq ▸ hd')

/-- **Repairs touch only the containers they repair.** -/
theorem ensures_reattachDependents {ds : List Container} (valid : w.Valid) (nodup : ds.Nodup)
    (hds : ∀ d ∈ ds, d ∈ w.containers) (ownerName : String) (newOwnerId : Option String)
    (ts : TsProvider) :
    Ensures oracle.answer
      (reattachDependents ownerName newOwnerId ts (ds.map Container.name)) w fun _ _ w' =>
      Evolves (ds.map Container.id) w w' := by
  induction ds generalizing w with
  | nil => exact ensures_done (.refl valid)
  | cons d ds ih =>
      obtain ⟨hnotMem, nodup⟩ := List.nodup_cons.mp nodup
      have hd := hds d List.mem_cons_self
      have head {w' : World} (h : Evolves [d.id] w w') :
          Evolves ((d :: ds).map Container.id) w w' :=
        h.mono fun _ _ h => List.mem_cons.mpr (.inl (List.mem_singleton.mp h))
      refine ensures_bind _ (ensures_reattachOne valid hd ownerName newOwnerId ts)
        (fun _ w' h => head h) ?_
      intro _ _ w₁ evolves
      have hrest := evolves.kept_others valid hds hnotMem
      refine (ih evolves.valid nodup hrest).weaken ?_
      intro _ _ w₂ evolves'
      exact (head evolves).trans evolves' fun _ _ h => List.mem_cons_of_mem _ h

end Repair

/-! ## Rollbacks -/

/-- What a rollback leaves behind. -/
structure RollbackEnd (c n : Container) (w : World) (out : Option (Except DockerError RollbackEvent))
    (w' : World) : Prop where
  evolves : Evolves [c.id, n.id] w w'
  kept : Kept c w'
  restored : ∀ event, out = some (.ok event) →
    (⟨c.id, c.name, true⟩ : Container) ∈ w'.containers ∧ ∀ c' ∈ w'.containers, c'.id ≠ n.id

/-- An id that was issued and is gone does not come back. -/
theorem Evolves.absent {touched : List String} {w' : World} (h : Evolves touched w w')
    {id : String} (hissued : id ∈ w.issued) (habsent : ∀ c ∈ w.containers, c.id ≠ id) :
    ∀ c ∈ w'.containers, c.id ≠ id := by
  intro c hc heq
  rcases h.born c hc with ⟨c', hc', hid⟩ | hnew
  · exact habsent c' hc' (hid.trans heq)
  · exact hnew (heq ▸ hissued)

/-- The end of a rollback: the archive gets its name back and is started. -/
theorem ensures_restore {c : Container} {archive : String} (valid : w.Valid)
    (shelved : Shelved c archive w) (event : RollbackEvent) :
    Ensures oracle.answer
      (do
        renameTo .update archive c.name
        start .update c.name
        pure event : Op RollbackEvent).run w fun out _ w' =>
      Evolves [c.id] w w' ∧ Kept c w' ∧ ∀ event', out = some (.ok event') →
        (⟨c.id, c.name, true⟩ : Container) ∈ w'.containers := by
  have kept {out : Option (Except DockerError Unit)} {w' : World}
      (h : Acted ⟨c.id, archive, false⟩ (Container.named c.name) out w w') : Kept c w' := by
    obtain ⟨c', hc', hleft, -⟩ := h.left
    rcases hleft with rfl | rfl
    · exact ⟨_, hc', rfl, .inr shelved.isArchive⟩
    · exact ⟨_, hc', rfl, .inl rfl⟩
  refine ensures_except_bind _
    (ensures_renameTo valid (valid.resolve_name shelved.stopped) .update c.name) ?_ ?_ ?_
  · intro _ w₁ ⟨acted, _⟩
    exact ⟨acted.evolves, kept acted, fun _ h => by cases h⟩
  · intro e _ w₁ ⟨acted, _⟩
    exact ⟨acted.evolves, kept acted, fun _ h => by cases h⟩
  intro u _ w₁ ⟨acted, _⟩
  obtain ⟨c₁, hc₁, -, hnamed⟩ := acted.left
  obtain rfl := hnamed rfl
  have valid₁ := acted.evolves.valid
  have evolving {w₂ : World} (h : Evolves [c.id] w₁ w₂) : Evolves [c.id] w w₂ :=
    acted.evolves.trans h fun _ _ h => h
  have keptStarted {out : Option (Except DockerError Unit)} {w₂ : World}
      (h : Acted ⟨c.id, c.name, false⟩ Container.started out w₁ w₂) : Kept c w₂ := by
    obtain ⟨c', hc', hleft, -⟩ := h.left
    rcases hleft with rfl | rfl <;> exact ⟨_, hc', rfl, .inl rfl⟩
  refine ensures_except_bind _ (ensures_start valid₁ (valid₁.resolve_name hc₁) .update) ?_ ?_ ?_
  · intro _ w₂ ⟨started, _⟩
    exact ⟨evolving started.evolves, keptStarted started, fun _ h => by cases h⟩
  · intro e _ w₂ ⟨started, _⟩
    exact ⟨evolving started.evolves, keptStarted started, fun _ h => by cases h⟩
  · intro u _ w₂ ⟨started, _⟩
    refine ensures_done ⟨evolving started.evolves, keptStarted started, fun _ _ => ?_⟩
    obtain ⟨c₂, hc₂, -, hrunning⟩ := started.left
    obtain rfl := hrunning rfl
    exact hc₂

/-- **A rollback keeps the archived container, whatever fails.** When it succeeds the container
runs under its name and the replacement is gone. -/
theorem ensures_rollback {c n : Container} {archive : String} (valid : w.Valid)
    (shelved : Shelved c archive w) (hn : n ∈ w.containers) (hne : c.id ≠ n.id)
    (images : String × String) (reason : RollbackReason) :
    Ensures oracle.answer (rollback c.name n.id archive images reason).run w fun out _ w' =>
      RollbackEnd c n w out w' := by
  have hne' : c.id ∉ [n.id] := fun h => hne (List.mem_singleton.mp h)
  have ended {out : Option (Except DockerError RollbackEvent)} {w' : World}
      (evolves : Evolves [n.id] w w') (hout : ∀ event, out ≠ some (.ok event)) :
      RollbackEnd c n w out w' :=
    ⟨evolves.mono fun _ _ h => List.mem_cons_of_mem _ h, (shelved.evolves evolves hne').kept,
      fun event h => absurd h (hout event)⟩
  -- the stop, best-effort
  refine ensures_lift_bind _ (ensures_stop valid (valid.resolve_id hn) .update none none) ?_ ?_
  · intro _ w₁ ⟨acted, _⟩
    exact ended acted.evolves fun _ h => by cases h
  intro _ _ w₁ ⟨acted, _⟩
  obtain ⟨n', hn', hleft, -⟩ := acted.left
  have hid : n'.id = n.id := by rcases hleft with rfl | rfl <;> rfl
  have valid₁ := acted.evolves.valid
  have hresolve : w₁.resolve n.id = some n' := hid ▸ valid₁.resolve_id hn'
  -- the removal of the replacement
  have removing {w₂ : World} (h : Evolves [n'.id] w₁ w₂) : Evolves [n.id] w w₂ :=
    acted.evolves.trans h fun _ _ h => hid ▸ h
  refine ensures_except_bind _ (ensures_remove valid₁ hresolve .update true) ?_ ?_ ?_
  · intro _ w₂ ⟨evolves, _⟩
    exact ended (removing evolves) fun _ h => by cases h
  · intro e _ w₂ ⟨evolves, _⟩
    exact ended (removing evolves) fun _ h => by cases h
  intro u _ w₂ ⟨evolves, hgone, _⟩
  have evolves₂ := removing evolves
  have valid₂ := evolves₂.valid
  have shelved₂ := shelved.evolves evolves₂ hne'
  have hissued₂ : n.id ∈ w₂.issued := evolves₂.issued _ (valid.issued n hn)
  have hgone₂ : ∀ c' ∈ w₂.containers, c'.id ≠ n.id := fun c' hc' => hid ▸ hgone rfl c' hc'
  refine (ensures_restore valid₂ shelved₂ _).weaken ?_
  intro out _ w₃ ⟨evolves₃, kept, hrestored⟩
  refine ⟨?_, kept, ?_⟩
  · exact (evolves₂.mono fun _ _ h => List.mem_cons_of_mem _ h).trans evolves₃
      fun _ _ h => List.mem_cons.mpr (.inl (List.mem_singleton.mp h))
  · intro event hevent
    exact ⟨hrestored event hevent, evolves₃.absent hissued₂ hgone₂⟩

end Freshdock.Docker
