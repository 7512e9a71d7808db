import Freshdock.Interaction.Program

/-!
# Playing a program against a handler

A handler answers each call out of a state of its own, or never answers it. `play` runs a
program against a handler and records every call with its reply; what it records is one of
the observations of the program (`play_produces`).

`Ensures` is the logic of such runs: a predicate on what a run returned, what it recorded and
the state it left, with the rules of the constructors and of `bind`. What is known of a program
against every environment carries over to its runs (`ensures_of_emits`).
-/

set_option autoImplicit false

namespace Freshdock.Interaction

universe u

variable {C : Type} {R : C → Type} {α β ε : Type} {σ : Type u}

/-- Answers calls out of a state. `none` is a call that is never answered. -/
abbrev Handler (C : Type) (R : C → Type) (σ : Type u) : Type u := (c : C) → σ → Option (R c) × σ

/-- A finished or interrupted run: how far it got, what was observed, the final state. -/
structure Run (C : Type) (R : C → Type) (σ : Type u) (α : Type) where
  out : Option α
  trace : List (Event C R)
  state : σ

/-- Run a program against a handler. -/
def play (h : Handler C R σ) : Program C R α → σ → Run C R σ α
  | .done a, s => ⟨some a, [], s⟩
  | .stalled, s => ⟨none, [], s⟩
  | .ask c next, s =>
      match h c s with
      | (none, s') => ⟨none, [⟨c, none⟩], s'⟩
      | (some r, s') =>
          let run := play h (next r) s'
          ⟨run.out, ⟨c, some r⟩ :: run.trace, run.state⟩

variable {h : Handler C R σ}

@[simp] theorem play_done (a : α) (s : σ) : play h (.done a) s = ⟨some a, [], s⟩ := rfl

/-- What a run records can be observed. -/
theorem play_produces (h : Handler C R σ) (p : Program C R α) (s : σ) :
    Produces p (play h p s).trace (play h p s).out := by
  induction p generalizing s with
  | done a => exact .done a
  | stalled => exact .cut _
  | ask c next ih =>
      rw [play]
      rcases answer : h c s with ⟨_ | r, s'⟩
      · exact .unanswered c next
      · exact .answered c next r (ih r s')

/-- What a handler promises of every answer holds of every event of its runs. -/
theorem play_events {good : Event C R → Prop} (promise : ∀ c s, good ⟨c, (h c s).1⟩)
    (p : Program C R α) (s : σ) : ∀ e ∈ (play h p s).trace, good e := by
  induction p generalizing s with
  | done a => simp
  | stalled => simp [play]
  | ask c next ih =>
      have hc := promise c s
      rw [play]
      rcases answer : h c s with ⟨_ | r, s'⟩
      · rw [answer] at hc
        simpa using hc
      · rw [answer] at hc
        simpa using ⟨hc, ih r s'⟩

/-- A run of `p >>= k` is a run of `p`, then a run of `k` from the state `p` left. -/
theorem play_bind (p : Program C R α) (k : α → Program C R β) (s : σ) :
    play h (p >>= k) s =
      match play h p s with
      | ⟨none, trace, s'⟩ => ⟨none, trace, s'⟩
      | ⟨some a, trace, s'⟩ =>
          ⟨(play h (k a) s').out, trace ++ (play h (k a) s').trace, (play h (k a) s').state⟩ := by
  induction p generalizing s with
  | done a => rfl
  | stalled => rfl
  | ask c next ih =>
      rw [Program.ask_bind, play, play]
      rcases answer : h c s with ⟨_ | r, s'⟩
      · rfl
      · simp only [ih r s']
        rcases play h (next r) s' with ⟨_ | a, trace, s''⟩ <;> rfl

/-! ## Runs that return -/

/-- The run of `p` from `s` returns `a` and leaves `s'`. -/
def Returns (h : Handler C R σ) (p : Program C R α) (s : σ) (a : α) (s' : σ) : Prop :=
  (play h p s).out = some a ∧ (play h p s).state = s'

section Returns

variable {s s₁ s₂ : σ}

theorem returns_done (a : α) : Returns h (.done a) s a s := ⟨rfl, rfl⟩

theorem returns_ask {c : C} {next : R c → Program C R α} {r : R c} {a : α}
    (answer : h c s = (some r, s₁)) (rest : Returns h (next r) s₁ a s₂) :
    Returns h (.ask c next) s a s₂ := by
  unfold Returns
  rw [play, answer]
  exact rest

theorem returns_request {c : C} {r : R c} (answer : h c s = (some r, s₁)) :
    Returns h (Program.request c : Program C R (R c)) s r s₁ :=
  returns_ask answer (returns_done r)

/-- After a first part that returned, a sequence runs as its second part. -/
theorem returns_bind_iff {p : Program C R α} {k : α → Program C R β} {a : α} {b : β}
    (first : Returns h p s a s₁) :
    Returns h (p >>= k) s b s₂ ↔ Returns h (k a) s₁ b s₂ := by
  obtain ⟨hout, hstate⟩ := first
  unfold Returns
  rw [play_bind]
  rcases hrun : play h p s with ⟨out, trace, s'⟩
  rw [hrun] at hout hstate
  cases hout
  cases hstate
  exact Iff.rfl

theorem returns_bind {p : Program C R α} {k : α → Program C R β} {a : α} {b : β}
    (first : Returns h p s a s₁) (rest : Returns h (k a) s₁ b s₂) :
    Returns h (p >>= k) s b s₂ :=
  (returns_bind_iff first).mpr rest

theorem Returns.unique {p : Program C R α} {a a' : α} (first : Returns h p s a s₁)
    (second : Returns h p s a' s₂) : a = a' ∧ s₁ = s₂ :=
  ⟨Option.some.inj (first.1.symm.trans second.1), first.2.symm.trans second.2⟩

/-- What follows a run that returned is seen after it. -/
theorem trace_bind {p : Program C R α} {k : α → Program C R β} {a : α} (first : Returns h p s a s₁) :
    (play h (p >>= k) s).trace = (play h p s).trace ++ (play h (k a) s₁).trace := by
  obtain ⟨hout, hstate⟩ := first
  rw [play_bind]
  rcases hrun : play h p s with ⟨out, trace, s'⟩
  rw [hrun] at hout hstate
  cases hout
  cases hstate
  rfl

/-- What is seen of a sequence: its first part alone, or that and the second part. -/
theorem trace_bind_cases (p : Program C R α) (k : α → Program C R β) (s : σ) :
    (play h (p >>= k) s).trace = (play h p s).trace ∨
      ∃ a s₁, Returns h p s a s₁ ∧
        (play h (p >>= k) s).trace = (play h p s).trace ++ (play h (k a) s₁).trace := by
  cases hout : (play h p s).out with
  | none =>
      refine .inl ?_
      rw [play_bind]
      rcases hrun : play h p s with ⟨out, trace, s'⟩
      rw [hrun] at hout
      cases hout
      rfl
  | some a => exact .inr ⟨a, _, ⟨hout, rfl⟩, trace_bind ⟨hout, rfl⟩⟩

theorem returns_map {p : Program C R α} {f : α → β} {a : α} (first : Returns h p s a s₁) :
    Returns h (f <$> p) s (f a) s₁ :=
  returns_bind first (returns_done (f a))

theorem returns_except_bind {m : Fallible C R ε α} {k : α → Fallible C R ε β} {a : α}
    {r : Except ε β} (first : Returns h m.run s (.ok a) s₁) (rest : Returns h (k a).run s₁ r s₂) :
    Returns h (m >>= k).run s r s₂ := by
  rw [ExceptT.run_bind]
  exact returns_bind first rest

theorem returns_lift_bind {p : Program C R α} {k : α → Fallible C R ε β} {a : α}
    {r : Except ε β} (first : Returns h p s a s₁) (rest : Returns h (k a).run s₁ r s₂) :
    Returns h ((liftM p : Fallible C R ε α) >>= k).run s r s₂ := by
  rw [run_lift_bind]
  exact returns_bind first rest

theorem returns_lift {p : Program C R α} {a : α} (first : Returns h p s a s₁) :
    Returns h (liftM p : Fallible C R ε α).run s (.ok a) s₁ := by
  rw [← bind_pure (liftM p : Fallible C R ε α)]
  exact returns_lift_bind first (returns_done _)

end Returns

/-- Applying a function to what a program returns changes nothing else of a run. -/
theorem play_map (p : Program C R α) (f : α → β) (s : σ) :
    play h (f <$> p) s =
      ⟨(play h p s).out.map f, (play h p s).trace, (play h p s).state⟩ := by
  change play h (p >>= fun a => .done (f a)) s = _
  rw [play_bind]
  rcases play h p s with ⟨_ | a, trace, s'⟩
  · rfl
  · simp

/-! ## The logic of runs -/

/-- The run of `p` from `s` ends with a value (`none` when it does not return), a trace and a
state that satisfy `post`. -/
def Ensures (h : Handler C R σ) (p : Program C R α) (s : σ)
    (post : Option α → List (Event C R) → σ → Prop) : Prop :=
  post (play h p s).out (play h p s).trace (play h p s).state

section Ensures

theorem ensures_done {a : α} {s : σ} {post : Option α → List (Event C R) → σ → Prop}
    (holds : post (some a) [] s) : Ensures h (.done a) s post := holds

theorem ensures_request {c : C} {s : σ} {post : Option (R c) → List (Event C R) → σ → Prop}
    (holds : post (h c s).1 [⟨c, (h c s).1⟩] (h c s).2) :
    Ensures h (Program.request c : Program C R (R c)) s post := by
  unfold Ensures Program.request
  rw [play]
  rcases answer : h c s with ⟨_ | r, s'⟩
  · rw [answer] at holds
    exact holds
  · rw [answer] at holds
    exact holds

theorem Ensures.weaken {p : Program C R α} {s : σ}
    {post post' : Option α → List (Event C R) → σ → Prop} (holds : Ensures h p s post)
    (sub : ∀ out trace s', post out trace s' → post' out trace s') : Ensures h p s post' :=
  sub _ _ _ holds

/-- What a run records is an observation of its program. -/
theorem ensures_produces (p : Program C R α) (s : σ) :
    Ensures h p s fun out trace _ => Produces p trace out :=
  play_produces h p s

theorem Ensures.and {p : Program C R α} {s : σ}
    {post post' : Option α → List (Event C R) → σ → Prop} (first : Ensures h p s post)
    (second : Ensures h p s post') :
    Ensures h p s fun out trace s' => post out trace s' ∧ post' out trace s' :=
  ⟨first, second⟩

theorem ensures_bind {p : Program C R α} {k : α → Program C R β} {s : σ}
    (mid : Option α → List (Event C R) → σ → Prop)
    {post : Option β → List (Event C R) → σ → Prop} (first : Ensures h p s mid)
    (stuck : ∀ trace s', mid none trace s' → post none trace s')
    (rest : ∀ a trace s', mid (some a) trace s' →
      Ensures h (k a) s' fun out more s'' => post out (trace ++ more) s'') :
    Ensures h (p >>= k) s post := by
  unfold Ensures at first ⊢
  rw [play_bind]
  rcases hrun : play h p s with ⟨_ | a, trace, s'⟩
  · rw [hrun] at first
    exact stuck trace s' first
  · rw [hrun] at first
    exact rest a trace s' first

theorem ensures_map {p : Program C R α} {f : α → β} {s : σ}
    {post : Option β → List (Event C R) → σ → Prop}
    (holds : Ensures h p s fun out trace s' => post (out.map f) trace s') :
    Ensures h (f <$> p) s post := by
  unfold Ensures at holds ⊢
  rw [play_map]
  exact holds

theorem ensures_except_bind {m : Fallible C R ε α} {k : α → Fallible C R ε β} {s : σ}
    (mid : Option (Except ε α) → List (Event C R) → σ → Prop)
    {post : Option (Except ε β) → List (Event C R) → σ → Prop} (first : Ensures h m.run s mid)
    (stuck : ∀ trace s', mid none trace s' → post none trace s')
    (failed : ∀ e trace s', mid (some (.error e)) trace s' → post (some (.error e)) trace s')
    (rest : ∀ a trace s', mid (some (.ok a)) trace s' →
      Ensures h (k a).run s' fun out more s'' => post out (trace ++ more) s'') :
    Ensures h (m >>= k).run s post := by
  rw [ExceptT.run_bind]
  refine ensures_bind mid first stuck ?_
  intro r trace s' hr
  cases r with
  | error e =>
      refine ensures_done ?_
      rw [List.append_nil]
      exact failed e trace s' hr
  | ok a => exact rest a trace s' hr

theorem ensures_lift_bind {p : Program C R α} {k : α → Fallible C R ε β} {s : σ}
    (mid : Option α → List (Event C R) → σ → Prop)
    {post : Option (Except ε β) → List (Event C R) → σ → Prop} (first : Ensures h p s mid)
    (stuck : ∀ trace s', mid none trace s' → post none trace s')
    (rest : ∀ a trace s', mid (some a) trace s' →
      Ensures h (k a).run s' fun out more s'' => post out (trace ++ more) s'') :
    Ensures h ((liftM p : Fallible C R ε α) >>= k).run s post := by
  rw [run_lift_bind]
  exact ensures_bind mid first stuck rest

theorem ensures_lift {p : Program C R α} {s : σ}
    {post : Option (Except ε α) → List (Event C R) → σ → Prop}
    (holds : Ensures h p s fun out trace s' => post (out.map Except.ok) trace s') :
    Ensures h (liftM p : Fallible C R ε α).run s post :=
  ensures_map holds

/-- When every answer out of a state that satisfies `inv` keeps `rely`, and every event that
keeps `guar` leaves such a state, all events of a run keep both and the run stays in `inv`. -/
theorem ensures_kept {rely guar : Event C R → Prop} {p : Program C R α} {out : α → Prop}
    (inv : σ → Prop) (answers : ∀ c s, inv s → rely ⟨c, (h c s).1⟩)
    (keeps : ∀ c s, inv s → guar ⟨c, (h c s).1⟩ → inv (h c s).2)
    (emits : Emits rely guar p out) {s : σ} (hs : inv s) :
    Ensures h p s fun _ trace s' => inv s' ∧ ∀ e ∈ trace, rely e ∧ guar e := by
  induction p generalizing s with
  | done a => exact ⟨hs, by simp [play]⟩
  | stalled => exact ⟨hs, by simp [play]⟩
  | ask c next ih =>
      have hrely := answers c s hs
      unfold Ensures
      rw [play]
      rcases answer : h c s with ⟨_ | r, s'⟩
      · rw [answer] at hrely
        have hguar := (emits [⟨c, none⟩] none (.unanswered c next) (by simpa using hrely)).1
        have hinv := keeps c s hs (by rw [answer]; exact hguar _ List.mem_cons_self)
        rw [answer] at hinv
        refine ⟨hinv, fun e he => ?_⟩
        obtain rfl := List.mem_singleton.mp he
        exact ⟨hrely, hguar _ List.mem_cons_self⟩
      · rw [answer] at hrely
        have hguar := (emits [⟨c, some r⟩] none (.answered c next r (.cut _))
          (by simpa using hrely)).1
        have hinv := keeps c s hs (by rw [answer]; exact hguar _ List.mem_cons_self)
        rw [answer] at hinv
        obtain ⟨hstate, htrace⟩ := ih r (emits.next hrely) hinv
        refine ⟨hstate, fun e he => ?_⟩
        rcases List.mem_cons.mp he with rfl | he
        · exact ⟨hrely, hguar _ List.mem_cons_self⟩
        · exact htrace e he

/-- **From rely and guarantee to runs.** When every answer out of a state that satisfies `inv`
keeps `rely`, and every event that keeps `guar` leaves such a state, a program's guarantees
hold of its runs, and so does `inv`. -/
theorem ensures_of_emits {rely guar : Event C R → Prop} {p : Program C R α} {out : α → Prop}
    (inv : σ → Prop) (answers : ∀ c s, inv s → rely ⟨c, (h c s).1⟩)
    (keeps : ∀ c s, inv s → guar ⟨c, (h c s).1⟩ → inv (h c s).2)
    (emits : Emits rely guar p out) {s : σ} (hs : inv s) :
    Ensures h p s fun result trace s' =>
      inv s' ∧ (∀ e ∈ trace, guar e) ∧ ∀ a, result = some a → out a := by
  refine ((ensures_kept inv answers keeps emits hs).and (ensures_produces p s)).weaken ?_
  intro result trace s' ⟨⟨hinv, htrace⟩, produced⟩
  refine ⟨hinv, fun e he => (htrace e he).2, ?_⟩
  exact (emits trace result produced fun e he => (htrace e he).1).2

end Ensures

end Freshdock.Interaction
