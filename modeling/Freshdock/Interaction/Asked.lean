import Freshdock.Interaction.Handler

/-!
# The states in which a run asks

`asked` lists the calls of a run, each with the handler's state when it was asked: what a call
means can depend on it. `Watches` is the logic of these lists: under a promise about the events
of a run, every call of it is asked in a state that fits the call and what the run returns.
-/

set_option autoImplicit false

namespace Freshdock.Interaction

universe u

variable {C : Type} {R : C → Type} {α β ε : Type} {σ : Type u}

/-- The calls of a run, each with the state in which it was asked. -/
def asked (h : Handler C R σ) : Program C R α → σ → List (C × σ)
  | .done _, _ => []
  | .stalled, _ => []
  | .ask c next, s =>
      match h c s with
      | (none, _) => [(c, s)]
      | (some r, s') => (c, s) :: asked h (next r) s'

variable {h : Handler C R σ}

/-- The calls asked are those of the trace. -/
theorem calls_asked (p : Program C R α) (s : σ) :
    (asked h p s).map Prod.fst = (play h p s).trace.map Event.call := by
  induction p generalizing s with
  | done a => rfl
  | stalled => rfl
  | ask c next ih =>
      rw [asked, play]
      rcases answer : h c s with ⟨_ | r, s'⟩
      · rfl
      · simp only [List.map_cons, ih]

/-- After the first part of a sequence, its second part asks, if the first returned. -/
theorem asked_bind (p : Program C R α) (k : α → Program C R β) (s : σ) :
    asked h (p >>= k) s = asked h p s ++
      match play h p s with
      | ⟨none, _, _⟩ => []
      | ⟨some a, _, s'⟩ => asked h (k a) s' := by
  induction p generalizing s with
  | done a => rfl
  | stalled => rfl
  | ask c next ih =>
      rw [Program.ask_bind, asked, asked, play]
      rcases answer : h c s with ⟨_ | r, s'⟩
      · rfl
      · simp only [ih r s', List.cons_append]
        rcases play h (next r) s' with ⟨_ | a, trace, s''⟩ <;> rfl

/-- If every event of the run of `p` from `s` keeps `promise`, every call of it is asked in a
state that is `good` for it and for what the run returns. -/
def Watches (h : Handler C R σ) (promise : Event C R → Prop) (p : Program C R α) (s : σ)
    (good : Option α → C → σ → Prop) : Prop :=
  (∀ e ∈ (play h p s).trace, promise e) →
    ∀ q ∈ asked h p s, good (play h p s).out q.1 q.2

section Watches

variable {promise : Event C R → Prop} {s : σ}

theorem watches_done (a : α) (good : Option α → C → σ → Prop) :
    Watches h promise (.done a) s good := by
  intro _ q hq
  cases hq

theorem watches_request {c : C} {good : Option (R c) → C → σ → Prop}
    (holds : ∀ reply, good reply c s) :
    Watches h promise (Program.request c : Program C R (R c)) s good := by
  intro _ q hq
  have hq : q = (c, s) := by
    unfold Program.request at hq
    rw [asked] at hq
    rcases answer : h c s with ⟨_ | r, s'⟩ <;> simpa [answer, asked] using hq
  rw [hq]
  exact holds _

theorem Watches.weaken {p : Program C R α} {good good' : Option α → C → σ → Prop}
    (watches : Watches h promise p s good) (sub : ∀ out c s', good out c s' → good' out c s') :
    Watches h promise p s good' :=
  fun kept q hq => sub _ _ _ (watches kept q hq)

/-- What is known of the result of a run is known at every call of it. -/
theorem Watches.ends {p : Program C R α} {good : Option α → C → σ → Prop}
    {post : Option α → List (Event C R) → σ → Prop} (watches : Watches h promise p s good)
    (ends : Ensures h p s post) :
    Watches h promise p s fun out c s' => good out c s' ∧ ∃ trace s'', post out trace s'' :=
  fun kept q hq => ⟨watches kept q hq, _, _, ends⟩

/-- **The rule for a sequence**: its second part starts where the first one ended, and may rely
on what the events of the first have kept. -/
theorem watches_bind {p : Program C R α} {k : α → Program C R β}
    {good : Option β → C → σ → Prop} (mid : Option α → List (Event C R) → σ → Prop)
    (first : Watches h promise p s fun _ c s' => ∀ out, good out c s')
    (ends : Ensures h p s mid)
    (rest : ∀ a trace s', mid (some a) trace s' → (∀ e ∈ trace, promise e) →
      Watches h promise (k a) s' good) :
    Watches h promise (p >>= k) s good := by
  unfold Watches Ensures at *
  rw [play_bind, asked_bind]
  rcases hrun : play h p s with ⟨_ | a, trace, s'⟩
  · rw [hrun] at first
    intro kept q hq
    rw [List.append_nil] at hq
    exact first kept q hq _
  · rw [hrun] at first ends
    intro kept q hq
    have keptFirst : ∀ e ∈ trace, promise e := fun e he => kept e (List.mem_append_left _ he)
    rcases List.mem_append.mp hq with hq | hq
    · exact first keptFirst q hq _
    · exact rest a trace s' ends keptFirst (fun e he => kept e (List.mem_append_right _ he)) q hq

theorem watches_map {p : Program C R α} {f : α → β} {good : Option β → C → σ → Prop}
    (watches : Watches h promise p s fun out c s' => good (out.map f) c s') :
    Watches h promise (f <$> p) s good := by
  intro kept q hq
  rw [play_map] at kept ⊢
  refine watches kept q ?_
  change q ∈ asked h (p >>= fun a => .done (f a)) s at hq
  rw [asked_bind] at hq
  rcases hrun : play h p s with ⟨_ | a, trace, s'⟩ <;> simpa [hrun, asked] using hq

theorem watches_except_bind {m : Fallible C R ε α} {k : α → Fallible C R ε β}
    {good : Option (Except ε β) → C → σ → Prop}
    (mid : Option (Except ε α) → List (Event C R) → σ → Prop)
    (first : Watches h promise m.run s fun _ c s' => ∀ out, good out c s')
    (ends : Ensures h m.run s mid)
    (rest : ∀ a trace s', mid (some (.ok a)) trace s' → (∀ e ∈ trace, promise e) →
      Watches h promise (k a).run s' good) :
    Watches h promise (m >>= k).run s good := by
  rw [ExceptT.run_bind]
  refine watches_bind mid first ends fun r trace s' hr kept => ?_
  cases r with
  | error e => exact watches_done _ _
  | ok a => exact rest a trace s' hr kept

theorem watches_lift_bind {p : Program C R α} {k : α → Fallible C R ε β}
    {good : Option (Except ε β) → C → σ → Prop}
    (mid : Option α → List (Event C R) → σ → Prop)
    (first : Watches h promise p s fun _ c s' => ∀ out, good out c s')
    (ends : Ensures h p s mid)
    (rest : ∀ a trace s', mid (some a) trace s' → (∀ e ∈ trace, promise e) →
      Watches h promise (k a).run s' good) :
    Watches h promise ((liftM p : Fallible C R ε α) >>= k).run s good := by
  rw [run_lift_bind]
  exact watches_bind mid first ends rest

theorem watches_lift {p : Program C R α} {good : Option (Except ε α) → C → σ → Prop}
    (watches : Watches h promise p s fun out c s' => good (out.map Except.ok) c s') :
    Watches h promise (liftM p : Fallible C R ε α).run s good :=
  watches_map watches

/-- A program that only makes calls of a kind, where those are good in every state. -/
theorem watches_of_emits {guar : Event C R → Prop} {p : Program C R α} {out : α → Prop}
    {good : Option α → C → σ → Prop} (emits : Emits (fun _ => True) guar p out)
    (holds : ∀ e : Event C R, guar e → ∀ result s', good result e.call s') :
    Watches h promise p s good := by
  intro _ q hq
  have hcall : q.1 ∈ (play h p s).trace.map Event.call := by
    rw [← calls_asked]
    exact List.mem_map_of_mem hq
  obtain ⟨e, he, hcall⟩ := List.mem_map.mp hcall
  rw [← hcall]
  exact holds e ((emits _ _ (play_produces h p s) fun _ _ => trivial).1 e he) _ _

end Watches

end Freshdock.Interaction
