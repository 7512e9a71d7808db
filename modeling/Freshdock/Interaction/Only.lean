import Freshdock.Interaction.Count

/-!
# The calls a program can make

`p.Only allowed` reads off the program that it makes no other calls than these, whatever is
answered. The calls of a sequence are the calls of its parts (`Program.Only.bind`), so the calls of a
program follow from the calls of what it is built from, and so does what an observation can show
(`Program.Only.events`, `Program.Only.atMost`).
-/

set_option autoImplicit false

namespace Freshdock.Interaction

variable {C : Type} {R : C → Type} {α β ε : Type} {allowed : C → Prop}

/-- The program makes no other calls than these. -/
def Program.Only (allowed : C → Prop) : Program C R α → Prop
  | .done _ => True
  | .stalled => True
  | .ask c next => allowed c ∧ ∀ r, (next r).Only allowed

namespace Program

@[simp] theorem only_done (a : α) : (done a : Program C R α).Only allowed := trivial

@[simp] theorem only_pure (a : α) : (pure a : Program C R α).Only allowed := trivial

@[simp] theorem only_stalled : (stalled : Program C R α).Only allowed := trivial

theorem only_request {c : C} (h : allowed c) : (request c : Program C R (R c)).Only allowed :=
  ⟨h, fun _ => trivial⟩

/-- The calls of a sequence are the calls of its parts. -/
theorem Only.bind {p : Program C R α} {k : α → Program C R β} (first : p.Only allowed)
    (rest : ∀ a, (k a).Only allowed) : (p >>= k).Only allowed := by
  induction p with
  | done a => exact rest a
  | stalled => trivial
  | ask c next ih => exact ⟨first.1, fun r => ih r (first.2 r)⟩

theorem Only.map {p : Program C R α} {f : α → β} (h : p.Only allowed) :
    (f <$> p).Only allowed :=
  h.bind fun _ => trivial

theorem Only.mono {allowed' : C → Prop} {p : Program C R α} (h : p.Only allowed)
    (weaker : ∀ c, allowed c → allowed' c) : p.Only allowed' := by
  induction p with
  | done a => trivial
  | stalled => trivial
  | ask c next ih => exact ⟨weaker c h.1, fun r => ih r (h.2 r)⟩

/-- The calls of a sequence that ends with the first failure. -/
theorem Only.except_bind {p : Fallible C R ε α} {k : α → Fallible C R ε β}
    (first : p.run.Only allowed) (rest : ∀ a, (k a).run.Only allowed) :
    (p >>= k).run.Only allowed := by
  rw [ExceptT.run_bind]
  refine first.bind fun r => ?_
  cases r with
  | error e => trivial
  | ok a => exact rest a

theorem Only.lift_bind {p : Program C R α} {k : α → Fallible C R ε β} (first : p.Only allowed)
    (rest : ∀ a, (k a).run.Only allowed) :
    ((liftM p : Fallible C R ε α) >>= k).run.Only allowed := by
  rw [run_lift_bind]
  exact first.bind rest

theorem Only.lift {p : Program C R α} (h : p.Only allowed) :
    (liftM p : Fallible C R ε α).run.Only allowed := by
  rw [← bind_pure (liftM p : Fallible C R ε α)]
  exact h.lift_bind fun _ => trivial

/-- **An observation shows no other calls.** -/
theorem Only.events {p : Program C R α} (only : p.Only allowed) {events : List (Event C R)}
    {out : Option α} (h : Produces p events out) : ∀ e ∈ events, allowed e.call := by
  induction h with
  | done a => simp
  | cut p => simp
  | unanswered c next => simpa using only.1
  | answered c next r _ ih =>
      intro e he
      rcases List.mem_cons.mp he with rfl | he
      · exact only.1
      · exact ih (only.2 r) e he

/-- A program makes none of the calls that are not its own. -/
theorem Only.atMost {p : Program C R α} (only : p.Only allowed) {hit : Event C R → Bool}
    (missed : ∀ e : Event C R, allowed e.call → hit e = false) : AtMost hit 0 p := by
  intro events out produced
  refine Nat.le_of_eq (List.countP_eq_zero.mpr fun e he => ?_)
  rw [missed e (only.events produced e he)]
  exact Bool.false_ne_true

end Program

section Emits

variable {rely guar : Event C R → Prop}

/-- A guarantee of every call that a program can make is kept by it, whatever else is known of
what it returns. -/
theorem emits_of_only {p : Program C R α} {post : α → Prop} (only : p.Only allowed)
    (calls : ∀ e : Event C R, allowed e.call → guar e)
    (facts : ∀ events a, Produces p events (some a) → (∀ e ∈ events, rely e) → post a) :
    Emits rely guar p post := by
  intro events out produced kept
  refine ⟨fun e he => calls e (only.events produced e he), fun a ha => ?_⟩
  subst ha
  exact facts events a produced kept

/-- What is known of the value of a program besides its guarantee. -/
theorem Emits.knowing {p : Program C R α} {post fact : α → Prop} (h : Emits rely guar p post)
    (facts : ∀ events a, Produces p events (some a) → (∀ e ∈ events, rely e) → fact a) :
    Emits rely guar p fact := by
  intro events out produced kept
  refine ⟨(h events out produced kept).1, fun a ha => ?_⟩
  subst ha
  exact facts events a produced kept

end Emits

end Freshdock.Interaction
