import Freshdock.Interaction.Program

/-!
# Counting events

`AtMost hit n p` says that no observation of `p` has more than `n` events that `hit` holds of. The
counts of the parts of a program add up (`atMost_bind`), and a part whose events are never hit counts
nothing (`atMost_of_emits`).
-/

set_option autoImplicit false

namespace Freshdock.Interaction

variable {C : Type} {R : C → Type} {α β ε : Type}

/-- No observation of the program has more than `n` events that `hit` holds of. -/
def AtMost (hit : Event C R → Bool) (n : Nat) (p : Program C R α) : Prop :=
  ∀ events out, Produces p events out → events.countP hit ≤ n

section Rules

variable {hit : Event C R → Bool} {m n : Nat}

theorem countP_eq_zero_of_emits {guar : Event C R → Prop} {p : Program C R α} {post : α → Prop}
    (missed : ∀ e, guar e → hit e = false) (h : Emits (fun _ => True) guar p post)
    {events : List (Event C R)} {out : Option α} (produced : Produces p events out) :
    events.countP hit = 0 := by
  rw [List.countP_eq_zero]
  intro e he
  rw [missed e ((h events out produced fun _ _ => trivial).1 e he)]
  exact Bool.false_ne_true

/-- A program whose events are never hit. -/
theorem atMost_of_emits {guar : Event C R → Prop} {p : Program C R α} {post : α → Prop}
    (missed : ∀ e, guar e → hit e = false) (h : Emits (fun _ => True) guar p post) :
    AtMost hit 0 p :=
  fun _ _ produced => Nat.le_of_eq (countP_eq_zero_of_emits missed h produced)

theorem AtMost.mono {p : Program C R α} (h : AtMost hit m p) (hle : m ≤ n) : AtMost hit n p :=
  fun events out produced => Nat.le_trans (h events out produced) hle

theorem atMost_done (a : α) : AtMost hit 0 (.done a : Program C R α) := by
  intro events out produced
  rw [(produces_done_iff.mp produced).1]
  exact Nat.le_refl 0

/-- One call is one event. -/
theorem atMost_request (c : C) : AtMost hit 1 (Program.request c : Program C R (R c)) := by
  intro events out produced
  have hlength : events.length ≤ 1 := by
    cases produced with
    | cut => exact Nat.zero_le 1
    | unanswered => exact Nat.le_refl 1
    | answered _ _ r rest =>
        rw [(produces_done_iff.mp rest).1]
        exact Nat.le_refl 1
  exact Nat.le_trans List.countP_le_length hlength

/-- **The counts of the parts add up.** -/
theorem atMost_bind {p : Program C R α} {k : α → Program C R β} (first : AtMost hit m p)
    (rest : ∀ a, AtMost hit n (k a)) : AtMost hit (m + n) (p >>= k) := by
  intro events out produced
  rcases produced.of_bind with ⟨-, hp⟩ | ⟨before, a, after, rfl, hp, hk⟩
  · exact Nat.le_trans (first _ _ hp) (Nat.le_add_right m n)
  · rw [List.countP_append]
    exact Nat.add_le_add (first _ _ hp) (rest a _ _ hk)

theorem atMost_map {p : Program C R α} {f : α → β} (h : AtMost hit n p) :
    AtMost hit n (f <$> p) :=
  atMost_bind h fun a => atMost_done (f a)

/-- The counts of the parts of a program that can fail add up. -/
theorem atMost_except_bind {p : Fallible C R ε α} {k : α → Fallible C R ε β}
    (first : AtMost hit m p.run) (rest : ∀ a, AtMost hit n (k a).run) :
    AtMost hit (m + n) (p >>= k).run := by
  rw [ExceptT.run_bind]
  refine atMost_bind first fun r => ?_
  cases r with
  | error e => exact (atMost_done _).mono (Nat.zero_le n)
  | ok a => exact rest a

theorem atMost_lift_bind {p : Program C R α} {k : α → Fallible C R ε β} (first : AtMost hit m p)
    (rest : ∀ a, AtMost hit n (k a).run) :
    AtMost hit (m + n) ((liftM p : Fallible C R ε α) >>= k).run := by
  rw [run_lift_bind]
  exact atMost_bind first rest

end Rules

end Freshdock.Interaction
