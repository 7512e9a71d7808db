import Freshdock.Interaction.Handler
import Freshdock.Interaction.Joined

/-!
# A world that does not change

When every call has one answer for as long as a program runs, what the program returns is read off
from the program (`steady_iff`), whenever and how often it makes its calls. Programs that are joined
then return what each of them returns by itself, whatever turns they take (`steady_joined`).
-/

set_option autoImplicit false

namespace Freshdock.Interaction

variable {C : Type} {R : C → Type} {α β ε : Type} {world : (c : C) → R c}

/-- What the program returns when a call is answered so, whenever it is made. -/
def Program.steady (world : (c : C) → R c) : Program C R α → Option α
  | .done a => some a
  | .stalled => none
  | .ask c next => (next (world c)).steady world

/-- The event shows the answer of the world, or none yet. -/
def AnsweredBy (world : (c : C) → R c) (e : Event C R) : Prop :=
  ∀ r, e.reply = some r → r = world e.call

theorem Produces.steady {p : Program C R α} {events : List (Event C R)} {a : α}
    (h : Produces p events (some a)) (fixed : ∀ e ∈ events, AnsweredBy world e) :
    p.steady world = some a := by
  induction p generalizing events with
  | done b =>
      obtain ⟨-, rfl⟩ := h.of_done
      rfl
  | stalled => cases h
  | ask c next ih =>
      cases h with
      | answered _ _ r h =>
          obtain rfl : r = world c := fixed _ List.mem_cons_self r rfl
          exact ih _ h fun e he => fixed e (List.mem_cons_of_mem _ he)

/-- **A program returns in a world what one of its observations in that world shows.** -/
theorem steady_iff {p : Program C R α} {a : α} :
    p.steady world = some a ↔
      ∃ events, Produces p events (some a) ∧ ∀ e ∈ events, AnsweredBy world e := by
  refine ⟨fun h => ?_, fun ⟨events, h, fixed⟩ => h.steady fixed⟩
  induction p with
  | done b =>
      obtain rfl : b = a := Option.some.inj h
      exact ⟨[], .done b, by simp⟩
  | stalled => cases h
  | ask c next ih =>
      obtain ⟨events, hnext, fixed⟩ := ih (world c) h
      refine ⟨⟨c, some (world c)⟩ :: events, .answered c next (world c) hnext, fun e he => ?_⟩
      rcases List.mem_cons.mp he with rfl | he
      · intro r hr
        exact (Option.some.inj hr).symm
      · exact fixed e he

@[simp] theorem steady_done (a : α) : (.done a : Program C R α).steady world = some a := rfl

@[simp] theorem steady_stalled : (.stalled : Program C R α).steady world = none := rfl

@[simp] theorem steady_request (c : C) :
    (Program.request c : Program C R (R c)).steady world = some (world c) := rfl

@[simp] theorem steady_bind (p : Program C R α) (k : α → Program C R β) :
    (p >>= k).steady world = (p.steady world).bind fun a => (k a).steady world := by
  induction p with
  | done a => rfl
  | stalled => rfl
  | ask c next ih => exact ih (world c)

@[simp] theorem steady_map (p : Program C R α) (f : α → β) :
    (f <$> p).steady world = (p.steady world).map f := by
  induction p with
  | done a => rfl
  | stalled => rfl
  | ask c next ih => exact ih (world c)

/-- All results, if none is missing. -/
def collected : List (Option α) → Option (List α)
  | [] => some []
  | none :: _ => none
  | some a :: results => (collected results).map (a :: ·)

theorem collected_some (as : List α) : collected (as.map some) = some as := by
  induction as with
  | nil => rfl
  | cons a as ih => rw [List.map_cons, collected, ih, Option.map_some]

theorem steady_inOrder (ps : List (Program C R α)) :
    (inOrder ps).steady world = collected (ps.map (Program.steady world)) := by
  induction ps with
  | nil => rfl
  | cons p ps ih =>
      rw [inOrder, steady_bind, List.map_cons]
      cases p.steady world with
      | none => rfl
      | some a =>
          rw [Option.bind_some, steady_bind, ih, collected]
          cases collected (ps.map (Program.steady world)) <;> rfl

/-- **Programs that are joined return what each returns by itself.** -/
theorem steady_joined (turns : List Nat) (ps : List (Program C R α)) :
    (joined turns ps).steady world = collected (ps.map (Program.steady world)) := by
  induction turns generalizing ps with
  | nil => exact steady_inOrder ps
  | cons turn turns ih =>
      unfold joined
      split
      · next c next hturn =>
        change (joined turns (ps.set turn (next (world c)))).steady world = _
        rw [ih, List.map_set]
        congr 1
        apply List.ext_getElem?
        intro n
        by_cases hn : turn = n
        · subst hn
          have hlt : turn < (ps.map (Program.steady world)).length := by
            rw [List.length_map]
            exact (List.getElem?_eq_some_iff.mp hturn).1
          rw [List.getElem?_set_self hlt, List.getElem?_map, hturn]
          rfl
        · rw [List.getElem?_set_ne hn]
      · exact ih ps

/-- The handler that answers so. -/
def always (world : (c : C) → R c) : Handler C R Unit := fun c s => (some (world c), s)

theorem answeredBy_always (p : Program C R α) :
    ∀ e ∈ (play (always world) p ()).trace, AnsweredBy world e :=
  play_events (fun _ _ _ hr => (Option.some.inj hr).symm) p ()

end Freshdock.Interaction
