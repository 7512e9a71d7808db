import Mathlib.Data.List.Forall2

/-!
# Computations that may fail

A sequence of computations succeeds when each of them does. `bind_ok` takes one step of such a
sequence apart, `foldlM_eq_ok_iff` a loop that reads one element after the other and collects
what it has read.
-/

set_option autoImplicit false

namespace Freshdock

section Fallible

variable {ε α β γ : Type}

theorem bind_ok {x : Except ε α} {f : α → Except ε β} {b : β} (h : (x >>= f) = .ok b) :
    ∃ a, x = .ok a ∧ f a = .ok b := by
  cases x with
  | error e => cases h
  | ok a => exact ⟨a, rfl, h⟩

theorem map_eq_ok_iff {x : Except ε α} {f : α → β} {b : β} :
    x.map f = .ok b ↔ ∃ a, x = .ok a ∧ f a = b := by
  cases x with
  | error e => exact ⟨nofun, fun ⟨_, h, _⟩ => by cases h⟩
  | ok a => simp [Except.map]

/-- A step after which the rest succeeds in the same cases, whatever the step gave. -/
theorem bind_succeeds_iff {x : Except ε α} {f : α → Except ε β} {Q : Prop}
    (rest : ∀ a, (∃ b, f a = .ok b) ↔ Q) :
    (∃ b, (x >>= f) = .ok b) ↔ (∃ a, x = .ok a) ∧ Q := by
  constructor
  · rintro ⟨b, h⟩
    obtain ⟨a, ha, hb⟩ := bind_ok h
    exact ⟨⟨a, ha⟩, (rest a).mp ⟨b, hb⟩⟩
  · rintro ⟨⟨a, rfl⟩, hQ⟩
    exact (rest a).mpr hQ

theorem toOption_eq_none_iff {x : Except ε α} : x.toOption = none ↔ ¬ ∃ a, x = .ok a := by
  cases x with
  | error e => simp [Except.toOption]
  | ok a => simp [Except.toOption]

theorem toOption_eq_some_iff {x : Except ε α} {a : α} : x.toOption = some a ↔ x = .ok a := by
  cases x with
  | error e => exact ⟨nofun, nofun⟩
  | ok b => simp [Except.toOption]

/-- **A loop that reads its elements succeeds when all of them can be read**, and has then
collected what was read, in order. -/
theorem foldlM_eq_ok_iff {read : α → Except ε γ} {collect : β → γ → β} {xs : List α} {b b' : β} :
    xs.foldlM (fun b x => (read x).map (collect b)) b = .ok b' ↔
      ∃ ys, List.Forall₂ (fun x y => read x = .ok y) xs ys ∧ b' = ys.foldl collect b := by
  induction xs generalizing b with
  | nil =>
      simp only [List.foldlM_nil, List.forall₂_nil_left_iff, exists_eq_left, List.foldl_nil]
      exact ⟨fun h => (Except.ok.inj h).symm, fun h => congrArg Except.ok h.symm⟩
  | cons x xs ih =>
      rw [List.foldlM_cons]
      constructor
      · intro h
        obtain ⟨first, hfirst, h⟩ := bind_ok h
        obtain ⟨y, hy, rfl⟩ := map_eq_ok_iff.mp hfirst
        obtain ⟨ys, hys, rfl⟩ := ih.mp h
        exact ⟨y :: ys, .cons hy hys, rfl⟩
      · rintro ⟨ys, hys, rfl⟩
        cases hys with
        | cons hy hys =>
            rw [hy]
            exact ih.mpr ⟨_, hys, rfl⟩

end Fallible

/-! ## Lists related element by element -/

section Related

variable {α β : Type} {R : α → β → Prop} {xs : List α} {ys : List β}

theorem exists_of_mem_left (h : List.Forall₂ R xs ys) {x : α} (hx : x ∈ xs) : ∃ y ∈ ys, R x y := by
  induction h with
  | nil => cases hx
  | cons hfirst _ ih =>
      rcases List.mem_cons.mp hx with rfl | hx
      · exact ⟨_, List.mem_cons_self, hfirst⟩
      · obtain ⟨y, hy, hxy⟩ := ih hx
        exact ⟨y, List.mem_cons_of_mem _ hy, hxy⟩

theorem exists_of_mem_right (h : List.Forall₂ R xs ys) {y : β} (hy : y ∈ ys) :
    ∃ x ∈ xs, R x y :=
  exists_of_mem_left h.flip hy

theorem forall₂_and_right {P : β → Prop} (h : List.Forall₂ R xs ys) (hys : ∀ y ∈ ys, P y) :
    List.Forall₂ (fun x y => R x y ∧ P y) xs ys := by
  induction h with
  | nil => exact .nil
  | cons hfirst _ ih =>
      exact .cons ⟨hfirst, hys _ List.mem_cons_self⟩
        (ih fun y hy => hys y (List.mem_cons_of_mem _ hy))

theorem forall₂_append_left {xs' : List α} {zs : List β} (h : List.Forall₂ R (xs ++ xs') zs) :
    ∃ ys ys', List.Forall₂ R xs ys ∧ List.Forall₂ R xs' ys' ∧ zs = ys ++ ys' := by
  induction xs generalizing zs with
  | nil => exact ⟨[], zs, .nil, h, rfl⟩
  | cons x xs ih =>
      cases h with
      | cons hfirst hrest =>
          obtain ⟨ys, ys', hxs, hxs', rfl⟩ := ih hrest
          exact ⟨_ :: ys, ys', .cons hfirst hxs, hxs', rfl⟩

end Related

end Freshdock
