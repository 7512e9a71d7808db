import Mathlib.Data.List.Chain

/-!
# Lists without immediate repetitions

A list is fresh from `last` when no element of it repeats the one before it, where `last` stands
before the first. A list and another one that is fresh from its last element are fresh together
(`FreshFrom.append`), so that freshness of a whole follows part by part.
-/

set_option autoImplicit false

namespace Freshdock.Foundation

variable {α : Type}

/-- The last element, or what stands before the list. -/
def lastFrom (last : Option α) (l : List α) : Option α := l.getLast?.or last

/-- No element repeats the one before it. -/
structure FreshFrom (last : Option α) (l : List α) : Prop where
  chain : l.IsChain (· ≠ ·)
  start : ∀ a ∈ last, ∀ b ∈ l.head?, a ≠ b

@[simp] theorem lastFrom_nil (last : Option α) : lastFrom last [] = last := rfl

@[simp] theorem lastFrom_singleton (last : Option α) (a : α) : lastFrom last [a] = some a := rfl

theorem lastFrom_append (last : Option α) (l l' : List α) :
    lastFrom last (l ++ l') = lastFrom (lastFrom last l) l' := by
  simp only [lastFrom, List.getLast?_append, Option.or_assoc]

theorem freshFrom_nil (last : Option α) : FreshFrom last [] :=
  ⟨.nil, fun _ _ => nofun⟩

theorem freshFrom_singleton {last : Option α} {a : α} (h : last ≠ some a) : FreshFrom last [a] where
  chain := .singleton a
  start b hb c hc := by
    obtain rfl := Option.some.inj hc
    rintro rfl
    exact h hb

/-- **Fresh parts make a fresh whole.** -/
theorem FreshFrom.append {last : Option α} {l l' : List α} (first : FreshFrom last l)
    (rest : FreshFrom (lastFrom last l) l') : FreshFrom last (l ++ l') where
  chain := by
    refine first.chain.append rest.chain fun a ha b hb => rest.start a ?_ b hb
    have hlast : l.getLast? = some a := ha
    rw [lastFrom, hlast]
    rfl
  start a ha b hb := by
    cases l with
    | nil => exact rest.start a ha b hb
    | cons c l => exact first.start a ha b hb

/-- The parts of a fresh whole are fresh. -/
theorem FreshFrom.left {last : Option α} {l l' : List α} (h : FreshFrom last (l ++ l')) :
    FreshFrom last l where
  chain := h.chain.left_of_append
  start a ha b hb := by
    cases l with
    | nil => cases hb
    | cons c l => exact h.start a ha b hb

end Freshdock.Foundation
