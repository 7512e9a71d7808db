import Freshdock.Interaction.Program

/-!
# Observations laid out in tiles

`Tiled tile events` says that `events` are tiles one after the other, and `Tiles tile p` that
every observation of `p` is. A part of a program whose events belong together, such as the run
of one operation of a loop, is a tile; the rules follow the constructors, and an event of an
observation is an event of one of its tiles (`Tiled.place`).
-/

set_option autoImplicit false

namespace Freshdock.Interaction

variable {C : Type} {R : C → Type} {α β ε : Type} {tile : List (Event C R) → Prop}

/-- Tiles, one after the other. -/
inductive Tiled (tile : List (Event C R) → Prop) : List (Event C R) → Prop where
  | nil : Tiled tile []
  | cons {first rest : List (Event C R)} : tile first → Tiled tile rest → Tiled tile (first ++ rest)

theorem Tiled.single {events : List (Event C R)} (h : tile events) : Tiled tile events := by
  rw [← List.append_nil events]
  exact .cons h .nil

theorem Tiled.append {first rest : List (Event C R)} (hfirst : Tiled tile first)
    (hrest : Tiled tile rest) : Tiled tile (first ++ rest) := by
  induction hfirst with
  | nil => exact hrest
  | cons htile _ ih =>
      rw [List.append_assoc]
      exact .cons htile ih

/-- **The place of an event is a place in one tile.** -/
theorem Tiled.place {events before after : List (Event C R)} {e : Event C R}
    (h : Tiled tile events) (hplace : events = before ++ e :: after) :
    ∃ first inner last rest, before = first ++ inner ∧ after = last ++ rest ∧
      tile (inner ++ e :: last) := by
  induction h generalizing before with
  | nil => cases before <;> cases hplace
  | @cons head tail htile _ ih =>
      rcases place_of_append hplace with ⟨last, rfl⟩ | ⟨before', rfl, htail⟩
      · rw [List.append_assoc, List.cons_append] at hplace
        have hafter := (List.cons.inj (List.append_cancel_left hplace)).2
        exact ⟨[], before, last, tail, rfl, hafter.symm, htile⟩
      · obtain ⟨first, inner, last, rest, rfl, hafter, htile'⟩ := ih htail
        exact ⟨head ++ first, inner, last, rest, (List.append_assoc ..).symm, hafter, htile'⟩

/-- Every observation is laid out in tiles. -/
def Tiles (tile : List (Event C R) → Prop) (p : Program C R α) : Prop :=
  ∀ events out, Produces p events out → Tiled tile events

/-- A program whose observations are tiles themselves. -/
theorem tiles_of_tile {p : Program C R α} (h : ∀ events out, Produces p events out → tile events) :
    Tiles tile p :=
  fun events out produced => .single (h events out produced)

theorem tiles_done (a : α) : Tiles tile (.done a : Program C R α) := by
  intro events out produced
  obtain ⟨rfl, -⟩ := produces_done_iff.mp produced
  exact .nil

theorem tiles_bind {p : Program C R α} {k : α → Program C R β} (first : Tiles tile p)
    (rest : ∀ a, Tiles tile (k a)) : Tiles tile (p >>= k) := by
  intro events out produced
  rcases produced.of_bind with ⟨-, hp⟩ | ⟨evs, a, evs', rfl, hp, hk⟩
  · exact first _ _ hp
  · exact (first _ _ hp).append (rest a _ _ hk)

theorem tiles_map {p : Program C R α} {f : α → β} (h : Tiles tile p) : Tiles tile (f <$> p) :=
  tiles_bind h fun _ => tiles_done _

theorem tiles_except_bind {m : Fallible C R ε α} {k : α → Fallible C R ε β}
    (first : Tiles tile m.run) (rest : ∀ a, Tiles tile (k a).run) : Tiles tile (m >>= k).run := by
  rw [ExceptT.run_bind]
  refine tiles_bind first fun r => ?_
  cases r with
  | error e => exact tiles_done _
  | ok a => exact rest a

theorem tiles_lift_bind {p : Program C R α} {k : α → Fallible C R ε β} (first : Tiles tile p)
    (rest : ∀ a, Tiles tile (k a).run) :
    Tiles tile ((liftM p : Fallible C R ε α) >>= k).run := by
  rw [run_lift_bind]
  exact tiles_bind first rest

theorem tiles_lift {p : Program C R α} (h : Tiles tile p) :
    Tiles tile (liftM p : Fallible C R ε α).run := by
  rw [← bind_pure (liftM p : Fallible C R ε α)]
  exact tiles_lift_bind h fun _ => tiles_done _

end Freshdock.Interaction
