import Freshdock.Foundation.Fallible
import Freshdock.Interaction.Program

/-!
# Programs that are joined

A program can start several others and wait for all of them. They run side by side: each of the
`turns` is one call of one of them, and what is left when the turns are over is run in order. Every
way to shuffle the calls of the programs is a choice of turns.

**What is seen.** An observation of programs that are joined is one observation for each of them,
shuffled (`Produces.of_joined`).
-/

set_option autoImplicit false

namespace Freshdock.Interaction

variable {C : Type} {R : C → Type} {α β : Type}

/-- Each program after the one before it, and what they return. -/
def inOrder : List (Program C R α) → Program C R (List α)
  | [] => pure []
  | p :: ps => do
      let a ← p
      let as ← inOrder ps
      pure (a :: as)

/-- The programs side by side. A turn of a program that makes no more calls is passed over. -/
def joined : List Nat → List (Program C R α) → Program C R (List α)
  | [], ps => inOrder ps
  | turn :: turns, ps =>
      match ps[turn]? with
      | some (.ask c next) => .ask c fun r => joined turns (ps.set turn (next r))
      | _ => joined turns ps

/-- What each of several programs was seen to do and to return, and what was seen of all of them
side by side. -/
structure Parted (ps : List (Program C R α)) (events : List (Event C R))
    (parts : List (List (Event C R) × Option α)) : Prop where
  each : List.Forall₂ (fun p part => Produces p part.1 part.2) ps parts
  whole : events.Perm (parts.flatMap Prod.fst)
  ordered : ∀ part ∈ parts, part.1.Sublist events

/-- Nothing was seen yet. -/
def unseen (ps : List (Program C R α)) : List (List (Event C R) × Option α) :=
  ps.map fun _ => ([], none)

theorem each_unseen (ps : List (Program C R α)) :
    List.Forall₂ (fun p part => Produces p part.1 part.2) ps (unseen ps) := by
  unfold unseen
  rw [List.forall₂_map_right_iff, List.forall₂_same]
  exact fun p _ => .cut p

theorem events_unseen (ps : List (Program C R α)) : (unseen ps).flatMap Prod.fst = [] := by
  simp [unseen]

theorem parted_unseen (ps : List (Program C R α)) : Parted ps [] (unseen ps) where
  each := each_unseen ps
  whole := by rw [events_unseen]
  ordered := by simp [unseen]

/-- Only one of the programs was seen. -/
theorem parted_single {front back : List (Program C R α)} {p : Program C R α}
    {events : List (Event C R)} {out : Option α} (h : Produces p events out) :
    Parted (front ++ p :: back) events (unseen front ++ (events, out) :: unseen back) where
  each := List.rel_append (each_unseen front) (.cons h (each_unseen back))
  whole := by simp [events_unseen]
  ordered := by
    intro part hpart
    rcases List.mem_append.mp hpart with hpart | hpart
    · exact ((parted_unseen front).ordered part hpart).trans (List.nil_sublist _)
    · rcases List.mem_cons.mp hpart with rfl | hpart
      · exact List.Sublist.refl _
      · exact ((parted_unseen back).ordered part hpart).trans (List.nil_sublist _)

/-- The next program is run once the one before it has returned. -/
theorem Parted.cons {p : Program C R α} {ps : List (Program C R α)} {first events : List (Event C R)}
    {a : α} {parts : List (List (Event C R) × Option α)} (h : Produces p first (some a))
    (parted : Parted ps events parts) :
    Parted (p :: ps) (first ++ events) ((first, some a) :: parts) where
  each := .cons h parted.each
  whole := by
    rw [List.flatMap_cons]
    exact parted.whole.append_left first
  ordered := by
    intro part hpart
    rcases List.mem_cons.mp hpart with rfl | hpart
    · exact List.sublist_append_left _ _
    · exact (parted.ordered part hpart).trans (List.sublist_append_right _ _)

/-- One of the programs was answered first. -/
theorem Parted.answered {front back : List (Program C R α)} {c : C} {next : R c → Program C R α}
    {r : R c} {events : List (Event C R)} {parts : List (List (Event C R) × Option α)}
    (parted : Parted (front ++ next r :: back) events parts) :
    ∃ parts', Parted (front ++ .ask c next :: back) (⟨c, some r⟩ :: events) parts' ∧
      parts'.map Prod.snd = parts.map Prod.snd := by
  obtain ⟨partsF, rest, hfront, hrest, rfl⟩ := forall₂_append_left parted.each
  obtain ⟨⟨seen, out⟩, partsB, hnext, hback, rfl⟩ := List.forall₂_cons_left_iff.mp hrest
  refine ⟨partsF ++ (⟨c, some r⟩ :: seen, out) :: partsB, ⟨?_, ?_, ?_⟩, by simp⟩
  · exact List.rel_append hfront (.cons (.answered c next r hnext) hback)
  · have whole := parted.whole
    simp only [List.flatMap_append, List.flatMap_cons, List.cons_append] at whole ⊢
    exact (whole.cons _).trans List.perm_middle.symm
  · intro part hpart
    have ordered := parted.ordered
    simp only [List.mem_append, List.mem_cons] at hpart ordered
    rcases hpart with hpart | rfl | hpart
    · exact (ordered part (.inl hpart)).cons _
    · exact (ordered (seen, out) (.inr (.inl rfl))).cons_cons _
    · exact (ordered part (.inr (.inr hpart))).cons _

theorem Produces.of_inOrder {ps : List (Program C R α)} {events : List (Event C R)}
    {out : Option (List α)} (h : Produces (inOrder ps) events out) :
    ∃ parts, Parted ps events parts ∧ ∀ as, out = some as → parts.map Prod.snd = as.map some := by
  induction ps generalizing events out with
  | nil =>
      obtain ⟨rfl, rfl | rfl⟩ := produces_done_iff.mp h
      · exact ⟨[], parted_unseen [], fun as has => by cases has; rfl⟩
      · exact ⟨[], parted_unseen [], nofun⟩
  | cons p ps ih =>
      rcases Produces.of_bind h with ⟨rfl, hp⟩ | ⟨first, a, rest, rfl, hp, hrest⟩
      · exact ⟨_, @parted_single _ _ _ [] ps p events none hp, nofun⟩
      rcases hrest.of_bind with ⟨rfl, hps⟩ | ⟨more, as, last, rfl, hps, hlast⟩
      · obtain ⟨parts, parted, -⟩ := ih hps
        exact ⟨_, parted.cons hp, nofun⟩
      · obtain ⟨parts, parted, returned⟩ := ih hps
        obtain ⟨rfl, hout⟩ := produces_done_iff.mp hlast
        rw [List.append_nil]
        refine ⟨_, parted.cons hp, fun bs hbs => ?_⟩
        rcases hout with rfl | rfl
        · cases hbs
          rw [List.map_cons, returned as rfl, List.map_cons]
        · cases hbs

/-- **An observation of programs that are joined is one of each of them.** -/
theorem Produces.of_joined {turns : List Nat} {ps : List (Program C R α)}
    {events : List (Event C R)} {out : Option (List α)} (h : Produces (joined turns ps) events out) :
    ∃ parts, Parted ps events parts ∧ ∀ as, out = some as → parts.map Prod.snd = as.map some := by
  induction turns generalizing ps events with
  | nil => exact h.of_inOrder
  | cons turn turns ih =>
      unfold joined at h
      split at h
      · next c next hturn =>
        have place := place_of_getElem? hturn
        have hlt : turn < ps.length := (List.getElem?_eq_some_iff.mp hturn).1
        cases h with
        | cut => exact ⟨_, parted_unseen ps, nofun⟩
        | unanswered =>
            rw [place]
            exact ⟨_, parted_single (.unanswered c next), nofun⟩
        | answered _ _ r h =>
            obtain ⟨parts, parted, returned⟩ := ih h
            rw [List.set_eq_take_append_cons_drop, if_pos hlt] at parted
            obtain ⟨parts', parted', same⟩ := parted.answered
            rw [place]
            exact ⟨parts', parted', fun as has => same.trans (returned as has)⟩
      · exact ih h

/-- What a program that was joined returned, and in which part of what was seen. -/
theorem Parted.returned {ps : List (Program C R α)} {events : List (Event C R)}
    {parts : List (List (Event C R) × Option α)} {as : List α} (parted : Parted ps events parts)
    (same : parts.map Prod.snd = as.map some) :
    List.Forall₂ (fun p a => ∃ part, Produces p part (some a) ∧ part.Sublist events) ps as := by
  have outs : List.Forall₂ (fun p out => ∃ part, Produces p part out ∧ part.Sublist events) ps
      (parts.map Prod.snd) := by
    rw [List.forall₂_map_right_iff]
    refine (forall₂_and_right parted.each parted.ordered).imp fun p part h => ?_
    exact ⟨part.1, h.1, h.2⟩
  rwa [same, List.forall₂_map_right_iff] at outs

end Freshdock.Interaction
