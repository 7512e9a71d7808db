import Freshdock.Interaction.Tiling

/-!
# Calls that are programs themselves

What is one call at one level is a program at the level below: a question to a registry is a
flow of requests, a notification is a message to every target. `inline` puts a program in the
place of every call.

**Refinement.** `Carried impl events below` says that `below` are runs of the programs that carry
out `events`, one after the other. An observation of the inlined program is an observation of the
program itself that is carried out so, with the same result, and every one of these is an
observation of the inlined program (`produces_inline_iff`). So what holds of every observation of
a program still holds when its calls are programs, and what these programs keep to is kept
wherever they run (`Carried.tiled`). A program whose calls only go under other names does what it
did (`Renames.of_inline`).
-/

set_option autoImplicit false

namespace Freshdock.Interaction

variable {C C' : Type} {R : C → Type} {R' : C' → Type} {α β : Type}

/-- Put a program in the place of every call. -/
def Program.inline (impl : (c : C) → Program C' R' (R c)) : Program C R α → Program C' R' α
  | .done a => .done a
  | .stalled => .stalled
  | .ask c next => impl c >>= fun r => (next r).inline impl

/-- Runs of the programs that carry out some events. Only the last event can be unanswered, and
its program is cut short. -/
inductive Carried (impl : (c : C) → Program C' R' (R c)) :
    List (Event C R) → List (Event C' R') → Prop where
  | nil : Carried impl [] []
  | answered {c : C} {r : R c} {events : List (Event C R)} {run below : List (Event C' R')} :
      Produces (impl c) run (some r) → Carried impl events below →
        Carried impl (⟨c, some r⟩ :: events) (run ++ below)
  | unanswered {c : C} {run : List (Event C' R')} :
      Produces (impl c) run none → Carried impl [⟨c, none⟩] run

variable {impl impl' : (c : C) → Program C' R' (R c)}

@[simp] theorem Program.inline_done (a : α) :
    (Program.done a : Program C R α).inline impl = .done a := rfl

@[simp] theorem Program.inline_ask (c : C) (next : R c → Program C R α) :
    (Program.ask c next).inline impl = impl c >>= fun r => (next r).inline impl := rfl

theorem Program.inline_request (c : C) :
    (Program.request c : Program C R (R c)).inline impl = impl c := by
  change (impl c >>= Program.done) = impl c
  exact Program.bind_done (impl c)

theorem Program.inline_bind (p : Program C R α) (k : α → Program C R β) :
    (p >>= k).inline impl = p.inline impl >>= fun a => (k a).inline impl := by
  induction p with
  | done a => rfl
  | stalled => rfl
  | ask c next ih =>
      rw [Program.ask_bind, inline_ask, inline_ask, Program.bind_assoc]
      refine congrArg (impl c >>= ·) ?_
      funext r
      exact ih r

/-- An observation that stops within the first part of a sequence. -/
theorem Produces.cut_bind {p : Program C R α} {events : List (Event C R)}
    (h : Produces p events none) (k : α → Program C R β) : Produces (p >>= k) events none := by
  induction p generalizing events with
  | done a =>
      obtain ⟨rfl, -⟩ := produces_done_iff.mp h
      exact .cut _
  | stalled =>
      cases h with
      | cut => exact .cut _
  | ask c next ih =>
      cases h with
      | cut => exact .cut _
      | unanswered => exact .unanswered c _
      | answered _ _ r h => exact .answered c _ r (ih r h)

/-- What is seen of an inlined program carries out what can be seen of the program. -/
theorem Produces.of_inline {p : Program C R α} {below : List (Event C' R')} {out : Option α}
    (h : Produces (p.inline impl) below out) :
    ∃ events, Produces p events out ∧ Carried impl events below := by
  induction p generalizing below with
  | done a =>
      obtain ⟨rfl, hout⟩ := produces_done_iff.mp h
      exact ⟨[], produces_done_iff.mpr ⟨rfl, hout⟩, .nil⟩
  | stalled =>
      cases h with
      | cut => exact ⟨[], .cut _, .nil⟩
  | ask c next ih =>
      rw [Program.inline_ask] at h
      rcases h.of_bind with ⟨rfl, hrun⟩ | ⟨run, r, rest, rfl, hrun, hrest⟩
      · exact ⟨[⟨c, none⟩], .unanswered c next, .unanswered hrun⟩
      · obtain ⟨events, hevents, carried⟩ := ih r hrest
        exact ⟨⟨c, some r⟩ :: events, .answered c next r hevents, .answered hrun carried⟩

/-- What carries out an observation is an observation of the inlined program. -/
theorem Produces.inline {p : Program C R α} {events : List (Event C R)} {out : Option α}
    (h : Produces p events out) {below : List (Event C' R')} (carried : Carried impl events below) :
    Produces (p.inline impl) below out := by
  induction h generalizing below with
  | done a =>
      cases carried
      exact .done a
  | cut p =>
      cases carried
      exact .cut _
  | unanswered c next =>
      cases carried with
      | unanswered hrun => exact hrun.cut_bind _
  | answered c next r _ ih =>
      cases carried with
      | answered hrun rest => exact hrun.bind (ih rest)

/-- **Refinement.** The observations of an inlined program are the observations of the program,
carried out. -/
theorem produces_inline_iff {p : Program C R α} {below : List (Event C' R')} {out : Option α} :
    Produces (p.inline impl) below out ↔
      ∃ events, Produces p events out ∧ Carried impl events below :=
  ⟨Produces.of_inline, fun ⟨_, h, carried⟩ => h.inline carried⟩

section Carried

variable {events : List (Event C R)} {below : List (Event C' R')}

/-- **Everything below belongs to the run of a program that carries out an event.** -/
theorem Carried.tiled (carried : Carried impl events below) :
    Tiled (fun run => ∃ e ∈ events, Produces (impl e.call) run e.reply) below := by
  have along : ∀ all, events ⊆ all →
      Tiled (fun run => ∃ e ∈ all, Produces (impl e.call) run e.reply) below := by
    induction carried with
    | nil => exact fun _ _ => .nil
    | answered hrun _ ih =>
        intro all sub
        have hrest := ih all fun e' he' => sub (List.mem_cons_of_mem _ he')
        exact .cons ⟨_, sub List.mem_cons_self, hrun⟩ hrest
    | unanswered hrun =>
        intro all sub
        exact .single ⟨_, sub List.mem_cons_self, hrun⟩
  exact along events (List.Subset.refl events)

/-- Events that other programs carry out in less: those that `keep` leaves. -/
theorem Carried.filter (carried : Carried impl events below) (keep : Event C' R' → Bool)
    (runs : ∀ c run reply, Produces (impl c) run reply → Produces (impl' c) (run.filter keep) reply) :
    Carried impl' events (below.filter keep) := by
  induction carried with
  | nil => exact .nil
  | answered hrun _ ih =>
      rw [List.filter_append]
      exact .answered (runs _ _ _ hrun) ih
  | unanswered hrun => exact .unanswered (runs _ _ _ hrun)

/-- The events below are counted by the events they carry out, `n` at most for each that is hit. -/
theorem Carried.countP_le (carried : Carried impl events below) {hit : Event C R → Bool}
    {hit' : Event C' R' → Bool} {n : Nat} (each : ∀ c run reply, Produces (impl c) run reply →
      run.countP hit' ≤ if hit ⟨c, reply⟩ then n else 0) :
    below.countP hit' ≤ n * events.countP hit := by
  induction carried with
  | nil => exact Nat.zero_le _
  | @answered c r events run below hrun _ ih =>
      have hhead := each c run _ hrun
      rw [List.countP_append, List.countP_cons, Nat.mul_add, Nat.add_comm (n * _)]
      refine Nat.add_le_add (Nat.le_trans hhead (Nat.le_of_eq ?_)) ih
      split
      · rw [Nat.mul_one]
      · rfl
  | @unanswered c run hrun =>
      have hhead := each c run _ hrun
      rw [List.countP_cons, List.countP_nil, Nat.zero_add]
      refine Nat.le_trans hhead (Nat.le_of_eq ?_)
      split
      · rw [Nat.mul_one]
      · rfl

end Carried

/-! ## Calls under another name -/

/-- An observation of one call. The answer may be seen and not returned yet. -/
theorem Produces.request_cases {c : C} {events : List (Event C R)} {out : Option (R c)}
    (h : Produces (Program.request c) events out) :
    events = [] ∧ out = none ∨ ∃ reply, events = [⟨c, reply⟩] ∧ (out = reply ∨ out = none) := by
  cases h with
  | cut => exact .inl ⟨rfl, rfl⟩
  | unanswered => exact .inr ⟨none, rfl, .inl rfl⟩
  | answered _ _ r h =>
      obtain ⟨rfl, hout⟩ := produces_done_iff.mp h
      exact .inr ⟨some r, rfl, hout⟩

theorem produces_request (c : C) (reply : Option (R c)) :
    Produces (Program.request c : Program C R (R c)) [⟨c, reply⟩] reply := by
  cases reply with
  | none => exact .unanswered c _
  | some r => exact .answered c _ r (.done r)

/-- One call for each call: the event that stands for an event. -/
def Renames (impl : (c : C) → Program C' R' (R c)) (rename : Event C R → Event C' R') : Prop :=
  ∀ c run out, Produces (impl c) run out →
    run = [] ∧ out = none ∨ ∃ reply, run = [rename ⟨c, reply⟩] ∧ (out = reply ∨ out = none)

/-- A program whose calls go under other names does the same. -/
theorem Renames.of_inline {rename : Event C R → Event C' R'} (renames : Renames impl rename)
    {p : Program C R α} {below : List (Event C' R')} {out : Option α}
    (h : Produces (p.inline impl) below out) :
    ∃ events, Produces p events out ∧ below = events.map rename := by
  induction p generalizing below with
  | done a =>
      obtain ⟨rfl, hout⟩ := produces_done_iff.mp h
      exact ⟨[], produces_done_iff.mpr ⟨rfl, hout⟩, rfl⟩
  | stalled =>
      cases h with
      | cut => exact ⟨[], .cut _, rfl⟩
  | ask c next ih =>
      rw [Program.inline_ask] at h
      rcases h.of_bind with ⟨rfl, hrun⟩ | ⟨run, r, rest, rfl, hrun, hrest⟩
      · rcases renames c _ _ hrun with ⟨rfl, -⟩ | ⟨_ | r, rfl, -⟩
        · exact ⟨[], .cut _, rfl⟩
        · exact ⟨[⟨c, none⟩], .unanswered c next, rfl⟩
        · exact ⟨[⟨c, some r⟩], .answered c next r (.cut _), rfl⟩
      · obtain ⟨events, hevents, rfl⟩ := ih r hrest
        rcases renames c _ _ hrun with ⟨-, hnone⟩ | ⟨reply, rfl, rfl | hnone⟩
        · cases hnone
        · exact ⟨⟨c, some r⟩ :: events, .answered c next r hevents, rfl⟩
        · cases hnone

theorem Produces.rename {rename : Event C R → Event C' R'}
    (runs : ∀ c reply, Produces (impl c) [rename ⟨c, reply⟩] reply) {p : Program C R α}
    {events : List (Event C R)} {out : Option α} (h : Produces p events out) :
    Produces (p.inline impl) (events.map rename) out := by
  induction h with
  | done a => exact .done a
  | cut p => exact .cut _
  | unanswered c next => exact (runs c none).cut_bind _
  | answered c next r _ ih => exact (runs c (some r)).bind ih

end Freshdock.Interaction
