import Freshdock.Interaction.Handler
import Mathlib.Logic.Function.Basic

/-!
# Programs that run side by side

A pool is a family of programs over one set of calls. In a run of it, one of the programs makes
its next call at every moment, and the call is answered out of a state that all of them share.
`Interleaves` holds of every such run, whichever program goes next, and of every part of it.

**What one program does.** The moments of one program are an observation of it, whatever the
others do (`Interleaves.produces`). So what holds of every observation of a program holds of it
in the pool, at its place in the run (`Interleaves.guaranteed`). A program that is played to its
end while the others wait makes a run of the pool (`interleaves_moments`).

**What the state holds.** A relation between what has happened and the state is kept along a run
when every answer keeps it (`Interleaves.keeps`).
-/

set_option autoImplicit false

namespace Freshdock.Interaction

universe u

variable {ι C : Type} {R : C → Type} {σ : Type u} {α : Type}

/-- How calls are answered out of a state, and what state an answer leaves. -/
abbrev Answers (C : Type) (R : C → Type) (σ : Type u) : Type u := (c : C) → σ → R c → σ → Prop

/-- A call that was answered, the program that made it, and the state the answer left. -/
structure Moment (ι C : Type) (R : C → Type) (σ : Type u) where
  who : ι
  call : C
  reply : R call
  after : σ

def Moment.event (m : Moment ι C R σ) : Event C R := ⟨m.call, some m.reply⟩

/-- The events of one program of the pool. -/
def eventsOf [DecidableEq ι] (i : ι) (log : List (Moment ι C R σ)) : List (Event C R) :=
  log.filterMap fun m => if m.who = i then some m.event else none

/-- Is this a run from one pool and state to another? -/
inductive Interleaves [DecidableEq ι] (answers : Answers C R σ) :
    (ι → Program C R α) → σ → List (Moment ι C R σ) → (ι → Program C R α) → σ → Prop where
  | nil (pool : ι → Program C R α) (s : σ) : Interleaves answers pool s [] pool s
  | step {pool pool' : ι → Program C R α} {s s₁ s₂ : σ} {i : ι} {c : C}
      {next : R c → Program C R α} {r : R c} {log : List (Moment ι C R σ)} :
      pool i = .ask c next → answers c s r s₁ →
        Interleaves answers (Function.update pool i (next r)) s₁ log pool' s₂ →
          Interleaves answers pool s (⟨i, c, r, s₁⟩ :: log) pool' s₂

section Moments

variable [DecidableEq ι]

theorem eventsOf_append (i : ι) (log log' : List (Moment ι C R σ)) :
    eventsOf i (log ++ log') = eventsOf i log ++ eventsOf i log' :=
  List.filterMap_append

@[simp] theorem eventsOf_cons_self (m : Moment ι C R σ) (log : List (Moment ι C R σ)) :
    eventsOf m.who (m :: log) = m.event :: eventsOf m.who log := by
  simp [eventsOf]

theorem eventsOf_cons_of_ne {i : ι} {m : Moment ι C R σ} (hne : m.who ≠ i)
    (log : List (Moment ι C R σ)) : eventsOf i (m :: log) = eventsOf i log := by
  simp [eventsOf, hne]

theorem mem_eventsOf_iff {i : ι} {e : Event C R} {log : List (Moment ι C R σ)} :
    e ∈ eventsOf i log ↔ ∃ m ∈ log, m.who = i ∧ m.event = e := by
  unfold eventsOf
  simp only [List.mem_filterMap, Option.ite_none_right_eq_some, Option.some.injEq]

end Moments

section Runs

variable [DecidableEq ι] {answers : Answers C R σ} {pool pool' : ι → Program C R α} {s s' : σ}

/-- **What one program of a pool does is an observation of it.** -/
theorem Interleaves.produces {log : List (Moment ι C R σ)}
    (h : Interleaves answers pool s log pool' s') (i : ι) {rest : List (Event C R)}
    {out : Option α} (hrest : Produces (pool' i) rest out) :
    Produces (pool i) (eventsOf i log ++ rest) out := by
  induction h with
  | nil pool s => exact hrest
  | @step pool pool' s s₁ s₂ j c next r log hask _ _ ih =>
      have hi := ih hrest
      by_cases hj : j = i
      · subst hj
        rw [Function.update_self] at hi
        rw [hask, eventsOf_cons_self ⟨j, c, r, s₁⟩, List.cons_append]
        exact .answered c next r hi
      · rw [Function.update_of_ne (Ne.symm hj)] at hi
        rwa [eventsOf_cons_of_ne hj]

/-- A program of a pool that returned. -/
theorem Interleaves.returned {log : List (Moment ι C R σ)}
    (h : Interleaves answers pool s log pool' s') {i : ι} {a : α} (hdone : pool' i = .done a) :
    Produces (pool i) (eventsOf i log) (some a) := by
  have hlast : Produces (pool' i) [] (some a) := by
    rw [hdone]
    exact .done a
  have hrun := h.produces i hlast
  rwa [List.append_nil] at hrun

/-- The part of a run that comes before a moment of it. -/
theorem Interleaves.upTo {before after : List (Moment ι C R σ)}
    (h : Interleaves answers pool s (before ++ after) pool' s') :
    ∃ mid s₁, Interleaves answers pool s before mid s₁ ∧
      Interleaves answers mid s₁ after pool' s' := by
  induction before generalizing pool s with
  | nil => exact ⟨pool, s, .nil pool s, h⟩
  | cons m before ih =>
      cases h with
      | step hask hanswer hrest =>
          obtain ⟨mid, s₁, hbefore, hafter⟩ := ih hrest
          exact ⟨mid, s₁, .step hask hanswer hbefore, hafter⟩

/-- At its place in a run, a moment is an answer out of the state that the run before it left. -/
theorem Interleaves.answered {before after : List (Moment ι C R σ)} {m : Moment ι C R σ}
    (h : Interleaves answers pool s (before ++ m :: after) pool' s') :
    ∃ mid s₁, Interleaves answers pool s before mid s₁ ∧ answers m.call s₁ m.reply m.after := by
  obtain ⟨mid, s₁, hbefore, hrest⟩ := h.upTo
  cases hrest with
  | step _ hanswer _ => exact ⟨mid, s₁, hbefore, hanswer⟩

/-- **What every program guarantees of its own observations holds in the pool**, at the place of
each of its events. -/
theorem Interleaves.guaranteed {guar : ι → (Event C R → Prop) → Event C R → Prop}
    (programs : ∀ i rely, Emits rely (guar i rely) (pool i) fun _ => True)
    {before after : List (Moment ι C R σ)} {m : Moment ι C R σ}
    (h : Interleaves answers pool s (before ++ m :: after) pool' s') :
    guar m.who (fun e => e ∈ eventsOf m.who (before ++ [m])) m.event := by
  have hcut : Produces (pool m.who) (eventsOf m.who (before ++ m :: after) ++ []) none :=
    h.produces m.who (.cut _)
  rw [List.append_nil, eventsOf_append, eventsOf_cons_self] at hcut
  have hplace := emits_at_place (programs m.who) hcut rfl
  rwa [eventsOf_append, eventsOf_cons_self]

/-- **A relation between what has happened and the state is kept along a run.** -/
theorem Interleaves.keeps {kept : List (Moment ι C R σ) → σ → Prop}
    {log : List (Moment ι C R σ)} (h : Interleaves answers pool s log pool' s')
    (first : kept [] s)
    (step : ∀ past s₁ (m : Moment ι C R σ), kept past s₁ → answers m.call s₁ m.reply m.after →
      kept (past ++ [m]) m.after) : kept log s' := by
  have along : ∀ past, kept past s → kept (past ++ log) s' := by
    clear first
    induction h with
    | nil pool s =>
        intro past hpast
        rwa [List.append_nil]
    | @step pool pool' s s₁ s₂ i c next r log hask hanswer _ ih =>
        intro past hpast
        have hnext : kept (past ++ [⟨i, c, r, s₁⟩]) s₁ :=
          step past s ⟨i, c, r, s₁⟩ hpast hanswer
        rw [← List.singleton_append, ← List.append_assoc]
        exact ih _ hnext
  exact along [] first

/-- A run can be continued. -/
theorem Interleaves.append {mid : ι → Program C R α} {s₁ : σ} {log log' : List (Moment ι C R σ)}
    (h : Interleaves answers pool s log mid s₁) (h' : Interleaves answers mid s₁ log' pool' s') :
    Interleaves answers pool s (log ++ log') pool' s' := by
  induction h with
  | nil => exact h'
  | step hask hanswer _ ih => exact .step hask hanswer (ih h')

end Runs

/-! ## One program after the other -/

/-- The moments of a program that runs to its end while the others wait. -/
def moments (h : Handler C R σ) (i : ι) : Program C R α → σ → List (Moment ι C R σ)
  | .done _, _ => []
  | .stalled, _ => []
  | .ask c next, s =>
      match h c s with
      | (none, _) => []
      | (some r, s') => ⟨i, c, r, s'⟩ :: moments h i (next r) s'

theorem interleaves_moments [DecidableEq ι] {answers : Answers C R σ} {h : Handler C R σ}
    (allowed : ∀ c s r s', h c s = (some r, s') → answers c s r s') {i : ι} {a : α}
    {pool : ι → Program C R α} {p : Program C R α} {s s' : σ} (hp : pool i = p)
    (returns : Returns h p s a s') :
    Interleaves answers pool s (moments h i p s) (Function.update pool i (.done a)) s' := by
  induction p generalizing pool s with
  | done b =>
      obtain ⟨hout, hstate⟩ := returns
      obtain rfl : b = a := Option.some.inj hout
      obtain rfl : s = s' := hstate
      have hsame : Function.update pool i (.done b) = pool := by
        rw [← hp]
        exact Function.update_eq_self i pool
      rw [hsame]
      exact .nil pool s
  | stalled => cases returns.1
  | ask c next ih =>
      unfold Returns at returns
      rw [play] at returns
      rw [moments]
      rcases answer : h c s with ⟨_ | r, s₁⟩
      · rw [answer] at returns
        cases returns.1
      · rw [answer] at returns
        have hnext : Function.update pool i (next r) i = next r := Function.update_self i _ pool
        have hrest := ih r hnext returns
        rw [Function.update_idem] at hrest
        exact .step hp (allowed c s r s₁ answer) hrest

end Freshdock.Interaction
