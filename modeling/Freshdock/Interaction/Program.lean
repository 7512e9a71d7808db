import Mathlib.Data.List.Basic
import Mathlib.Logic.Basic

/-!
# Programs that talk to an environment

A program is what it asks of its environment and what it does with each answer. It is
written against a type `C` of calls and a family `R` of replies, and knows nothing of who
answers: a daemon, a registry, a clock.

**Observations.** `Produces p events out` says that `events` can be observed of a run of `p`
and that `out` is how far the run got: `some a` when it returned `a`, `none` when the
observation stopped earlier. Every environment is covered, one that fails, lies or never
answers included, because every reply is allowed at every call. What an environment promises
is a condition on the events (`rely` below), never a part of the program.

**Rules.** `Emits rely guar p post` says that against an environment that keeps `rely`, every
event of every run keeps `guar` and every returned value satisfies `post`. The rules follow
the constructors and `bind` (`emits_done`, `emits_ask`, `emits_bind`), and the same rules hold
for programs that can fail (`emits_except_bind`).

**Runs.** A handler answers calls out of a state of its own. `run` plays a program against
it, and what it records is an observation (`run_produces`). A property of the handler's state
along a run is proved by `Holds`.
-/

set_option autoImplicit false

namespace Freshdock.Interaction

universe u

/-- A program over calls `C` with replies `R`. `stalled` never returns. -/
inductive Program (C : Type) (R : C → Type) (α : Type) : Type where
  | done (value : α)
  | stalled
  | ask (call : C) (next : R call → Program C R α)

variable {C : Type} {R : C → Type} {α β γ ε : Type}

namespace Program

/-- Continue with the value a program returns. -/
def bind (p : Program C R α) (k : α → Program C R β) : Program C R β :=
  match p with
  | done a => k a
  | stalled => stalled
  | ask c next => ask c fun r => (next r).bind k

instance : Monad (Program C R) where
  pure := done
  bind := bind

/-- One call, returning its reply. -/
def request (c : C) : Program C R (R c) := ask c done

@[simp] theorem pure_def (a : α) : (pure a : Program C R α) = done a := rfl

@[simp] theorem done_bind (a : α) (k : α → Program C R β) : (done a >>= k) = k a := rfl

@[simp] theorem stalled_bind (k : α → Program C R β) : (stalled >>= k) = stalled := rfl

@[simp] theorem ask_bind (c : C) (next : R c → Program C R α) (k : α → Program C R β) :
    (ask c next >>= k) = ask c fun r => next r >>= k := rfl

@[simp] theorem request_bind (c : C) (k : R c → Program C R β) : (request c >>= k) = ask c k := rfl

theorem bind_done (p : Program C R α) : (p >>= done) = p := by
  induction p with
  | done a => rfl
  | stalled => rfl
  | ask c next ih =>
      rw [ask_bind]
      exact congrArg (ask c) (funext ih)

theorem bind_assoc (p : Program C R α) (k : α → Program C R β) (l : β → Program C R γ) :
    (p >>= k >>= l) = p >>= fun a => k a >>= l := by
  induction p with
  | done a => rfl
  | stalled => rfl
  | ask c next ih =>
      simp only [ask_bind]
      exact congrArg (ask c) (funext ih)

instance : LawfulMonad (Program C R) :=
  LawfulMonad.mk' _ bind_done (fun _ _ => rfl) bind_assoc

end Program

/-- A program that returns a value or an error. -/
abbrev Fallible (C : Type) (R : C → Type) (ε α : Type) : Type := ExceptT ε (Program C R) α

/-- A call and its reply, `none` when no answer was seen. -/
structure Event (C : Type) (R : C → Type) where
  call : C
  reply : Option (R call)

/-- Events of one call are equal in their replies. -/
theorem Event.reply_inj {c : C} {r r' : Option (R c)} (h : (⟨c, r⟩ : Event C R) = ⟨c, r'⟩) :
    r = r' :=
  eq_of_heq (Event.mk.inj h).2

/-! ## Observations -/

/-- What can be observed of a run. An observation may stop at any point (`cut`), so a
property of all observations is a property of unfinished runs too. -/
inductive Produces : Program C R α → List (Event C R) → Option α → Prop where
  | done (a : α) : Produces (.done a) [] (some a)
  | cut (p : Program C R α) : Produces p [] none
  | unanswered (c : C) (next : R c → Program C R α) : Produces (.ask c next) [⟨c, none⟩] none
  | answered (c : C) (next : R c → Program C R α) (r : R c) {events : List (Event C R)}
      {out : Option α} : Produces (next r) events out →
        Produces (.ask c next) (⟨c, some r⟩ :: events) out

/-- **A run of `p >>= k` is a run of `p` cut short, or a run of `p` to its end followed by a
run of `k`.** -/
theorem Produces.of_bind {p : Program C R α} {k : α → Program C R β}
    {events : List (Event C R)} {out : Option β} (h : Produces (p >>= k) events out) :
    (out = none ∧ Produces p events none) ∨
      ∃ first a rest, events = first ++ rest ∧ Produces p first (some a) ∧
        Produces (k a) rest out := by
  induction p generalizing events with
  | done a => exact .inr ⟨[], a, events, rfl, .done a, h⟩
  | stalled =>
      cases h with
      | cut => exact .inl ⟨rfl, .cut _⟩
  | ask c next ih =>
      rw [Program.ask_bind] at h
      cases h with
      | cut => exact .inl ⟨rfl, .cut _⟩
      | unanswered => exact .inl ⟨rfl, .unanswered c next⟩
      | answered _ _ r h =>
          rcases ih r h with ⟨hout, hp⟩ | ⟨first, a, rest, rfl, hp, hk⟩
          · exact .inl ⟨hout, .answered c next r hp⟩
          · exact .inr ⟨_, a, rest, rfl, .answered c next r hp, hk⟩

/-- A run that returns can be followed by a run of the continuation. -/
theorem Produces.bind {p : Program C R α} {k : α → Program C R β} {first rest : List (Event C R)}
    {a : α} {out : Option β} (hp : Produces p first (some a)) (hk : Produces (k a) rest out) :
    Produces (p >>= k) (first ++ rest) out := by
  induction p generalizing first with
  | done b =>
      cases hp with
      | done => exact hk
  | stalled => cases hp
  | ask c next ih =>
      cases hp with
      | answered _ _ r hp => exact .answered c _ r (ih r hp)

theorem Produces.request (c : C) (r : R c) :
    Produces (Program.request c : Program C R (R c)) [⟨c, some r⟩] (some r) :=
  .answered c _ r (.done r)

@[simp] theorem produces_done_iff {a : α} {events : List (Event C R)} {out : Option α} :
    Produces (.done a) events out ↔ events = [] ∧ (out = some a ∨ out = none) := by
  constructor
  · intro h
    cases h with
    | done => exact ⟨rfl, .inl rfl⟩
    | cut => exact ⟨rfl, .inr rfl⟩
  · rintro ⟨rfl, rfl | rfl⟩
    · exact .done a
    · exact .cut _

/-- A program that can fail either failed in its first part, or went on. -/
theorem Produces.of_except_bind {m : Fallible C R ε α} {k : α → Fallible C R ε β}
    {events : List (Event C R)} {out : Option (Except ε β)}
    (h : Produces (m >>= k).run events out) :
    (out = none ∧ Produces m.run events none) ∨
      (∃ e, (out = some (.error e) ∨ out = none) ∧ Produces m.run events (some (.error e))) ∨
        ∃ first a rest, events = first ++ rest ∧ Produces m.run first (some (.ok a)) ∧
          Produces (k a).run rest out := by
  rw [ExceptT.run_bind] at h
  rcases h.of_bind with ⟨rfl, hm⟩ | ⟨first, r, rest, rfl, hm, hk⟩
  · exact .inl ⟨rfl, hm⟩
  · cases r with
    | error e =>
        obtain ⟨rfl, hout⟩ := produces_done_iff.mp hk
        exact .inr (.inl ⟨e, hout, by simpa using hm⟩)
    | ok a => exact .inr (.inr ⟨first, a, rest, rfl, hm, hk⟩)

theorem Produces.except_bind {m : Fallible C R ε α} {k : α → Fallible C R ε β}
    {first rest : List (Event C R)} {a : α} {out : Option (Except ε β)}
    (hm : Produces m.run first (some (.ok a))) (hk : Produces (k a).run rest out) :
    Produces (m >>= k).run (first ++ rest) out := by
  rw [ExceptT.run_bind]
  exact hm.bind hk

theorem run_lift_bind (p : Program C R α) (k : α → Fallible C R ε β) :
    ((liftM p : Fallible C R ε α) >>= k).run = p >>= fun a => (k a).run := by
  rw [ExceptT.run_bind]
  simp [liftM]

theorem Produces.lift_bind {p : Program C R α} {k : α → Fallible C R ε β}
    {first rest : List (Event C R)} {a : α} {out : Option (Except ε β)}
    (hp : Produces p first (some a)) (hk : Produces (k a).run rest out) :
    Produces ((liftM p : Fallible C R ε α) >>= k).run (first ++ rest) out := by
  rw [run_lift_bind]
  exact hp.bind hk

theorem Produces.lift {p : Program C R α} {events : List (Event C R)} {a : α}
    (hp : Produces p events (some a)) :
    Produces (liftM p : Fallible C R ε α).run events (some (.ok a)) := by
  rw [← bind_pure (liftM p : Fallible C R ε α), ← List.append_nil events]
  exact hp.lift_bind (.done _)

/-! ## Runs that returned -/

theorem Produces.of_bind_some {p : Program C R α} {k : α → Program C R β}
    {events : List (Event C R)} {b : β} (h : Produces (p >>= k) events (some b)) :
    ∃ first a rest, events = first ++ rest ∧ Produces p first (some a) ∧
      Produces (k a) rest (some b) := by
  rcases h.of_bind with ⟨hnone, -⟩ | h
  · cases hnone
  · exact h

theorem Produces.of_request {c : C} {events : List (Event C R)} {r : R c}
    (h : Produces (Program.request c) events (some r)) : events = [⟨c, some r⟩] := by
  cases h with
  | answered _ _ r' h =>
      obtain ⟨rfl, hr⟩ := produces_done_iff.mp h
      rcases hr with hr | hr
      · cases hr
        rfl
      · cases hr

theorem Produces.of_done {a b : α} {events : List (Event C R)}
    (h : Produces (.done a) events (some b)) : events = [] ∧ b = a := by
  obtain ⟨hevents, hb | hb⟩ := produces_done_iff.mp h
  · cases hb
    exact ⟨hevents, rfl⟩
  · cases hb

/-- **A run that returned is determined by its replies**: of two observations that returned and
begin one sequence of events, both are the same. -/
theorem Produces.unique {p : Program C R α} {first first' rest rest' : List (Event C R)} {a a' : α}
    (h : Produces p first (some a)) (h' : Produces p first' (some a'))
    (same : first ++ rest = first' ++ rest') : first = first' ∧ a = a' ∧ rest = rest' := by
  induction p generalizing first first' with
  | done b =>
      obtain ⟨rfl, rfl⟩ := h.of_done
      obtain ⟨rfl, rfl⟩ := h'.of_done
      exact ⟨rfl, rfl, same⟩
  | stalled => cases h
  | ask c next ih =>
      cases h with
      | answered _ _ r h =>
          cases h' with
          | answered _ _ r' h' =>
              obtain ⟨hevent, hrest⟩ := List.cons.inj same
              obtain rfl := Option.some.inj (Event.reply_inj hevent)
              obtain ⟨rfl, rfl, rfl⟩ := ih r h h' hrest
              exact ⟨rfl, rfl, rfl⟩

theorem Produces.of_map {p : Program C R α} {f : α → β} {events : List (Event C R)} {b : β}
    (h : Produces (f <$> p) events (some b)) : ∃ a, b = f a ∧ Produces p events (some a) := by
  obtain ⟨first, a, rest, rfl, hp, hk⟩ := h.of_bind_some
  obtain ⟨rfl, rfl⟩ := hk.of_done
  exact ⟨a, rfl, by rwa [List.append_nil]⟩

/-- An observation of `f <$> p` is one of `p`. -/
theorem Produces.exists_of_map {p : Program C R α} {f : α → β} {events : List (Event C R)}
    {out : Option β} (h : Produces (f <$> p) events out) : ∃ out', Produces p events out' := by
  rcases h.of_bind with ⟨-, hp⟩ | ⟨first, a, rest, rfl, hp, hk⟩
  · exact ⟨none, hp⟩
  · obtain ⟨rfl, -⟩ := produces_done_iff.mp hk
    exact ⟨some a, by rwa [List.append_nil]⟩

theorem Produces.of_except_bind_ok {m : Fallible C R ε α} {k : α → Fallible C R ε β}
    {events : List (Event C R)} {b : β} (h : Produces (m >>= k).run events (some (.ok b))) :
    ∃ first a rest, events = first ++ rest ∧ Produces m.run first (some (.ok a)) ∧
      Produces (k a).run rest (some (.ok b)) := by
  rcases h.of_except_bind with ⟨hnone, -⟩ | ⟨e, herror | hnone, -⟩ | h
  · cases hnone
  · cases herror
  · cases hnone
  · exact h

theorem Produces.of_lift_bind_some {p : Program C R α} {k : α → Fallible C R ε β}
    {events : List (Event C R)} {r : Except ε β}
    (h : Produces ((liftM p : Fallible C R ε α) >>= k).run events (some r)) :
    ∃ first a rest, events = first ++ rest ∧ Produces p first (some a) ∧
      Produces (k a).run rest (some r) := by
  rw [run_lift_bind] at h
  exact h.of_bind_some

theorem Produces.of_lift_ok {p : Program C R α} {events : List (Event C R)} {a : α}
    (h : Produces (liftM p : Fallible C R ε α).run events (some (.ok a))) :
    Produces p events (some a) := by
  rw [← bind_pure (liftM p : Fallible C R ε α)] at h
  obtain ⟨first, b, rest, rfl, hp, hk⟩ := h.of_lift_bind_some
  obtain ⟨rfl, hb⟩ := Produces.of_done hk
  cases hb
  rwa [List.append_nil]

/-! ## Places in an observation -/

/-- A place in `A ++ B` is one in `A`, or one in `B` after all of `A`. -/
theorem place_of_append {A B before after : List α} {e : α}
    (h : A ++ B = before ++ e :: after) :
    (∃ after', A = before ++ e :: after') ∨
      ∃ before', before = A ++ before' ∧ B = before' ++ e :: after := by
  rcases List.append_eq_append_iff.mp h with ⟨before', rfl, hB⟩ | ⟨tail, rfl, htail⟩
  · exact .inr ⟨before', rfl, hB⟩
  · cases tail with
    | nil => exact .inr ⟨[], by simp, htail.symm⟩
    | cons e' after' =>
        obtain ⟨rfl, -⟩ := List.cons.inj htail
        exact .inl ⟨after', rfl⟩

/-- The place of the one event with a property. -/
theorem place_unique {P : α → Prop} {A B before after : List α} {x e : α}
    (h : A ++ x :: B = before ++ e :: after) (hA : ∀ a ∈ A, ¬ P a) (hB : ∀ b ∈ B, ¬ P b)
    (he : P e) : before = A ∧ e = x := by
  rcases place_of_append h with ⟨after', rfl⟩ | ⟨before', rfl, hrest⟩
  · exact absurd he (hA e (by simp))
  · cases before' with
    | nil =>
        obtain ⟨rfl, -⟩ := List.cons.inj hrest
        exact ⟨List.append_nil A, rfl⟩
    | cons b before' =>
        obtain ⟨rfl, rfl⟩ := List.cons.inj hrest
        exact absurd he (hB e (by simp))

theorem place_of_getElem? {l : List α} {n : Nat} {e : α} (h : l[n]? = some e) :
    l = l.take n ++ e :: l.drop (n + 1) := by
  obtain ⟨hn, rfl⟩ := List.getElem?_eq_some_iff.mp h
  rw [← List.drop_eq_getElem_cons hn, List.take_append_drop]

/-- What was seen up to some point of an observation is an observation. -/
theorem Produces.upTo {p : Program C R α} {first rest : List (Event C R)} {out : Option α}
    (h : Produces p (first ++ rest) out) : Produces p first none := by
  induction p generalizing first with
  | done a =>
      obtain ⟨hnil, -⟩ := produces_done_iff.mp h
      rw [(List.append_eq_nil_iff.mp hnil).1]
      exact .cut _
  | stalled =>
      cases first with
      | nil => exact .cut _
      | cons e first => cases h
  | ask c next ih =>
      cases first with
      | nil => exact .cut _
      | cons e first =>
          rw [List.cons_append] at h
          cases hrest : first ++ rest with
          | nil =>
              rw [(List.append_eq_nil_iff.mp hrest).1]
              rw [hrest] at h
              cases h with
              | unanswered => exact .unanswered c next
              | answered _ _ r h => exact .answered c next r (.cut _)
          | cons e' more =>
              rw [hrest] at h
              cases h with
              | answered _ _ r h =>
                  rw [← hrest] at h
                  exact .answered c next r (ih r h)

/-- What follows a run of the first part of a program is a run of the rest. -/
theorem Produces.after {p : Program C R α} {k : α → Program C R β} {first rest : List (Event C R)}
    {a : α} {out : Option β} (h : Produces (p >>= k) (first ++ rest) out)
    (hp : Produces p first (some a)) : Produces (k a) rest out := by
  induction p generalizing first with
  | done b =>
      obtain ⟨rfl, rfl⟩ := hp.of_done
      exact h
  | stalled => cases hp
  | ask c next ih =>
      cases hp with
      | answered _ _ r hp =>
          cases h with
          | answered _ _ _ h => exact ih r h hp

/-! ## Rely and guarantee -/

/-- Against an environment whose events keep `rely`, every event of `p` keeps `guar` and
every value it returns satisfies `post`. -/
def Emits (rely guar : Event C R → Prop) (p : Program C R α) (post : α → Prop) : Prop :=
  ∀ events out, Produces p events out → (∀ e ∈ events, rely e) →
    (∀ e ∈ events, guar e) ∧ ∀ a, out = some a → post a

section Emits

variable {rely guar : Event C R → Prop}

theorem emits_done {a : α} {post : α → Prop} (h : post a) : Emits rely guar (.done a) post := by
  intro events out produced _
  obtain ⟨rfl, hout⟩ := produces_done_iff.mp produced
  refine ⟨by simp, fun b hb => ?_⟩
  rcases hout with rfl | rfl
  · cases hb
    exact h
  · cases hb

theorem emits_stalled {post : α → Prop} : Emits rely guar (.stalled : Program C R α) post := by
  intro events out produced _
  cases produced with
  | cut => exact ⟨by simp, by simp⟩

theorem emits_ask {c : C} {next : R c → Program C R α} {post : α → Prop}
    (calls : ∀ reply, guar ⟨c, reply⟩)
    (rest : ∀ r, rely ⟨c, some r⟩ → Emits rely guar (next r) post) :
    Emits rely guar (.ask c next) post := by
  intro events out produced hrely
  cases produced with
  | cut => exact ⟨by simp, by simp⟩
  | unanswered => exact ⟨by simpa using calls none, by simp⟩
  | answered _ _ r produced =>
      have hr : rely ⟨c, some r⟩ := hrely _ List.mem_cons_self
      have hrest := rest r hr _ _ produced fun e he => hrely e (List.mem_cons_of_mem _ he)
      refine ⟨fun e he => ?_, hrest.2⟩
      rcases List.mem_cons.mp he with rfl | he
      · exact calls _
      · exact hrest.1 e he

/-- After an answer that keeps `rely`, the rest of a program keeps its guarantees. -/
theorem Emits.next {c : C} {next : R c → Program C R α} {post : α → Prop} {r : R c}
    (h : Emits rely guar (.ask c next) post) (hr : rely ⟨c, some r⟩) :
    Emits rely guar (next r) post := by
  intro events out produced hrely
  have hask := h (⟨c, some r⟩ :: events) out (.answered c next r produced) ?_
  · exact ⟨fun e he => hask.1 e (List.mem_cons_of_mem _ he), hask.2⟩
  · intro e he
    rcases List.mem_cons.mp he with rfl | he
    · exact hr
    · exact hrely e he

theorem emits_request {c : C} {post : R c → Prop} (calls : ∀ reply, guar ⟨c, reply⟩)
    (answer : ∀ r, rely ⟨c, some r⟩ → post r) :
    Emits rely guar (Program.request c : Program C R (R c)) post :=
  emits_ask calls fun r hr => emits_done (answer r hr)

theorem emits_bind {p : Program C R α} {k : α → Program C R β} {mid : α → Prop} {post : β → Prop}
    (first : Emits rely guar p mid) (rest : ∀ a, mid a → Emits rely guar (k a) post) :
    Emits rely guar (p >>= k) post := by
  intro events out produced hrely
  rcases produced.of_bind with ⟨rfl, hp⟩ | ⟨evs, a, evs', rfl, hp, hk⟩
  · exact ⟨(first _ _ hp hrely).1, by simp⟩
  · have hfirst := first _ _ hp fun e he => hrely e (List.mem_append_left _ he)
    have hrest := rest a (hfirst.2 a rfl) _ _ hk fun e he => hrely e (List.mem_append_right _ he)
    refine ⟨fun e he => ?_, hrest.2⟩
    rcases List.mem_append.mp he with he | he
    · exact hfirst.1 e he
    · exact hrest.1 e he

theorem Emits.weaken {p : Program C R α} {post post' : α → Prop} (h : Emits rely guar p post)
    (sub : ∀ a, post a → post' a) : Emits rely guar p post' := by
  intro events out produced hrely
  have hp := h events out produced hrely
  exact ⟨hp.1, fun a ha => sub a (hp.2 a ha)⟩

theorem Emits.mono {rely' guar' : Event C R → Prop} {p : Program C R α} {post : α → Prop}
    (h : Emits rely guar p post) (hrely : ∀ e, rely' e → rely e)
    (hguar : ∀ e, guar e → guar' e) : Emits rely' guar' p post := by
  intro events out produced kept
  have hp := h events out produced fun e he => hrely e (kept e he)
  exact ⟨fun e he => hguar e (hp.1 e he), hp.2⟩

/-- What is kept under every promise is kept, at its place, by what the events up to it say. -/
theorem emits_at_place {guar : (Event C R → Prop) → Event C R → Prop} {p : Program C R α}
    {post : α → Prop} (h : ∀ rely, Emits rely (guar rely) p post)
    {events before after : List (Event C R)} {e : Event C R} {out : Option α}
    (produced : Produces p events out) (hplace : events = before ++ e :: after) :
    guar (fun e' => e' ∈ before ++ [e]) e := by
  have hfirst : Produces p (before ++ [e]) none := by
    rw [hplace, ← List.singleton_append, ← List.append_assoc] at produced
    exact produced.upTo
  exact (h _ _ _ hfirst fun _ he => he).1 e (by simp)

theorem emits_map {p : Program C R α} {f : α → β} {post : β → Prop}
    (h : Emits rely guar p fun a => post (f a)) : Emits rely guar (f <$> p) post :=
  emits_bind h fun _ ha => emits_done ha

/-- A step whose error is kept, with what is known of it. -/
theorem emits_try_bind (mid : α → Prop) {m : Fallible C R ε α} {k : α → Fallible C R ε β}
    {post : Except ε β → Prop}
    (first : Emits rely guar m.run fun r => match r with
      | .ok a => mid a
      | .error e => post (.error e))
    (rest : ∀ a, mid a → Emits rely guar (k a).run post) :
    Emits rely guar (m >>= k).run post := by
  rw [ExceptT.run_bind]
  refine emits_bind first fun r hr => ?_
  cases r with
  | error e => exact emits_done hr
  | ok a => exact rest a hr

/-- The rule for `?`: an error ends the program, a value goes on. -/
theorem emits_except_bind {m : Fallible C R ε α} {k : α → Fallible C R ε β}
    {mid : α → Prop} {post : Except ε β → Prop}
    (first : Emits rely guar m.run fun r => ∀ a, r = .ok a → mid a)
    (failed : ∀ e, post (.error e)) (rest : ∀ a, mid a → Emits rely guar (k a).run post) :
    Emits rely guar (m >>= k).run post := by
  refine emits_try_bind mid (first.weaken fun r hr => ?_) rest
  cases r with
  | error e => exact failed e
  | ok a => exact hr a rfl

/-- A program that cannot fail, inside one that can. -/
theorem emits_lift_bind {p : Program C R α} {k : α → Fallible C R ε β}
    {mid : α → Prop} {post : Except ε β → Prop}
    (first : Emits rely guar p mid) (rest : ∀ a, mid a → Emits rely guar (k a).run post) :
    Emits rely guar ((liftM p : Fallible C R ε α) >>= k).run post := by
  rw [run_lift_bind]
  exact emits_bind first rest

/-- A program that cannot fail, as one that can. -/
theorem emits_lift {p : Program C R α} {post : Except ε α → Prop}
    (h : Emits rely guar p fun a => post (.ok a)) :
    Emits rely guar (liftM p : Fallible C R ε α).run post := by
  rw [← bind_pure (liftM p : Fallible C R ε α)]
  exact emits_lift_bind h fun a ha => emits_done ha

end Emits

end Freshdock.Interaction
