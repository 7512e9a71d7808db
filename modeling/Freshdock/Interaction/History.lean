import Freshdock.Interaction.Program

/-!
# What went before

A guarantee of a single event says nothing about the order of events. `After prior guar p post` says
that in every observation of `p` that follows the events `prior`, each event is warranted by all the
events before it (`Heeded`), and that what `p` returns satisfies `post` together with all the events
up to there.

**Rules.** They follow the way programs are written, as those of `Emits` do, with the history in
place of a promise: a sequence hands the history of its first part on to the second
(`after_bind`). What holds of a history and of its continuations need not be carried along
(`After.frame`).
-/

set_option autoImplicit false

namespace Freshdock.Interaction

variable {C : Type} {R : C → Type} {α β ε : Type}

/-- Each of the events is warranted by those before it, the first of which are `prior`. -/
def Heeded (guar : List (Event C R) → Event C R → Prop) :
    List (Event C R) → List (Event C R) → Prop
  | _, [] => True
  | prior, e :: events => guar prior e ∧ Heeded guar (prior ++ [e]) events

/-- What the program does after `prior`, and returns. -/
def After (prior : List (Event C R)) (guar : List (Event C R) → Event C R → Prop)
    (p : Program C R α) (post : α → List (Event C R) → Prop) : Prop :=
  ∀ events out, Produces p events out → Heeded guar prior events ∧
    ∀ a, out = some a → post a (prior ++ events)

section Heeded

variable {guar : List (Event C R) → Event C R → Prop} {prior first rest : List (Event C R)}

theorem heeded_append :
    Heeded guar prior (first ++ rest) ↔
      Heeded guar prior first ∧ Heeded guar (prior ++ first) rest := by
  induction first generalizing prior with
  | nil => simp [Heeded]
  | cons e first ih => simp [Heeded, ih, and_assoc]

/-- An event is warranted at its place. -/
theorem Heeded.place {before after : List (Event C R)} {e : Event C R}
    (h : Heeded guar prior (before ++ e :: after)) : guar (prior ++ before) e :=
  (heeded_append.mp h).2.1

/-- What every history warrants. -/
theorem heeded_of_always {events : List (Event C R)} (h : ∀ e ∈ events, ∀ log, guar log e) :
    Heeded guar prior events := by
  induction events generalizing prior with
  | nil => trivial
  | cons e events ih =>
      exact ⟨h e List.mem_cons_self prior, ih fun e' he => h e' (List.mem_cons_of_mem _ he)⟩

end Heeded

section Rules

variable {prior : List (Event C R)} {guar : List (Event C R) → Event C R → Prop}

theorem after_done {a : α} {post : α → List (Event C R) → Prop} (h : post a prior) :
    After prior guar (.done a) post := by
  intro events out produced
  obtain ⟨rfl, hout⟩ := produces_done_iff.mp produced
  refine ⟨trivial, fun b hb => ?_⟩
  rw [List.append_nil]
  rcases hout with rfl | rfl
  · cases hb
    exact h
  · cases hb

theorem after_request {c : C} {post : R c → List (Event C R) → Prop}
    (calls : ∀ reply, guar prior ⟨c, reply⟩) (answer : ∀ r, post r (prior ++ [⟨c, some r⟩])) :
    After prior guar (Program.request c : Program C R (R c)) post := by
  intro events out produced
  rcases produced with _ | _ | _ | @⟨_, _, r, events, _, produced⟩
  · exact ⟨trivial, fun _ h => by cases h⟩
  · exact ⟨⟨calls none, trivial⟩, fun _ h => by cases h⟩
  · obtain ⟨rfl, hout⟩ := produces_done_iff.mp produced
    refine ⟨⟨calls (some r), trivial⟩, fun b hb => ?_⟩
    rcases hout with rfl | rfl
    · cases hb
      exact answer r
    · cases hb

/-- **A sequence hands the history on.** -/
theorem after_bind {p : Program C R α} {k : α → Program C R β}
    {mid : α → List (Event C R) → Prop} {post : β → List (Event C R) → Prop}
    (first : After prior guar p mid) (rest : ∀ a log, mid a log → After log guar (k a) post) :
    After prior guar (p >>= k) post := by
  intro events out produced
  rcases produced.of_bind with ⟨rfl, hp⟩ | ⟨evs, a, evs', rfl, hp, hk⟩
  · exact ⟨(first _ _ hp).1, fun _ h => by cases h⟩
  · obtain ⟨heeded, hmid⟩ := first _ _ hp
    obtain ⟨heeded', hpost⟩ := rest a _ (hmid a rfl) _ _ hk
    rw [← List.append_assoc]
    exact ⟨heeded_append.mpr ⟨heeded, heeded'⟩, hpost⟩

/-- A sequence of which the first part is of no further use. -/
theorem after_seq {p : Program C R α} {k : α → Program C R β} {post : β → List (Event C R) → Prop}
    (first : After prior guar p fun _ _ => True) (rest : ∀ a log, After log guar (k a) post) :
    After prior guar (p >>= k) post :=
  after_bind first fun a log _ => rest a log

theorem After.weaken {p : Program C R α} {post post' : α → List (Event C R) → Prop}
    (h : After prior guar p post) (sub : ∀ a log, post a log → post' a log) :
    After prior guar p post' := by
  intro events out produced
  obtain ⟨heeded, hpost⟩ := h events out produced
  exact ⟨heeded, fun a ha => sub a _ (hpost a ha)⟩

/-- A guarantee that every history gives asks for nothing. -/
theorem after_free {p : Program C R α} (free : ∀ log e, guar log e) :
    After prior guar p fun _ _ => True :=
  fun _ _ _ => ⟨heeded_of_always fun e _ log => free log e, fun _ _ => trivial⟩

theorem after_map {p : Program C R α} {f : α → β} {post : β → List (Event C R) → Prop}
    (h : After prior guar p fun a log => post (f a) log) : After prior guar (f <$> p) post :=
  after_bind h fun _ _ ha => after_done ha

/-- What is known of the value of a program from its own events. -/
theorem After.knowing {p : Program C R α} {post fact : α → List (Event C R) → Prop}
    (h : After prior guar p post)
    (facts : ∀ events a, Produces p events (some a) → fact a (prior ++ events)) :
    After prior guar p fact := by
  intro events out produced
  refine ⟨(h events out produced).1, fun a ha => ?_⟩
  subst ha
  exact facts events a produced

/-- What holds of a history and of its continuations still holds after the program. -/
theorem After.frame {p : Program C R α} {post : α → List (Event C R) → Prop}
    {F : List (Event C R) → Prop} (h : After prior guar p post) (hF : F prior)
    (stable : ∀ log more, F log → F (log ++ more)) :
    After prior guar p fun a log => F log ∧ post a log := by
  intro events out produced
  obtain ⟨heeded, hpost⟩ := h events out produced
  exact ⟨heeded, fun a ha => ⟨stable _ _ hF, hpost a ha⟩⟩

/-- A step whose error is kept, with what is known of it. -/
theorem after_try_bind {m : Fallible C R ε α} {k : α → Fallible C R ε β}
    {mid : α → List (Event C R) → Prop} {post : Except ε β → List (Event C R) → Prop}
    (first : After prior guar m.run fun r log => match r with
      | .ok a => mid a log
      | .error e => post (.error e) log)
    (rest : ∀ a log, mid a log → After log guar (k a).run post) :
    After prior guar (m >>= k).run post := by
  rw [ExceptT.run_bind]
  refine after_bind first fun r log hr => ?_
  cases r with
  | error e => exact after_done hr
  | ok a => exact rest a log hr

/-- The rule for `?`: an error ends the program, a value goes on. -/
theorem after_except_bind {m : Fallible C R ε α} {k : α → Fallible C R ε β}
    {mid : α → List (Event C R) → Prop} {post : Except ε β → List (Event C R) → Prop}
    (first : After prior guar m.run fun r log => ∀ a, r = .ok a → mid a log)
    (failed : ∀ e log, post (.error e) log)
    (rest : ∀ a log, mid a log → After log guar (k a).run post) :
    After prior guar (m >>= k).run post := by
  refine after_try_bind (first.weaken fun r log hr => ?_) rest
  cases r with
  | error e => exact failed e log
  | ok a => exact hr a rfl

theorem after_except_seq {m : Fallible C R ε α} {k : α → Fallible C R ε β}
    {post : Except ε β → List (Event C R) → Prop} (first : After prior guar m.run fun _ _ => True)
    (failed : ∀ e log, post (.error e) log) (rest : ∀ a log, After log guar (k a).run post) :
    After prior guar (m >>= k).run post :=
  after_except_bind (first.weaken fun _ _ _ _ _ => trivial) failed
    fun a log (_ : True) => rest a log

/-- A program that cannot fail, inside one that can. -/
theorem after_lift_bind {p : Program C R α} {k : α → Fallible C R ε β}
    {mid : α → List (Event C R) → Prop} {post : Except ε β → List (Event C R) → Prop}
    (first : After prior guar p mid) (rest : ∀ a log, mid a log → After log guar (k a).run post) :
    After prior guar ((liftM p : Fallible C R ε α) >>= k).run post := by
  rw [run_lift_bind]
  exact after_bind first rest

theorem after_lift_seq {p : Program C R α} {k : α → Fallible C R ε β}
    {post : Except ε β → List (Event C R) → Prop} (first : After prior guar p fun _ _ => True)
    (rest : ∀ a log, After log guar (k a).run post) :
    After prior guar ((liftM p : Fallible C R ε α) >>= k).run post :=
  after_lift_bind first fun a log _ => rest a log

theorem after_lift {p : Program C R α} {post : Except ε α → List (Event C R) → Prop}
    (h : After prior guar p fun a log => post (.ok a) log) :
    After prior guar (liftM p : Fallible C R ε α).run post := by
  rw [← bind_pure (liftM p : Fallible C R ε α)]
  exact after_lift_bind h fun _ _ ha => after_done ha

end Rules

end Freshdock.Interaction
