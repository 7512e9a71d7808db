import Freshdock.Docker.FailedRepair
import Freshdock.Interaction.Asked

/-!
# Any moment of a run

A daemon may stop answering at any call. What holds at the end of every run, on every daemon,
therefore holds whenever a run asks: the state in which a call is asked is the end of a run on
the daemon that falls silent there (`at_every_call`).
-/

set_option autoImplicit false

namespace Freshdock.Docker

open Interaction Registry

/-- The daemon up to a call, from which on it answers nothing and carries out nothing. -/
def Oracle.silentFrom (oracle : Oracle) (n : Nat) : Oracle :=
  { oracle with fault := fun k => if n ≤ k then .unanswered false else oracle.fault k }

section Silence

variable {oracle : Oracle} {w : World} {n : Nat}

theorem answer_before (hbefore : w.calls < n) (call : Call) :
    (oracle.silentFrom n).answer call w = oracle.answer call w := by
  have hfault : (oracle.silentFrom n).fault w.calls = oracle.fault w.calls :=
    if_neg (by omega)
  cases call <;> simp only [Oracle.answer, hfault] <;> rfl

/-- A silent daemon is as it was. -/
theorem same_of_silent (hsilent : n ≤ w.calls) (call : Call) :
    Same w ((oracle.silentFrom n).answer call w).2 := by
  have hfault : (oracle.silentFrom n).fault w.calls = .unanswered false := if_pos hsilent
  have unperformed {α : Type} (effect : Except DockerError (α × World)) :
      Same w (perform (.unanswered false) w.tick effect).2 := by
    cases effect <;> exact .tick w
  cases call <;> simp only [Oracle.answer, reply, hfault]
  all_goals first | exact unperformed _ | exact .tick w

/-- The replies of a daemon that has fallen silent keep `promise`. -/
def SilenceKeeps (oracle : Oracle) (promise : CallEvent → Prop) : Prop :=
  ∀ n call w, n ≤ w.calls → promise ⟨call, ((oracle.silentFrom n).answer call w).1⟩

/-- A run against a daemon that has fallen silent changes nothing. -/
theorem ensures_silent {promise : CallEvent → Prop} (silence : SilenceKeeps oracle promise)
    {α : Type} (p : Prog α) (hsilent : n ≤ w.calls) :
    Ensures (oracle.silentFrom n).answer p w fun _ trace w' =>
      Same w w' ∧ ∀ e ∈ trace, promise e := by
  have emits : Emits promise (fun _ => True) p fun _ => True :=
    fun _ _ _ _ => ⟨fun _ _ => trivial, fun _ _ => trivial⟩
  refine (ensures_kept (fun s => Same w s ∧ n ≤ s.calls) ?_ ?_ emits ⟨.rfl, hsilent⟩).weaken ?_
  · intro call s ⟨_, hs⟩
    exact silence n call s hs
  · intro call s ⟨same, hs⟩ _
    refine ⟨same.trans (same_of_silent hs call), ?_⟩
    have hcalls := (answer_books (oracle.silentFrom n) call s).1
    omega
  · intro _ trace w' ⟨⟨same, _⟩, kept⟩
    exact ⟨same, fun e he => (kept e he).1⟩

/-- **The state in which a call is asked is the end of the run that gets no answer to it.** -/
theorem end_of_silent {promise : CallEvent → Prop} (silence : SilenceKeeps oracle promise)
    {α : Type} (p : Prog α) (w : World) (kept : ∀ e ∈ (play oracle.answer p w).trace, promise e)
    {q : Call × World} (hq : q ∈ asked oracle.answer p w) :
    w.calls ≤ q.2.calls ∧
      Ensures (oracle.silentFrom q.2.calls).answer p w fun _ trace w' =>
        Same q.2 w' ∧ ∀ e ∈ trace, promise e := by
  induction p generalizing w with
  | done a => cases hq
  | stalled => cases hq
  | ask call next ih =>
      have head : w.calls ≤ w.calls ∧
          Ensures (oracle.silentFrom w.calls).answer (.ask call next) w fun _ trace w' =>
            Same w w' ∧ ∀ e ∈ trace, promise e :=
        ⟨le_rfl, ensures_silent silence _ le_rfl⟩
      have hcalls := (answer_books oracle call w).1
      rw [asked] at hq
      rw [play] at kept
      rcases answer : oracle.answer call w with ⟨_ | r, w₁⟩
      · rw [answer] at hq
        obtain rfl := List.mem_singleton.mp hq
        exact head
      · rw [answer] at hq kept hcalls
        rcases List.mem_cons.mp hq with rfl | hq
        · exact head
        · obtain ⟨hle, ends⟩ := ih r w₁ (fun e he => kept e (List.mem_cons_of_mem _ he)) hq
          have hlt : w.calls < q.2.calls := by
            have hcalls : w₁.calls = w.calls + 1 := hcalls
            omega
          refine ⟨hlt.le, ?_⟩
          unfold Ensures at ends ⊢
          rw [play, answer_before hlt, answer]
          refine ⟨ends.1, fun e he => ?_⟩
          rcases List.mem_cons.mp he with rfl | he
          · exact kept _ List.mem_cons_self
          · exact ends.2 e he

/-- **What holds at the end of every run holds whenever a run asks.** -/
theorem at_every_call {promise : CallEvent → Prop} (silence : SilenceKeeps oracle promise)
    {α : Type} {p : Prog α} {inv : World → Prop} (same : ∀ s s', Same s s' → inv s' → inv s)
    (ends : ∀ oracle : Oracle, Ensures oracle.answer p w fun _ trace w' =>
      (∀ e ∈ trace, promise e) → inv w')
    (kept : ∀ e ∈ (play oracle.answer p w).trace, promise e) :
    ∀ q ∈ asked oracle.answer p w, inv q.2 := by
  intro q hq
  obtain ⟨-, hsame, hpromise⟩ := end_of_silent silence p w kept hq
  exact same _ _ hsame (ends (oracle.silentFrom q.2.calls) hpromise)

end Silence

end Freshdock.Docker
