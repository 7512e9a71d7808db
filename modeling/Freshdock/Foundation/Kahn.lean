import Mathlib.Data.List.Dedup
import Mathlib.Data.List.Sort
import Mathlib.Data.Fintype.Card
import Mathlib.Data.Set.Finite.List
import Mathlib.Logic.Relation

/-!
# Kahn's algorithm in rounds

A list of nodes is ordered so that a node comes after what it depends on. Each round takes
every pending node that waits on no pending node, in increasing order, and forgets it among
the others' dependencies. When no pending node is free, the rest is a tangle of cycles and is
appended in increasing order.

The order lists every node once (`mem_order`, `nodup_order`). A node comes after a dependency
that is not caught in a cycle: being accessible under the dependency relation suffices
(`order_precedes`), and reaching no cycle is the same thing on finitely many nodes
(`acc_of_no_cycle`).
-/

set_option autoImplicit false

namespace Freshdock.Kahn

universe u

variable {α : Type u} [LinearOrder α]

/-- In increasing order. -/
def ascending (l : List α) : List α := l.insertionSort (· ≤ ·)

@[simp] theorem mem_ascending {x : α} {l : List α} : x ∈ ascending l ↔ x ∈ l :=
  List.mem_insertionSort _

theorem nodup_ascending {l : List α} (h : l.Nodup) : (ascending l).Nodup :=
  (List.perm_insertionSort _ l).nodup_iff.mpr h

/-- The pending nodes that wait on nothing. -/
def ready (pending : List (α × List α)) : List α :=
  (pending.filter fun entry => entry.2.isEmpty).map Prod.fst

/-- The pending nodes without `done`, which nobody waits on any more. -/
def settle (done : List α) (pending : List (α × List α)) : List (α × List α) :=
  (pending.filter fun entry => entry.1 ∉ done).map fun entry =>
    (entry.1, entry.2.filter fun d => d ∉ done)

/-- At most `rounds` rounds over the pending nodes. -/
def drain : Nat → List (α × List α) → List α
  | 0, _ => []
  | rounds + 1, pending =>
      if pending.isEmpty then []
      else if (ready pending).isEmpty then ascending (pending.map Prod.fst)
      else ascending (ready pending) ++ drain rounds (settle (ready pending) pending)

/-- What each node waits on at the start: its dependencies among the other nodes. -/
def pendingOf (deps : α → List α) (nodes : List α) : List (α × List α) :=
  nodes.dedup.map fun n => (n, (deps n).filter fun d => d ∈ nodes ∧ d ≠ n)

/-- `nodes` ordered by `deps`. -/
def order (deps : α → List α) (nodes : List α) : List α :=
  drain (pendingOf deps nodes).length (pendingOf deps nodes)

/-! ## What the rounds keep -/

/-- The waiting lists are the dependencies among the other pending nodes. -/
structure Tracks (deps : α → List α) (pending : List (α × List α)) : Prop where
  nodup : (pending.map Prod.fst).Nodup
  waits : ∀ n ds, (n, ds) ∈ pending → ∀ d,
    d ∈ ds ↔ d ∈ deps n ∧ d ≠ n ∧ d ∈ pending.map Prod.fst

theorem tracks_pendingOf (deps : α → List α) (nodes : List α) :
    Tracks deps (pendingOf deps nodes) where
  nodup := by
    simpa [pendingOf, Function.comp_def] using nodes.nodup_dedup
  waits := by
    intro n ds hmem d
    simp only [pendingOf, List.mem_map, List.mem_dedup, Prod.mk.injEq] at hmem
    obtain ⟨n', -, rfl, rfl⟩ := hmem
    simp [pendingOf, Function.comp_def, and_comm]

theorem keys_settle (done : List α) (pending : List (α × List α)) :
    (settle done pending).map Prod.fst = (pending.map Prod.fst).filter (· ∉ done) := by
  rw [settle, List.map_map, List.filter_map]
  rfl

variable {deps : α → List α} {pending : List (α × List α)}

theorem Tracks.settled (tracks : Tracks deps pending) (done : List α) :
    Tracks deps (settle done pending) where
  nodup := by
    rw [keys_settle]
    exact tracks.nodup.filter _
  waits := by
    intro n ds hmem d
    obtain ⟨⟨n', ds'⟩, hentry, heq⟩ := List.mem_map.mp hmem
    obtain ⟨rfl, rfl⟩ := Prod.mk.inj heq
    have hwaits := tracks.waits _ _ (List.mem_filter.mp hentry).1 d
    rw [keys_settle, List.mem_filter, List.mem_filter, hwaits]
    simp only [and_assoc]

omit [LinearOrder α] in
theorem mem_ready_iff {n : α} : n ∈ ready pending ↔ (n, []) ∈ pending := by
  simp [ready, List.mem_filter]

omit [LinearOrder α] in
theorem ready_subset {n : α} (h : n ∈ ready pending) : n ∈ pending.map Prod.fst :=
  List.mem_map.mpr ⟨_, mem_ready_iff.mp h, rfl⟩

omit [LinearOrder α] in
/-- A ready node depends on no other pending node. -/
theorem Tracks.not_dep_of_ready (tracks : Tracks deps pending) {n d : α}
    (hready : n ∈ ready pending) (hd : d ∈ pending.map Prod.fst) (hne : d ≠ n) : d ∉ deps n := by
  intro hdep
  have hwaits := (tracks.waits n [] (mem_ready_iff.mp hready) d).mpr ⟨hdep, hne, hd⟩
  simp at hwaits

theorem length_settle_lt (hready : (ready pending).isEmpty = false) :
    (settle (ready pending) pending).length < pending.length := by
  obtain ⟨n, hn⟩ := List.exists_mem_of_ne_nil (ready pending) (by simpa using hready)
  rw [settle, List.length_map]
  refine List.length_filter_lt_length_iff_exists.mpr ⟨(n, []), mem_ready_iff.mp hn, ?_⟩
  simpa using hn

theorem mem_drain {rounds : Nat} (enough : pending.length ≤ rounds) {x : α} :
    x ∈ drain rounds pending ↔ x ∈ pending.map Prod.fst := by
  induction rounds generalizing pending with
  | zero =>
      have hnil : pending = [] := List.length_eq_zero_iff.mp (Nat.le_zero.mp enough)
      subst hnil
      simp [drain]
  | succ rounds ih =>
      rw [drain]
      split_ifs with hempty hstuck
      · rw [List.isEmpty_iff] at hempty
        subst hempty
        simp
      · rw [mem_ascending]
      · have hlt := length_settle_lt (by simpa using hstuck)
        rw [List.mem_append, mem_ascending, ih (by omega), keys_settle, List.mem_filter]
        by_cases hx : x ∈ ready pending
        · simp [hx, ready_subset hx]
        · simp [hx]

theorem Tracks.nodup_drain (tracks : Tracks deps pending) {rounds : Nat}
    (enough : pending.length ≤ rounds) : (drain rounds pending).Nodup := by
  induction rounds generalizing pending with
  | zero => simp [drain]
  | succ rounds ih =>
      rw [drain]
      split_ifs with hempty hstuck
      · exact List.nodup_nil
      · exact nodup_ascending tracks.nodup
      · have hlt := length_settle_lt (by simpa using hstuck)
        have hready : (ready pending).Nodup :=
          tracks.nodup.sublist ((List.filter_sublist).map Prod.fst)
        refine List.nodup_append.mpr ⟨nodup_ascending hready, ih (tracks.settled _) (by omega), ?_⟩
        intro a ha b hb hab
        subst hab
        rw [mem_drain (by omega), keys_settle, List.mem_filter] at hb
        simp [mem_ascending.mp ha] at hb

/-! ## Dependencies come first -/

/-- `a` stands somewhere before `b`. -/
def Precedes (l : List α) (a b : α) : Prop := ∃ before after, l = before ++ after ∧ a ∈ before ∧
  b ∈ after

omit [LinearOrder α] in
theorem Precedes.append_left {l : List α} {a b : α} (h : Precedes l a b) (front : List α) :
    Precedes (front ++ l) a b := by
  obtain ⟨before, after, rfl, ha, hb⟩ := h
  exact ⟨front ++ before, after, (List.append_assoc ..).symm, List.mem_append_right _ ha, hb⟩

omit [LinearOrder α] in
/-- An accessible node is never part of the tangle left when nothing is ready. -/
theorem Tracks.not_stuck (tracks : Tracks deps pending) {a : α}
    (grounded : Acc (fun m n => m ∈ deps n ∧ m ≠ n ∧ m ∈ pending.map Prod.fst) a)
    (ha : a ∈ pending.map Prod.fst) : (ready pending).isEmpty = false := by
  induction grounded with
  | intro a _ ih =>
      obtain ⟨⟨n, ds⟩, hmem, rfl⟩ := List.mem_map.mp ha
      by_cases hempty : ds = []
      · subst hempty
        have hready := mem_ready_iff.mpr hmem
        rw [List.isEmpty_eq_false_iff]
        exact List.ne_nil_of_mem hready
      · obtain ⟨d, hd⟩ := List.exists_mem_of_ne_nil ds hempty
        have hwaits := (tracks.waits n ds hmem d).mp hd
        exact ih d hwaits hwaits.2.2

theorem Tracks.drain_precedes (tracks : Tracks deps pending) {rounds : Nat}
    (enough : pending.length ≤ rounds) {a b : α} (hdep : a ∈ deps b) (hne : a ≠ b)
    (grounded : Acc (fun m n => m ∈ deps n ∧ m ≠ n ∧ m ∈ pending.map Prod.fst) a)
    (ha : a ∈ pending.map Prod.fst) (hb : b ∈ pending.map Prod.fst) :
    Precedes (drain rounds pending) a b := by
  induction rounds generalizing pending with
  | zero =>
      have hnil : pending = [] := List.length_eq_zero_iff.mp (Nat.le_zero.mp enough)
      subst hnil
      simp at ha
  | succ rounds ih =>
      have hstuck := tracks.not_stuck grounded ha
      have hlt := length_settle_lt hstuck
      have hbusy : b ∉ ready pending := fun hready =>
        tracks.not_dep_of_ready hready ha hne hdep
      have hempty : pending.isEmpty = false := by
        cases pending with
        | nil => simp at ha
        | cons => rfl
      have hb' : b ∈ (settle (ready pending) pending).map Prod.fst := by
        rw [keys_settle, List.mem_filter]
        exact ⟨hb, by simpa using hbusy⟩
      rw [drain, if_neg (by simp [hempty]), if_neg (by simp [hstuck])]
      by_cases hready : a ∈ ready pending
      · refine ⟨_, _, rfl, mem_ascending.mpr hready, ?_⟩
        rw [mem_drain (by omega)]
        exact hb'
      · refine Precedes.append_left ?_ _
        refine ih (tracks.settled _) (by omega) ?_ ?_ hb'
        · refine Subrelation.accessible (fun {m n} hmn => ?_) grounded
          refine ⟨hmn.1, hmn.2.1, ?_⟩
          have := hmn.2.2
          rw [keys_settle, List.mem_filter] at this
          exact this.1
        · rw [keys_settle, List.mem_filter]
          exact ⟨ha, by simpa using hready⟩

theorem keys_pendingOf (deps : α → List α) (nodes : List α) :
    (pendingOf deps nodes).map Prod.fst = nodes.dedup := by
  simp [pendingOf, Function.comp_def]

/-- **The order lists exactly the nodes.** -/
theorem mem_order {deps : α → List α} {nodes : List α} {x : α} :
    x ∈ order deps nodes ↔ x ∈ nodes := by
  rw [order, mem_drain le_rfl, keys_pendingOf, List.mem_dedup]

theorem nodup_order (deps : α → List α) (nodes : List α) : (order deps nodes).Nodup :=
  (tracks_pendingOf deps nodes).nodup_drain le_rfl

/-- The dependency relation among `nodes`. -/
def DependsOn (deps : α → List α) (nodes : List α) (m n : α) : Prop :=
  m ∈ deps n ∧ m ≠ n ∧ m ∈ nodes

/-- **An accessible dependency comes before its dependent.** -/
theorem order_precedes {deps : α → List α} {nodes : List α} {a b : α} (hdep : a ∈ deps b)
    (hne : a ≠ b) (grounded : Acc (DependsOn deps nodes) a) (ha : a ∈ nodes) (hb : b ∈ nodes) :
    Precedes (order deps nodes) a b := by
  refine (tracks_pendingOf deps nodes).drain_precedes le_rfl hdep hne ?_ ?_ ?_
  · simp only [keys_pendingOf, List.mem_dedup]
    exact grounded
  · rwa [keys_pendingOf, List.mem_dedup]
  · rwa [keys_pendingOf, List.mem_dedup]

omit [LinearOrder α] in
/-- **On finitely many nodes, a node that reaches no cycle is accessible.** -/
theorem acc_of_no_cycle {deps : α → List α} {nodes : List α} {a : α} {edge : α → α → Prop}
    (sub : ∀ m n, DependsOn deps nodes m n → edge n m)
    (acyclic : ∀ x, Relation.ReflTransGen edge a x → ¬ Relation.TransGen edge x x) :
    Acc (DependsOn deps nodes) a := by
  let Reached := {x : α // x ∈ nodes ∧ Relation.ReflTransGen edge a x}
  let below : Reached → Reached → Prop := fun m n => Relation.TransGen edge n.1 m.1
  have : Finite Reached :=
    ((List.finite_toSet nodes).subset fun x (hx : x ∈ nodes ∧ _) => hx.1).to_subtype
  have : IsTrans Reached below := ⟨fun _ _ _ hab hbc => hbc.trans hab⟩
  have : Std.Irrefl below := ⟨fun x => acyclic x.1 x.2.2⟩
  have wf : WellFounded below := Finite.wellFounded_of_trans_of_irrefl below
  have acc : ∀ x : Reached, Acc (DependsOn deps nodes) x.1 := by
    intro x
    induction x using wf.induction with
    | _ x ih =>
        refine Acc.intro _ fun m hm => ?_
        have hedge := sub m x.1 hm
        exact ih ⟨m, hm.2.2, x.2.2.tail hedge⟩ (.single hedge)
  refine Acc.intro _ fun m hm => ?_
  exact acc ⟨m, hm.2.2, .single (sub m a hm)⟩

end Freshdock.Kahn
