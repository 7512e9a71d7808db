import Freshdock.Foundation.Kahn

/-!
# The order around cycles

`Kahn.order` takes a bounded number of rounds. `Drains` is the loop without a bound, and the
order is where that loop ends (`drains_order`). The loop does not see in which order the pending
nodes and their waiting lists are kept, so the order depends on the nodes and on each node's
dependencies as sets (`Drains.congr`, `order_congr`).

A node is tangled when it can reach a cycle. The tangled nodes are never ready and every other
pending node is in the end, so they are the last part of the order, in increasing order
(`order_eq_append`), and a node that is not tangled comes after all its dependencies
(`order_precedes_of_not_tangled`).
-/

set_option autoImplicit false

namespace Freshdock.Kahn

universe u

variable {α : Type u} [LinearOrder α]

/-- The loop: it ends when nothing is pending, or when nothing that is pending is ready. -/
inductive Drains : List (α × List α) → List α → Prop where
  | done : Drains [] []
  | tangle {pending : List (α × List α)} (left : pending ≠ []) (stuck : ready pending = []) :
      Drains pending (ascending (pending.map Prod.fst))
  | round {pending : List (α × List α)} {rest : List α} (free : ready pending ≠ [])
      (next : Drains (settle (ready pending) pending) rest) :
      Drains pending (ascending (ready pending) ++ rest)

variable {deps : α → List α} {pending : List (α × List α)} {nodes : List α}

/-- **Enough rounds reach the end of the loop.** -/
theorem drains_drain {rounds : Nat} (enough : pending.length ≤ rounds) :
    Drains pending (drain rounds pending) := by
  induction rounds generalizing pending with
  | zero =>
      obtain rfl : pending = [] := List.length_eq_zero_iff.mp (Nat.le_zero.mp enough)
      exact .done
  | succ rounds ih =>
      rw [drain]
      split_ifs with hempty hstuck
      · obtain rfl := List.isEmpty_iff.mp hempty
        exact .done
      · exact .tangle (by simpa using hempty) (List.isEmpty_iff.mp hstuck)
      · have hlt := length_settle_lt (by simpa using hstuck)
        exact .round (by simpa using hstuck) (ih (by omega))

theorem drains_order (deps : α → List α) (nodes : List α) :
    Drains (pendingOf deps nodes) (order deps nodes) := drains_drain le_rfl

/-! ## What the order does not depend on -/

theorem ascending_congr {l l' : List α} (h : l.Perm l') : ascending l = ascending l' := by
  have perm : (ascending l).Perm (ascending l') :=
    (List.perm_insertionSort _ l).trans (h.trans (List.perm_insertionSort _ l').symm)
  exact perm.eq_of_pairwise' (List.pairwise_insertionSort _ l) (List.pairwise_insertionSort _ l')

omit [LinearOrder α] in
/-- What is ready is decided by the pending nodes and the dependencies. -/
theorem Tracks.mem_ready (tracks : Tracks deps pending) {n : α} :
    n ∈ ready pending ↔
      n ∈ pending.map Prod.fst ∧ ∀ d ∈ pending.map Prod.fst, d ≠ n → d ∉ deps n := by
  constructor
  · intro hready
    exact ⟨ready_subset hready, fun d hd hne => tracks.not_dep_of_ready hready hd hne⟩
  · rintro ⟨hn, free⟩
    obtain ⟨⟨n, ds⟩, hmem, rfl⟩ := List.mem_map.mp hn
    have hnil : ds = [] := by
      refine List.eq_nil_iff_forall_not_mem.mpr fun d hd => ?_
      have hwaits := (tracks.waits n ds hmem d).mp hd
      exact free d hwaits.2.2 hwaits.2.1 hwaits.1
    subst hnil
    exact mem_ready_iff.mpr hmem

omit [LinearOrder α] in
theorem Tracks.nodup_ready (tracks : Tracks deps pending) : (ready pending).Nodup :=
  tracks.nodup.sublist (List.filter_sublist.map Prod.fst)

/-- The same nodes are pending, with the same dependencies. -/
structure Alike (deps deps' : α → List α) (pending pending' : List (α × List α)) : Prop where
  tracks : Tracks deps pending
  tracks' : Tracks deps' pending'
  edges : ∀ n d, d ∈ deps n ↔ d ∈ deps' n
  keys : ∀ n, n ∈ pending.map Prod.fst ↔ n ∈ pending'.map Prod.fst

variable {deps' : α → List α} {pending' : List (α × List α)}

omit [LinearOrder α] in
theorem Alike.mem_ready (alike : Alike deps deps' pending pending') (n : α) :
    n ∈ ready pending ↔ n ∈ ready pending' := by
  rw [alike.tracks.mem_ready, alike.tracks'.mem_ready, alike.keys n]
  simp only [alike.keys, alike.edges]

theorem Alike.ascending_keys (alike : Alike deps deps' pending pending') :
    ascending (pending.map Prod.fst) = ascending (pending'.map Prod.fst) :=
  ascending_congr
    ((List.perm_ext_iff_of_nodup alike.tracks.nodup alike.tracks'.nodup).mpr alike.keys)

theorem Alike.ascending_ready (alike : Alike deps deps' pending pending') :
    ascending (ready pending) = ascending (ready pending') :=
  ascending_congr
    ((List.perm_ext_iff_of_nodup alike.tracks.nodup_ready alike.tracks'.nodup_ready).mpr
      alike.mem_ready)

omit [LinearOrder α] in
theorem Alike.ready_eq_nil (alike : Alike deps deps' pending pending') :
    ready pending = [] ↔ ready pending' = [] := by
  simp only [List.eq_nil_iff_forall_not_mem, alike.mem_ready]

theorem Alike.settled (alike : Alike deps deps' pending pending') :
    Alike deps deps' (settle (ready pending) pending) (settle (ready pending') pending') where
  tracks := alike.tracks.settled _
  tracks' := alike.tracks'.settled _
  edges := alike.edges
  keys n := by
    rw [keys_settle, keys_settle, List.mem_filter, List.mem_filter, alike.keys n]
    simp only [alike.mem_ready n]

omit [LinearOrder α] in
theorem Alike.nil_iff (alike : Alike deps deps' pending pending') :
    pending = [] ↔ pending' = [] := by
  rw [← List.map_eq_nil_iff (f := Prod.fst), ← List.map_eq_nil_iff (f := Prod.fst)]
  simp only [List.eq_nil_iff_forall_not_mem, alike.keys]

/-- **Two loops over the same nodes with the same dependencies end alike**, however the pending
nodes and what they wait on are arranged. -/
theorem Drains.congr {l l' : List α} (alike : Alike deps deps' pending pending')
    (h : Drains pending l) (h' : Drains pending' l') : l = l' := by
  induction h generalizing pending' l' with
  | done =>
      cases h' with
      | done => rfl
      | tangle left => exact absurd (alike.nil_iff.mp rfl) left
      | round free => exact absurd (alike.ready_eq_nil.mp rfl) free
  | tangle left stuck =>
      cases h' with
      | done => exact absurd (alike.nil_iff.mpr rfl) left
      | tangle => exact alike.ascending_keys
      | round free => exact absurd (alike.ready_eq_nil.mp stuck) free
  | round free next ih =>
      cases h' with
      | done => exact absurd (alike.ready_eq_nil.mpr rfl) free
      | tangle left stuck => exact absurd (alike.ready_eq_nil.mpr stuck) free
      | round free' next' => rw [alike.ascending_ready, ih alike.settled next']

theorem alike_pendingOf {nodes' : List α} (edges : ∀ n d, d ∈ deps n ↔ d ∈ deps' n)
    (same : ∀ n, n ∈ nodes ↔ n ∈ nodes') :
    Alike deps deps' (pendingOf deps nodes) (pendingOf deps' nodes') where
  tracks := tracks_pendingOf deps nodes
  tracks' := tracks_pendingOf deps' nodes'
  edges := edges
  keys n := by
    rw [keys_pendingOf, keys_pendingOf, List.mem_dedup, List.mem_dedup, same]

/-- **The order depends on the sets alone**: of the nodes and of each node's dependencies. -/
theorem order_congr {nodes' : List α} (edges : ∀ n d, d ∈ deps n ↔ d ∈ deps' n)
    (same : ∀ n, n ∈ nodes ↔ n ∈ nodes') : order deps nodes = order deps' nodes' :=
  (drains_order deps nodes).congr (alike_pendingOf edges same) (drains_order deps' nodes')

theorem order_perm (deps : α → List α) (nodes : List α) :
    (order deps nodes).Perm nodes.dedup :=
  (List.perm_ext_iff_of_nodup (nodup_order deps nodes) nodes.nodup_dedup).mpr fun x => by
    rw [mem_order, List.mem_dedup]

/-! ## Nodes that can reach a cycle -/

/-- The first node depends on the second, and both are different nodes of the set. -/
def Edge (deps : α → List α) (nodes : List α) (n m : α) : Prop :=
  n ∈ nodes ∧ m ∈ nodes ∧ m ≠ n ∧ m ∈ deps n

/-- The node can reach a cycle along the edges. -/
def Tangled (deps : α → List α) (nodes : List α) (n : α) : Prop :=
  ∃ m, Relation.ReflTransGen (Edge deps nodes) n m ∧ Relation.TransGen (Edge deps nodes) m m

omit [LinearOrder α] in
/-- A tangled node has a tangled dependency. -/
theorem Tangled.next {n : α} (h : Tangled deps nodes n) :
    ∃ m, Edge deps nodes n m ∧ Tangled deps nodes m := by
  obtain ⟨c, hreach, hcycle⟩ := h
  rcases hreach.cases_head with rfl | ⟨m, hedge, hrest⟩
  · obtain ⟨m, hedge, hback⟩ := Relation.TransGen.head'_iff.mp hcycle
    exact ⟨m, hedge, n, hback, hcycle⟩
  · exact ⟨m, hedge, c, hrest, hcycle⟩

omit [LinearOrder α] in
theorem Tangled.head {n m : α} (hedge : Edge deps nodes n m) (h : Tangled deps nodes m) :
    Tangled deps nodes n := by
  obtain ⟨c, hreach, hcycle⟩ := h
  exact ⟨c, hreach.head hedge, hcycle⟩

omit [LinearOrder α] in
/-- From a node of the set, the dependencies among the nodes are the edges. -/
theorem reach_of_dependsOn {n m : α} (hn : n ∈ nodes)
    (h : Relation.ReflTransGen (fun a b => DependsOn deps nodes b a) n m) :
    m ∈ nodes ∧ Relation.ReflTransGen (Edge deps nodes) n m := by
  induction h with
  | refl => exact ⟨hn, .refl⟩
  | tail _ hstep ih => exact ⟨hstep.2.2, ih.2.tail ⟨ih.1, hstep.2.2, hstep.2.1, hstep.1⟩⟩

omit [LinearOrder α] in
theorem acc_of_not_tangled {n : α} (hn : n ∈ nodes) (h : ¬ Tangled deps nodes n) :
    Acc (DependsOn deps nodes) n := by
  have edges (a b : α) (hdep : DependsOn deps nodes a b) :
      (fun n m => DependsOn deps nodes m n) b a := hdep
  refine acc_of_no_cycle edges fun m hreach hcycle => ?_
  obtain ⟨hm, hreach⟩ := reach_of_dependsOn hn hreach
  obtain ⟨next, hstep, hback⟩ := Relation.TransGen.head'_iff.mp hcycle
  have hback := (reach_of_dependsOn hstep.2.2 hback).2
  exact h ⟨m, hreach, .head' ⟨hm, hstep.2.2, hstep.2.1, hstep.1⟩ hback⟩

/-- **A node that can reach no cycle comes after all its dependencies.** -/
theorem order_precedes_of_not_tangled {n m : α} (h : ¬ Tangled deps nodes n)
    (hedge : Edge deps nodes n m) : Precedes (order deps nodes) m n := by
  have hm : ¬ Tangled deps nodes m := fun hm => h (hm.head hedge)
  exact order_precedes hedge.2.2.2 hedge.2.2.1 (acc_of_not_tangled hedge.2.1 hm) hedge.2.1 hedge.1

/-- What is left of the nodes: every tangled one is still pending. -/
structure Left (deps : α → List α) (nodes : List α) (pending : List (α × List α)) : Prop where
  tracks : Tracks deps pending
  inside : ∀ n ∈ pending.map Prod.fst, n ∈ nodes
  tangled : ∀ n, Tangled deps nodes n → n ∈ pending.map Prod.fst

omit [LinearOrder α] in
theorem Left.not_tangled_of_ready (left : Left deps nodes pending) {n : α}
    (hready : n ∈ ready pending) : ¬ Tangled deps nodes n := by
  intro htangled
  obtain ⟨m, ⟨-, -, hne, hdep⟩, hm⟩ := htangled.next
  exact left.tracks.not_dep_of_ready hready (left.tangled m hm) hne hdep

theorem Left.settled (left : Left deps nodes pending) :
    Left deps nodes (settle (ready pending) pending) where
  tracks := left.tracks.settled _
  inside n hn := by
    rw [keys_settle, List.mem_filter] at hn
    exact left.inside n hn.1
  tangled n hn := by
    rw [keys_settle, List.mem_filter]
    exact ⟨left.tangled n hn, by simpa using fun hready => left.not_tangled_of_ready hready hn⟩

omit [LinearOrder α] in
/-- Where nothing is ready, everything left is tangled. -/
theorem Left.tangled_of_stuck (left : Left deps nodes pending) (stuck : ready pending = []) {n : α}
    (hn : n ∈ pending.map Prod.fst) : Tangled deps nodes n := by
  by_contra hnot
  have grounded := acc_of_not_tangled (left.inside n hn) hnot
  have free := left.tracks.not_stuck
    (Subrelation.accessible (fun h => ⟨h.1, h.2.1, left.inside _ h.2.2⟩) grounded) hn
  simp [stuck] at free

theorem left_pendingOf (deps : α → List α) (nodes : List α) :
    Left deps nodes (pendingOf deps nodes) where
  tracks := tracks_pendingOf deps nodes
  inside n hn := by
    rwa [keys_pendingOf, List.mem_dedup] at hn
  tangled n hn := by
    obtain ⟨m, hedge, -⟩ := hn.next
    rw [keys_pendingOf, List.mem_dedup]
    exact hedge.1

/-- What the loop puts out: nodes that are not tangled, and then the tangled ones in order. -/
structure Sorted (deps : α → List α) (nodes front last : List α) : Prop where
  free : ∀ n ∈ front, ¬ Tangled deps nodes n
  tangled : ∀ n ∈ last, Tangled deps nodes n
  ascending : last.Pairwise (· < ·)

theorem pairwise_ascending {l : List α} (nodup : l.Nodup) : (ascending l).Pairwise (· < ·) := by
  have sorted : (ascending l).Pairwise (· ≤ ·) := List.pairwise_insertionSort _ l
  exact sorted.imp₂ (fun _ _ hle hne => lt_of_le_of_ne hle hne) (nodup_ascending nodup)

theorem Drains.sorted {l : List α} (h : Drains pending l) (left : Left deps nodes pending) :
    ∃ front last, l = front ++ last ∧ Sorted deps nodes front last := by
  induction h with
  | done => exact ⟨[], [], rfl, by simp, by simp, .nil⟩
  | tangle _ stuck =>
      refine ⟨[], _, rfl, by simp, fun n hn => ?_, pairwise_ascending left.tracks.nodup⟩
      exact left.tangled_of_stuck stuck (mem_ascending.mp hn)
  | round _ _ ih =>
      obtain ⟨front, last, rfl, sorted⟩ := ih left.settled
      refine ⟨_, last, (List.append_assoc ..).symm, fun n hn => ?_, sorted.tangled,
        sorted.ascending⟩
      rcases List.mem_append.mp hn with hn | hn
      · exact left.not_tangled_of_ready (mem_ascending.mp hn)
      · exact sorted.free n hn

/-- **The tangled nodes come last, in increasing order.** -/
theorem order_eq_append (deps : α → List α) (nodes : List α) :
    ∃ front last, order deps nodes = front ++ last ∧ Sorted deps nodes front last :=
  (drains_order deps nodes).sorted (left_pendingOf deps nodes)

end Freshdock.Kahn
