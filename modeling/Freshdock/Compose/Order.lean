import Freshdock.Compose
import Freshdock.Foundation.Tangle

/-!
# The order of a project's services

`topologicalOrder` as a sort: the loop ends, the output holds every service once, the order of
the input does not matter, dependencies come first, and what is caught behind a cycle comes last
in name order. Edges from a service to itself and edges that leave the set do not count.
-/

set_option autoImplicit false

namespace Freshdock.Compose

/-- **The topological order is a sort of the distinct services.** The loop over the pending
services ends with it, for every graph. A service that can reach no cycle comes after all its
dependencies in the set; those that can reach one are the end of the order, by name. -/
theorem topologicalOrder_sorts (nodes : List String) (graph : Graph) :
    Kahn.Drains (Kahn.pendingOf (dependencies graph) nodes) (topologicalOrder nodes graph) ∧
      (topologicalOrder nodes graph).Perm nodes.dedup ∧
      (∀ nodes' : List String, nodes'.Perm nodes →
        topologicalOrder nodes' graph = topologicalOrder nodes graph) ∧
      (∀ service, ¬ Kahn.Tangled (dependencies graph) nodes service →
        ∀ dependency, Kahn.Edge (dependencies graph) nodes service dependency →
          Kahn.Precedes (topologicalOrder nodes graph) dependency service) ∧
      ∃ front last, topologicalOrder nodes graph = front ++ last ∧
        (∀ service, service ∈ front ↔
          service ∈ nodes ∧ ¬ Kahn.Tangled (dependencies graph) nodes service) ∧
        (∀ service, service ∈ last ↔
          service ∈ nodes ∧ Kahn.Tangled (dependencies graph) nodes service) ∧
        last.Pairwise (· < ·) := by
  refine ⟨Kahn.drains_order _ nodes, Kahn.order_perm _ nodes, fun nodes' same => ?_,
    fun service free dependency edge => Kahn.order_precedes_of_not_tangled free edge, ?_⟩
  · exact Kahn.order_congr (fun _ _ => Iff.rfl) fun service => same.mem_iff
  · obtain ⟨front, last, heq, sorted⟩ := Kahn.order_eq_append (dependencies graph) nodes
    have listed (service : String) : service ∈ nodes ↔ service ∈ front ∨ service ∈ last := by
      rw [← @Kahn.mem_order _ _ (dependencies graph), heq, List.mem_append]
    refine ⟨front, last, heq, fun service => ?_, fun service => ?_, sorted.ascending⟩
    · constructor
      · intro hfront
        exact ⟨(listed service).mpr (.inl hfront), sorted.free service hfront⟩
      · rintro ⟨hnode, hfree⟩
        exact ((listed service).mp hnode).resolve_right fun h => hfree (sorted.tangled service h)
    · constructor
      · intro hlast
        exact ⟨(listed service).mpr (.inr hlast), sorted.tangled service hlast⟩
      · rintro ⟨hnode, htangled⟩
        exact ((listed service).mp hnode).resolve_left fun h => sorted.free service h htangled

end Freshdock.Compose
