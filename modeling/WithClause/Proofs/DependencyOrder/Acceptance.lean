/-
**Which items have an order.**

An order is found for exactly the closed acyclic graphs, and it is one: it has every entry once and
each stands after its dependencies. Neither the early report of two items that depend on each other
nor a round that places nothing ever refuses a graph that could be ordered: both are reached only
over a key that is not placeable (`Fails.exists_not_placeable`).
-/

import WithClause.Proofs.DependencyOrder.Run

namespace WithClause.DependencyOrder

variable {α : Type}

/-- **Items have an order exactly when all their dependencies are registered and none depends on
itself through others, and the order that is found is one.** -/
theorem order_ok_iff_closed_and_acyclic (needs : α → List String) (items : OrderedMap String α) :
    ((∃ placed, order needs items = .ok placed) ↔ Closed needs items ∧ Acyclic needs items) ∧
      ∀ placed, order needs items = .ok placed → IsOrder needs items placed := by
  refine ⟨?_, fun placed accepted => isOrder_of_order_ok accepted⟩
  calc (∃ placed, order needs items = .ok placed)
      ↔ ∀ key ∈ items.keys, Placeable needs items key := order_ok_iff_placeable
    _ ↔ Closed needs items ∧ Acyclic needs items := placeable_iff

/-- Items registered before their dependencies; the label of an item is not its key. -/
theorem order_ok_iff_closed_and_acyclic_backwards :
    IsOrder (fun item : String × List String => item.2)
      (OrderedMap.ofList [("c", "x", ["b", "a"]), ("b", "x", ["a"]), ("a", "y", [])])
      [("a", "y", []), ("b", "x", ["a"]), ("c", "x", ["b", "a"])] := by
  refine (order_ok_iff_closed_and_acyclic _ _).2 _ ?_
  decide +kernel

end WithClause.DependencyOrder
