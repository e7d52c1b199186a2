/-
**Queries that compare equal.**

Two queries compare equal if they are the same but for their bindings, and the bindings agree
(`agrees_iff`). The text does not look at the bindings, so that it is the same (`sql_of_agrees`).
-/

import WithClause.Proofs.OrderedMap.Agreement
import WithClause.Query

namespace WithClause.Query

variable {first second : Query}

/-- **Queries compare equal if they differ in nothing but their bindings, which agree.** -/
theorem agrees_iff :
    first.agrees second = true ↔
      first = { second with bindings := first.bindings } ∧
        OrderedMap.Agree Value.agrees first.bindings second.bindings := by
  obtain ⟨⟩ := first
  obtain ⟨⟩ := second
  simp only [agrees, Bool.and_eq_true, beq_iff_eq, OrderedMap.equalBy_iff, mk.injEq]
  tauto

theorem sql_of_agrees (same : first.agrees second = true) : first.sql = second.sql := by
  rw [(agrees_iff.mp same).1]
  rfl

theorem bindings_of_agrees (same : first.agrees second = true) :
    OrderedMap.Agree Value.agrees first.bindings second.bindings :=
  (agrees_iff.mp same).2

/-- A query with bindings that agree in place of its own compares equal. -/
theorem agrees_with_bindings (query : Query) {one other : OrderedMap Key Value}
    (same : OrderedMap.Agree Value.agrees one other) :
    agrees { query with bindings := one } { query with bindings := other } = true :=
  agrees_iff.mpr ⟨rfl, same⟩

end WithClause.Query
