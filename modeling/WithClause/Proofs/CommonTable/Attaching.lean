/-
**Tables attached in place of others.**

Tables that are attached in place of others leave nothing of these in the tree, but the own query
has taken over their bindings and keeps them. So a table to which others are attached twice has what
the later ones alone would have left, but for the bindings of its own query
(`attachOnly_attachOnly_eq`), and its text does not look at these (`sql_withBindings`).

Either time the bindings are merged into those that the table had before (`bindings_attachOnly`). A
key therefore stands for what the attached tables bind it to, then for what the ones before them
bound it to, and only then for what it would have without those (`attachOnly_attachOnly`).
-/

import WithClause.Proofs.CommonTable.Coverage

namespace WithClause

/-! ### Bindings of several tables -/

theorem mergedBindings_eq_merge (sofar : OrderedMap Key Value) (parts : List CommonTable) :
    mergedBindings sofar parts = sofar.merge (mergedBindings ∅ parts) := by
  induction parts generalizing sofar with
  | nil => rfl
  | cons part others ih =>
    have empty : (∅ : OrderedMap Key Value).merge part.bindings = part.bindings :=
      part.bindings.ofList_entries
    rw [mergedBindings, mergedBindings, empty, ih, ih part.bindings, OrderedMap.merge_assoc]

theorem Query.foldl_bindEach (query : Query) (several : List CommonTable) :
    several.foldl (fun sofar other => sofar.bindEach other.bindings) query =
      query.bindEach (mergedBindings ∅ several) := by
  unfold bindEach
  rw [← mergedBindings_eq_merge]
  induction several generalizing query with
  | nil => rfl
  | cons first others ih => exact ih (query.bindEach first.bindings)

namespace CommonTable

/-- The table with other bindings in its own query. -/
def withBindings (table : CommonTable) (bindings : OrderedMap Key Value) : CommonTable :=
  { table with query := { table.query with bindings } }

/-- **The text does not look at the bindings of the own query.** -/
theorem sql_withBindings (table : CommonTable) (bindings : OrderedMap Key Value) :
    (table.withBindings bindings).sql = table.sql := by
  obtain ⟨name, query, dependencies, columns, attached, anchor, content⟩ := table
  cases content <;> rfl

/-- **The bindings of tables that are attached are merged into those of the table.** -/
theorem bindings_attachOnly (table : CommonTable) (several : List CommonTable) (all : Bool) :
    (table.attachOnly several all).bindings =
      table.bindings.merge (mergedBindings ∅ several) := by
  rw [attachOnly_eq, Query.foldl_bindEach]
  cases table
  exact (OrderedMap.merge_assoc _ _ _).symm

/-! ### Tables attached twice -/

/-- Tables that gave way to others leave their bindings in the own query, and nothing else. -/
theorem attachOnly_attachOnly_eq (table : CommonTable) (dropped kept : List CommonTable)
    (first second : Bool) :
    (table.attachOnly dropped first).attachOnly kept second =
      (table.attachOnly kept second).withBindings
        ((table.query.bindings.merge (mergedBindings ∅ dropped)).merge
          (mergedBindings ∅ kept)) := by
  rw [attachOnly_eq, attachOnly_eq, attachOnly_eq]
  simp only [Query.foldl_bindEach]
  rfl

/-- **Tables attached in place of others.** The later ones alone are attached, and the text is
theirs. A key has the value that these bind it to, or else the one that the others left, or else
what it would have without the others; so nothing is different exactly if what the others left is
what it would have anyway, wherever the later ones do not bind the key. -/
theorem attachOnly_attachOnly (table : CommonTable) (dropped kept : List CommonTable)
    (first second : Bool) :
    let both := (table.attachOnly dropped first).attachOnly kept second
    let alone := table.attachOnly kept second
    both.attached = alone.attached ∧
    both.sql = alone.sql ∧
    (∀ key, both.bindings.get? key =
      ((mergedBindings ∅ kept).get? key).or
        (((mergedBindings ∅ dropped).get? key).or (alone.bindings.get? key))) ∧
    ((∀ key, both.bindings.get? key = alone.bindings.get? key) ↔
      ∀ key value, (mergedBindings ∅ dropped).get? key = some value →
        (mergedBindings ∅ kept).get? key = none → alone.bindings.get? key = some value) := by
  intro both alone
  have differ := table.attachOnly_attachOnly_eq dropped kept first second
  have values (key : Key) : both.bindings.get? key =
      ((mergedBindings ∅ kept).get? key).or
        (((mergedBindings ∅ dropped).get? key).or (alone.bindings.get? key)) := by
    simp only [both, alone, bindings_attachOnly, OrderedMap.get?_merge]
    cases (mergedBindings ∅ kept).get? key <;> rfl
  have same (key : Key) (value : Value) (bound : (mergedBindings ∅ kept).get? key = some value) :
      alone.bindings.get? key = some value := by
    simp only [alone, bindings_attachOnly, OrderedMap.get?_merge, bound, Option.some_or]
  refine ⟨?_, ?_, values, ?_⟩
  · exact (congrArg CommonTable.attached differ).trans rfl
  · exact (congrArg CommonTable.sql differ).trans (sql_withBindings _ _)
  · refine forall_congr' fun key => ?_
    rw [values]
    cases bound : (mergedBindings ∅ kept).get? key with
    | some value => simp [same key value bound]
    | none =>
      cases (mergedBindings ∅ dropped).get? key with
      | some value => simp [eq_comm]
      | none => simp

/-- The bindings of a table that is attached no more: one stays, and another one stays in the place
of an own value. -/
theorem attachOnly_attachOnly_stale :
    let table := ofQuery "a" ((∅ : Query).bind (.named "region") (.text "emea"))
    let other := ofQuery "b" ((∅ : Query).run
      [.bind (.named "region") (.text "apac"), .bind (.named "cutoff") (.int 3)])
    let both := (table.attachOnly [other] false).attachOnly [] true
    let alone := table.attachOnly [] true
    alone.bindings.entries = [(.named "region", .text "emea")] ∧
    both.bindings.entries = [(.named "region", .text "apac"), (.named "cutoff", .int 3)] ∧
    both.bindings ≠ alone.bindings := by
  intro table other both alone
  refine ⟨rfl, rfl, fun same => ?_⟩
  have sizes : both.bindings.size = alone.bindings.size := congrArg OrderedMap.size same
  exact absurd sizes (by decide)

end CommonTable

end WithClause
