/-
**Statements that agree.**

Of a table a statement takes the outline and the bindings. Two tables agree if their outlines are
the same and their bindings agree; two statements agree if their primary queries compare equal and
agreeing tables are registered under the same names, in the same order (`Statement.Agree`).

Such statements have the same names, and the same text or the same fault, and their bindings agree
(`Agree.names`, `Agree.sql`, `Agree.bindings`). Tables that agree are registered with the same
outcome (`Agree.add`).
-/

import WithClause.Proofs.Query.Agreement
import WithClause.Proofs.Statement.Outline
import WithClause.Proofs.Statement.Registry

namespace WithClause

/-- What a statement takes from the tables agrees. -/
structure CommonTable.Agree (first second : CommonTable) : Prop where
  name : first.name = second.name
  outline : first.outline = second.outline
  bindings : OrderedMap.Agree Value.agrees first.bindings second.bindings

namespace Statement

/-- **Statements that agree.** Their queries compare equal, and under the same names, in the same
order, they have tables that agree. -/
structure Agree (first second : Statement) : Prop where
  query : first.query.agrees second.query = true
  tables : List.Forall₂ (fun one other => one.1 = other.1 ∧ one.2.Agree other.2)
    first.tables.entries second.tables.entries

theorem Agree.ofQuery {first second : Query} (same : first.agrees second = true) :
    (ofQuery first).Agree (ofQuery second) :=
  ⟨same, .nil⟩

/-! ### What agreeing statements show -/

section Shown

variable {first second : Statement} (same : first.Agree second)
include same

theorem Agree.outlines : first.outlines = second.outlines := by
  have changed (entries others : List (String × CommonTable))
      (tables : List.Forall₂ (fun one other => one.1 = other.1 ∧ one.2.Agree other.2)
        entries others) :
      entries.map (Prod.map id CommonTable.outline) =
        others.map (Prod.map id CommonTable.outline) := by
    rw [← List.forall₂_eq_eq_eq, List.forall₂_map_left_iff, List.forall₂_map_right_iff]
    exact tables.imp fun one other agree => Prod.ext agree.1 agree.2.outline
  exact OrderedMap.ext (changed _ _ same.tables)

theorem Agree.names : first.names = second.names := by
  have keys := congrArg OrderedMap.keys same.outlines
  rwa [Statement.outlines, Statement.outlines, OrderedMap.keys_mapValues, OrderedMap.keys_mapValues] at keys

theorem Agree.sql : first.sql = second.sql :=
  sql_congr (Query.sql_of_agrees same.query) same.outlines

theorem Agree.bindings : OrderedMap.Agree Value.agrees first.bindings second.bindings := by
  unfold Statement.bindings
  rw [mergedBindings_eq_foldl, mergedBindings_eq_foldl]
  refine OrderedMap.Agree.foldl_merge ?_ (Query.bindings_of_agrees same.query)
  unfold OrderedMap.values
  rw [List.map_map, List.map_map, List.forall₂_map_left_iff, List.forall₂_map_right_iff]
  exact same.tables.imp fun one other agree => agree.2.bindings

end Shown

/-! ### Registering tables -/

/-- Both fail with one fault, or both succeed with statements that agree. -/
inductive OutcomesAgree : Except Fault Statement → Except Fault Statement → Prop where
  | error (fault : Fault) : OutcomesAgree (.error fault) (.error fault)
  | ok {first second : Statement} (agree : first.Agree second) :
    OutcomesAgree (.ok first) (.ok second)

/-- **Tables that agree are registered with agreeing outcomes.** -/
theorem Agree.add {first second : Statement} (same : first.Agree second)
    {one other : CommonTable} (added : one.Agree other) :
    OutcomesAgree (first.add one) (second.add other) := by
  rw [add_eq, add_eq, ← added.name, ← same.names]
  split_ifs with empty taken
  · exact .error _
  · exact .error _
  · have taken' : one.name ∉ second.names := same.names ▸ taken
    refine .ok ⟨same.query, ?_⟩
    show List.Forall₂ _ (OrderedMap.setEntry one.name one first.tables.entries)
      (OrderedMap.setEntry one.name other second.tables.entries)
    rw [OrderedMap.setEntry_of_notMem taken, OrderedMap.setEntry_of_notMem taken']
    exact List.rel_append same.tables (.cons ⟨rfl, added⟩ .nil)

/-- **Tables that agree one by one are all registered with agreeing outcomes.** -/
theorem Agree.foldlM_add {first second : Statement} (same : first.Agree second)
    {ones others : List CommonTable} (added : List.Forall₂ CommonTable.Agree ones others) :
    OutcomesAgree (ones.foldlM Statement.add first) (others.foldlM Statement.add second) := by
  induction added generalizing first second with
  | nil => exact .ok same
  | @cons one other ones others head _ ih =>
    rw [List.foldlM_cons, List.foldlM_cons]
    have outcomes := same.add head
    revert outcomes
    generalize first.add one = result
    generalize second.add other = result'
    rintro (fault | agree)
    · exact .error fault
    · exact ih agree

end Statement

end WithClause
