/-
**What a statement takes from its tables.**

The text of a statement looks at a table through its outline alone: what it depends on, whether it
is recursive, and how it stands in a WITH clause. Statements with the same outlines under the same
names have the same text or the same fault, if their primary queries have the same text
(`sql_congr`). The bindings look at the bindings of each table (`bindings_congr`).
-/

import WithClause.Proofs.DependencyOrder.Change
import WithClause.Proofs.Statement.Text

namespace WithClause

open DependencyOrder (order changeEntry order_mapValues)

/-- What the text of a statement depends on in a table. -/
structure Outline where
  dependencies : List String
  recursive : Bool
  element : Except Fault String

def CommonTable.outline (table : CommonTable) : Outline where
  dependencies := table.dependencies
  recursive := table.isRecursive
  element := table.withElement

/-- Merging the bindings of tables looks at their bindings only. -/
theorem mergedBindings_eq_foldl (sofar : OrderedMap Key Value) (parts : List CommonTable) :
    mergedBindings sofar parts = (parts.map CommonTable.bindings).foldl OrderedMap.merge sofar := by
  induction parts generalizing sofar with
  | nil => rfl
  | cons part others ih => exact ih _

namespace Statement

def outlines (statement : Statement) : OrderedMap String Outline :=
  statement.tables.mapValues CommonTable.outline

section Outlines

variable (statement : Statement)

theorem entries_eq_nil_iff : statement.outlines.entries = [] ↔ statement.tables.entries = [] :=
  List.map_eq_nil_iff

theorem exists_recursive_iff :
    (∃ outline ∈ statement.outlines.values, outline.recursive = true) ↔
      ∃ table ∈ statement.tables.values, table.isRecursive = true := by
  rw [outlines, OrderedMap.values_mapValues]
  simp only [List.mem_map, exists_exists_and_eq_and, CommonTable.outline]

theorem order_outlines :
    order Outline.dependencies statement.outlines =
      (order CommonTable.dependencies statement.tables).map
        (List.map (changeEntry CommonTable.outline)) :=
  order_mapValues CommonTable.outline Outline.dependencies statement.tables

/-- The text of a statement with given outlines around a primary query. -/
def textAround (outlines : OrderedMap String Outline) (primary : String) (elements : List String) :
    String :=
  if outlines.entries = [] then Text.trimEnd primary
  else (if ∃ outline ∈ outlines.values, outline.recursive = true then "WITH RECURSIVE "
    else "WITH ") ++ ", ".intercalate elements ++ " " ++ Text.trimEnd primary

theorem textOf_eq (elements : List String) :
    statement.textOf elements = textAround statement.outlines statement.query.sql elements := by
  unfold textOf textAround
  simp only [entries_eq_nil_iff, exists_recursive_iff]

/-- **The outcome of a statement is read off its outlines.** -/
theorem sql_eq_of_outlines :
    statement.sql =
      match order Outline.dependencies statement.outlines with
      | .error cause => .error (.noOrder cause)
      | .ok placed =>
        (placed.mapM (Outline.element ∘ Prod.snd)).map
          (textAround statement.outlines statement.query.sql) := by
  rw [order_outlines]
  cases result : order CommonTable.dependencies statement.tables with
  | error cause => exact sql_of_refused result
  | ok placed =>
    rw [sql_of_accepted result, funext statement.textOf_eq]
    show _ = ((placed.map (changeEntry CommonTable.outline)).mapM
      (Outline.element ∘ Prod.snd)).map _
    rw [List.mapM_map]
    rfl

end Outlines

section Congruence

variable {first second : Statement}

/-- **Statements with the same outlines have the same text or the same fault.** -/
theorem sql_congr (query : first.query.sql = second.query.sql)
    (outlines : first.outlines = second.outlines) : first.sql = second.sql := by
  rw [sql_eq_of_outlines, sql_eq_of_outlines, query, outlines]

theorem bindings_congr (query : first.query.bindings = second.query.bindings)
    (tables : first.tables.mapValues CommonTable.bindings =
      second.tables.mapValues CommonTable.bindings) : first.bindings = second.bindings := by
  have values := congrArg OrderedMap.values tables
  rw [OrderedMap.values_mapValues, OrderedMap.values_mapValues] at values
  rw [bindings, bindings, mergedBindings_eq_foldl, mergedBindings_eq_foldl, query, values]

end Congruence

end Statement

end WithClause
