/-
**Tables inside of tables.**

Tables may stand inside of a registered one: in its content, attached to it, and further down in
the tree. What such a table depends on, and what its columns are called, is read nowhere. The text
of a tree, its bindings and whether it sorts its rows are those of the bare tree, in which no table
has these lists (`sql_bare`, `bindings_bare`, `sortsRows_bare`). A registered table itself keeps its
own lists when it is laid bare inside (`bareInside`), and has the same outline.

So the whole outcome of a statement is that of the statement laid bare inside, and two statements
that differ in nothing else have the same outcome (`outcome_of_bareInside_eq`).
-/

import Mathlib
import WithClause.Proofs.Statement.Outline

namespace WithClause

open DependencyOrder (changeEntry order order_mapValues)

/-! ### Bare tables -/

mutual

/-- The tree of a table in which no table has dependencies or names of columns. -/
def CommonTable.bare : CommonTable → CommonTable
  | ⟨name, query, _, _, attached, anchor, content⟩ =>
    ⟨name, query, [], [], bareBranches attached, anchor, content.bare⟩

def Content.bare : Content → Content
  | .own => .own
  | .another inner => .another inner.bare
  | .several parts => .several (bareParts parts)

def bareParts : List CommonTable → List CommonTable
  | [] => []
  | part :: others => part.bare :: bareParts others

def bareBranches : List Branch → List Branch
  | [] => []
  | ⟨table, all⟩ :: others => ⟨table.bare, all⟩ :: bareBranches others

end

mutual

theorem CommonTable.bindings_bare : ∀ table : CommonTable, table.bare.bindings = table.bindings
  | ⟨_, query, _, _, _, _, content⟩ => by
    rw [CommonTable.bare, CommonTable.bindings, CommonTable.bindings, content.bindings_bare]

theorem Content.bindings_bare : ∀ content : Content, content.bare.bindings = content.bindings
  | .own => rfl
  | .another inner => inner.bindings_bare
  | .several parts => mergedBindings_bareParts ∅ parts

theorem mergedBindings_bareParts (sofar : OrderedMap Key Value) : ∀ parts : List CommonTable,
    mergedBindings sofar (bareParts parts) = mergedBindings sofar parts
  | [] => rfl
  | part :: others => by
    rw [bareParts, mergedBindings, mergedBindings, part.bindings_bare,
      mergedBindings_bareParts _ others]

end

mutual

theorem CommonTable.sortsRows_bare : ∀ table : CommonTable, table.bare.sortsRows = table.sortsRows
  | ⟨_, query, _, _, _, _, content⟩ => content.sortsRows_bare query

theorem Content.sortsRows_bare (query : Query) : ∀ content : Content,
    content.bare.sortsRows query = content.sortsRows query
  | .own => rfl
  | .another inner => inner.sortsRows_bare
  | .several parts => anySortsRows_bareParts parts

theorem anySortsRows_bareParts : ∀ parts : List CommonTable,
    anySortsRows (bareParts parts) = anySortsRows parts
  | [] => rfl
  | part :: others => by
    rw [bareParts, anySortsRows, anySortsRows, part.sortsRows_bare, anySortsRows_bareParts others]

end

theorem isEmpty_bareBranches (attached : List Branch) :
    (bareBranches attached).isEmpty = attached.isEmpty := by
  rcases attached with _ | ⟨⟨table, all⟩, others⟩
  · rfl
  · rw [bareBranches, List.isEmpty_cons, List.isEmpty_cons]

mutual

theorem CommonTable.sql_bare : ∀ table : CommonTable, table.bare.sql = table.sql
  | ⟨name, query, _, _, attached, _, content⟩ => by
    simp only [CommonTable.bare, CommonTable.sql, content.sql_bare query,
      content.sortsRows_bare query, branchesSql_bare attached, isEmpty_bareBranches]

theorem Content.sql_bare (query : Query) : ∀ content : Content,
    content.bare.sql query = content.sql query
  | .own => rfl
  | .another inner => inner.sql_bare
  | .several parts => by
    rw [Content.bare, Content.sql, Content.sql, partsSql_bare parts]

theorem partsSql_bare : ∀ parts : List CommonTable, partsSql (bareParts parts) = partsSql parts
  | [] => rfl
  | part :: others => by
    rw [bareParts, partsSql, partsSql, part.sql_bare, partsSql_bare others]

theorem branchesSql_bare : ∀ attached : List Branch,
    branchesSql (bareBranches attached) = branchesSql attached
  | [] => rfl
  | ⟨table, all⟩ :: others => by
    rw [bareBranches, branchesSql, branchesSql, table.sql_bare, branchesSql_bare others]

end

/-! ### Registered tables -/

namespace CommonTable

/-- The table with its own lists, and with nothing but bare tables inside. -/
def bareInside (table : CommonTable) : CommonTable :=
  { table with attached := bareBranches table.attached, content := table.content.bare }

variable (table : CommonTable)

theorem bindings_bareInside : table.bareInside.bindings = table.bindings := by
  cases table
  simp only [bareInside, bindings, Content.bindings_bare]

theorem sql_bareInside : table.bareInside.sql = table.sql := by
  cases table
  simp only [bareInside, sql, Content.sql_bare, Content.sortsRows_bare, branchesSql_bare,
    isEmpty_bareBranches]

theorem outline_bareInside : table.bareInside.outline = table.outline := by
  have element : table.bareInside.withElement = table.withElement := by
    unfold withElement
    rw [sql_bareInside]
    rfl
  unfold outline
  rw [element]
  rfl

end CommonTable

/-! ### Statements -/

namespace Statement

/-- The statement with nothing but bare tables inside of the registered ones. -/
def bareInside (statement : Statement) : Statement :=
  { statement with tables := statement.tables.mapValues CommonTable.bareInside }

section Outcome

variable (statement : Statement)

theorem sql_bareInside : statement.bareInside.sql = statement.sql := by
  refine sql_congr rfl ?_
  unfold outlines bareInside
  rw [OrderedMap.mapValues_mapValues]
  exact congrArg statement.tables.mapValues (funext CommonTable.outline_bareInside)

theorem bindings_bareInside : statement.bareInside.bindings = statement.bindings := by
  refine bindings_congr rfl ?_
  unfold bareInside
  rw [OrderedMap.mapValues_mapValues]
  exact congrArg statement.tables.mapValues (funext CommonTable.bindings_bareInside)

theorem preview_bareInside : statement.bareInside.preview = statement.preview := by
  unfold preview
  rw [sql_bareInside, bindings_bareInside]

theorem order_bareInside :
    order CommonTable.dependencies statement.bareInside.tables =
      (order CommonTable.dependencies statement.tables).map
        (List.map (changeEntry CommonTable.bareInside)) :=
  order_mapValues CommonTable.bareInside CommonTable.dependencies statement.tables

theorem ordered_bareInside :
    statement.bareInside.ordered = statement.ordered.map (List.map CommonTable.bareInside) := by
  unfold ordered
  rw [order_bareInside]
  cases order CommonTable.dependencies statement.tables with
  | error cause => rfl
  | ok placed => simp [Except.map, changeEntry]

/-- The names of the tables in dependency order. -/
def orderedNames : Except Obstacle (List String) :=
  (order CommonTable.dependencies statement.tables).map (List.map Prod.fst)

theorem orderedNames_bareInside : statement.bareInside.orderedNames = statement.orderedNames := by
  unfold orderedNames
  rw [order_bareInside]
  cases order CommonTable.dependencies statement.tables with
  | error cause => rfl
  | ok placed => simp [Except.map, changeEntry]

end Outcome

/-- **What tables inside of others depend on has no effect, nor what their columns are called.** If
two statements are the same but for these lists, their tables have the same order or the same
obstacle, and the statements have the same text or the same fault, the same preview and the same
bindings. -/
theorem outcome_of_bareInside_eq {first second : Statement}
    (same : first.bareInside = second.bareInside) :
    first.orderedNames = second.orderedNames ∧
    first.ordered.map (List.map CommonTable.bareInside) =
      second.ordered.map (List.map CommonTable.bareInside) ∧
    first.sql = second.sql ∧
    first.preview = second.preview ∧
    first.bindings = second.bindings := by
  refine ⟨?_, ?_, ?_, ?_, ?_⟩
  · rw [← first.orderedNames_bareInside, same, second.orderedNames_bareInside]
  · rw [← first.ordered_bareInside, same, second.ordered_bareInside]
  · rw [← first.sql_bareInside, same, second.sql_bareInside]
  · rw [← first.preview_bareInside, same, second.preview_bareInside]
  · rw [← first.bindings_bareInside, same, second.bindings_bareInside]

/-- A table that unites a table around another one with a third, and has a fourth attached. The
tables inside of it all have the given dependencies and names of columns. -/
def nesting (lists : List String) : Statement where
  query := (∅ : Query).run [.select ["n"], .addSource ⟨"outer", none⟩]
  tables := .ofList [
    ("base", .ofQuery "base" ((∅ : Query).run [.select [":low"], .bind (.named "low") (.int 1)])),
    ("outer",
      { CommonTable.ofTables "outer" (listed (.ofTable "wrapping" (listed (inner "1"))))
          [listed (inner "2")] with
        dependencies := ["base"]
        attached := [⟨listed (inner "3"), true⟩] })]
where
  listed (table : CommonTable) : CommonTable :=
    { table with dependencies := lists, columns := lists }
  inner (column : String) : CommonTable :=
    .ofQuery "inner" ((∅ : Query).run [.select [column], .bind (.named column) .null])

theorem outcome_of_bareInside_eq_nesting :
    (nesting ["outer", "ghost"]).bareInside = (nesting []).bareInside ∧
    (nesting ["outer", "ghost"]).orderedNames = .ok ["base", "outer"] ∧
    (nesting ["outer", "ghost"]).sql = .ok ("WITH base AS (SELECT :low), " ++
      "outer AS (SELECT 1 UNION SELECT 2 UNION ALL SELECT 3) SELECT n FROM outer") ∧
    (nesting ["outer", "ghost"]).bindings = (nesting []).bindings := by
  have same : (nesting ["outer", "ghost"]).bareInside = (nesting []).bareInside := rfl
  obtain ⟨names, -, sql, -, bindings⟩ := outcome_of_bareInside_eq same
  refine ⟨same, names.trans ?_, sql.trans ?_, bindings⟩
  · cbv
  · cbv

end Statement

end WithClause
