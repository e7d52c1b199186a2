/-
**Statements by definition.**

A definition lists what a statement consists of: the clauses of its primary query, and for each
common table its clauses, its dependencies and its recursion. A query definition stands for a run
of building calls (`calls`), and a statement is built by running them and registering the tables in
the order in which they are listed.
-/

import WithClause.Statement

namespace WithClause

/-- The definition of a query; each clause may be left out. -/
structure QueryDefinition where
  columns : List String := []
  table : Option String := none
  /-- The label of that table. -/
  label : Option String := none
  joins : List Join := []
  /-- The conditions after WHERE, all of which have to hold. -/
  filters : List String := []
  grouping : List String := []
  /-- The conditions after HAVING, all of which have to hold. -/
  groupFilters : List String := []
  ordering : List String := []
  limit : Option Nat := none
  offset : Option Nat := none
  /-- The bound values by name. -/
  bindings : OrderedMap String Value := ∅

/-- The definition of a common table. -/
structure TableDefinition where
  name : String := ""
  /-- The names of the tables that have to come before. -/
  dependencies : List String := []
  columns : List String := []
  /-- Whether the table is recursive even without an anchor. -/
  recursive : Bool := false
  anchor : Option String := none
  /-- Whether the recursion keeps equal rows once. -/
  distinct : Bool := false
  query : QueryDefinition := {}

/-- The definition of a statement. -/
structure Definition where
  query : QueryDefinition := {}
  tables : List TableDefinition := []

namespace QueryDefinition

/-- The calls that a definition stands for. -/
def calls (definition : QueryDefinition) : List Query.Call :=
  (if definition.columns.isEmpty then [] else [.select definition.columns]) ++
    (definition.table.map fun table => Query.Call.addSource ⟨table, definition.label⟩).toList ++
    definition.joins.map .addJoin ++
    definition.filters.map (.addFilter .and) ++
    definition.grouping.map .addGroupBy ++
    definition.groupFilters.map (.addGroupFilter .and) ++
    definition.ordering.map (.addOrderBy · none) ++
    (definition.limit.map .setLimit).toList ++
    (definition.offset.map .setOffset).toList ++
    definition.bindings.entries.map fun binding => .bind (.named binding.1) binding.2

/-- Equality of definitions, where the order of the bindings does not count and values agree. -/
def agrees (first second : QueryDefinition) : Bool :=
  first.columns == second.columns && first.table == second.table &&
    first.label == second.label && first.joins == second.joins &&
    first.filters == second.filters && first.grouping == second.grouping &&
    first.groupFilters == second.groupFilters && first.ordering == second.ordering &&
    first.limit == second.limit && first.offset == second.offset &&
    OrderedMap.equalBy Value.agrees first.bindings second.bindings

end QueryDefinition

namespace TableDefinition

/-- The table of a definition, started from a query. -/
def toTable (definition : TableDefinition) (query : Query) : CommonTable :=
  let start : CommonTable :=
    if definition.recursive then .recursive definition.name query
    else .ofQuery definition.name query
  let clauses := { start with query := start.query.run definition.query.calls }
  let named := (clauses.dependOn definition.dependencies).nameColumns definition.columns
  let anchored :=
    match definition.anchor with
    | some text => named.setAnchor text
    | none => named
  if definition.distinct then anchored.setDistinct true else anchored

def agrees (first second : TableDefinition) : Bool :=
  first.name == second.name && first.dependencies == second.dependencies &&
    first.columns == second.columns && first.recursive == second.recursive &&
    first.anchor == second.anchor && first.distinct == second.distinct &&
    first.query.agrees second.query

def allAgree : List TableDefinition → List TableDefinition → Bool
  | [], [] => true
  | first :: firsts, second :: seconds => first.agrees second && allAgree firsts seconds
  | _, _ => false

end TableDefinition

namespace Definition

/-- The statement of a definition, with its primary query put on a given one. -/
def toStatement (definition : Definition) (query : Query) : Except Fault Statement :=
  definition.tables.foldlM (fun statement table => statement.add (table.toTable ∅))
    (Statement.ofQuery (query.run definition.query.calls))

def agrees (first second : Definition) : Bool :=
  first.query.agrees second.query && TableDefinition.allAgree first.tables second.tables

end Definition

end WithClause
