/-
**Statements by definition, written out by hand.**

A definition stands for the calls that one would write to build the same statement by hand
(`Definition.writtenOut`): those of its primary query, then for each table one that registers it and
those that fill it in. A table is registered as a recursive one if its definition says so, has an
anchor, or asks for distinct rows.

Either way a table has the same shape around its query (`finished`), and the queries have the same
text and the same bindings. The main result, `toStatement_writtenOut`, compares the statements.
-/

import WithClause.Proofs.Definition.Clauses
import WithClause.Proofs.Statement.Outline
import WithClause.Proofs.Statement.Registry

namespace WithClause

/-! ### Tables -/

namespace TableDefinition

variable (definition : TableDefinition)

/-- Whether a definition makes its table recursive. -/
def makesRecursive : Bool :=
  definition.recursive || definition.anchor.isSome || definition.distinct

/-- The calls that fill in a table by hand. -/
def edits : List CommonTable.Edit :=
  definition.query.writtenOut.map .call ++
    [.dependOn definition.dependencies, .nameColumns definition.columns] ++
    (definition.anchor.map .setAnchor).toList ++
    if definition.distinct then [.setDistinct true] else []

/-- The calls that register a table and fill it in by hand. -/
def writtenOut : List Statement.Call :=
  (if definition.makesRecursive then .addRecursive definition.name
    else .addEmpty definition.name) ::
    definition.edits.map (.edit definition.name)

/-- The table as it is registered by hand, before it is filled in. -/
def start : CommonTable :=
  if definition.makesRecursive then .recursive definition.name ∅ else .ofQuery definition.name ∅

/-- The table of a definition around a query. -/
def finished (query : Query) : CommonTable where
  name := definition.name
  query := query
  dependencies := definition.dependencies
  columns := definition.columns
  attached := []
  anchor :=
    if definition.makesRecursive then some ⟨definition.anchor.getD "", definition.distinct⟩
    else none
  content := .own

theorem name_start : definition.start.name = definition.name := by
  unfold start
  split <;> rfl

theorem toTable_eq :
    definition.toTable ∅ = definition.finished ((∅ : Query).run definition.query.calls) := by
  obtain ⟨name, dependencies, columns, recursive, anchor, distinct, query⟩ := definition
  cases recursive <;> cases anchor <;> cases distinct <;> rfl

theorem foldl_edits :
    definition.edits.foldl CommonTable.edit definition.start =
      definition.finished ((∅ : Query).run definition.query.writtenOut) := by
  have filled : (definition.query.writtenOut.map CommonTable.Edit.call).foldl CommonTable.edit
      definition.start = { definition.start with
        query := definition.start.query.run definition.query.writtenOut } := by
    rw [List.foldl_map]
    exact definition.start.foldl_call definition.query.writtenOut
  rw [edits, List.append_assoc, List.append_assoc, List.foldl_append, filled]
  obtain ⟨name, dependencies, columns, recursive, anchor, distinct, query⟩ := definition
  cases recursive <;> cases anchor <;> cases distinct <;> rfl

/-- A table of this shape shows of its query the text only. -/
theorem outline_finished {first second : Query} (same : first.sql = second.sql) :
    (definition.finished first).outline = (definition.finished second).outline := by
  have element : (definition.finished first).withElement =
      (definition.finished second).withElement := by
    show Except.ok (_ ++ _ ++ CommonTable.definitionSql _ first.sql ++ _) =
      Except.ok (_ ++ _ ++ CommonTable.definitionSql _ second.sql ++ _)
    rw [same]
    rfl
  unfold CommonTable.outline
  rw [element]
  rfl

theorem bindings_finished (query : Query) :
    (definition.finished query).bindings = query.bindings :=
  query.bindings.ofList_entries

end TableDefinition

/-! ### Runs without a fault -/

namespace Statement

/-- The statement after calls that all succeed, or the first fault. -/
def performAll (statement : Statement) (calls : List Call) : Except Fault Statement :=
  calls.foldlM perform statement

section PerformAll

variable (statement : Statement)

theorem performAll_calls (calls : List Query.Call) :
    statement.performAll (calls.map .call) =
      .ok { statement with query := statement.query.run calls } := by
  induction calls generalizing statement with
  | nil => rfl
  | cons call others ih => exact ih (statement.call call)

theorem performAll_edits (name : String) (table : CommonTable) (edits : List CommonTable.Edit) :
    performAll { statement with tables := statement.tables.insert name table }
        (edits.map (.edit name)) =
      .ok { statement with
        tables := statement.tables.insert name (edits.foldl CommonTable.edit table) } := by
  induction edits generalizing table with
  | nil => rfl
  | cons edit others ih =>
    have known : name ∈ names { statement with tables := statement.tables.insert name table } :=
      (OrderedMap.mem_keys_insert _ _ _ _).mpr (.inr rfl)
    have first : perform { statement with tables := statement.tables.insert name table }
        (.edit name edit) =
        .ok { statement with tables := statement.tables.insert name (table.edit edit) } := by
      rw [perform, update_eq, if_pos known, OrderedMap.modify_insert]
    rw [performAll, List.map_cons, List.foldlM_cons, first]
    exact ih (table.edit edit)

/-- **Registering a table and filling it in registers the finished one.** -/
theorem performAll_writtenOut (definition : TableDefinition) :
    statement.performAll definition.writtenOut =
      statement.add (definition.finished ((∅ : Query).run definition.query.writtenOut)) := by
  have registered : statement.perform
      (if definition.makesRecursive then .addRecursive definition.name
        else .addEmpty definition.name) = statement.add definition.start := by
    unfold TableDefinition.start
    split <;> rfl
  have name : (definition.finished ((∅ : Query).run definition.query.writtenOut)).name =
      definition.name := rfl
  -- Both are refused for the same reasons, which look at the name alone.
  rw [performAll, TableDefinition.writtenOut, List.foldlM_cons, registered, add_eq, add_eq,
    definition.name_start, name]
  split_ifs
  · rfl
  · rfl
  · exact (statement.performAll_edits _ definition.start definition.edits).trans
      (by rw [definition.foldl_edits])

theorem performAll_flatMap (tables : List TableDefinition) :
    statement.performAll (tables.flatMap TableDefinition.writtenOut) =
      tables.foldlM (fun sofar table =>
        sofar.add (table.finished ((∅ : Query).run table.query.writtenOut))) statement := by
  induction tables generalizing statement with
  | nil => rfl
  | cons first others ih =>
    rw [List.flatMap_cons, performAll, List.foldlM_append, List.foldlM_cons,
      ← statement.performAll_writtenOut first]
    exact congrArg (statement.performAll first.writtenOut >>= ·) (funext ih)

end PerformAll

/-- **Tables with fresh names are all registered, in their order.** -/
theorem foldlM_add (statement : Statement) {table : TableDefinition → CommonTable}
    (own : ∀ definition, (table definition).name = definition.name)
    {definitions : List TableDefinition}
    (named : ∀ definition ∈ definitions, definition.name ≠ "")
    (distinct : (definitions.map TableDefinition.name).Nodup)
    (fresh : ∀ definition ∈ definitions, definition.name ∉ statement.names) :
    definitions.foldlM (fun sofar definition => sofar.add (table definition)) statement =
      .ok { statement with
        tables := statement.tables.insertAll
          (definitions.map fun definition => (definition.name, table definition)) } := by
  induction definitions generalizing statement with
  | nil => rfl
  | cons first others ih =>
    obtain ⟨firstNamed, othersNamed⟩ := List.forall_mem_cons.mp named
    obtain ⟨firstFresh, othersFresh⟩ := List.forall_mem_cons.mp fresh
    obtain ⟨apart, distinct⟩ := List.nodup_cons.mp distinct
    have added : statement.add (table first) =
        .ok { statement with tables := statement.tables.insert first.name (table first) } := by
      rw [add_eq, own, if_neg firstNamed, if_neg firstFresh]
    -- The other names stay fresh, since no two tables have one name.
    have stillFresh : ∀ definition ∈ others, definition.name ∉
        names { statement with tables := statement.tables.insert first.name (table first) } := by
      intro definition member
      rw [names_insert firstFresh, List.mem_append, List.mem_singleton]
      rintro (before | same)
      · exact othersFresh definition member before
      · exact apart (same ▸ List.mem_map_of_mem member)
    rw [List.foldlM_cons, added]
    exact ih _ othersNamed distinct stillFresh

end Statement

/-! ### Statements -/

namespace Definition

variable (definition : Definition)

/-- The calls that one would write to build the statement by hand. -/
def writtenOut : List Statement.Call :=
  definition.query.writtenOut.map .call ++ definition.tables.flatMap TableDefinition.writtenOut

/-- The statement of a definition, given what becomes of each query definition. -/
def around (query : QueryDefinition → Query) : Statement where
  query := query definition.query
  tables := .ofList (definition.tables.map fun table =>
    (table.name, table.finished (query table.query)))

/-- What is the same of every table around either query is the same in the whole registry. -/
theorem mapValues_around {γ : Type} (look : CommonTable → γ)
    (first second : QueryDefinition → Query)
    (same : ∀ table : TableDefinition,
      look (table.finished (first table.query)) = look (table.finished (second table.query))) :
    (definition.around first).tables.mapValues look =
      (definition.around second).tables.mapValues look := by
  unfold around
  rw [OrderedMap.mapValues_ofList, OrderedMap.mapValues_ofList, List.map_map, List.map_map]
  refine congrArg OrderedMap.ofList (List.map_congr_left fun table _ => ?_)
  exact congrArg (table.name, ·) (same table)

section Around

variable {first second : QueryDefinition → Query}

/-- **The text shows the text of the queries only.** -/
theorem sql_around (same : ∀ query, (first query).sql = (second query).sql) :
    (definition.around first).sql = (definition.around second).sql :=
  Statement.sql_congr (same definition.query)
    (definition.mapValues_around CommonTable.outline first second fun table =>
      table.outline_finished (same table.query))

theorem bindings_around (same : ∀ query, (first query).bindings = (second query).bindings) :
    (definition.around first).bindings = (definition.around second).bindings :=
  Statement.bindings_congr (same definition.query)
    (definition.mapValues_around CommonTable.bindings first second fun table => by
      rw [table.bindings_finished, table.bindings_finished, same])

theorem names_around : (definition.around first).names = (definition.around second).names := by
  have keys := congrArg OrderedMap.keys
    (definition.mapValues_around CommonTable.name first second fun _ => rfl)
  rwa [OrderedMap.keys_mapValues, OrderedMap.keys_mapValues] at keys

/-- What does not look at the query of a table is found alike under each name. -/
theorem map_get?_around {γ : Type} (look : CommonTable → γ)
    (same : ∀ (table : TableDefinition) (one other : Query),
      look (table.finished one) = look (table.finished other)) (name : String) :
    ((definition.around first).tables.get? name).map look =
      ((definition.around second).tables.get? name).map look := by
  rw [← OrderedMap.get?_mapValues, ← OrderedMap.get?_mapValues,
    definition.mapValues_around look first second fun table => same table _ _]

end Around

section Distinct

variable {definition : Definition} (named : ∀ table ∈ definition.tables, table.name ≠ "")
  (distinct : (definition.tables.map TableDefinition.name).Nodup)
include named distinct

/-- Registering the tables one after the other makes the statement around their queries. -/
theorem foldlM_around (query : QueryDefinition → Query) :
    definition.tables.foldlM (fun sofar table => sofar.add (table.finished (query table.query)))
        (Statement.ofQuery (query definition.query)) = .ok (definition.around query) := by
  have fresh : ∀ table ∈ definition.tables,
      table.name ∉ (Statement.ofQuery (query definition.query)).names := by
    intro table member there
    cases there
  exact Statement.foldlM_add _ (fun _ => rfl) named distinct fresh

theorem toStatement_eq :
    definition.toStatement ∅ =
      .ok (definition.around fun query => (∅ : Query).run query.calls) := by
  unfold toStatement
  simp only [TableDefinition.toTable_eq]
  exact foldlM_around named distinct fun query => (∅ : Query).run query.calls

theorem performAll_writtenOut_eq :
    (∅ : Statement).performAll definition.writtenOut =
      .ok (definition.around fun query => (∅ : Query).run query.writtenOut) := by
  rw [Statement.performAll, writtenOut, List.foldlM_append]
  show ((∅ : Statement).performAll _ >>= fun sofar => sofar.performAll _) = _
  rw [Statement.performAll_calls]
  show Statement.performAll _ _ = _
  rw [Statement.performAll_flatMap]
  exact foldlM_around named distinct fun query => (∅ : Query).run query.writtenOut

/-- **A definition builds what its calls build by hand.** If the names of the tables are distinct
and not empty, both succeed, and the statements have the same text or the same fault, the same
bindings in the same order, and the same names; the tables under a name have the same dependencies
and columns, and are both recursive or both not. -/
theorem toStatement_writtenOut :
    ∃ built written : Statement,
      definition.toStatement ∅ = .ok built ∧
      (∅ : Statement).performAll definition.writtenOut = .ok written ∧
      built.sql = written.sql ∧
      built.bindings = written.bindings ∧
      built.names = written.names ∧
      ∀ name,
        (built.tables.get? name).map CommonTable.dependencies =
          (written.tables.get? name).map CommonTable.dependencies ∧
        (built.tables.get? name).map CommonTable.columns =
          (written.tables.get? name).map CommonTable.columns ∧
        (built.tables.get? name).map CommonTable.isRecursive =
          (written.tables.get? name).map CommonTable.isRecursive := by
  have sql (query : QueryDefinition) := query.sql_writtenOut.symm
  have bindings (query : QueryDefinition) := query.bindings_writtenOut.symm
  refine ⟨_, _, toStatement_eq named distinct, performAll_writtenOut_eq named distinct,
    definition.sql_around sql, definition.bindings_around bindings, definition.names_around,
    fun name => ⟨?_, ?_, ?_⟩⟩
  · exact definition.map_get?_around CommonTable.dependencies (fun _ _ _ => rfl) name
  · exact definition.map_get?_around CommonTable.columns (fun _ _ _ => rfl) name
  · exact definition.map_get?_around CommonTable.isRecursive (fun _ _ _ => rfl) name

end Distinct

/-- A recursive table which counts between two bounds that another table holds. -/
def counting : Definition where
  query := { columns := ["n"], table := some "numbers", limit := some 5, offset := some 0 }
  tables := [
    { name := "numbers", dependencies := ["bounds"], columns := ["n"], anchor := some "SELECT 0",
      distinct := true
      query := {
        columns := ["n + 1"], table := some "numbers", filters := ["n < high", "n >= low"],
        joins := [⟨.left, "numbers", "bounds", "b", "TRUE"⟩] } },
    { name := "bounds"
      query := {
        columns := [":low AS low", ":high AS high"],
        bindings := .ofList [(":low", .int 0), (":high", .int 9)] } }]

theorem toStatement_writtenOut_counting :
    (∀ table ∈ counting.tables, table.name ≠ "") ∧
    (counting.tables.map TableDefinition.name).Nodup ∧
    ∃ built written : Statement,
      counting.toStatement ∅ = .ok built ∧
      (∅ : Statement).performAll counting.writtenOut = .ok written ∧
      built.sql = written.sql ∧
      written.bindings.keys = [.named ":low", .named ":high"] ∧
      written.names = ["numbers", "bounds"] ∧
      (written.tables.get? "numbers").map CommonTable.isRecursive = some true := by
  have named : ∀ table ∈ counting.tables, table.name ≠ "" := by decide
  have distinct : (counting.tables.map TableDefinition.name).Nodup := by decide
  obtain ⟨built, written, defined, byHand, sql, bindings, names, found⟩ :=
    toStatement_writtenOut named distinct
  obtain ⟨-, -, recursive⟩ := found "numbers"
  refine ⟨named, distinct, built, written, defined, byHand, sql, ?_, ?_, ?_⟩
  · rw [← bindings, ← Except.ok.inj defined]
    rfl
  · rw [← names, ← Except.ok.inj defined]
    rfl
  · rw [← recursive, ← Except.ok.inj defined]
    rfl

end Definition

end WithClause
