/-
**Building calls are passed through unchanged.**

What a building call does to a query is said once more, field by field (`Query.direct`). Made on
anything that holds a query, the call does this to the query that is held and nothing else
(`take_eq`), and so does a run of calls (`takeAll_eq`).

The main result, `Query.forwarded_everywhere`, compares a query with a table and a statement that
hold it. A table that is its own query reads as the query does. One that is made of others has the
text and the order of these whatever its own query becomes, and takes over the bindings alone. A
statement without tables has the text of the query without the blanks at its end.
-/

import WithClause.Forwarding
import WithClause.Proofs.Query.Fragment
import WithClause.Proofs.Statement.Text

namespace WithClause

/-! ### Calls field by field -/

namespace Query

/-- The query after a building call. -/
def direct (query : Query) : Forwarded → Query
  | Forwarded.select columns => { query with columns }
  | Forwarded.addSelect columns => { query with columns := query.columns ++ columns }
  | Forwarded.source table label => { query with sources := query.sources ++ [⟨table, label⟩] }
  | Forwarded.join origin table label condition | Forwarded.innerJoin origin table label condition =>
    { query with joins := query.joins ++ [⟨.inner, origin, table, label, condition⟩] }
  | Forwarded.leftJoin origin table label condition =>
    { query with joins := query.joins ++ [⟨.left, origin, table, label, condition⟩] }
  | Forwarded.rightJoin origin table label condition =>
    { query with joins := query.joins ++ [⟨.right, origin, table, label, condition⟩] }
  | Forwarded.setFilter condition => { query with filter := some (.single condition) }
  | Forwarded.andFilter condition => { query with filter := some (Filter.append query.filter .and condition) }
  | Forwarded.orFilter condition => { query with filter := some (Filter.append query.filter .or condition) }
  | Forwarded.groupBy term => { query with grouping := [term] }
  | Forwarded.addGroupBy term => { query with grouping := query.grouping ++ [term] }
  | Forwarded.setGroupFilter condition => { query with groupFilter := some (.single condition) }
  | Forwarded.andGroupFilter condition =>
    { query with groupFilter := some (Filter.append query.groupFilter .and condition) }
  | Forwarded.orGroupFilter condition =>
    { query with groupFilter := some (Filter.append query.groupFilter .or condition) }
  | Forwarded.orderBy term none => { query with ordering := [term] }
  | Forwarded.orderBy term (some direction) => { query with ordering := [term ++ " " ++ direction] }
  | Forwarded.addOrderBy term none => { query with ordering := query.ordering ++ [term] }
  | Forwarded.addOrderBy term (some direction) =>
    { query with ordering := query.ordering ++ [term ++ " " ++ direction] }
  | Forwarded.setOffset rows => { query with offset := some rows }
  | Forwarded.setLimit rows => { query with limit := some rows }
  | Forwarded.bind key value => { query with bindings := query.bindings.insert (toKey key) (toValue value) }
  | Forwarded.setBindings entries =>
    { query with
      bindings := entries.foldl (fun map (key, value) => map.insert (toKey key) (toValue value)) ∅ }
  | Forwarded.bindNamed value none =>
    let name := "dcValue" ++ (query.namedCount + 1).repr
    { query with
      bindings := query.bindings.insert (.named name) (toValue value)
      namedCount := query.namedCount + 1 }
  | Forwarded.bindNamed value (some placeholder) =>
    { query with bindings := query.bindings.insert (.named (nameOf placeholder)) (toValue value) }
  | Forwarded.bindPositional value =>
    { query with
      bindings := query.bindings.insert (.positional query.positionalCount) (toValue value)
      positionalCount := query.positionalCount + 1 }

/-- The query after a run of building calls. -/
def directAll (query : Query) (calls : List Forwarded) : Query := calls.foldl direct query

/-- **A call is put into the form that a query takes without a change of its meaning.** -/
theorem call_toCall (query : Query) (call : Forwarded) :
    query.call call.toCall = query.direct call := by
  cases call with
  | orderBy term direction | addOrderBy term direction => cases direction <;> rfl
  | setBindings entries =>
    show { query with bindings := OrderedMap.insertAll ∅ (entries.map _) } = _
    rw [OrderedMap.insertAll, List.foldl_map]
    rfl
  | bindNamed value placeholder =>
    cases placeholder with
    | some given => rfl
    | none =>
      show { query.bind (.named (nameOf (numbered (query.namedCount + 1)))) (toValue value) with
        namedCount := query.namedCount + 1 } = _
      rw [nameOf_numbered]
      rfl
  | _ => rfl

theorem run_toCall (query : Query) (calls : List Forwarded) :
    query.run (calls.map Forwarded.toCall) = query.directAll calls := by
  rw [run, List.foldl_map]
  simp only [call_toCall]
  rfl

end Query

/-! ### Calls on what holds a query -/

namespace HoldsQuery

variable {α : Type} [HoldsQuery α] (holder : α)

theorem take_eq (call : Forwarded) :
    take holder call = setQuery holder ((query holder).direct call) := by
  rw [take, Query.call_toCall]

/-- **A run of calls goes to the query that is held.** -/
theorem takeAll_eq (calls : List Forwarded) :
    takeAll holder calls = setQuery holder ((query holder).directAll calls) := by
  induction calls generalizing holder with
  | nil => exact (setQuery_query holder).symm
  | cons call others ih =>
    show takeAll (take holder call) others = _
    rw [ih, take_eq, query_setQuery, setQuery_setQuery]
    rfl

end HoldsQuery

/-! ### What is read off the holder -/

namespace CommonTable

variable (table : CommonTable) (query : Query)

/-- A table that is its own query has the bindings of the query. -/
theorem bindings_of_own (own : table.hasParts = false) :
    { table with query }.bindings = query.bindings := by
  obtain ⟨name, old, dependencies, columns, attached, anchor, _ | inner | parts⟩ := table
  · exact OrderedMap.ofList_entries query.bindings
  · cases own
  · cases own

theorem sql_of_own (own : table.hasParts = false) (alone : table.attached = []) :
    { table with query }.sql = .ok query.sql := by
  obtain ⟨name, old, dependencies, columns, attached, anchor, _ | inner | parts⟩ := table
  · cases alone
    rfl
  · cases own
  · cases own

/-- The own query of a table that is made of others is not read for its text. -/
theorem sql_of_parts (parts : table.hasParts = true) : { table with query }.sql = table.sql := by
  obtain ⟨name, old, dependencies, columns, attached, anchor, _ | inner | several⟩ := table
  · cases parts
  · rfl
  · rfl

theorem sortsRows_of_parts (parts : table.hasParts = true) :
    { table with query }.sortsRows = table.sortsRows := by
  obtain ⟨name, old, dependencies, columns, attached, anchor, _ | inner | several⟩ := table
  · cases parts
  · rfl
  · rfl

/-- What the own query binds is bound in the table. -/
theorem get?_bindings_of_own {key : Key} {value : Value}
    (bound : query.bindings.get? key = some value) :
    { table with query }.bindings.get? key = some value := by
  show (table.content.bindings.merge query.bindings).get? key = some value
  rw [OrderedMap.get?_merge, bound]
  rfl

end CommonTable

/-- A statement without tables has the text of its query, without the blanks at the end. -/
theorem Statement.sql_of_no_tables {statement : Statement} (none : statement.tables.entries = []) :
    statement.sql = .ok (Text.trimEnd statement.query.sql) := by
  have accepted : DependencyOrder.order CommonTable.dependencies statement.tables = .ok [] := by
    rw [DependencyOrder.order, none, DependencyOrder.rounds]
    rfl
  obtain ⟨letters, head⟩ := statement.query.sql_head
  unfold sql
  rw [withClause_of_nil accepted]
  exact congrArg Except.ok (Text.trim_blank_append head rfl)

/-- **Building calls are passed through unchanged.** After any run of building calls, a query, a
table and a statement that hold the same query all hold the query that the calls make of it, and
nothing else of the table or the statement is changed. A table that is its own query then has the
bindings of the query and, if nothing is attached, its text. A table that is made of others has the
same text and sorts its rows as before, and it has all that the query binds. A statement without
tables has the text of the query, without the blanks at its end. -/
theorem Query.forwarded_everywhere (query : Query) (calls : List Forwarded) :
    let after := query.directAll calls
    query.run (calls.map Forwarded.toCall) = after ∧
    HoldsQuery.takeAll query calls = after ∧
    (∀ table : CommonTable, table.query = query →
      let changed := HoldsQuery.takeAll table calls
      changed = { table with query := after } ∧
      (table.hasParts = false →
        changed.bindings = after.bindings ∧
        (table.attached = [] → changed.sql = .ok after.sql)) ∧
      (table.hasParts = true →
        changed.sql = table.sql ∧ changed.sortsRows = table.sortsRows ∧
        ∀ key value, after.bindings.get? key = some value →
          changed.bindings.get? key = some value)) ∧
    ∀ statement : Statement, statement.query = query →
      let changed := HoldsQuery.takeAll statement calls
      changed = { statement with query := after } ∧
      (statement.tables.entries = [] → changed.sql = .ok (Text.trimEnd after.sql)) := by
  intro after
  refine ⟨query.run_toCall calls, HoldsQuery.takeAll_eq query calls, ?_, ?_⟩
  · rintro table rfl changed
    have changed_eq : changed = { table with query := after } := HoldsQuery.takeAll_eq table calls
    rw [changed_eq]
    refine ⟨rfl, fun own => ?_, fun parts => ?_⟩
    · exact ⟨table.bindings_of_own after own, table.sql_of_own after own⟩
    · exact ⟨table.sql_of_parts after parts, table.sortsRows_of_parts after parts,
        fun _ _ => table.get?_bindings_of_own after⟩
  · rintro statement rfl changed
    have changed_eq : changed = { statement with query := after } :=
      HoldsQuery.takeAll_eq statement calls
    rw [changed_eq]
    exact ⟨rfl, fun none => Statement.sql_of_no_tables none⟩

open FromClause (attach follow takeFrom? arrangeRest joinsSql) in
/-- A table around another one keeps the text of the latter and takes over the value that a repeated
key had last. -/
theorem Query.forwarded_everywhere_around :
    let calls : List Forwarded := [.select ["a"], .source "t" none,
      .leftJoin "t" "u" "v" "v.id = t.id", .setBindings [("id", true), ("id", false)],
      .orderBy "a" (some "DESC")]
    let own := CommonTable.ofQuery "own" ∅
    let around := CommonTable.ofTable "around" own
    (HoldsQuery.takeAll own calls).sql =
      .ok "SELECT a FROM t LEFT JOIN u v ON v.id = t.id ORDER BY a DESC" ∧
    (HoldsQuery.takeAll around calls).sql = .ok "SELECT" ∧
    (HoldsQuery.takeAll around calls).bindings.get? (.named "id") = some (.bool false) ∧
    (HoldsQuery.takeAll (∅ : Statement) calls).sql =
      .ok "SELECT a FROM t LEFT JOIN u v ON v.id = t.id ORDER BY a DESC" := by
  intro calls own around
  obtain ⟨-, -, tables, statements⟩ := forwarded_everywhere ∅ calls
  have sources : FromClause.sql [⟨"t", none⟩] [⟨.left, "t", "u", "v", "v.id = t.id"⟩] =
      "t LEFT JOIN u v ON v.id = t.id" := by
    simp [FromClause.sql, attach, follow, takeFrom?, arrangeRest, joinsSql, Join.sql, JoinType.sql,
      Source.sql, Source.key]
  have text : ((∅ : Query).directAll calls).sql =
      "SELECT a FROM t LEFT JOIN u v ON v.id = t.id ORDER BY a DESC" := by
    have clause : ((∅ : Query).directAll calls).fromClause =
        " FROM t LEFT JOIN u v ON v.id = t.id" := congrArg (" FROM " ++ ·) sources
    rw [Query.sql, clause]
    rfl
  obtain ⟨-, same, -⟩ := tables own rfl
  obtain ⟨-, -, parts⟩ := tables around rfl
  obtain ⟨unchanged, -, bound⟩ := parts rfl
  refine ⟨?_, ?_, bound (.named "id") (.bool false) rfl, ?_⟩
  · rw [(same rfl).2 rfl, text]
  · rw [unchanged]
    rfl
  · rw [(statements ∅ rfl).2 rfl, text]
    rfl

end WithClause
