/-
**Queries by definition, clause by clause.**

A query definition is replayed by calls that add to a clause (`calls`). By hand one writes other
calls (`writtenOut`): the first one of a clause sets it, the conditions of a filter are put together
before, and the bindings are set at once. Either run has for each clause a few calls of its own
(`replayed`, `written`), so that on an empty query the clauses can be compared one by one.

All clauses come out alike but for the filters (`run_written`), and the filters have the same text
(`filterClause_set`). Hence the two queries have the same text (`sql_writtenOut`) and the same
bindings.
-/

import WithClause.Definition
import WithClause.Proofs.Query.Clauses

namespace WithClause

namespace Query

/-- The clauses in the order in which a definition goes through them. -/
def Clause.inOrder : List Clause :=
  [.columns, .sources, .joins, .filter, .grouping, .groupFilter, .ordering, .limit, .offset,
    .bindings]

/-- Calls that are laid out clause by clause come back clause by clause. -/
theorem callsOf_flatMap {calls : Clause → List Call}
    (own : ∀ clause, ∀ call ∈ calls clause, call.clause = clause) (clause : Clause) :
    callsOf clause (Clause.inOrder.flatMap calls) = calls clause := by
  have each (other : Clause) :
      callsOf clause (calls other) = if other = clause then calls clause else [] := by
    by_cases same : other = clause
    · subst same
      rw [if_pos rfl]
      exact List.filter_eq_self.mpr fun call member => decide_eq_true (own other call member)
    · rw [if_neg same]
      refine List.filter_eq_nil_iff.mpr fun call member here => same ?_
      exact (own other call member).symm.trans (of_decide_eq_true here)
  have split : callsOf clause (Clause.inOrder.flatMap calls) =
      Clause.inOrder.flatMap fun other => callsOf clause (calls other) := List.filter_flatMap ..
  rw [split]
  simp only [each]
  cases clause <;> simp [Clause.inOrder]

theorem only_run_flatMap {calls : Clause → List Call}
    (own : ∀ clause, ∀ call ∈ calls clause, call.clause = clause) (clause : Clause) :
    ((∅ : Query).run (Clause.inOrder.flatMap calls)).only clause =
      (∅ : Query).run (calls clause) := by
  rw [only_run, callsOf_flatMap own]
  cases clause <;> rfl

theorem filter_only (query : Query) : (query.only .filter).filter = query.filter := rfl

theorem groupFilter_only (query : Query) :
    (query.only .groupFilter).groupFilter = query.groupFilter := rfl

/-- Queries that agree in all clauses but the filters differ in their filters only. -/
theorem eq_of_only_eq {first second : Query}
    (same : ∀ clause, clause ≠ .filter → clause ≠ .groupFilter →
      first.only clause = second.only clause) :
    first = { second with filter := first.filter, groupFilter := first.groupFilter } := by
  apply ext_only
  intro clause
  cases clause with
  | filter => rfl
  | groupFilter => rfl
  | _ => exact same _ nofun nofun

/-- Of its filters a query shows the text. -/
theorem sql_of_filterClauses {query : Query} {filter groupFilter : Option Filter}
    (rows : filterClause " WHERE " filter = filterClause " WHERE " query.filter)
    (groups : filterClause " HAVING " groupFilter = filterClause " HAVING " query.groupFilter) :
    sql { query with filter := filter, groupFilter := groupFilter } = query.sql := by
  unfold sql
  rw [rows, groups]
  rfl

end Query

namespace QueryDefinition

open Query (Clause Call)

variable (definition : QueryDefinition)

/-- The calls for one clause among those that a definition stands for. -/
def replayed : Clause → List Call
  | .columns => if definition.columns.isEmpty then [] else [.select definition.columns]
  | .sources => (definition.table.map fun table => Call.addSource ⟨table, definition.label⟩).toList
  | .joins => definition.joins.map .addJoin
  | .filter => definition.filters.map (.addFilter .and)
  | .grouping => definition.grouping.map .addGroupBy
  | .groupFilter => definition.groupFilters.map (.addGroupFilter .and)
  | .ordering => definition.ordering.map (.addOrderBy · none)
  | .limit => (definition.limit.map .setLimit).toList
  | .offset => (definition.offset.map .setOffset).toList
  | .bindings => definition.bindings.entries.map fun binding => .bind (.named binding.1) binding.2

/-- One call for the first of several terms, and another one for each further term. -/
def startThenAdd (start add : String → Call) : List String → List Call
  | [] => []
  | first :: others => start first :: others.map add

/-- The calls for one clause as they are written by hand. -/
def written : Clause → List Call
  | .columns => if definition.columns.isEmpty then [] else [.select definition.columns]
  | .sources => (definition.table.map fun table => Call.addSource ⟨table, definition.label⟩).toList
  | .joins => definition.joins.map .addJoin
  | .filter =>
    if definition.filters.isEmpty then [] else [.setFilter (Condition.all definition.filters)]
  | .grouping => startThenAdd .groupBy .addGroupBy definition.grouping
  | .groupFilter =>
    if definition.groupFilters.isEmpty then []
    else [.setGroupFilter (Condition.all definition.groupFilters)]
  | .ordering => startThenAdd (.orderBy · none) (.addOrderBy · none) definition.ordering
  | .limit => (definition.limit.map .setLimit).toList
  | .offset => (definition.offset.map .setOffset).toList
  | .bindings =>
    [.setBindings (.ofList (definition.bindings.entries.map fun binding =>
      (.named binding.1, binding.2)))]

/-- The calls that one would write to build the query by hand. -/
def writtenOut : List Call := Clause.inOrder.flatMap definition.written

theorem calls_eq : definition.calls = Clause.inOrder.flatMap definition.replayed := by
  simp [calls, Clause.inOrder, replayed]

theorem clause_of_mem_replayed (clause : Clause) :
    ∀ call ∈ definition.replayed clause, call.clause = clause := by
  cases clause with
  | bindings => exact List.forall_mem_map.mpr fun _ _ => rfl
  | _ => simp [replayed, Call.clause]

theorem clause_of_mem_startThenAdd (start add : String → Call) {clause : Clause}
    (starts : ∀ term, (start term).clause = clause) (adds : ∀ term, (add term).clause = clause)
    (terms : List String) : ∀ call ∈ startThenAdd start add terms, call.clause = clause := by
  cases terms with
  | nil => exact fun call member => by cases member
  | cons first others =>
    exact List.forall_mem_cons.mpr ⟨starts first, List.forall_mem_map.mpr fun term _ => adds term⟩

theorem clause_of_mem_written (clause : Clause) :
    ∀ call ∈ definition.written clause, call.clause = clause := by
  cases clause with
  | grouping =>
    exact clause_of_mem_startThenAdd .groupBy .addGroupBy (fun _ => rfl) (fun _ => rfl) _
  | ordering =>
    exact clause_of_mem_startThenAdd (.orderBy · none) (.addOrderBy · none) (fun _ => rfl)
      (fun _ => rfl) _
  | _ => simp [written, Call.clause]

/-! ### The clauses -/

theorem only_run_calls (clause : Clause) :
    ((∅ : Query).run definition.calls).only clause =
      (∅ : Query).run (definition.replayed clause) := by
  rw [calls_eq]
  exact Query.only_run_flatMap definition.clause_of_mem_replayed clause

theorem only_run_writtenOut (clause : Clause) :
    ((∅ : Query).run definition.writtenOut).only clause =
      (∅ : Query).run (definition.written clause) :=
  Query.only_run_flatMap definition.clause_of_mem_written clause

/-- Values that are bound one after the other are bound as by the map that they leave behind. -/
theorem run_map_bind (query : Query) (entries : List (String × Value)) :
    query.run (entries.map fun binding => .bind (.named binding.1) binding.2) =
      { query with
        bindings := query.bindings.insertAll (entries.map fun binding =>
          (.named binding.1, binding.2)) } := by
  induction entries generalizing query with
  | nil => rfl
  | cons entry others ih => exact ih (query.bind (.named entry.1) entry.2)

/-- On an empty query it makes no difference whether the first term is set or added. -/
theorem run_startThenAdd (start add : String → Call)
    (same : ∀ term, (∅ : Query).call (start term) = (∅ : Query).call (add term))
    (terms : List String) :
    (∅ : Query).run (startThenAdd start add terms) = (∅ : Query).run (terms.map add) := by
  cases terms with
  | nil => rfl
  | cons first others =>
    show ((∅ : Query).call (start first)).run _ = _
    rw [same]
    rfl

/-- **Apart from the filters both runs make the same of each clause.** -/
theorem run_written {clause : Clause} (rows : clause ≠ .filter) (groups : clause ≠ .groupFilter) :
    (∅ : Query).run (definition.written clause) = (∅ : Query).run (definition.replayed clause) := by
  cases clause with
  | filter => exact absurd rfl rows
  | groupFilter => exact absurd rfl groups
  | grouping => exact run_startThenAdd .groupBy .addGroupBy (fun _ => rfl) definition.grouping
  | ordering =>
    exact run_startThenAdd (.orderBy · none) (.addOrderBy · none) (fun _ => rfl) definition.ordering
  | bindings =>
    rw [replayed, run_map_bind]
    rfl
  | _ => rfl

/-! ### The filters -/

/-- Conditions that are added one after the other make one chain. -/
theorem foldl_append_chain (first : Filter) (present others : List String) :
    others.foldl (fun sofar condition => some (Filter.append sofar .and condition))
        (some (.chain .and first present)) = some (.chain .and first (present ++ others)) := by
  induction others generalizing present with
  | nil => rw [List.append_nil, List.foldl_nil]
  | cons condition others ih =>
    rw [List.foldl_cons, Filter.append, if_pos rfl, ih, List.append_assoc]
    rfl

/-- **Conditions that are added one after the other have the text of their conjunction**, in either
filter of an empty query. -/
theorem filterClause_set (filter : Query → Option Filter) (set add : String → Call)
    (empty : filter ∅ = none)
    (sets : ∀ query condition, filter (Query.call query (set condition)) = some (.single condition))
    (adds : ∀ query condition, filter (Query.call query (add condition)) =
      some (Filter.append (filter query) .and condition))
    (keyword : String) (conditions : List String) :
    Query.filterClause keyword (filter ((∅ : Query).run
        (if conditions.isEmpty then [] else [set (Condition.all conditions)]))) =
      Query.filterClause keyword (filter ((∅ : Query).run (conditions.map add))) := by
  have added : filter ((∅ : Query).run (conditions.map add)) =
      conditions.foldl (fun sofar condition => some (Filter.append sofar .and condition)) none := by
    rw [Query.run, List.foldl_map, ← empty]
    exact (List.foldl_hom filter fun query condition => (adds query condition).symm).symm
  cases conditions with
  | nil => rfl
  | cons first others =>
    rw [added, List.foldl_cons]
    show Query.filterClause keyword (filter (Query.call ∅ (set _))) =
      Query.filterClause keyword (others.foldl _ (some (.chain .and (.single first) [])))
    rw [sets, foldl_append_chain]
    rfl

theorem filterClause_filter (keyword : String) :
    Query.filterClause keyword ((∅ : Query).run definition.writtenOut).filter =
      Query.filterClause keyword ((∅ : Query).run definition.calls).filter := by
  rw [← Query.filter_only (Query.run ∅ definition.writtenOut), only_run_writtenOut,
    ← Query.filter_only (Query.run ∅ definition.calls), only_run_calls]
  exact filterClause_set Query.filter .setFilter (.addFilter .and) rfl (fun _ _ => rfl)
    (fun _ _ => rfl) keyword definition.filters

theorem filterClause_groupFilter (keyword : String) :
    Query.filterClause keyword ((∅ : Query).run definition.writtenOut).groupFilter =
      Query.filterClause keyword ((∅ : Query).run definition.calls).groupFilter := by
  rw [← Query.groupFilter_only (Query.run ∅ definition.writtenOut), only_run_writtenOut,
    ← Query.groupFilter_only (Query.run ∅ definition.calls), only_run_calls]
  exact filterClause_set Query.groupFilter .setGroupFilter (.addGroupFilter .and) rfl
    (fun _ _ => rfl) (fun _ _ => rfl) keyword definition.groupFilters

/-! ### The whole query -/

/-- Both runs leave the same query behind but for its filters. -/
theorem run_writtenOut_eq :
    (∅ : Query).run definition.writtenOut =
      { (∅ : Query).run definition.calls with
        filter := ((∅ : Query).run definition.writtenOut).filter
        groupFilter := ((∅ : Query).run definition.writtenOut).groupFilter } := by
  refine Query.eq_of_only_eq fun clause rows groups => ?_
  rw [only_run_writtenOut, only_run_calls, definition.run_written rows groups]

/-- **A query that is written out by hand has the text of the definition.** -/
theorem sql_writtenOut :
    ((∅ : Query).run definition.writtenOut).sql = ((∅ : Query).run definition.calls).sql := by
  rw [run_writtenOut_eq]
  exact Query.sql_of_filterClauses (definition.filterClause_filter " WHERE ")
    (definition.filterClause_groupFilter " HAVING ")

theorem bindings_writtenOut :
    ((∅ : Query).run definition.writtenOut).bindings =
      ((∅ : Query).run definition.calls).bindings := by
  rw [run_writtenOut_eq]

end QueryDefinition

end WithClause
