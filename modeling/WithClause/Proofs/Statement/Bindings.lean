/-
**The bindings of a statement.**

The bindings of a table come from the queries of its tree: those of the tables in the content, then
the own query. Merging them table by table leaves the same map as inserting the bindings of all
these queries in one row (`CommonTable.bindings_eq`), and so do the bindings of a statement, which
begins with the primary query (`Statement.bindings_eq`). What stands under a key, and where, is read
off that row (`Statement.bindings_replayed`).
-/

import WithClause.Proofs.OrderedMap.Merging
import WithClause.Statement

namespace WithClause

open OrderedMap (valuesOf)

mutual

/-- The queries that the bindings of a table come from, in the order of merging. -/
def CommonTable.bindingQueries : CommonTable → List Query
  | ⟨_, query, _, _, _, _, content⟩ => content.bindingQueries ++ [query]

def Content.bindingQueries : Content → List Query
  | .own => []
  | .another inner => inner.bindingQueries
  | .several parts => partsBindingQueries parts

def partsBindingQueries : List CommonTable → List Query
  | [] => []
  | part :: others => part.bindingQueries ++ partsBindingQueries others

end

theorem CommonTable.bindingQueries_eq (table : CommonTable) :
    table.bindingQueries = table.content.bindingQueries ++ [table.query] := by
  cases table
  rfl

theorem mem_partsBindingQueries (query : Query) (parts : List CommonTable) :
    query ∈ partsBindingQueries parts ↔ ∃ part ∈ parts, query ∈ part.bindingQueries := by
  induction parts with
  | nil => simp [partsBindingQueries]
  | cons part others ih =>
    rw [partsBindingQueries, List.mem_append, ih, List.exists_mem_cons_iff]

/-- The bindings of queries, one query after the other. -/
def bindingsInOrder (queries : List Query) : List (Key × Value) :=
  queries.flatMap fun query => query.bindings.entries

theorem bindingsInOrder_append (first second : List Query) :
    bindingsInOrder (first ++ second) = bindingsInOrder first ++ bindingsInOrder second :=
  List.flatMap_append

mutual

/-- **The bindings of a table are those of its queries in their order.** -/
theorem CommonTable.bindings_eq : ∀ table : CommonTable,
    table.bindings = .ofList (bindingsInOrder table.bindingQueries)
  | ⟨_, query, _, _, _, _, content⟩ => by
    rw [CommonTable.bindings, CommonTable.bindingQueries, content.bindings_eq,
      ← query.bindings.ofList_entries, OrderedMap.merge_ofList, bindingsInOrder_append]
    simp [bindingsInOrder]

theorem Content.bindings_eq : ∀ content : Content,
    content.bindings = .ofList (bindingsInOrder content.bindingQueries)
  | .own => rfl
  | .another inner => inner.bindings_eq
  | .several parts => mergedBindings_eq [] parts

theorem mergedBindings_eq (sofar : List (Key × Value)) : ∀ parts : List CommonTable,
    mergedBindings (.ofList sofar) parts =
      .ofList (sofar ++ bindingsInOrder (partsBindingQueries parts))
  | [] => by simp [mergedBindings, partsBindingQueries, bindingsInOrder]
  | part :: others => by
    rw [mergedBindings, part.bindings_eq, OrderedMap.merge_ofList, mergedBindings_eq _ others,
      partsBindingQueries, bindingsInOrder_append, List.append_assoc]

end

namespace Statement

/-- The queries that the bindings of a statement come from, in the order of merging. -/
def bindingQueries (statement : Statement) : List Query :=
  statement.query :: partsBindingQueries statement.tables.values

/-- **The bindings of a statement are those of its queries in their order.** -/
theorem bindings_eq (statement : Statement) :
    statement.bindings = .ofList (bindingsInOrder statement.bindingQueries) := by
  unfold bindings
  rw [← statement.query.bindings.ofList_entries, mergedBindings_eq]
  rfl

/-- **The bindings of a statement as one list.** The bindings of the primary query are inserted
first, then table by table those of the queries in its content and those of its own query. So each
key stands where it comes first in that list, with the value that it has there last. -/
theorem bindings_replayed (statement : Statement) :
    let log := bindingsInOrder statement.bindingQueries
    statement.bindings = .ofList log ∧
    statement.bindings.keys.Nodup ∧
    statement.bindings.keys = Key.distinct (log.map Prod.fst) ∧
    (∀ key value, (key, value) ∈ statement.bindings.entries ↔
      (valuesOf key log).getLast? = some value) ∧
    (∀ key, statement.binding? key = (valuesOf key log).getLast?) ∧
    ∀ key, statement.hasBinding key = true ↔ key ∈ log.map Prod.fst := by
  intro log
  have replayed : statement.bindings = .ofList log := statement.bindings_eq
  have value (key : Key) : statement.bindings.get? key = (valuesOf key log).getLast? := by
    rw [replayed, OrderedMap.get?_ofList]
  refine ⟨replayed, statement.bindings.keys_nodup, ?_, fun key one => ?_, value, fun key => ?_⟩
  · rw [replayed, OrderedMap.keys_ofList]
    rfl
  · rw [← OrderedMap.get?_eq_some_iff, value]
  · rw [hasBinding, OrderedMap.contains_iff, replayed, OrderedMap.mem_keys_ofList]

/-- The key of the primary query stays first and takes the value of a table; the value that a table
binds itself is taken over the one of its content. -/
example :
    let primary := (∅ : Query).bind (.named "y") (.int 0)
    let inner := CommonTable.ofQuery "b" ((∅ : Query).bind (.named "x") (.int 1))
    let outer := ((CommonTable.ofTable "a" inner).call (.bind (.named "y") (.int 2))).call
      (.bind (.named "x") (.int 3))
    let statement : Statement := { query := primary, tables := .ofList [("a", outer)] }
    statement.bindings.entries = [(.named "y", .int 2), (.named "x", .int 3)] := by
  rfl

end Statement

end WithClause
