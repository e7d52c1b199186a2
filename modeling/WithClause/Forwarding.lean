/-
**Building calls on what holds a query.**

A common table and a statement have a query of their own, and a query may be seen as its own. All of
them take the same building calls, with the arguments as the caller has them: a kind of join is a
call of its own, keys and values may be of any type that can become one, and values may be bound
from any list of pairs. Such a call is put into the form that a query takes (`Forwarded.toCall`) and
made on the query that is held. A placeholder that the query answers is not passed on.

* `HoldsQuery`: the query that something holds, and the same thing with another query in its place.
-/

import WithClause.Statement

namespace WithClause

/-- Types whose elements can be keys. -/
class ToKey (α : Type) where
  toKey : α → Key

export ToKey (toKey)

instance : ToKey Key := ⟨id⟩

instance : ToKey String := ⟨.named⟩

instance : ToKey Nat := ⟨.positional⟩

/-- A building call, with the arguments of the caller. -/
inductive Forwarded : Type 1 where
  | select (columns : List String)
  | addSelect (columns : List String)
  | source (table : String) (label : Option String)
  /-- The same as `innerJoin`. -/
  | join (origin table label condition : String)
  | innerJoin (origin table label condition : String)
  | leftJoin (origin table label condition : String)
  | rightJoin (origin table label condition : String)
  | setFilter (condition : String)
  | andFilter (condition : String)
  | orFilter (condition : String)
  | groupBy (term : String)
  | addGroupBy (term : String)
  | setGroupFilter (condition : String)
  | andGroupFilter (condition : String)
  | orGroupFilter (condition : String)
  | orderBy (term : String) (direction : Option String)
  | addOrderBy (term : String) (direction : Option String)
  | setOffset (rows : Nat)
  | setLimit (rows : Nat)
  | bind {κ ν : Type} [ToKey κ] [ToValue ν] (key : κ) (value : ν)
  /-- Binds values in the place of all that were bound; of one key the last value counts. -/
  | setBindings {κ ν : Type} [ToKey κ] [ToValue ν] (entries : List (κ × ν))
  | bindNamed {ν : Type} [ToValue ν] (value : ν) (placeholder : Option String)
  | bindPositional {ν : Type} [ToValue ν] (value : ν)

/-- The call on the query. -/
def Forwarded.toCall : Forwarded → Query.Call
  | select columns => .select columns
  | addSelect columns => .addSelect columns
  | source table label => .addSource { table, label }
  | join origin table label condition | innerJoin origin table label condition =>
    .addJoin { kind := .inner, origin, table, label, condition }
  | leftJoin origin table label condition =>
    .addJoin { kind := .left, origin, table, label, condition }
  | rightJoin origin table label condition =>
    .addJoin { kind := .right, origin, table, label, condition }
  | setFilter condition => .setFilter condition
  | andFilter condition => .addFilter .and condition
  | orFilter condition => .addFilter .or condition
  | groupBy term => .groupBy term
  | addGroupBy term => .addGroupBy term
  | setGroupFilter condition => .setGroupFilter condition
  | andGroupFilter condition => .addGroupFilter .and condition
  | orGroupFilter condition => .addGroupFilter .or condition
  | orderBy term direction => .orderBy term direction
  | addOrderBy term direction => .addOrderBy term direction
  | setOffset rows => .setOffset rows
  | setLimit rows => .setLimit rows
  | bind key value => .bind (toKey key) (toValue value)
  | setBindings entries =>
    .setBindings (.ofList (entries.map fun (key, value) => (toKey key, toValue value)))
  | bindNamed value placeholder => .bindNamed (toValue value) placeholder
  | bindPositional value => .bindPositional (toValue value)

/-- Types whose elements hold a query, which can be replaced. -/
class HoldsQuery (α : Type) where
  query : α → Query
  setQuery : α → Query → α
  query_setQuery (holder : α) (other : Query) : query (setQuery holder other) = other
  setQuery_setQuery (holder : α) (first second : Query) :
    setQuery (setQuery holder first) second = setQuery holder second
  setQuery_query (holder : α) : setQuery holder (query holder) = holder

/-- A query holds itself. -/
instance : HoldsQuery Query where
  query := id
  setQuery _ query := query
  query_setQuery _ _ := rfl
  setQuery_setQuery _ _ _ := rfl
  setQuery_query _ := rfl

instance : HoldsQuery CommonTable where
  query := CommonTable.query
  setQuery table query := { table with query }
  query_setQuery _ _ := rfl
  setQuery_setQuery _ _ _ := rfl
  setQuery_query table := by cases table; rfl

instance : HoldsQuery Statement where
  query := Statement.query
  setQuery statement query := { statement with query }
  query_setQuery _ _ := rfl
  setQuery_setQuery _ _ _ := rfl
  setQuery_query _ := rfl

namespace HoldsQuery

variable {α : Type} [HoldsQuery α]

/-- Makes a call on the query that is held. -/
def take (holder : α) (call : Forwarded) : α := setQuery holder ((query holder).call call.toCall)

def takeAll (holder : α) (calls : List Forwarded) : α := calls.foldl take holder

end HoldsQuery

end WithClause
