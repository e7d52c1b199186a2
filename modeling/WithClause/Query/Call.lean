/-
**Building calls as data.**

Each call that builds a query is a value, so that a run of calls is a list. A call that answers a
placeholder has the answer in `placeholder?`.
-/

import WithClause.Query

namespace WithClause

/-- A call that changes a query. -/
inductive Query.Call where
  | select (columns : List String)
  | addSelect (columns : List String)
  | addSource (source : Source)
  | addJoin (join : Join)
  | setFilter (condition : String)
  | addFilter (connective : Connective) (condition : String)
  | groupBy (term : String)
  | addGroupBy (term : String)
  | setGroupFilter (condition : String)
  | addGroupFilter (connective : Connective) (condition : String)
  | orderBy (term : String) (direction : Option String)
  | addOrderBy (term : String) (direction : Option String)
  | setOffset (rows : Nat)
  | setLimit (rows : Nat)
  | bind (key : Key) (value : Value)
  | setBindings (bindings : OrderedMap Key Value)
  | bindNamed (value : Value) (placeholder : Option String)
  | bindPositional (value : Value)

namespace Query

/-- A term after ORDER BY with its direction. -/
def directed (term : String) : Option String → String
  | some direction => term ++ " " ++ direction
  | none => term

def call (query : Query) : Call → Query
  | .select columns => { query with columns }
  | .addSelect columns => { query with columns := query.columns ++ columns }
  | .addSource source => { query with sources := query.sources ++ [source] }
  | .addJoin join => { query with joins := query.joins ++ [join] }
  | .setFilter condition => { query with filter := some (.single condition) }
  | .addFilter connective condition =>
    { query with filter := some (Filter.append query.filter connective condition) }
  | .groupBy term => { query with grouping := [term] }
  | .addGroupBy term => { query with grouping := query.grouping ++ [term] }
  | .setGroupFilter condition => { query with groupFilter := some (.single condition) }
  | .addGroupFilter connective condition =>
    { query with groupFilter := some (Filter.append query.groupFilter connective condition) }
  | .orderBy term direction => { query with ordering := [directed term direction] }
  | .addOrderBy term direction =>
    { query with ordering := query.ordering ++ [directed term direction] }
  | .setOffset rows => { query with offset := some rows }
  | .setLimit rows => { query with limit := some rows }
  | .bind key value => query.bind key value
  | .setBindings bindings => { query with bindings }
  | .bindNamed value placeholder => (query.bindNamed value placeholder).2
  | .bindPositional value => (query.bindPositional value).2

/-- The placeholder that a call answers, if it is one that binds to a placeholder. -/
def placeholder? (query : Query) : Call → Option String
  | .bindNamed value placeholder => some (query.bindNamed value placeholder).1
  | .bindPositional value => some (query.bindPositional value).1
  | _ => none

/-- The query after a run of calls. -/
def run (query : Query) (calls : List Call) : Query := calls.foldl call query

end Query

end WithClause
