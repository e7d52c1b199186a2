/-
**Queries put together clause by clause.**

A query keeps what each of its clauses was given and the values bound to its placeholders. Its text
has the clauses in the order of SQL, without those that were given nothing; a query that was given
nothing is the bare word SELECT.

Placeholders are numbered by two counters of the query. A named placeholder that is not chosen by
the caller is `:dcValue` with the next number, from one; a positional one is `?`, and its value is
bound to the next place, from zero.
-/

import WithClause.FromClause
import WithClause.Key
import WithClause.OrderedMap
import WithClause.Filter
import WithClause.Value

namespace WithClause

/-- A SELECT query. -/
structure Query where
  columns : List String := []
  sources : List Source := []
  /-- The joins, in the order in which they were added. -/
  joins : List Join := []
  filter : Option Filter := none
  grouping : List String := []
  /-- The filter after HAVING. -/
  groupFilter : Option Filter := none
  ordering : List String := []
  limit : Option Nat := none
  offset : Option Nat := none
  /-- The bound values, in the order in which their keys were first bound. -/
  bindings : OrderedMap Key Value := ∅
  /-- How many named placeholders were numbered. -/
  namedCount : Nat := 0
  /-- How many positional placeholders were numbered. -/
  positionalCount : Nat := 0

namespace Query

def empty : Query := {}

instance : EmptyCollection Query := ⟨empty⟩

instance : Inhabited Query := ⟨empty⟩

/-! ### Text -/

/-- A clause with a list, or nothing where the list is empty. -/
def listClause (keyword : String) (items : List String) : String :=
  if items.isEmpty then "" else keyword ++ ", ".intercalate items

def filterClause (keyword : String) : Option Filter → String
  | some filter => keyword ++ filter.sql
  | none => ""

def fromClause (query : Query) : String :=
  if query.sources.isEmpty && query.joins.isEmpty then ""
  else " FROM " ++ FromClause.sql query.sources query.joins

def limitClause (query : Query) : String :=
  match query.limit with
  | some rows => " LIMIT " ++ rows.repr
  | none => ""

/-- The OFFSET clause; passing over no row needs none. -/
def offsetClause (query : Query) : String :=
  match query.offset with
  | some rows => if rows = 0 then "" else " OFFSET " ++ rows.repr
  | none => ""

def sql (query : Query) : String :=
  "SELECT" ++ listClause " " query.columns ++ query.fromClause ++
    filterClause " WHERE " query.filter ++ listClause " GROUP BY " query.grouping ++
    filterClause " HAVING " query.groupFilter ++ listClause " ORDER BY " query.ordering ++
    query.limitClause ++ query.offsetClause

def sortsRows (query : Query) : Bool := !query.ordering.isEmpty

/-! ### Bindings -/

def bind (query : Query) (key : Key) (value : Value) : Query :=
  { query with bindings := query.bindings.insert key value }

/-- Binds the values of a map, in its order. -/
def bindEach (query : Query) (bindings : OrderedMap Key Value) : Query :=
  { query with bindings := query.bindings.merge bindings }

/-- The name that a placeholder stands for: its text without one colon in front. -/
def nameOf (placeholder : String) : String :=
  match placeholder.toList with
  | ':' :: letters => String.ofList letters
  | _ => placeholder

/-- The named placeholder with a number. -/
def numbered (number : Nat) : String := ":dcValue" ++ number.repr

/-- Binds a value to a named placeholder, the next numbered one if none is given, and answers the
placeholder. -/
def bindNamed (query : Query) (value : Value) (placeholder : Option String) : String × Query :=
  match placeholder with
  | some given => (given, query.bind (.named (nameOf given)) value)
  | none =>
    let count := query.namedCount + 1
    (numbered count,
      { query.bind (.named (nameOf (numbered count))) value with namedCount := count })

/-- Binds a value to the next place, and answers its placeholder. -/
def bindPositional (query : Query) (value : Value) : String × Query :=
  ("?", { query.bind (.positional query.positionalCount) value with
    positionalCount := query.positionalCount + 1 })

/-! ### Comparison -/

/-- Equality of queries: the same clauses and counters, and agreeing bindings in any order. -/
def agrees (first second : Query) : Bool :=
  first.columns == second.columns && first.sources == second.sources &&
    first.joins == second.joins && first.filter == second.filter &&
    first.grouping == second.grouping && first.groupFilter == second.groupFilter &&
    first.ordering == second.ordering && first.limit == second.limit &&
    first.offset == second.offset &&
    OrderedMap.equalBy Value.agrees first.bindings second.bindings &&
    first.namedCount == second.namedCount && first.positionalCount == second.positionalCount

end Query

end WithClause
