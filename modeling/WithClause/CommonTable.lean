/-
**Common tables.**

A common table is a named query of a WITH clause. Its content is its own query, another common
table, or the union of several; further tables may be attached to the content by UNION. A recursive
table has an anchor, which is united with all of that. A table is a tree, and its text, its bindings
and whether it sorts its rows are read off the tree.

* `bindings`: the bindings of the tables in the content, then those of the own query;
* `sortsRows`: whether one of the queries that the content comes down to sorts its rows;
* `sql`: the content, which must not sort its rows if anything is attached, and what is attached;
* `withElement`: the table as it stands in a WITH clause.
-/

import WithClause.Fault
import WithClause.Query.Call

namespace WithClause

/-- What makes a table recursive. -/
structure Anchor where
  sql : String := ""
  /-- Whether equal rows are kept once. -/
  distinct : Bool := false
deriving DecidableEq

mutual

/-- A named query of a WITH clause. -/
structure CommonTable where
  name : String
  query : Query
  /-- The names of the tables that have to come before. -/
  dependencies : List String
  columns : List String
  attached : List Branch
  anchor : Option Anchor
  content : Content

/-- A table attached by UNION. -/
structure Branch where
  table : CommonTable
  /-- Whether equal rows are all kept. -/
  all : Bool

/-- Where the text of a table comes from. -/
inductive Content where
  | own
  | another (inner : CommonTable)
  | several (parts : List CommonTable)

end

/-! ### The three readings of the tree -/

mutual

def CommonTable.bindings : CommonTable → OrderedMap Key Value
  | ⟨_, query, _, _, _, _, content⟩ => content.bindings.merge query.bindings

def Content.bindings : Content → OrderedMap Key Value
  | .own => ∅
  | .another inner => inner.bindings
  | .several parts => mergedBindings ∅ parts

/-- A map with the bindings of several tables merged into it, one after the other. -/
def mergedBindings (sofar : OrderedMap Key Value) : List CommonTable → OrderedMap Key Value
  | [] => sofar
  | part :: others => mergedBindings (sofar.merge part.bindings) others

end

mutual

def CommonTable.sortsRows : CommonTable → Bool
  | ⟨_, query, _, _, _, _, content⟩ => content.sortsRows query

def Content.sortsRows (query : Query) : Content → Bool
  | .own => query.sortsRows
  | .another inner => inner.sortsRows
  | .several parts => anySortsRows parts

def anySortsRows : List CommonTable → Bool
  | [] => false
  | part :: others => part.sortsRows || anySortsRows others

end

/-- The word between a table and one that is attached to it. -/
def Branch.word (all : Bool) : String := if all then " UNION ALL " else " UNION "

mutual

def CommonTable.sql : CommonTable → Except Fault String
  | ⟨name, query, _, _, attached, _, content⟩ => do
    let text ← content.sql query
    if attached.isEmpty then return text
    if content.sortsRows query then throw (.unionOfSorted name)
    let branches ← branchesSql attached
    return text ++ branches

def Content.sql (query : Query) : Content → Except Fault String
  | .own => .ok query.sql
  | .another inner => inner.sql
  | .several parts => do
    let texts ← partsSql parts
    return " UNION ".intercalate texts

def partsSql : List CommonTable → Except Fault (List String)
  | [] => .ok []
  | part :: others => do
    let text ← part.sql
    let texts ← partsSql others
    return text :: texts

/-- The texts of attached tables, each with the word before it. -/
def branchesSql : List Branch → Except Fault String
  | [] => .ok ""
  | ⟨table, all⟩ :: others => do
    let text ← table.sql
    let texts ← branchesSql others
    return Branch.word all ++ text ++ texts

end

namespace CommonTable

/-! ### Making and changing tables -/

/-- A table with its own query as its content. -/
def ofQuery (name : String) (query : Query) : CommonTable :=
  { name, query, dependencies := [], columns := [], attached := [], anchor := none,
    content := .own }

/-- A recursive table with an empty anchor. -/
def recursive (name : String) (query : Query) : CommonTable :=
  { ofQuery name query with anchor := some {} }

/-- Another table under a name, with an empty query of its own. -/
def ofTable (name : String) (inner : CommonTable) : CommonTable :=
  { ofQuery name ∅ with content := .another inner }

/-- The union of tables under a name, with an empty query of its own. -/
def ofTables (name : String) (first : CommonTable) (others : List CommonTable) : CommonTable :=
  { ofQuery name ∅ with content := .several (first :: others) }

def parts (table : CommonTable) : List CommonTable :=
  match table.content with
  | .own => []
  | .another inner => [inner]
  | .several parts => parts

def hasParts (table : CommonTable) : Bool :=
  match table.content with
  | .own => false
  | _ => true

def call (table : CommonTable) (call : Query.Call) : CommonTable :=
  { table with query := table.query.call call }

def dependOn (table : CommonTable) (names : List String) : CommonTable :=
  { table with dependencies := table.dependencies ++ names }

def nameColumns (table : CommonTable) (columns : List String) : CommonTable :=
  { table with columns }

/-- Attaches a table and binds its values in the own query too. -/
def attach (table : CommonTable) (attached : CommonTable) (all : Bool) : CommonTable :=
  { table with
    query := table.query.bindEach attached.bindings
    attached := table.attached ++ [⟨attached, all⟩] }

/-- Attaches tables in place of those attached before. -/
def attachOnly (table : CommonTable) (attached : List CommonTable) (all : Bool) : CommonTable :=
  attached.foldl (fun sofar other => sofar.attach other all) { table with attached := [] }

def isRecursive (table : CommonTable) : Bool := table.anchor.isSome

/-- The text that the recursion starts from, empty if there is none. -/
def anchorSql (table : CommonTable) : String := (table.anchor.getD {}).sql

def isDistinct (table : CommonTable) : Bool := (table.anchor.getD {}).distinct

/-- Sets the text that the recursion starts from, which makes the table recursive. -/
def setAnchor (table : CommonTable) (sql : String) : CommonTable :=
  { table with anchor := some { table.anchor.getD {} with sql } }

/-- Starts the recursion from the text of a query and binds its values in the own query too. -/
def anchorOn (table : CommonTable) (query : Query) : CommonTable :=
  { table with query := table.query.bindEach query.bindings }.setAnchor query.sql

def setDistinct (table : CommonTable) (distinct : Bool) : CommonTable :=
  { table with anchor := some { table.anchor.getD {} with distinct } }

/-! ### The table in a WITH clause -/

/-- The name with the names of the columns. -/
def heading (table : CommonTable) : String :=
  if table.columns.isEmpty then table.name
  else table.name ++ " (" ++ ", ".intercalate table.columns ++ ")"

/-- What stands between the parentheses: the text, after the anchor of a recursive table. -/
def definitionSql (table : CommonTable) (text : String) : String :=
  match table.anchor with
  | some anchor =>
    anchor.sql ++ (if anchor.distinct then " UNION " else " UNION ALL ") ++ text
  | none => text

def withElement (table : CommonTable) : Except Fault String := do
  let text ← table.sql
  return table.heading ++ " AS (" ++ table.definitionSql text ++ ")"

end CommonTable

end WithClause
