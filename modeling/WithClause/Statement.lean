/-
**Statements with common tables.**

A statement is a primary query and the common tables registered with it. A table is registered
under its name, once; registered tables keep their order. In the text the tables stand in
dependency order, before the primary query.
-/

import WithClause.CommonTable
import WithClause.DependencyOrder

namespace WithClause

/-- A primary query with common tables. -/
structure Statement where
  query : Query := ∅
  /-- The registered tables, each under the name it was registered with. -/
  tables : OrderedMap String CommonTable := ∅

namespace Statement

def ofQuery (query : Query) : Statement := { query }

instance : EmptyCollection Statement := ⟨ofQuery ∅⟩

/-- The statement without its tables and with an empty query. -/
def clear (_ : Statement) : Statement := ∅

def call (statement : Statement) (call : Query.Call) : Statement :=
  { statement with query := statement.query.call call }

/-! ### The registered tables -/

/-- Registers a table under its name. -/
def add (statement : Statement) (table : CommonTable) : Except Fault Statement :=
  if table.name = "" then .error .noName
  else if statement.tables.contains table.name then .error (.nameTaken table.name)
  else .ok { statement with tables := statement.tables.insert table.name table }

def addEmpty (statement : Statement) (name : String) : Except Fault Statement :=
  statement.add (.ofQuery name ∅)

def addRecursive (statement : Statement) (name : String) : Except Fault Statement :=
  statement.add (.recursive name ∅)

def find (statement : Statement) (name : String) : Except Fault CommonTable :=
  match statement.tables.get? name with
  | some table => .ok table
  | none => .error (.unknownName name)

def isRegistered (statement : Statement) (name : String) : Bool := statement.tables.contains name

def update (statement : Statement) (name : String) (change : CommonTable → CommonTable) :
    Except Fault Statement :=
  if statement.isRegistered name then
    .ok { statement with tables := statement.tables.modify name change }
  else .error (.unknownName name)

/-- Puts a table in the place of the one registered under its name, which is answered too. -/
def replace (statement : Statement) (table : CommonTable) :
    Except Fault (CommonTable × Statement) := do
  let replaced ← statement.find table.name
  let changed ← statement.update table.name fun _ => table
  return (replaced, changed)

def names (statement : Statement) : List String := statement.tables.keys

/-! ### Bindings -/

/-- The bindings of the primary query, then those of each table in the order of registration. -/
def bindings (statement : Statement) : OrderedMap Key Value :=
  mergedBindings statement.query.bindings statement.tables.values

def binding? (statement : Statement) (key : Key) : Option Value := statement.bindings.get? key

def hasBinding (statement : Statement) (key : Key) : Bool := statement.bindings.contains key

/-! ### Text -/

/-- The tables in dependency order. -/
def ordered (statement : Statement) : Except Fault (List CommonTable) :=
  match DependencyOrder.order CommonTable.dependencies statement.tables with
  | .ok entries => .ok (entries.map Prod.snd)
  | .error cause => .error (.noOrder cause)

/-- The word before the tables of a WITH clause. -/
def withKeyword (tables : List CommonTable) : String :=
  if tables.any CommonTable.isRecursive then "WITH RECURSIVE " else "WITH "

/-- The WITH clause, empty without tables. -/
def withClause (statement : Statement) : Except Fault String := do
  let tables ← statement.ordered
  if tables.isEmpty then return ""
  let texts ← tables.mapM CommonTable.withElement
  return withKeyword tables ++ ", ".intercalate texts

def sql (statement : Statement) : Except Fault String := do
  let clause ← statement.withClause
  return Text.trim (clause ++ " " ++ statement.query.sql)

end Statement

end WithClause
