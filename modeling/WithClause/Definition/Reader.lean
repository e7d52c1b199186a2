/-
**Reading definitions.**

A definition is a TOML document. A record is a table with its fields, of which those that are not
known are passed over, or an array with the fields in the order in which they are listed here. A
field that is missing takes its default. Bound values are scalars; a string that shows a timestamp
is that timestamp, and TOML's own dates and times are no bound values.
-/

import WithClause.Definition
import WithClause.Toml.Document

namespace WithClause.Definition

/-- The name of the one entry as which a date or time appears where a table is expected. -/
def momentField : String := "$__toml_private_datetime"

/-- The fields of a record with given names. -/
def record? (names : List String) : Toml.Value → Option (String → Option Toml.Value)
  | .table entries => some fun name =>
    (entries.find? fun entry => entry.1 == name).map Prod.snd
  | .array items => some fun name =>
    match names.idxOf? name with
    | some place => items[place]?
    | none => none
  | .moment _ => some fun _ => none
  | _ => none

/-- A field with a default. -/
def fieldOr {α : Type} (read : Toml.Value → Option α) (default : α) :
    Option Toml.Value → Option α
  | some value => read value
  | none => some default

/-- A field that may be missing. -/
def optionalField {α : Type} (read : Toml.Value → Option α) : Option Toml.Value → Option (Option α)
  | some value => (read value).map some
  | none => some none

def readText : Toml.Value → Option String
  | .text text => some text
  | _ => none

def readBool : Toml.Value → Option Bool
  | .bool truth => some truth
  | _ => none

/-- An integer that is not negative. -/
def readNat : Toml.Value → Option Nat
  | .integer number => if 0 ≤ number.toInt then some number.toInt.toNat else none
  | _ => none

def readList {α : Type} (read : Toml.Value → Option α) : Toml.Value → Option (List α)
  | .array items => items.mapM read
  | _ => none

def readBound : Toml.Value → Option WithClause.Value
  | .text text => some (.ofText text)
  | .integer number => some (.int number)
  | .float number => some (.float number)
  | .bool truth => some (.bool truth)
  | _ => none

def readBindings : Toml.Value → Option (OrderedMap String WithClause.Value)
  | .table entries => do
    let bound ← entries.mapM fun entry => (readBound entry.2).map (entry.1, ·)
    return .ofList bound
  | .moment text => some (.ofList [(momentField, .ofText text)])
  | _ => none

def joinTypeOfWord : String → Option JoinType
  | "inner" => some .inner
  | "left" => some .left
  | "right" => some .right
  | _ => none

/-- A kind of join: its word, or a table with nothing under its word. -/
def readJoinType : Toml.Value → Option JoinType
  | .text word => joinTypeOfWord word
  | .table [(word, .array [])] => joinTypeOfWord word
  | .table [(word, .table [])] => joinTypeOfWord word
  | _ => none

def readJoin (value : Toml.Value) : Option Join := do
  let field ← record? ["kind", "from_alias", "table", "alias", "on"] value
  let kind ← fieldOr readJoinType .inner (field "kind")
  let origin ← field "from_alias" >>= readText
  let table ← field "table" >>= readText
  let label ← field "alias" >>= readText
  let condition ← field "on" >>= readText
  return { kind, origin, table, label, condition }

def readQuery (value : Toml.Value) : Option QueryDefinition := do
  let field ← record? ["select", "from", "alias", "joins", "where", "group_by", "having",
    "order_by", "limit", "offset", "parameters"] value
  let columns ← fieldOr (readList readText) [] (field "select")
  let table ← optionalField readText (field "from")
  let label ← optionalField readText (field "alias")
  let joins ← fieldOr (readList readJoin) [] (field "joins")
  let filters ← fieldOr (readList readText) [] (field "where")
  let grouping ← fieldOr (readList readText) [] (field "group_by")
  let groupFilters ← fieldOr (readList readText) [] (field "having")
  let ordering ← fieldOr (readList readText) [] (field "order_by")
  let limit ← optionalField readNat (field "limit")
  let offset ← optionalField readNat (field "offset")
  let bindings ← fieldOr readBindings ∅ (field "parameters")
  return { columns, table, label, joins, filters, grouping, groupFilters, ordering, limit, offset,
           bindings }

def readTable (value : Toml.Value) : Option TableDefinition := do
  let field ← record? ["alias", "depends_on", "fields", "recursive", "initial_select",
    "unique_rows", "query"] value
  let name ← fieldOr readText "" (field "alias")
  let dependencies ← fieldOr (readList readText) [] (field "depends_on")
  let columns ← fieldOr (readList readText) [] (field "fields")
  let recursive ← fieldOr readBool false (field "recursive")
  let anchor ← optionalField readText (field "initial_select")
  let distinct ← fieldOr readBool false (field "unique_rows")
  let query ← fieldOr readQuery {} (field "query")
  return { name, dependencies, columns, recursive, anchor, distinct, query }

def read (value : Toml.Value) : Option Definition := do
  let field ← record? ["query", "expressions"] value
  let query ← fieldOr readQuery {} (field "query")
  let tables ← fieldOr (readList readTable) [] (field "expressions")
  return { query, tables }

/-- The definition of a TOML document. -/
def ofToml (text : String) : Except Fault Definition :=
  match Toml.ofText? text >>= read with
  | some definition => .ok definition
  | none => .error (.definition "Failed to parse TOML")

/-- The definition of a file, from its bytes if there is such a file. -/
def ofFile : Option ByteArray → Except Fault Definition
  | none => .error (.file "No such file or directory (os error 2)")
  | some bytes =>
    match String.fromUTF8? bytes with
    | some text => ofToml text
    | none => .error (.file "stream did not contain valid UTF-8")

end WithClause.Definition
