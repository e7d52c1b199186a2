/-
**TOML documents.**

A document is read into lines: headers, and assignments of a value to a key. Arrays and inline
tables are nested to a depth of 79 at most, and a key has at most 79 parts. The lines then make up
the table of the document.
-/

import WithClause.Toml.Moment
import WithClause.Toml.Number
import WithClause.Toml.Table
import WithClause.Toml.Text

namespace WithClause.Toml

/-! ### Keys -/

/-- Whether a character may stand in a bare key. -/
def isBareLetter (letter : Char) : Bool :=
  letter.isAlphanum || letter == '-' || letter == '_'

/-- One part of a key. -/
def simpleKey : Scan String :=
  Scan.oneOf [basicText, literalText, String.ofList <$> Scan.takeWhile1 isBareLetter]

/-- The depth that values and keys do not reach. -/
def depthLimit : Nat := 80

/-- A key: the path before its last part, and the last part. -/
def key : Scan (List String × String) := do
  let parts ← Scan.separated
    (do skipBlanks; let part ← simpleKey; skipBlanks; return part) (Scan.letter '.')
  Scan.require (parts.length < depthLimit)
  let name ← Scan.demand parts.getLast?
  return (parts.dropLast, name)

/-! ### Values -/

/-- A value that holds no other. -/
def scalar : Scan Value :=
  Scan.oneOf [
    Value.text <$> anyText,
    Value.moment <$> moment,
    Value.float <$> float,
    Value.integer <$> integer,
    do Scan.word "true".toList; return .bool true,
    do Scan.word "false".toList; return .bool false]

/-- An array of values. -/
def array (value : Scan Value) : Scan Value := do
  Scan.letter '['
  let items ← Scan.optional (do
    let items ← Scan.separated (do skipLines; let item ← value; skipLines; return item)
      (Scan.letter ',')
    let _ ← Scan.optional (Scan.letter ',')
    return items)
  skipLines
  Scan.letter ']'
  return .array (items.getD [])

/-- A key, an equals sign and a value, with blanks around the value. -/
def assignment (value : Scan Value) : Scan (List String × String × Value) := do
  let (path, name) ← key
  Scan.letter '='
  skipBlanks
  let assigned ← value
  skipBlanks
  return (path, name, assigned)

/-- A table on one line. -/
def inlineTable (value : Scan Value) : Scan Value := do
  Scan.letter '\x7b'
  let assignments ← Scan.optional (Scan.separated (assignment value) (Scan.letter ','))
  skipBlanks
  Scan.letter '\x7d'
  let entries ← Scan.demand (Entries.assignAll (assignments.getD []) [])
  return .table (valuesOf entries)

/-- A value in which others are nested to a depth at most. -/
def valueOfDepth : Nat → Scan Value
  | 0 => scalar
  | depth + 1 =>
    Scan.oneOf [array (valueOfDepth depth), inlineTable (valueOfDepth depth), scalar]

def value : Scan Value := valueOfDepth (depthLimit - 1)

/-! ### Lines -/

/-- A line of a document that says something. -/
inductive Line where
  /-- The header of a table. -/
  | table (path : List String) (name : String)
  /-- The header of a table in an array. -/
  | element (path : List String) (name : String)
  /-- A value for a key. -/
  | assignment (path : List String) (name : String) (value : Value)

def elementHeader : Scan Line := do
  Scan.word ['[', '[']
  let (path, name) ← key
  Scan.word [']', ']']
  lineRest
  return .element path name

def tableHeader : Scan Line := do
  Scan.letter '['
  let (path, name) ← key
  Scan.letter ']'
  lineRest
  return .table path name

def assignmentLine : Scan Line := do
  let (path, name, assigned) ← assignment value
  lineRest
  return .assignment path name assigned

/-- One line, if it says nothing without an answer. -/
def line : Scan (Option Line) :=
  Scan.oneOf [
    do newline; return none,
    do comment; lineEnd; return none,
    some <$> elementHeader,
    some <$> tableHeader,
    some <$> assignmentLine]

/-- The lines of a document, after a byte order mark if there is one. -/
def lines? (text : String) : Option (List Line) :=
  Scan.whole (do
    let _ ← Scan.optional (Scan.letter '\uFEFF')
    skipBlanks
    let found ← Scan.many (do let found ← line; skipBlanks; return found)
    return found.filterMap id) text

/-! ### The table of a document -/

/-- The assignments up to the next header. -/
def leadingAssignments : List Line → List (List String × String × Value)
  | .assignment path name value :: others => (path, name, value) :: leadingAssignments others
  | _ => []

/-- The document after each of its headers with the assignments that follow it. -/
def assemble (entries : Entries) : List Line → Option Entries
  | [] => some entries
  | .assignment _ _ _ :: others => assemble entries others
  | .table path name :: others => do
    let extended ← entries.defineTable path name (leadingAssignments others)
    assemble extended others
  | .element path name :: others => do
    let extended ← entries.appendTable path name (leadingAssignments others)
    assemble extended others

/-- The table of a document. -/
def ofText? (text : String) : Option Value := do
  let found ← lines? text
  let top ← Entries.assignAll (leadingAssignments found) []
  let entries ← assemble top found
  return .table (valuesOf entries)

end WithClause.Toml
