/-
**Values as JSON.**

Every value but a double is written as a JSON scalar; a timestamp is written as a string. Reading
takes any JSON scalar: a number that is no integer of 64 bits is a double, and a string that shows
a timestamp is that timestamp.
-/

import WithClause.Json.Number
import WithClause.Json.Text
import WithClause.Value

namespace WithClause.Value

/-- The JSON text of a value that is no double. -/
def toJson? : Value → Option String
  | null => some "null"
  | bool value => some (if value then "true" else "false")
  | int value => some (Text.integer value.toInt)
  | float _ => none
  | timestamp value => some (Json.encode value.iso)
  | text value => some (Json.encode value)

/-- The value of a JSON number. -/
def ofNumber : Json.Number → Value
  | .integer value => int value
  | .real value => float value

/-- Passes over blanks between JSON tokens. -/
def skipJsonBlanks : Scan Unit :=
  Scan.skipWhile fun letter => letter == ' ' || letter == '\t' || letter == '\n' || letter == '\r'

/-- One JSON scalar. -/
def scanScalar : Scan Value :=
  Scan.oneOf [
    do Scan.word "null".toList; return null,
    do Scan.word "true".toList; return bool true,
    do Scan.word "false".toList; return bool false,
    ofNumber <$> Json.scanNumber,
    ofText <$> Json.scanString]

/-- The value of a JSON document that is one scalar. -/
def ofJson? (document : String) : Option Value :=
  Scan.whole (do skipJsonBlanks; let value ← scanScalar; skipJsonBlanks; return value) document

end WithClause.Value
