/-
**Bound values.**

A value that a placeholder stands for, and its text as an SQL literal. Values of Lean types become
bound values through `ToValue`; nothing becomes the null value.

* `agrees`: the comparison of values, which is equality but for doubles, where it is that of
  numbers.
-/

import WithClause.Binary64.Decimal
import WithClause.Text.Quoted
import WithClause.Timestamp.Reader

namespace WithClause

/-- A value that a placeholder can stand for. -/
inductive Value where
  | null
  | bool (value : Bool)
  /-- An integer of 64 bits. -/
  | int (value : Int64)
  | float (value : Binary64)
  | timestamp (value : Timestamp)
  | text (value : String)
deriving DecidableEq

instance : Inhabited Value := ⟨.null⟩

namespace Value

def isNull : Value → Bool
  | null => true
  | _ => false

/-- Equality of values, where doubles are compared as numbers. -/
def agrees : Value → Value → Bool
  | float first, float second => first.agrees second
  | first, second => first == second

/-- The SQL literal of a value. -/
def literal : Value → String
  | null => "NULL"
  | bool value => if value then "true" else "false"
  | int value => Text.integer value.toInt
  | float value => value.text
  | timestamp value => "'" ++ value.toTheSecond ++ "'"
  | text value => Text.quoted value

/-- The value of a text: the timestamp that it shows, or else the text. -/
def ofText (text : String) : Value :=
  match Timestamp.ofText? text with
  | some stamp => timestamp stamp
  | none => .text text

end Value

/-- Types whose elements can be bound. -/
class ToValue (α : Type) where
  toValue : α → Value

export ToValue (toValue)

instance : ToValue Value := ⟨id⟩

instance : ToValue Bool := ⟨.bool⟩

instance : ToValue Int32 := ⟨fun number => .int number.toInt64⟩

instance : ToValue Int64 := ⟨.int⟩

instance : ToValue UInt32 := ⟨fun number => .int (Int64.ofNat number.toNat)⟩

instance : ToValue Binary64 := ⟨.float⟩

instance : ToValue Timestamp := ⟨.timestamp⟩

instance : ToValue String := ⟨.text⟩

instance {α : Type} [ToValue α] : ToValue (Option α) := ⟨fun
  | some value => toValue value
  | none => .null⟩

end WithClause
