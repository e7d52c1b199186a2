/-
**Values of a TOML document.**

A date-time is kept as its text in normal form.
-/

import WithClause.Binary64

namespace WithClause.Toml

/-- A value of a TOML document. -/
inductive Value where
  | text (text : String)
  | integer (number : Int64)
  | float (number : Binary64)
  | bool (truth : Bool)
  /-- A date, a time or both, in normal form. -/
  | moment (text : String)
  | array (items : List Value)
  /-- A table; its keys are different. -/
  | table (entries : List (String × Value))

instance : Inhabited Value := ⟨.bool false⟩

end WithClause.Toml
