/-
**SQL string literals.**

A literal stands between single quotes; a quote inside it is written twice.
-/

namespace WithClause.Text

/-- The letters between the quotes of a literal: a quote is doubled, all else stays. -/
def doubleQuotes : List Char → List Char
  | [] => []
  | letter :: rest =>
    if letter = '\'' then '\'' :: '\'' :: doubleQuotes rest else letter :: doubleQuotes rest

/-- The literal of a text. -/
def quoted (text : String) : String :=
  String.ofList ('\'' :: doubleQuotes text.toList ++ ['\''])

end WithClause.Text
