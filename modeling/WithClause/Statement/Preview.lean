/-
**Statements with their values filled in.**

For reading, not for running: each named placeholder in the text of a statement is replaced by the
literal of the value bound to it. The text is gone through once, and at each place the longest
placeholder that stands there is replaced; what was put in is not looked at again. The `?` of
positional bindings stay.

* `placeholderOf_ne_nil`: a placeholder has a letter at least, its colon, which is why the text gets
  shorter with each one that is replaced.
-/

import WithClause.Statement

namespace WithClause

/-- A text to put in the place of another, which is not empty. -/
structure Replacement where
  target : List Char
  content : List Char
  solid : target ≠ []

/-- The bytes of the text that is replaced, in UTF-8. -/
def Replacement.size (replacement : Replacement) : Nat :=
  (String.ofList replacement.target).utf8ByteSize

namespace Statement

/-- The placeholder of a name: the name itself, with a colon in front if it has none. -/
def placeholderOf (name : String) : List Char :=
  match name.toList with
  | ':' :: letters => ':' :: letters
  | letters => ':' :: letters

theorem placeholderOf_ne_nil (name : String) : placeholderOf name ≠ [] := by
  unfold placeholderOf
  split <;> exact List.cons_ne_nil _ _

/-- The replacement for one binding, if its key is named. -/
def replacement? (binding : Key × Value) : Option Replacement :=
  binding.1.name?.map fun name =>
    ⟨placeholderOf name, binding.2.literal.toList, placeholderOf_ne_nil name⟩

/-- The replacements for bindings, longest placeholder first; of one length in the order of the
bindings. -/
def replacements (bindings : OrderedMap Key Value) : List Replacement :=
  (bindings.entries.filterMap replacement?).mergeSort fun first second =>
    decide (second.size ≤ first.size)

/-- Goes through a text once and puts in, at each place, the first replacement whose target stands
there. -/
def fillIn (replacements : List Replacement) : List Char → List Char
  | [] => []
  | letter :: rest =>
    match replacements.find? fun replacement => replacement.target.isPrefixOf (letter :: rest) with
    | some replacement =>
      replacement.content ++
        fillIn replacements ((letter :: rest).drop replacement.target.length)
    | none => letter :: fillIn replacements rest
termination_by letters => letters.length
decreasing_by
  · have some : 0 < replacement.target.length := List.length_pos_iff.mpr replacement.solid
    rw [List.length_drop, List.length_cons]
    omega
  · exact Nat.lt_succ_self _

/-- The text of the statement with literals in the place of named placeholders. -/
def preview (statement : Statement) : Except Fault String := do
  let text ← statement.sql
  return String.ofList (fillIn (replacements statement.bindings) text.toList)

end Statement

end WithClause
