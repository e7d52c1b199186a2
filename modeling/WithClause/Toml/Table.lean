/-
**Tables in the making.**

While a document is read, its tables can still grow, and how a table came about decides how it may.
A table named by a header is complete but for the lines under the header. A table that was only
passed through by a header may still get a header of its own. A table made by a dotted key may only
get further dotted keys. A value never grows.

* `within`: a change at the end of a path of keys, which makes the tables on the way;
* `assign`: a key with a value, at the end of a path;
* `defineTable`, `appendTable`: what a header with single or double brackets does.
-/

import WithClause.Toml.Value

namespace WithClause.Toml

/-- How a table came about. -/
inductive Origin where
  /-- By a header, or as the whole document. -/
  | header
  /-- On the way to a header. -/
  | passed
  /-- By a dotted key. -/
  | dotted
deriving DecidableEq

/-- An item of a document in the making. -/
inductive Item where
  | value (value : Value)
  /-- A table that may still grow. -/
  | table (origin : Origin) (entries : List (String × Item))
  /-- An array of tables, of which the last may still grow. -/
  | tables (earlier : List (List (String × Item))) (last : List (String × Item))

/-- The entries of a table in the making. -/
abbrev Entries := List (String × Item)

namespace Entries

def find? (name : String) (entries : Entries) : Option Item :=
  (List.find? (fun entry => entry.1 == name) entries).map Prod.snd

/-- The entries with another item under a key that is there. -/
def set (name : String) (item : Item) (entries : Entries) : Entries :=
  entries.map fun entry => if entry.1 == name then (name, item) else entry

/-- The entries without a key. -/
def remove (name : String) (entries : Entries) : Entries := entries.filter (·.1 != name)

/-- A change of the table at the end of a path. Tables that are missing on the way are made with an
origin; a path of dotted keys does not lead into a table with a header. -/
def within (made : Origin) (change : Origin → Entries → Option Entries) :
    List String → Origin → Entries → Option Entries
  | [], origin, entries => change origin entries
  | name :: path, _, entries =>
    match find? name entries with
    | none => do
      let inner ← within made change path made []
      return entries ++ [(name, .table made inner)]
    | some (.value _) => none
    | some (.table origin inner) =>
      if made = .dotted ∧ origin = .header then none
      else do
        let changed ← within made change path origin inner
        return set name (.table origin changed) entries
    | some (.tables earlier last) => do
      let changed ← within made change path .header last
      return set name (.tables earlier changed) entries

/-- A value under a key at the end of a path of dotted keys. -/
def assign (path : List String) (name : String) (value : Value) (entries : Entries) :
    Option Entries :=
  within .dotted (fun origin inner =>
    if (origin == .dotted) == path.isEmpty then none
    else if (find? name inner).isSome then none
    else some (inner ++ [(name, .value value)])) path .header entries

/-- Assignments one after the other, each a path, a key and a value. -/
def assignAll (assignments : List (List String × String × Value)) (entries : Entries) :
    Option Entries :=
  assignments.foldlM (fun sofar assignment =>
    assign assignment.1 assignment.2.1 assignment.2.2 sofar) entries

/-- A table with a header, and the assignments under it. -/
def defineTable (path : List String) (name : String)
    (assignments : List (List String × String × Value)) (entries : Entries) : Option Entries :=
  within .passed (fun _ inner => do
    let start ←
      match find? name inner with
      | none => some []
      | some (.table .passed present) => some present
      | some _ => none
    let complete ← assignAll assignments start
    return remove name inner ++ [(name, .table .header complete)]) path .header entries

/-- A new last table of an array of tables, and the assignments under its header. -/
def appendTable (path : List String) (name : String)
    (assignments : List (List String × String × Value)) (entries : Entries) : Option Entries :=
  within .passed (fun _ inner => do
    let complete ← assignAll assignments []
    match find? name inner with
    | none => return inner ++ [(name, .tables [] complete)]
    | some (.tables earlier last) => return set name (.tables (earlier ++ [last]) complete) inner
    | some _ => none) path .header entries

end Entries

mutual

/-- The value of an item. -/
def Item.toValue : Item → Value
  | .value value => value
  | .table _ entries => .table (valuesOf entries)
  | .tables earlier last => .array (tablesOf earlier ++ [.table (valuesOf last)])

/-- The values of entries. -/
def valuesOf : List (String × Item) → List (String × Value)
  | [] => []
  | (name, item) :: others => (name, item.toValue) :: valuesOf others

/-- The values of the tables of an array. -/
def tablesOf : List (List (String × Item)) → List Value
  | [] => []
  | entries :: others => .table (valuesOf entries) :: tablesOf others

end

end WithClause.Toml
