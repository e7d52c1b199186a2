/-
**Runs of calls on a statement.**

Each call that changes a statement is a value, and so is each one that changes a registered table,
so that a run is a list of calls. A call that fails answers no statement, and the one before it
stays (`after`).

Apart from calls on the primary query and `clear` there are two families. A call of the first one
makes a table and registers it (`made?`); it does what `add` does. A call of the second one changes
the table under a name (`change?`); it does what `update` does. What is proved of `add` and of
`update` therefore holds of all calls of a family.
-/

import WithClause.Statement

namespace WithClause

/-- A call that changes a table. -/
inductive CommonTable.Edit where
  | call (call : Query.Call)
  /-- Puts another query in the place of the own one. -/
  | setQuery (query : Query)
  | dependOn (names : List String)
  | nameColumns (columns : List String)
  | attach (attached : CommonTable) (all : Bool)
  | attachOnly (attached : List CommonTable) (all : Bool)
  | setAnchor (sql : String)
  | anchorOn (query : Query)
  | setDistinct (distinct : Bool)

namespace CommonTable

def edit (table : CommonTable) : Edit → CommonTable
  | .call call => table.call call
  | .setQuery query => { table with query }
  | .dependOn names => table.dependOn names
  | .nameColumns columns => table.nameColumns columns
  | .attach attached all => table.attach attached all
  | .attachOnly attached all => table.attachOnly attached all
  | .setAnchor sql => table.setAnchor sql
  | .anchorOn query => table.anchorOn query
  | .setDistinct distinct => table.setDistinct distinct

/-- Building calls change the own query of a table and nothing else. -/
theorem foldl_call (table : CommonTable) (calls : List Query.Call) :
    calls.foldl CommonTable.call table = { table with query := table.query.run calls } := by
  induction calls generalizing table with
  | nil =>
    cases table
    rfl
  | cons call others ih => exact ih (table.call call)

theorem name_attachOnly (table : CommonTable) (attached : List CommonTable) (all : Bool) :
    (table.attachOnly attached all).name = table.name := by
  unfold attachOnly
  have each (start : CommonTable) :
      (attached.foldl (fun sofar other => sofar.attach other all) start).name = start.name := by
    induction attached generalizing start with
    | nil => rfl
    | cons first others ih => exact ih (start.attach first all)
  exact each { table with attached := [] }

/-- **No call changes the name of a table.** -/
theorem name_edit (table : CommonTable) (edit : Edit) : (table.edit edit).name = table.name := by
  cases edit with
  | attachOnly attached all => exact table.name_attachOnly attached all
  | _ => rfl

end CommonTable

namespace Statement

/-- A call that changes a statement. -/
inductive Call where
  /-- A call on the primary query. -/
  | call (call : Query.Call)
  | addEmpty (name : String)
  | addRecursive (name : String)
  | add (table : CommonTable)
  | replace (table : CommonTable)
  /-- A call on the table under a name. -/
  | edit (name : String) (edit : CommonTable.Edit)
  /-- Puts any table in the place of the one under a name. -/
  | put (name : String) (table : CommonTable)
  | clear

namespace Call

/-- The table that a call makes and registers. -/
def made? : Call → Option CommonTable
  | addEmpty name => some (.ofQuery name ∅)
  | addRecursive name => some (.recursive name ∅)
  | add table => some table
  | _ => none

/-- The name under which a call changes the table, and the change. -/
def change? : Call → Option (String × (CommonTable → CommonTable))
  | replace table => some (table.name, fun _ => table)
  | edit name change => some (name, fun table => table.edit change)
  | put name table => some (name, fun _ => table)
  | _ => none

theorem change?_of_made {call : Call} {table : CommonTable} (made : call.made? = some table) :
    call.change? = none := by
  cases call <;> cases made <;> rfl

/-- The calls of neither family. -/
theorem eq_of_none {call : Call} (made : call.made? = none) (change : call.change? = none) :
    (∃ primary, call = .call primary) ∨ call = .clear := by
  cases call with
  | call primary => exact .inl ⟨primary, rfl⟩
  | clear => exact .inr rfl
  | replace table => cases change
  | edit name one => cases change
  | put name table => cases change
  | _ => cases made

def clears : Call → Bool
  | clear => true
  | _ => false

/-- Whether a call may put a table under a name that is not its own. -/
def puts : Call → Bool
  | put _ _ => true
  | _ => false

theorem clears_of_made {call : Call} {table : CommonTable} (made : call.made? = some table) :
    call.clears = false := by
  cases call <;> cases made <;> rfl

section Changes

variable {call : Call} {name : String} {change : CommonTable → CommonTable}

theorem made?_of_change (changes : call.change? = some (name, change)) : call.made? = none := by
  cases call <;> cases changes <;> rfl

theorem clears_of_change (changes : call.change? = some (name, change)) :
    call.clears = false := by
  cases call <;> cases changes <;> rfl

/-- A change keeps a table under its own name, if it does not put another one there. -/
theorem name_change (own : call.puts = false) (changes : call.change? = some (name, change))
    {table : CommonTable} (named : table.name = name) : (change table).name = name := by
  cases call with
  | replace other =>
    cases changes
    rfl
  | edit target edit =>
    cases changes
    exact (table.name_edit edit).trans named
  | put target other => cases own
  | _ => cases changes

end Changes

end Call

/-- The statement that a call answers, or its fault. -/
def perform (statement : Statement) : Call → Except Fault Statement
  | .call call => .ok (statement.call call)
  | .addEmpty name => statement.addEmpty name
  | .addRecursive name => statement.addRecursive name
  | .add table => statement.add table
  | .replace table => (statement.replace table).map Prod.snd
  | .edit name edit => statement.update name fun table => table.edit edit
  | .put name table => statement.update name fun _ => table
  | .clear => .ok statement.clear

/-- The statement after a call, the same one if the call fails. -/
def after (statement : Statement) (call : Call) : Statement :=
  match statement.perform call with
  | .ok changed => changed
  | .error _ => statement

def run (statement : Statement) (calls : List Call) : Statement := calls.foldl after statement

theorem run_concat (statement : Statement) (calls : List Call) (last : Call) :
    statement.run (calls ++ [last]) = (statement.run calls).after last := by
  unfold run
  rw [List.foldl_append, List.foldl_cons, List.foldl_nil]

section Families

variable {statement changed : Statement} {call : Call} {fault : Fault}

theorem after_of_ok (accepted : statement.perform call = .ok changed) :
    statement.after call = changed := by
  unfold after
  rw [accepted]

/-- **A call that fails leaves the statement as it was.** -/
theorem after_of_error (refused : statement.perform call = .error fault) :
    statement.after call = statement := by
  unfold after
  rw [refused]

/-- A table is replaced by a change that does not look at it. -/
theorem replace_eq_update (statement : Statement) (table : CommonTable) :
    (statement.replace table).map Prod.snd = statement.update table.name fun _ => table := by
  unfold replace find update isRegistered
  rw [← OrderedMap.isSome_get?]
  cases statement.tables.get? table.name <;> rfl

theorem perform_of_made {table : CommonTable} (made : call.made? = some table) :
    statement.perform call = statement.add table := by
  cases call <;> cases made <;> rfl

theorem perform_of_change {name : String} {change : CommonTable → CommonTable}
    (changes : call.change? = some (name, change)) :
    statement.perform call = statement.update name change := by
  cases call with
  | replace table =>
    cases changes
    exact statement.replace_eq_update table
  | edit name edit =>
    cases changes
    rfl
  | put name table =>
    cases changes
    rfl
  | _ => cases changes

end Families

end Statement

end WithClause
