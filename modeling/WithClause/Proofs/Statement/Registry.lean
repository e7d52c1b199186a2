/-
**The registered tables.**

`Step` says once what a call can do to a statement; whether it succeeds is part of it
(`step_after`). What holds of the registered tables in a run is then read off the five cases:

* `names_run`: they are registered under the names that were registered since the last `clear`, in
  that order; the calls and their success decide these names (`registrations`);
* `Named.run`: no name is empty;
* `OwnNamed.run`: every table is registered under its own name, if none was put in the place of
  another.

A call fails for one reason (`perform_error_iff`), and one that changes a table leaves all others
as they are (`after_of_change`).
-/

import Mathlib.Data.List.DropRight
import Mathlib.Data.List.Induction
import WithClause.Proofs.Statement.Calls

namespace WithClause.Statement

/-! ### Faults -/

section Faults

variable (statement changed : Statement) (table : CommonTable) (name : String)
  (change : CommonTable → CommonTable) (fault : Fault)

/-- A table is registered if its name is neither empty nor among the names. -/
theorem add_eq :
    statement.add table =
      if table.name = "" then .error .noName
      else if table.name ∈ statement.names then .error (.nameTaken table.name)
      else .ok { statement with tables := statement.tables.insert table.name table } := by
  unfold add
  refine if_congr Iff.rfl rfl (if_congr ?_ rfl rfl)
  exact statement.tables.contains_iff table.name

theorem update_eq :
    statement.update name change =
      if name ∈ statement.names then
        .ok { statement with tables := statement.tables.modify name change }
      else .error (.unknownName name) :=
  if_congr (statement.tables.contains_iff name) rfl rfl

theorem add_error_iff :
    statement.add table = .error fault ↔
      table.name = "" ∧ fault = .noName ∨
      table.name ≠ "" ∧ table.name ∈ statement.names ∧ fault = .nameTaken table.name := by
  rw [add_eq]
  split_ifs with empty taken
  · simp [empty, eq_comm]
  · simp [empty, taken, eq_comm]
  · simp [empty, taken]

theorem add_ok_iff :
    statement.add table = .ok changed ↔
      table.name ≠ "" ∧ table.name ∉ statement.names ∧
        { statement with tables := statement.tables.insert table.name table } = changed := by
  rw [add_eq]
  split_ifs with empty taken
  · simp [empty]
  · simp [taken]
  · simp [empty, taken]

theorem update_error_iff :
    statement.update name change = .error fault ↔
      name ∉ statement.names ∧ fault = .unknownName name := by
  rw [update_eq]
  split_ifs with known
  · simp [known]
  · simp [known, eq_comm]

theorem update_ok_iff :
    statement.update name change = .ok changed ↔
      name ∈ statement.names ∧
        { statement with tables := statement.tables.modify name change } = changed := by
  rw [update_eq]
  split_ifs with known <;> simp [known]

theorem find_error_iff :
    statement.find name = .error fault ↔ name ∉ statement.names ∧ fault = .unknownName name := by
  have known := statement.tables.mem_keys_iff name
  unfold find names
  cases found : statement.tables.get? name with
  | none => simp [known, found, eq_comm]
  | some table => simp [known, found]

/-- **Why a call fails.** -/
theorem perform_error_iff (call : Call) :
    statement.perform call = .error fault ↔
      (∃ table, call.made? = some table ∧
        (table.name = "" ∧ fault = .noName ∨
          table.name ≠ "" ∧ table.name ∈ statement.names ∧ fault = .nameTaken table.name)) ∨
      ∃ name change, call.change? = some (name, change) ∧
        name ∉ statement.names ∧ fault = .unknownName name := by
  cases made : call.made? with
  | some table => simp [perform_of_made made, add_error_iff, Call.change?_of_made made]
  | none =>
    cases changes : call.change? with
    | some family =>
      obtain ⟨name, change⟩ := family
      simp [perform_of_change changes, update_error_iff]
    | none =>
      rcases Call.eq_of_none made changes with ⟨primary, rfl⟩ | rfl <;> simp [perform]

end Faults

/-! ### What a call can do -/

/-- Whether a call succeeds. -/
def accepts (statement : Statement) (call : Call) : Bool := (statement.perform call).isOk

/-- What a call can do to a statement, with its success. -/
inductive Step (statement : Statement) : Call → Bool → Statement → Prop
  | refuse {call : Call} {fault : Fault} (refused : statement.perform call = .error fault) :
      Step statement call false statement
  | call (call : Query.Call) : Step statement (.call call) true (statement.call call)
  | register {call : Call} {table : CommonTable} (made : call.made? = some table)
      (named : table.name ≠ "") (fresh : table.name ∉ statement.names) :
      Step statement call true
        { statement with tables := statement.tables.insert table.name table }
  | change {call : Call} {name : String} {change : CommonTable → CommonTable}
      (changes : call.change? = some (name, change)) (known : name ∈ statement.names) :
      Step statement call true { statement with tables := statement.tables.modify name change }
  | clear : Step statement .clear true ∅

/-- **A call takes one of the steps.** -/
theorem step_after (statement : Statement) (call : Call) :
    Step statement call (statement.accepts call) (statement.after call) := by
  unfold accepts
  cases outcome : statement.perform call with
  | error fault =>
    rw [after_of_error outcome]
    exact .refuse outcome
  | ok changed =>
    rw [after_of_ok outcome]
    show Step statement call true changed
    cases made : call.made? with
    | some table =>
      rw [perform_of_made made] at outcome
      obtain ⟨named, fresh, rfl⟩ := (statement.add_ok_iff changed table).mp outcome
      exact .register made named fresh
    | none =>
      cases changes : call.change? with
      | some family =>
        rw [perform_of_change changes] at outcome
        obtain ⟨known, rfl⟩ := (statement.update_ok_iff changed family.1 family.2).mp outcome
        exact .change changes known
      | none =>
        rcases Call.eq_of_none made changes with ⟨primary, rfl⟩ | rfl
        · cases outcome
          exact .call primary
        · cases outcome
          exact .clear

/-! ### Names -/

/-- The names that a history registers: those of the successful calls since the last `clear`. -/
def registrations (history : List (Call × Bool)) : List String :=
  ((history.rtakeWhile fun entry => !entry.1.clears).filter Prod.snd).filterMap fun entry =>
    entry.1.made?.map CommonTable.name

/-- The calls of a run, each with its success. -/
def history (statement : Statement) : List Call → List (Call × Bool)
  | [] => []
  | call :: others => (call, statement.accepts call) :: (statement.after call).history others

theorem history_concat (statement : Statement) (calls : List Call) (last : Call) :
    statement.history (calls ++ [last]) =
      statement.history calls ++ [(last, (statement.run calls).accepts last)] := by
  induction calls generalizing statement with
  | nil => rfl
  | cons first others ih =>
    rw [List.cons_append, history, history, ih, List.cons_append]
    rfl

theorem registrations_concat (history : List (Call × Bool)) (call : Call) (success : Bool) :
    registrations (history ++ [(call, success)]) =
      if call.clears then []
      else registrations history ++
        if success then (call.made?.map CommonTable.name).toList else [] := by
  unfold registrations
  by_cases clears : call.clears = true
  · rw [List.rtakeWhile_concat_neg _ _ _ (by simp [clears]), if_pos clears]
    rfl
  · rw [List.rtakeWhile_concat_pos _ _ _ (by simp [clears]), if_neg clears]
    cases success with
    | false => simp
    | true => cases made : call.made? <;> simp [made]

section Steps

variable {statement changed : Statement} {call : Call} {success : Bool}

theorem names_insert {table : CommonTable} {name : String} (fresh : name ∉ statement.names) :
    names { statement with tables := statement.tables.insert name table } =
      statement.names ++ [name] :=
  (statement.tables.keys_insert name table).trans (if_neg fresh)

theorem names_modify (name : String) (change : CommonTable → CommonTable) :
    names { statement with tables := statement.tables.modify name change } = statement.names :=
  statement.tables.keys_modify name change

/-- A step registers the name of the table that is made, if it succeeds. -/
theorem Step.names_eq (step : Step statement call success changed) :
    changed.names =
      if call.clears then []
      else statement.names ++
        if success then (call.made?.map CommonTable.name).toList else [] := by
  cases step with
  | refuse refused =>
    have keeps : call.clears = false := by
      cases call with
      | clear => cases refused
      | _ => rfl
    simp [keeps]
  | call primary => simp [Call.clears, Call.made?, Statement.call, names]
  | register made named fresh =>
    rw [names_insert fresh]
    simp [Call.clears_of_made made, made]
  | @change _ name change changes known =>
    rw [names_modify]
    simp [Call.clears_of_change changes, Call.made?_of_change changes]
  | clear => rfl

/-- What holds of each registered table is kept, if it holds of the tables that are made and is
kept by changes. -/
theorem Step.each_table (step : Step statement call success changed)
    (property : String → CommonTable → Prop)
    (made : ∀ {table}, call.made? = some table → property table.name table)
    (change : ∀ {name change table}, call.change? = some (name, change) → property name table →
      property name (change table))
    (before : ∀ name table, statement.tables.get? name = some table → property name table) :
    ∀ name table, changed.tables.get? name = some table → property name table := by
  cases step with
  | refuse refused => exact before
  | call primary => exact before
  | register makes named fresh =>
    intro name table found
    rw [OrderedMap.get?_insert] at found
    split_ifs at found with same
    · cases found
      exact same ▸ made makes
    · exact before name table found
  | change changes known =>
    intro name table found
    rw [OrderedMap.get?_modify] at found
    split_ifs at found with same
    · obtain ⟨old, there, rfl⟩ := Option.map_eq_some_iff.mp found
      subst same
      exact change changes (before _ old there)
    · exact before name table found
  | clear => exact fun name table found => by cases found

/-- What each step keeps holds after a run. -/
theorem run_induct {property : Statement → Prop} {calls : List Call} (start : property statement)
    (step : ∀ {before after : Statement} {call : Call} {success : Bool}, call ∈ calls →
      Step before call success after → property before → property after) :
    property (statement.run calls) := by
  induction calls generalizing statement with
  | nil => exact start
  | cons first others ih =>
    refine ih (step List.mem_cons_self (statement.step_after first) start) ?_
    exact fun member => step (List.mem_cons_of_mem first member)

end Steps

/-- **After a run the tables are registered under the names that it registered.** -/
theorem names_run (query : Query) (calls : List Call) :
    ((ofQuery query).run calls).names = registrations ((ofQuery query).history calls) := by
  induction calls using List.reverseRecOn with
  | nil => rfl
  | append_singleton calls last ih =>
    rw [run_concat, history_concat, registrations_concat, ← ih]
    exact (step_after _ last).names_eq

/-- No table is registered under the empty name. -/
def Named (statement : Statement) : Prop := ∀ name ∈ statement.names, name ≠ ""

theorem Named.step {statement changed : Statement} {call : Call} {success : Bool}
    (named : statement.Named) (step : Step statement call success changed) : changed.Named := by
  cases step with
  | refuse refused => exact named
  | call primary => exact named
  | register made own fresh =>
    unfold Named
    rw [names_insert fresh, List.forall_mem_append, List.forall_mem_singleton]
    exact ⟨named, own⟩
  | change changes known =>
    unfold Named
    rw [names_modify]
    exact named
  | clear => exact fun name member => by cases member

theorem Named.run {statement : Statement} (named : statement.Named) (calls : List Call) :
    (statement.run calls).Named :=
  run_induct named fun _ step before => before.step step

/-- Every table is registered under its own name. -/
def OwnNamed (statement : Statement) : Prop :=
  ∀ name table, statement.tables.get? name = some table → table.name = name

theorem OwnNamed.step {statement changed : Statement} {call : Call} {success : Bool}
    (own : statement.OwnNamed) (keeps : call.puts = false)
    (step : Step statement call success changed) : changed.OwnNamed :=
  step.each_table (fun name table => table.name = name) (fun _ => rfl)
    (fun changes named => Call.name_change keeps changes named) own

theorem OwnNamed.run {statement : Statement} (own : statement.OwnNamed) {calls : List Call}
    (keeps : ∀ call ∈ calls, call.puts = false) : (statement.run calls).OwnNamed :=
  run_induct own fun member step before => before.step (keeps _ member) step

/-! ### Tables -/

/-- **A call that changes a table leaves everything else as it was.** -/
theorem after_of_change {statement : Statement} {call : Call} {name : String}
    {change : CommonTable → CommonTable} (changes : call.change? = some (name, change)) :
    (statement.after call).query = statement.query ∧
    (statement.after call).names = statement.names ∧
    ∀ other, (statement.after call).tables.get? other =
      if name = other then (statement.tables.get? other).map change
      else statement.tables.get? other := by
  unfold after
  rw [perform_of_change changes, update_eq]
  by_cases known : name ∈ statement.names
  · rw [if_pos known]
    refine ⟨rfl, names_modify name change, fun other => ?_⟩
    exact statement.tables.get?_modify name other change
  · rw [if_neg known]
    refine ⟨rfl, rfl, fun other => ?_⟩
    show statement.tables.get? other = _
    split_ifs with same
    · have absent := mt (statement.tables.mem_keys_iff name).mpr known
      rw [← same]
      cases found : statement.tables.get? name with
      | none => rfl
      | some table => exact absurd ⟨table, found⟩ absent
    · rfl

/-- **The registered tables in a run.** The names under which tables are registered are distinct,
not empty, and those that the successful calls registered since the last `clear`, in that order. As
long as no table is put in the place of another one, each has its own name. A call fails only over
a name that is empty, taken or unknown, and then changes nothing; a call that changes a table moves
no name and leaves all other tables as they are. -/
theorem registry_of_run (query : Query) (calls : List Call) :
    let statement := (ofQuery query).run calls
    (statement.names.Nodup ∧ (∀ name ∈ statement.names, name ≠ "") ∧
      statement.names = registrations ((ofQuery query).history calls)) ∧
    ((∀ call ∈ calls, call.puts = false) →
      ∀ name table, statement.tables.get? name = some table → table.name = name) ∧
    (∀ call fault, statement.perform call = .error fault ↔
      (∃ table, call.made? = some table ∧
        (table.name = "" ∧ fault = .noName ∨
          table.name ≠ "" ∧ table.name ∈ statement.names ∧ fault = .nameTaken table.name)) ∨
      ∃ name change, call.change? = some (name, change) ∧
        name ∉ statement.names ∧ fault = .unknownName name) ∧
    (∀ name fault, statement.find name = .error fault ↔
      name ∉ statement.names ∧ fault = .unknownName name) ∧
    (∀ call fault, statement.perform call = .error fault → statement.after call = statement) ∧
    ∀ call name change, call.change? = some (name, change) →
      (statement.after call).query = statement.query ∧
      (statement.after call).names = statement.names ∧
      ∀ other, (statement.after call).tables.get? other =
        if name = other then (statement.tables.get? other).map change
        else statement.tables.get? other := by
  intro statement
  have named : Named (ofQuery query) := fun name member => by cases member
  have own : OwnNamed (ofQuery query) := fun name table found => by cases found
  refine ⟨⟨statement.tables.keys_nodup, named.run calls, names_run query calls⟩, own.run,
    fun call fault => statement.perform_error_iff fault call, statement.find_error_iff,
    fun call fault => after_of_error, fun call name change => after_of_change⟩

/-- Two tables are registered after a `clear`, and one that was registered before is forgotten; a
name that is taken is refused. -/
theorem registry_of_run_cleared :
    let calls : List Call :=
      [.addEmpty "a", .replace (.recursive "a" ∅), .addEmpty "a", .clear, .add (.ofQuery "c" ∅),
        .edit "a" (.nameColumns ["x"]), .edit "c" (.dependOn ["a"]), .addRecursive "a"]
    let statement := (ofQuery ∅).run calls
    let edit : Call := .edit "c" (.setAnchor "VALUES(1)")
    ((∀ call ∈ calls, call.puts = false) ∧
      statement.perform (.addEmpty "c") = .error (.nameTaken "c") ∧
      edit.change? = some ("c", fun table => table.edit (.setAnchor "VALUES(1)"))) ∧
    statement.names = ["c", "a"] ∧
    (∀ name table, statement.tables.get? name = some table → table.name = name) ∧
    statement.after (.addEmpty "c") = statement ∧
    (statement.after edit).tables.get? "a" = statement.tables.get? "a" := by
  intro calls statement edit
  obtain ⟨⟨_, _, names⟩, own, _, _, unchanged, others⟩ := registry_of_run ∅ calls
  have keeps : ∀ call ∈ calls, call.puts = false := by simp [calls, Call.puts]
  have refused : statement.perform (.addEmpty "c") = .error (.nameTaken "c") := by rfl
  have same := (others edit _ _ rfl).2.2 "a"
  exact ⟨⟨keeps, refused, rfl⟩, names.trans (by rfl), own keeps, unchanged _ _ refused, same⟩

end WithClause.Statement
