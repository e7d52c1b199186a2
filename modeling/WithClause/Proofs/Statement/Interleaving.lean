/-
**Building calls on several queries of a statement.**

A building call is directed to the primary query or to the table under a name. A run of such calls
leaves the names as they are and makes of each query what the calls to it make (`query_runTo`,
`get?_runTo`); the placeholders that a target answers are decided in the same way (`answers_eq`).
With the laws of one query it follows that only the order of the calls for each target and clause
counts, however the calls are interleaved (`run_interleaved`).
-/

import WithClause.Proofs.OrderedMap.Merging
import WithClause.Proofs.Query.Clauses
import WithClause.Proofs.Statement.Registry

namespace WithClause

open Query (callsOf)

namespace Statement

/-- A statement is known by its primary query and its tables. -/
theorem eq_of_query_of_tables {first second : Statement} (query : first.query = second.query)
    (tables : first.tables = second.tables) : first = second := by
  cases first
  cases second
  cases query
  cases tables
  rfl

/-- What a building call is directed to. -/
inductive Target where
  | primary
  | table (name : String)
deriving DecidableEq

/-- A building call with the query that it is directed to. -/
structure DirectedCall where
  target : Target
  call : Query.Call

/-- The call on the statement that hands a building call to its target. -/
def DirectedCall.toCall : DirectedCall → Call
  | ⟨.primary, call⟩ => .call call
  | ⟨.table name, call⟩ => .edit name (.call call)

/-- The statement after a run of building calls. -/
def runTo (statement : Statement) (calls : List DirectedCall) : Statement :=
  statement.run (calls.map DirectedCall.toCall)

/-- The query that calls to a target change. -/
def queryAt? (statement : Statement) : Target → Option Query
  | .primary => some statement.query
  | .table name => (statement.tables.get? name).map CommonTable.query

/-- The calls that are directed to a target. -/
def callsTo (target : Target) (calls : List DirectedCall) : List Query.Call :=
  (calls.filter fun directed => directed.target = target).map DirectedCall.call

/-- The placeholders that a target answers in a run, in the order of the calls. -/
def answers (statement : Statement) (target : Target) : List DirectedCall → List String
  | [] => []
  | directed :: others =>
    (if directed.target = target then
        ((statement.queryAt? target).bind fun query => query.placeholder? directed.call).toList
      else []) ++ (statement.after directed.toCall).answers target others

/-! ### One call -/

theorem callsTo_cons (target : Target) (directed : DirectedCall) (calls : List DirectedCall) :
    callsTo target (directed :: calls) =
      if directed.target = target then directed.call :: callsTo target calls
      else callsTo target calls := by
  unfold callsTo
  by_cases own : directed.target = target <;> simp [own]

section OneCall

variable (statement : Statement) (directed : DirectedCall)

/-- What a building call on the table under a name changes. -/
theorem after_edit_call (name : String) (call : Query.Call) :
    (statement.after (.edit name (.call call))).query = statement.query ∧
    (statement.after (.edit name (.call call))).names = statement.names ∧
    ∀ other, (statement.after (.edit name (.call call))).tables.get? other =
      if name = other then (statement.tables.get? other).map fun table => table.call call
      else statement.tables.get? other :=
  after_of_change rfl

theorem query_after_toCall :
    (statement.after directed.toCall).query =
      if directed.target = .primary then statement.query.call directed.call
      else statement.query := by
  obtain ⟨target, call⟩ := directed
  cases target with
  | primary => rfl
  | table name => exact (statement.after_edit_call name call).1

theorem names_after_toCall : (statement.after directed.toCall).names = statement.names := by
  obtain ⟨target, call⟩ := directed
  cases target with
  | primary => rfl
  | table name => exact (statement.after_edit_call name call).2.1

theorem get?_after_toCall (name : String) :
    (statement.after directed.toCall).tables.get? name =
      if directed.target = .table name then
        (statement.tables.get? name).map fun table => table.call directed.call
      else statement.tables.get? name := by
  obtain ⟨target, call⟩ := directed
  cases target with
  | primary => rfl
  | table other =>
    rw [DirectedCall.toCall, (statement.after_edit_call other call).2.2 name]
    exact if_congr (Target.table.injEq ..).to_iff.symm rfl rfl

theorem queryAt?_after_toCall (target : Target) :
    (statement.after directed.toCall).queryAt? target =
      if directed.target = target then
        (statement.queryAt? target).map fun query => query.call directed.call
      else statement.queryAt? target := by
  cases target with
  | primary =>
    rw [queryAt?, query_after_toCall, queryAt?]
    split <;> rfl
  | table name =>
    rw [queryAt?, get?_after_toCall, queryAt?]
    split
    · rw [Option.map_map, Option.map_map]
      rfl
    · rfl

end OneCall

/-! ### A run of calls -/

section Run

variable (statement : Statement)

/-- **A run makes of the primary query what the calls to it make.** -/
theorem query_runTo (calls : List DirectedCall) :
    (statement.runTo calls).query = statement.query.run (callsTo .primary calls) := by
  induction calls generalizing statement with
  | nil => rfl
  | cons directed others ih =>
    show ((statement.after directed.toCall).runTo others).query = _
    rw [ih, query_after_toCall, callsTo_cons]
    split <;> rfl

theorem names_runTo (calls : List DirectedCall) :
    (statement.runTo calls).names = statement.names := by
  induction calls generalizing statement with
  | nil => rfl
  | cons directed others ih => exact (ih _).trans (statement.names_after_toCall directed)

/-- **A run makes of each table what the calls to it make.** -/
theorem get?_runTo (calls : List DirectedCall) (name : String) :
    (statement.runTo calls).tables.get? name =
      (statement.tables.get? name).map fun table =>
        { table with query := table.query.run (callsTo (.table name) calls) } := by
  simp only [← CommonTable.foldl_call]
  induction calls generalizing statement with
  | nil => exact (Option.map_id_apply ..).symm
  | cons directed others ih =>
    show ((statement.after directed.toCall).runTo others).tables.get? name = _
    rw [ih, get?_after_toCall, callsTo_cons]
    split
    · rw [Option.map_map]
      rfl
    · rfl

/-- **A target answers what its query answers to the calls to it.** -/
theorem answers_eq (target : Target) (calls : List DirectedCall) :
    statement.answers target calls =
      ((statement.queryAt? target).map fun query =>
        query.answers (callsTo target calls)).getD [] := by
  induction calls generalizing statement with
  | nil => cases statement.queryAt? target <;> rfl
  | cons directed others ih =>
    rw [answers, ih, queryAt?_after_toCall, callsTo_cons]
    by_cases own : directed.target = target
    · rw [if_pos own, if_pos own, if_pos own]
      cases statement.queryAt? target <;> rfl
    · rw [if_neg own, if_neg own, if_neg own]
      rfl

theorem callsOf_callsTo (target : Target) (clause : Query.Clause) (calls : List DirectedCall) :
    callsOf clause (callsTo target calls) =
      (calls.filter fun directed =>
        directed.target = target ∧ directed.call.clause = clause).map DirectedCall.call := by
  unfold callsOf callsTo
  rw [List.filter_map, List.filter_filter]
  refine congrArg _ (List.filter_congr fun directed _ => ?_)
  rw [Bool.decide_and, Bool.and_comm]
  rfl

end Run

/-- **Building calls on different targets and clauses commute.** Two runs that have the same calls
in the same order for every target and every clause leave the same statement behind, with the same
text, preview and bindings, and each target answers the same placeholders. -/
theorem run_interleaved (statement : Statement) (first second : List DirectedCall)
    (same : ∀ target clause,
      first.filter (fun directed => directed.target = target ∧ directed.call.clause = clause) =
        second.filter fun directed => directed.target = target ∧ directed.call.clause = clause) :
    statement.runTo first = statement.runTo second ∧
    ∀ target, statement.answers target first = statement.answers target second := by
  have calls (target : Target) (clause : Query.Clause) :
      callsOf clause (callsTo target first) = callsOf clause (callsTo target second) := by
    rw [callsOf_callsTo, callsOf_callsTo, same]
  have run (target : Target) (query : Query) :
      query.run (callsTo target first) = query.run (callsTo target second) :=
    query.run_congr (calls target)
  have query : (statement.runTo first).query = (statement.runTo second).query := by
    rw [query_runTo, query_runTo, run]
  have tables : (statement.runTo first).tables = (statement.runTo second).tables := by
    refine OrderedMap.ext_get? ?_ fun name => ?_
    · exact (statement.names_runTo first).trans (statement.names_runTo second).symm
    · simp only [get?_runTo, run]
  refine ⟨eq_of_query_of_tables query tables, fun target => ?_⟩
  simp only [answers_eq, Query.answers_congr _ (calls target .bindings)]

/-- Two fragments are put together call by call in turn, or one after the other and from the last
clause to the first. -/
theorem run_interleaved_fragments :
    let statement : Statement := { tables := .ofList [("a", .ofQuery "a" ∅)] }
    let primary := DirectedCall.mk .primary
    let table := DirectedCall.mk (.table "a")
    let first := [primary (.select ["x"]), table (.bindNamed (.int 1) none),
      primary (.addSource ⟨"a", none⟩), table (.addSelect ["y"]),
      primary (.bindNamed (.int 2) none), table (.bindNamed (.int 3) none)]
    let second := [table (.addSelect ["y"]), table (.bindNamed (.int 1) none),
      table (.bindNamed (.int 3) none), primary (.bindNamed (.int 2) none),
      primary (.addSource ⟨"a", none⟩), primary (.select ["x"])]
    (∀ target clause,
      first.filter (fun directed => directed.target = target ∧ directed.call.clause = clause) =
        second.filter fun directed => directed.target = target ∧ directed.call.clause = clause) ∧
    statement.runTo first = statement.runTo second ∧
    statement.answers (.table "a") first = [":dcValue1", ":dcValue2"] ∧
    statement.answers (.table "a") second = [":dcValue1", ":dcValue2"] := by
  intro statement primary table first second
  have same (target : Target) (clause : Query.Clause) :
      first.filter (fun directed => directed.target = target ∧ directed.call.clause = clause) =
        second.filter fun directed => directed.target = target ∧ directed.call.clause = clause := by
    by_cases main : target = .primary
    · subst main
      cases clause <;> rfl
    · by_cases own : target = .table "a"
      · subst own
        cases clause <;> rfl
      · simp [first, second, primary, table, Ne.symm main, Ne.symm own]
  obtain ⟨run, answers⟩ := run_interleaved statement first second same
  have answered : statement.answers (.table "a") first = [":dcValue1", ":dcValue2"] := by rfl
  exact ⟨same, run, answered, (answers _).symm.trans answered⟩

end Statement

end WithClause
