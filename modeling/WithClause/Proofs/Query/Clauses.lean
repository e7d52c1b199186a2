/-
**Calls by clause.**

Each building call belongs to one clause of the query (`Call.clause`); those that bind values belong
to the bindings, and the two counters of placeholders are a part of these. A call changes its own
clause and no other (`only_call_of_ne`), and what it makes of its own clause depends on that clause
alone (`only_call`).

So each clause of a query after a run is what the calls of that clause make of it (`only_run`), and
so are the placeholders that were answered (`answers_eq`).
-/

import WithClause.Query.Call

namespace WithClause.Query

/-- The clauses that calls belong to. -/
inductive Clause where
  | columns
  | sources
  | joins
  | filter
  | grouping
  | groupFilter
  | ordering
  | limit
  | offset
  /-- The bound values with the counters of placeholders. -/
  | bindings
deriving DecidableEq

/-- The clause that a call belongs to. -/
def Call.clause : Call → Clause
  | .select _ | .addSelect _ => .columns
  | .addSource _ => .sources
  | .addJoin _ => .joins
  | .setFilter _ | .addFilter _ _ => .filter
  | .groupBy _ | .addGroupBy _ => .grouping
  | .setGroupFilter _ | .addGroupFilter _ _ => .groupFilter
  | .orderBy _ _ | .addOrderBy _ _ => .ordering
  | .setOffset _ => .offset
  | .setLimit _ => .limit
  | .bind _ _ | .setBindings _ | .bindNamed _ _ | .bindPositional _ => .bindings

/-- The query with one clause as it is, and nothing in the others. -/
def only (query : Query) : Clause → Query
  | .columns => { columns := query.columns }
  | .sources => { sources := query.sources }
  | .joins => { joins := query.joins }
  | .filter => { filter := query.filter }
  | .grouping => { grouping := query.grouping }
  | .groupFilter => { groupFilter := query.groupFilter }
  | .ordering => { ordering := query.ordering }
  | .limit => { limit := query.limit }
  | .offset => { offset := query.offset }
  | .bindings =>
    { bindings := query.bindings, namedCount := query.namedCount,
      positionalCount := query.positionalCount }

/-- The query that has each clause as another query has it. -/
def ofClauses (clauses : Clause → Query) : Query where
  columns := (clauses .columns).columns
  sources := (clauses .sources).sources
  joins := (clauses .joins).joins
  filter := (clauses .filter).filter
  grouping := (clauses .grouping).grouping
  groupFilter := (clauses .groupFilter).groupFilter
  ordering := (clauses .ordering).ordering
  limit := (clauses .limit).limit
  offset := (clauses .offset).offset
  bindings := (clauses .bindings).bindings
  namedCount := (clauses .bindings).namedCount
  positionalCount := (clauses .bindings).positionalCount

theorem ofClauses_only (query : Query) : ofClauses query.only = query := rfl

/-- A query is known by its clauses. -/
theorem ext_only {first second : Query} (same : ∀ clause, first.only clause = second.only clause) :
    first = second := by
  rw [← ofClauses_only first, funext same, ofClauses_only]

/-! ### One call -/

section Call

variable (query : Query) (call : Call)

/-- **A call changes no other clause than its own.** -/
theorem only_call_of_ne {clause : Clause} (apart : call.clause ≠ clause) :
    (query.call call).only clause = query.only clause := by
  cases call with
  | bindNamed value placeholder =>
    cases clause <;> first | exact absurd rfl apart | (cases placeholder <;> rfl)
  | _ => cases clause <;> first | exact absurd rfl apart | rfl

/-- **What a call makes of its clause depends on that clause alone.** -/
theorem only_call :
    (query.call call).only call.clause = (query.only call.clause).call call := by
  cases call with
  | bindNamed value placeholder => cases placeholder <;> rfl
  | _ => rfl

theorem placeholder?_of_ne (apart : call.clause ≠ .bindings) : query.placeholder? call = none := by
  cases call <;> first | rfl | exact absurd rfl apart

theorem placeholder?_only : (query.only .bindings).placeholder? call = query.placeholder? call := by
  cases call with
  | bindNamed value placeholder => cases placeholder <;> rfl
  | _ => rfl

end Call

/-! ### A run of calls -/

/-- The calls of one clause. -/
def callsOf (clause : Clause) (calls : List Call) : List Call :=
  calls.filter fun call => call.clause = clause

theorem callsOf_cons_self (call : Call) (calls : List Call) :
    callsOf call.clause (call :: calls) = call :: callsOf call.clause calls :=
  List.filter_cons_of_pos (decide_eq_true rfl)

theorem callsOf_cons_of_ne {call : Call} {clause : Clause} (apart : call.clause ≠ clause)
    (calls : List Call) : callsOf clause (call :: calls) = callsOf clause calls :=
  List.filter_cons_of_neg (by simpa using apart)

/-- The placeholders that are answered in a run, in the order of the calls. -/
def answers (query : Query) : List Call → List String
  | [] => []
  | call :: others => (query.placeholder? call).toList ++ (query.call call).answers others

/-- **A clause after a run is what the calls of that clause make of it.** -/
theorem only_run (query : Query) (clause : Clause) (calls : List Call) :
    (query.run calls).only clause = (query.only clause).run (callsOf clause calls) := by
  induction calls generalizing query with
  | nil => rfl
  | cons call others ih =>
    show ((query.call call).run others).only clause = _
    rw [ih]
    by_cases own : call.clause = clause
    · subst own
      rw [callsOf_cons_self, only_call]
      rfl
    · rw [callsOf_cons_of_ne own, only_call_of_ne query call own]

/-- **The placeholders that a run answers are those that its bindings answer.** -/
theorem answers_eq (query : Query) (calls : List Call) :
    query.answers calls = (query.only .bindings).answers (callsOf .bindings calls) := by
  induction calls generalizing query with
  | nil => rfl
  | cons call others ih =>
    rw [answers, ih]
    by_cases own : call.clause = .bindings
    · have changed := only_call query call
      rw [own] at changed
      rw [← own, callsOf_cons_self, answers, own, placeholder?_only, changed]
    · rw [callsOf_cons_of_ne own, only_call_of_ne query call own, placeholder?_of_ne query call own]
      rfl

section Interleaving

variable (query : Query) {first second : List Call}

/-- **Runs with the same calls for each clause make the same query.** -/
theorem run_congr (same : ∀ clause, callsOf clause first = callsOf clause second) :
    query.run first = query.run second := by
  apply ext_only
  intro clause
  rw [only_run, only_run, same]

/-- The same bindings answer the same placeholders. -/
theorem answers_congr (same : callsOf .bindings first = callsOf .bindings second) :
    query.answers first = query.answers second := by
  rw [query.answers_eq first, same, ← query.answers_eq second]

end Interleaving

end WithClause.Query
