/-
**Definitions that compare equal.**

Definitions compare equal if they are the same but for the order in which the values are bound in
each of their queries, and for values that agree. The bindings of a query definition stand apart
from all else that it stands for (`run_calls`), so that the queries of two such definitions compare
equal (`run_calls_agrees`), and their tables agree (`toTable_agree`).

Hence the statements of two such definitions have the same outcome (`toStatement_of_agrees`): no
order in which the values of one query are written down shows in the text, or in the value that a
key has in the end.
-/

import Mathlib
import WithClause.Proofs.Definition.WrittenOut
import WithClause.Proofs.Statement.Agreement

namespace WithClause

open Query (Clause)

/-! ### Queries -/

/-- The other clauses do not change with the bindings. -/
theorem Query.only_with_bindings (query : Query) (bindings : OrderedMap Key Value) {clause : Clause}
    (other : clause ≠ .bindings) :
    Query.only { query with bindings := bindings } clause = query.only clause := by
  cases clause with
  | bindings => exact absurd rfl other
  | _ => rfl

namespace QueryDefinition

/-- The definition without its bindings. -/
def unbound (definition : QueryDefinition) : QueryDefinition := { definition with bindings := ∅ }

/-- What a definition stands for in the other clauses does not depend on its bindings. -/
theorem replayed_unbound (definition : QueryDefinition) {clause : Clause}
    (other : clause ≠ .bindings) : definition.unbound.replayed clause = definition.replayed clause := by
  cases clause with
  | bindings => exact absurd rfl other
  | _ => rfl

theorem agrees_iff {first second : QueryDefinition} :
    first.agrees second = true ↔
      first.unbound = second.unbound ∧
        OrderedMap.Agree Value.agrees first.bindings second.bindings := by
  obtain ⟨⟩ := first
  obtain ⟨⟩ := second
  simp only [agrees, unbound, Bool.and_eq_true, beq_iff_eq, OrderedMap.equalBy_iff, mk.injEq]
  tauto

/-- The bindings of the query that a definition stands for. -/
def namedBindings (definition : QueryDefinition) : OrderedMap Key Value :=
  .ofList (definition.bindings.entries.map (Prod.map Key.named id))

/-- **A definition stands for the query without bindings, with the bindings put in.** -/
theorem run_calls (definition : QueryDefinition) :
    (∅ : Query).run definition.calls =
      { (∅ : Query).run definition.unbound.calls with bindings := definition.namedBindings } := by
  apply Query.ext_only
  intro clause
  by_cases own : clause = .bindings
  · subst own
    -- Without bindings nothing is counted either.
    have bare : ((∅ : Query).run definition.unbound.calls).only .bindings = ∅ :=
      definition.unbound.only_run_calls .bindings
    rw [only_run_calls, replayed, run_map_bind]
    exact congrArg (fun query : Query => { query with bindings := definition.namedBindings })
      bare.symm
  · have others := ((∅ : Query).run definition.unbound.calls).only_with_bindings
      definition.namedBindings own
    rw [others, only_run_calls, only_run_calls, definition.replayed_unbound own]

/-- **Definitions that compare equal stand for queries that compare equal.** -/
theorem run_calls_agrees {first second : QueryDefinition} (same : first.agrees second = true) :
    ((∅ : Query).run first.calls).agrees ((∅ : Query).run second.calls) = true := by
  obtain ⟨unbound, bindings⟩ := agrees_iff.mp same
  rw [first.run_calls, second.run_calls, unbound]
  exact Query.agrees_with_bindings _ (bindings.rename fun _ _ => Key.named.inj)

end QueryDefinition

/-! ### Tables -/

namespace TableDefinition

/-- A definition without its query. -/
def aside (definition : TableDefinition) : TableDefinition := { definition with query := {} }

theorem agrees_iff {first second : TableDefinition} :
    first.agrees second = true ↔
      first.aside = second.aside ∧ first.query.agrees second.query = true := by
  obtain ⟨⟩ := first
  obtain ⟨⟩ := second
  simp only [agrees, aside, Bool.and_eq_true, beq_iff_eq, mk.injEq]
  tauto

/-- A table of a definition takes from the query what a statement takes from the table. -/
theorem finished_agree (definition : TableDefinition) {one other : Query}
    (same : one.agrees other = true) :
    (definition.finished one).Agree (definition.finished other) := by
  refine ⟨rfl, definition.outline_finished (Query.sql_of_agrees same), ?_⟩
  rw [bindings_finished, bindings_finished]
  exact Query.bindings_of_agrees same

/-- **Definitions that compare equal make tables that agree.** -/
theorem toTable_agree {first second : TableDefinition} (same : first.agrees second = true) :
    (first.toTable ∅).Agree (second.toTable ∅) := by
  obtain ⟨aside, queries⟩ := agrees_iff.mp same
  have finished (query : Query) : first.finished query = second.finished query := by
    show first.aside.finished query = second.aside.finished query
    rw [aside]
  rw [toTable_eq, toTable_eq, finished]
  exact second.finished_agree (QueryDefinition.run_calls_agrees queries)

theorem allAgree_iff : ∀ firsts seconds : List TableDefinition,
    allAgree firsts seconds = true ↔
      List.Forall₂ (fun first second => first.agrees second = true) firsts seconds
  | [], [] => by simp [allAgree]
  | [], _ :: _ => by simp [allAgree]
  | _ :: _, [] => by simp [allAgree]
  | _ :: firsts, _ :: seconds => by simp [allAgree, allAgree_iff firsts seconds]

end TableDefinition

/-! ### Statements -/

namespace Definition

theorem toStatement_outcomesAgree {first second : Definition}
    (same : first.agrees second = true) :
    Statement.OutcomesAgree (first.toStatement ∅) (second.toStatement ∅) := by
  obtain ⟨queries, tables⟩ := (Bool.and_eq_true ..).mp same
  have start := Statement.Agree.ofQuery (QueryDefinition.run_calls_agrees queries)
  have added : List.Forall₂ CommonTable.Agree
      (first.tables.map (TableDefinition.toTable · ∅))
      (second.tables.map (TableDefinition.toTable · ∅)) := by
    rw [List.forall₂_map_left_iff, List.forall₂_map_right_iff]
    exact ((TableDefinition.allAgree_iff _ _).mp tables).imp fun _ _ => TableDefinition.toTable_agree
  have outcomes := start.foldlM_add added
  rwa [List.foldlM_map, List.foldlM_map] at outcomes

/-- **Definitions that compare equal make statements with the same outcome.** Either both fail with
the same fault, or both succeed; then the tables have the same names in the same order, the
statements have the same text or the same fault, and the merged bindings compare equal: under each
key either neither has a value, or both have values that agree. -/
theorem toStatement_of_agrees {first second : Definition} (same : first.agrees second = true) :
    (∃ fault, first.toStatement ∅ = .error fault ∧ second.toStatement ∅ = .error fault) ∨
    ∃ one other : Statement,
      first.toStatement ∅ = .ok one ∧
      second.toStatement ∅ = .ok other ∧
      one.names = other.names ∧
      one.sql = other.sql ∧
      OrderedMap.equalBy Value.agrees one.bindings other.bindings = true ∧
      ∀ key, Option.Rel (fun value value' => value.agrees value' = true)
        (one.binding? key) (other.binding? key) := by
  have outcomes := toStatement_outcomesAgree same
  revert outcomes
  generalize first.toStatement ∅ = result
  generalize second.toStatement ∅ = result'
  rintro (fault | @⟨one, other, agree⟩)
  · exact .inl ⟨fault, rfl, rfl⟩
  · exact .inr ⟨one, other, rfl, rfl, agree.names, agree.sql,
      OrderedMap.equalBy_iff.mpr agree.bindings, agree.bindings⟩

/-- Two queries that bind values, `low` both of them, in the order that `arrange` leaves behind. -/
def levels (zero : Binary64) (arrange : List (String × Value) → List (String × Value)) :
    Definition where
  query := {
    columns := ["n"], table := some "levels", filters := ["n < :high"]
    bindings := .ofList (arrange [("low", .int 1), ("high", .int 9)]) }
  tables := [{
    name := "levels"
    query := {
      columns := [":low AS n", ":zero AS level"]
      bindings := .ofList (arrange [("low", .int 3), ("zero", .float zero)]) } }]

theorem toStatement_of_agrees_levels :
    (levels ⟨0⟩ id).agrees (levels ⟨0x8000000000000000⟩ List.reverse) = true ∧
    ∃ one other : Statement,
      (levels ⟨0⟩ id).toStatement ∅ = .ok one ∧
      (levels ⟨0x8000000000000000⟩ List.reverse).toStatement ∅ = .ok other ∧
      one.bindings.keys = [.named "low", .named "high", .named "zero"] ∧
      other.bindings.keys = [.named "high", .named "low", .named "zero"] ∧
      other.sql = .ok ("WITH levels AS (SELECT :low AS n, :zero AS level) " ++
        "SELECT n FROM levels WHERE n < :high") ∧
      other.binding? (.named "low") = some (.int 3) ∧
      OrderedMap.equalBy Value.agrees one.bindings other.bindings = true := by
  have same : (levels ⟨0⟩ id).agrees (levels ⟨0x8000000000000000⟩ List.reverse) = true := by decide
  obtain ⟨fault, failed, -⟩ | ⟨one, other, built, built', names, sql, bindings, -⟩ :=
    toStatement_of_agrees same
  · cases failed
  · refine ⟨same, one, other, built, built', ?_, ?_, ?_, ?_, bindings⟩
    · rw [← Except.ok.inj built]; rfl
    · rw [← Except.ok.inj built']; rfl
    · rw [← sql, ← Except.ok.inj built]; cbv
    · rw [← Except.ok.inj built']; rfl

end Definition

end WithClause
