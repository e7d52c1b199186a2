/-
**Which definitions build a statement.**

The tables of a definition are registered one after the other. Their names alone decide whether that
succeeds: a table is refused if it has no name, or the name of one before it (`Refused`), and the
first one that is refused names the fault (`refusal`). What comes before that table is registered
without a fault (`Registrable`), which is why its own name decides.

A statement that is built has each table under its name, in the order of the definitions, around a
query of its own; the calls of the primary query change the clauses that they belong to, and no
other.
-/

import Mathlib.Data.List.Induction
import WithClause.Proofs.Definition.WrittenOut

namespace WithClause

/-! ### Tables that are refused -/

namespace TableDefinition

/-- A table that cannot be registered after others: it has no name, or that of one of them. -/
def Refused (earlier : List TableDefinition) (definition : TableDefinition) : Prop :=
  definition.name = "" ∨ definition.name ∈ earlier.map name

/-- The fault of a table that is refused. -/
def refusal (definition : TableDefinition) : Fault :=
  if definition.name = "" then .noName else .nameTaken definition.name

/-- Tables that can be registered one after the other. -/
structure Registrable (definitions : List TableDefinition) : Prop where
  named : ∀ definition ∈ definitions, definition.name ≠ ""
  distinct : (definitions.map name).Nodup

section Registrable

variable {definitions earlier later : List TableDefinition} {definition : TableDefinition}

theorem registrable_concat_iff :
    Registrable (definitions ++ [definition]) ↔
      Registrable definitions ∧ ¬ definition.Refused definitions := by
  unfold Refused
  constructor
  · rintro ⟨named, distinct⟩
    rw [List.map_append, List.nodup_append] at distinct
    obtain ⟨before, _, apart⟩ := distinct
    obtain ⟨others, last⟩ := List.forall_mem_append.mp named
    refine ⟨⟨others, before⟩, ?_⟩
    rintro (empty | taken)
    · exact last definition List.mem_cons_self empty
    · exact apart _ taken _ List.mem_cons_self rfl
  · rintro ⟨⟨named, distinct⟩, accepted⟩
    obtain ⟨last, fresh⟩ := not_or.mp accepted
    refine ⟨List.forall_mem_append.mpr ⟨named, List.forall_mem_singleton.mpr last⟩, ?_⟩
    rw [List.map_append, List.map_singleton, ← List.concat_eq_append]
    exact distinct.concat fresh

/-- Of tables that cannot all be registered, one is the first that is refused. -/
theorem exists_first_refused (refused : ¬ Registrable definitions) :
    ∃ earlier definition later, definitions = earlier ++ definition :: later ∧
      Registrable earlier ∧ definition.Refused earlier := by
  induction definitions using List.reverseRecOn with
  | nil => exact absurd ⟨List.forall_mem_nil _, List.nodup_nil⟩ refused
  | append_singleton definitions last ih =>
    by_cases before : Registrable definitions
    · refine ⟨definitions, last, [], rfl, before, ?_⟩
      by_contra accepted
      exact refused (registrable_concat_iff.mpr ⟨before, accepted⟩)
    · obtain ⟨earlier, definition, later, rfl, rest⟩ := ih before
      exact ⟨earlier, definition, later ++ [last], List.append_assoc .., rest⟩

theorem Registrable.of_append (registrable : Registrable (earlier ++ later)) :
    Registrable earlier := by
  obtain ⟨named, distinct⟩ := registrable
  rw [List.map_append] at distinct
  exact ⟨(List.forall_mem_append.mp named).1, distinct.of_append_left⟩

/-- **Tables can all be registered if none is refused after those before it.** -/
theorem not_registrable_iff :
    ¬ Registrable definitions ↔
      ∃ earlier definition later, definitions = earlier ++ definition :: later ∧
        definition.Refused earlier := by
  constructor
  · intro refused
    obtain ⟨earlier, definition, later, split, _, first⟩ := exists_first_refused refused
    exact ⟨earlier, definition, later, split, first⟩
  · rintro ⟨earlier, definition, later, rfl, refused⟩ registrable
    rw [← List.concat_append, List.concat_eq_append] at registrable
    exact (registrable_concat_iff.mp registrable.of_append).2 refused

end Registrable

end TableDefinition

/-! ### Statements -/

/-- The entry of a table in the registry: around the run of its own calls, under its name. -/
def TableDefinition.entry (definition : TableDefinition) : String × CommonTable :=
  (definition.name, definition.finished ((∅ : Query).run definition.query.calls))

/-- A statement with tables registered in their order. -/
def Statement.ofDefinitions (query : Query) (definitions : List TableDefinition) : Statement where
  query := query
  tables := .ofList (definitions.map TableDefinition.entry)

namespace Statement

variable {query : Query} {definitions : List TableDefinition}

theorem mem_names_ofDefinitions (name : String) :
    name ∈ (ofDefinitions query definitions).names ↔
      name ∈ definitions.map TableDefinition.name := by
  have keys := OrderedMap.mem_keys_ofList (definitions.map TableDefinition.entry) name
  rw [List.map_map] at keys
  exact keys

/-- The names of tables that are registered are distinct, so that each keeps its entry. -/
theorem entries_ofDefinitions (query : Query)
    (registrable : TableDefinition.Registrable definitions) :
    (ofDefinitions query definitions).tables.entries = definitions.map TableDefinition.entry := by
  have distinct : ((definitions.map TableDefinition.entry).map Prod.fst).Nodup := by
    rw [List.map_map]
    exact registrable.distinct
  exact congrArg OrderedMap.entries (OrderedMap.ofList_entries ⟨_, distinct⟩)

theorem foldlM_add_toTable (registrable : TableDefinition.Registrable definitions) :
    definitions.foldlM (fun statement table => statement.add (table.toTable ∅)) (ofQuery query) =
      .ok (ofDefinitions query definitions) := by
  simp only [TableDefinition.toTable_eq]
  refine foldlM_add _ (fun _ => rfl) registrable.named registrable.distinct ?_
  intro table member there
  cases there

/-- A table that is refused after others is not added to them. -/
theorem add_of_refused {table : TableDefinition} (refused : table.Refused definitions) :
    (ofDefinitions query definitions).add (table.toTable ∅) = .error table.refusal := by
  have own : (table.toTable ∅).name = table.name := congrArg CommonTable.name table.toTable_eq
  rw [add_error_iff, own, mem_names_ofDefinitions, TableDefinition.refusal]
  by_cases empty : table.name = ""
  · exact .inl ⟨empty, if_pos empty⟩
  · exact .inr ⟨empty, refused.resolve_left empty, if_neg empty⟩

end Statement

namespace Definition

open TableDefinition (Registrable)

variable (definition : Definition) (query : Query)

section Outcome

variable {definition} {query}

theorem toStatement_of_registrable (registrable : Registrable definition.tables) :
    definition.toStatement query =
      .ok (.ofDefinitions (query.run definition.query.calls) definition.tables) :=
  Statement.foldlM_add_toTable registrable

/-- **The first table that is refused names the fault.** -/
theorem toStatement_of_refused {earlier later : List TableDefinition} {table : TableDefinition}
    (split : definition.tables = earlier ++ table :: later) (before : Registrable earlier)
    (refused : table.Refused earlier) :
    definition.toStatement query = .error table.refusal := by
  rw [toStatement, split, List.foldlM_append, Statement.foldlM_add_toTable before]
  show List.foldlM _ _ _ = _
  rw [List.foldlM_cons, Statement.add_of_refused refused]
  rfl

end Outcome

theorem toStatement_ok_iff (statement : Statement) :
    definition.toStatement query = .ok statement ↔
      Registrable definition.tables ∧
        statement = .ofDefinitions (query.run definition.query.calls) definition.tables := by
  constructor
  · intro built
    by_cases registrable : Registrable definition.tables
    · rw [toStatement_of_registrable registrable] at built
      exact ⟨registrable, (Except.ok.inj built).symm⟩
    · obtain ⟨earlier, table, later, split, before, refused⟩ :=
        TableDefinition.exists_first_refused registrable
      rw [toStatement_of_refused split before refused] at built
      cases built
  · rintro ⟨registrable, rfl⟩
    exact toStatement_of_registrable registrable

theorem toStatement_error_iff (fault : Fault) :
    definition.toStatement query = .error fault ↔
      ∃ earlier table later, definition.tables = earlier ++ table :: later ∧
        Registrable earlier ∧ table.Refused earlier ∧ fault = table.refusal := by
  constructor
  · intro failed
    have stuck : ¬ Registrable definition.tables := by
      intro registrable
      rw [toStatement_of_registrable registrable] at failed
      cases failed
    obtain ⟨earlier, table, later, split, before, refused⟩ :=
      TableDefinition.exists_first_refused stuck
    rw [toStatement_of_refused split before refused] at failed
    exact ⟨earlier, table, later, split, before, refused, (Except.error.inj failed).symm⟩
  · rintro ⟨earlier, table, later, split, before, refused, rfl⟩
    exact toStatement_of_refused split before refused

/-- **The names of the tables decide whether a definition builds a statement.** It does not if some
table has no name or the name of one before it, and then the first such table names the fault.
Otherwise there is one entry for each table, in their order and under their names, around the run of
its own calls on an empty query; and the calls of the primary query make of each clause of the given
one what the definition says of that clause. -/
theorem toStatement_by_names :
    ((∃ fault, definition.toStatement query = .error fault) ↔
      ∃ earlier table later, definition.tables = earlier ++ table :: later ∧
        table.Refused earlier) ∧
    (∀ fault, definition.toStatement query = .error fault ↔
      ∃ earlier table later, definition.tables = earlier ++ table :: later ∧
        Registrable earlier ∧ table.Refused earlier ∧ fault = table.refusal) ∧
    (∀ statement, definition.toStatement query = .ok statement ↔
      Registrable definition.tables ∧
      statement.query = query.run definition.query.calls ∧
      statement.tables.entries = definition.tables.map fun table =>
        (table.name, table.finished ((∅ : Query).run table.query.calls))) ∧
    ∀ clause, (query.run definition.query.calls).only clause =
      (query.only clause).run (definition.query.replayed clause) := by
  refine ⟨?_, definition.toStatement_error_iff query, fun statement => ?_, fun clause => ?_⟩
  · rw [← TableDefinition.not_registrable_iff]
    constructor
    · rintro ⟨fault, failed⟩ registrable
      rw [toStatement_of_registrable registrable] at failed
      cases failed
    · intro stuck
      obtain ⟨earlier, table, later, split, before, refused⟩ :=
        TableDefinition.exists_first_refused stuck
      exact ⟨_, toStatement_of_refused split before refused⟩
  · rw [toStatement_ok_iff]
    refine and_congr_right fun registrable => ?_
    have entries :=
      Statement.entries_ofDefinitions (query.run definition.query.calls) registrable
    constructor
    · rintro rfl
      exact ⟨rfl, entries⟩
    · obtain ⟨primary, tables⟩ := statement
      rintro ⟨rfl, same⟩
      exact congrArg (Statement.mk _) (OrderedMap.ext (same.trans entries.symm))
  · rw [Query.only_run, QueryDefinition.calls_eq,
      Query.callsOf_flatMap definition.query.clause_of_mem_replayed]

/-- The second table has no name; that the third has the name of the first is not looked at. -/
example :
    let tables : List TableDefinition := [{ name := "a" }, {}, { name := "a", distinct := true }]
    (Definition.toStatement { tables } ∅) = .error .noName := by
  rfl

end Definition

end WithClause
