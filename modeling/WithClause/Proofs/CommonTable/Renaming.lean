/-
**A table under another name.**

A table can be made the content of another one, which has a name of its own and, here, the same
columns (`renamed`). What stands in a WITH clause is the name and the columns, what the recursion
starts from (`opening`), and the text of the table (`withElement_ok_iff`). The outer table has the
text and the bindings of the inner one, and no recursion: only the text of a table goes into
another one. So it stands in a WITH clause as the inner table does, under its own name and without
the opening.
-/

import Mathlib
import WithClause.CommonTable

namespace WithClause.CommonTable

/-! ### A table in a WITH clause -/

section Element

variable (table : CommonTable)

/-- The names of the columns as they stand after the name of the table. -/
def columnList : String :=
  if table.columns.isEmpty then "" else " (" ++ ", ".intercalate table.columns ++ ")"

/-- What a recursion starts from, with the word that goes before the text of the table. -/
def opening : String :=
  match table.anchor with
  | some anchor => anchor.sql ++ if anchor.distinct then " UNION " else " UNION ALL "
  | none => ""

theorem heading_eq : table.heading = table.name ++ table.columnList := by
  unfold heading columnList
  split
  · exact String.append_empty.symm
  · rw [String.append_assoc, String.append_assoc, String.append_assoc]

theorem definitionSql_eq (text : String) : table.definitionSql text = table.opening ++ text := by
  unfold definitionSql opening
  cases table.anchor with
  | some anchor => rfl
  | none => exact String.empty_append.symm

theorem opening_of_not_recursive (plain : table.isRecursive = false) : table.opening = "" := by
  have none : table.anchor = none := Option.not_isSome_iff_eq_none.mp (Bool.eq_false_iff.mp plain)
  unfold opening
  rw [none]

/-- What stands around the text of a table in a WITH clause. -/
theorem withElement_eq :
    table.withElement = table.sql.map fun text =>
      table.name ++ (table.columnList ++ " AS (" ++ table.opening ++ text ++ ")") := by
  unfold withElement
  rw [heading_eq]
  simp only [definitionSql_eq, String.append_assoc]
  rfl

end Element

/-! ### The same table under another name -/

section Renamed

variable (inner : CommonTable) (name : String)

/-- Another table with a name of its own and the same columns. -/
def renamed : CommonTable := (ofTable name inner).nameColumns inner.columns

theorem sql_renamed : (inner.renamed name).sql = inner.sql := by
  show (inner.sql >>= fun text => pure text) = inner.sql
  cases inner.sql <;> rfl

/-- The outer table binds nothing itself. -/
theorem bindings_renamed : (inner.renamed name).bindings = inner.bindings := rfl

theorem withElement_renamed :
    (inner.renamed name).withElement = inner.sql.map fun text =>
      name ++ (inner.columnList ++ " AS (" ++ text ++ ")") := by
  have opening : (inner.renamed name).opening = "" := opening_of_not_recursive _ rfl
  rw [withElement_eq, sql_renamed, opening, String.append_empty]
  rfl

/-- **A table under another name.** If a table can be written, the outer one stands in a WITH clause
as the inner one does, with its own name in front and without what the recursion starts from; with
nothing but another name, if the inner one is not recursive. It has the same bindings, and is not
recursive itself. -/
theorem written_renamed {inner : CommonTable} {element : String}
    (written : inner.withElement = .ok element) (name : String) :
    (∃ body, inner.sql = .ok body ∧
      element = inner.name ++ (inner.columnList ++ " AS (" ++ inner.opening ++ body ++ ")") ∧
      (inner.renamed name).withElement =
        .ok (name ++ (inner.columnList ++ " AS (" ++ body ++ ")"))) ∧
    (inner.isRecursive = false → ∀ rest, element = inner.name ++ rest →
      (inner.renamed name).withElement = .ok (name ++ rest)) ∧
    (inner.renamed name).bindings = inner.bindings ∧
    (inner.renamed name).isRecursive = false := by
  rw [withElement_renamed]
  rw [withElement_eq] at written
  cases found : inner.sql with
  | error fault =>
    rw [found] at written
    cases written
  | ok body =>
    rw [found] at written
    cases written
    refine ⟨⟨body, rfl, rfl, rfl⟩, fun plain rest same => ?_, inner.bindings_renamed name, rfl⟩
    rw [opening_of_not_recursive inner plain, String.append_empty] at same
    have tail := String.append_right_inj inner.name |>.mp same
    rw [← tail]
    rfl

/-- A recursive table that counts, with another one attached to it which binds a value. -/
def counter : CommonTable :=
  let other := ofQuery "" ((∅ : Query).run [.select [":last"], .bind (.named "last") (.int 9)])
  let rows := (∅ : Query).run [.select ["n + 1"], .addSource ⟨"count", none⟩]
  ((((recursive "count" rows).nameColumns ["n"]).setAnchor "VALUES(1)").setDistinct true).attach
    other true

theorem written_renamed_counter :
    counter.withElement = .ok ("count" ++
      " (n) AS (VALUES(1) UNION SELECT n + 1 FROM count UNION ALL SELECT :last)") ∧
    (counter.renamed "seq").withElement = .ok ("seq" ++
      " (n) AS (SELECT n + 1 FROM count UNION ALL SELECT :last)") ∧
    (counter.renamed "seq").bindings.entries = [(.named "last", .int 9)] ∧
    (counter.renamed "seq").isRecursive = false := by
  have written : counter.withElement = .ok ("count" ++
      " (n) AS (VALUES(1) UNION SELECT n + 1 FROM count UNION ALL SELECT :last)") := by cbv
  have text : counter.sql = .ok "SELECT n + 1 FROM count UNION ALL SELECT :last" := by cbv
  obtain ⟨⟨body, same, _, renamed⟩, _, bindings, plain⟩ := written_renamed written "seq"
  cases text.symm.trans same
  exact ⟨written, renamed, congrArg OrderedMap.entries bindings, plain⟩

/-- The name is not all that changes of a recursive table: what it starts from is left out, and it
is not recursive any more. -/
theorem renamed_counter_not_recursive :
    ∃ rest, counter.withElement = .ok (counter.name ++ rest) ∧
      (counter.renamed "seq").withElement ≠ .ok ("seq" ++ rest) ∧
      (counter.renamed "seq").isRecursive ≠ counter.isRecursive := by
  refine ⟨" (n) AS (VALUES(1) UNION SELECT n + 1 FROM count UNION ALL SELECT :last)", ?_, ?_, ?_⟩
  · cbv
  · have shown : (counter.renamed "seq").withElement =
        .ok "seq (n) AS (SELECT n + 1 FROM count UNION ALL SELECT :last)" := by cbv
    rw [shown]
    exact fun same => absurd (Except.ok.inj same) (by decide)
  · decide

end Renamed

end WithClause.CommonTable
