/-
**The text of a statement.**

A statement has a text exactly when its tables have an order and each of them can be written
(`exists_sql_iff`). The text is the WITH clause with the tables in that order, a space, and the text
of the primary query without the blanks at its end (`sql_of_accepted`). The blanks are taken off the
whole text, but the WITH clause starts with a letter and the primary query with SELECT, so that
nothing else is lost (`trim_withKeyword`).

An order that is not found is reported before any table is written, and of the tables that cannot
be written the first one in the order is reported.
-/

import WithClause.Proofs.DependencyOrder.Run
import WithClause.Statement.Preview

namespace WithClause

open DependencyOrder (IsOrder order isOrder_of_order_ok)

/-! ### Results one after the other -/

section Results

variable {ε α β : Type} {f : α → Except ε β}

theorem map_ok_iff {change : α → β} {result : Except ε α} {value : β} :
    result.map change = .ok value ↔ ∃ before, result = .ok before ∧ change before = value := by
  cases result <;> simp [Except.map]

theorem map_error_iff {change : α → β} {result : Except ε α} {fault : ε} :
    result.map change = .error fault ↔ result = .error fault := by
  cases result <;> simp [Except.map]

theorem mapM_ok_iff (elements : List α) (results : List β) :
    elements.mapM f = .ok results ↔ elements.map f = results.map .ok := by
  induction elements generalizing results with
  | nil => cases results <;> simp [pure, Except.pure]
  | cons element rest ih =>
    rw [List.mapM_cons, List.map_cons]
    cases first : f element with
    | error fault => cases results <;> simp [bind, Except.bind]
    | ok result =>
      cases others : rest.mapM f with
      | error fault => cases results <;> simp [← ih, others, bind, Except.bind]
      | ok values => cases results <;> simp [← ih, others, bind, Except.bind, pure, Except.pure]

/-- The first element whose result is an error decides. -/
theorem mapM_error_iff (elements : List α) (fault : ε) :
    elements.mapM f = .error fault ↔
      ∃ before element after, elements = before ++ element :: after ∧
        (∀ earlier ∈ before, ∃ result, f earlier = .ok result) ∧ f element = .error fault := by
  induction elements with
  | nil => simp [pure, Except.pure]
  | cons element rest ih =>
    rw [List.mapM_cons]
    constructor
    · intro failed
      cases first : f element with
      | error cause =>
        rw [first] at failed
        cases failed
        exact ⟨[], element, rest, rfl, by simp, first⟩
      | ok result =>
        have later : rest.mapM f = .error fault := by
          rw [first] at failed
          cases others : rest.mapM f with
          | error cause =>
            rw [others] at failed
            cases failed
            rfl
          | ok results =>
            rw [others] at failed
            cases failed
        obtain ⟨before, other, after, rfl, fine, here⟩ := ih.mp later
        refine ⟨element :: before, other, after, rfl, ?_, here⟩
        exact List.forall_mem_cons.mpr ⟨⟨result, first⟩, fine⟩
    · rintro ⟨before, other, after, split, fine, here⟩
      cases before with
      | nil =>
        cases split
        rw [here]
        rfl
      | cons head tail =>
        cases split
        obtain ⟨⟨result, first⟩, fine⟩ := List.forall_mem_cons.mp fine
        rw [first, ih.mpr ⟨tail, other, after, rfl, fine, here⟩]
        rfl

theorem exists_mapM_ok_iff (elements : List α) :
    (∃ results, elements.mapM f = .ok results) ↔
      ∀ element ∈ elements, ∃ result, f element = .ok result := by
  cases outcome : elements.mapM f with
  | error fault =>
    obtain ⟨before, element, after, rfl, _, failed⟩ := (mapM_error_iff elements fault).mp outcome
    refine ⟨by simp, fun each => ?_⟩
    obtain ⟨result, fine⟩ := each element (by simp)
    cases failed.symm.trans fine
  | ok results =>
    refine ⟨fun _ element member => ?_, fun _ => ⟨results, rfl⟩⟩
    have there := List.mem_map_of_mem (f := f) member
    rw [(mapM_ok_iff elements results).mp outcome] at there
    obtain ⟨result, _, fine⟩ := List.mem_map.mp there
    exact ⟨result, fine.symm⟩

end Results

/-! ### The two ends of the text -/

theorem Query.sql_head (query : Query) : ∃ letters, query.sql.toList = 'S' :: letters := by
  unfold Query.sql
  simp only [String.toList_append]
  exact ⟨_, rfl⟩

namespace Statement

theorem withKeyword_head (tables : List CommonTable) :
    ∃ letters, (withKeyword tables).toList = 'W' :: letters := by
  unfold withKeyword
  split <;> exact ⟨_, rfl⟩

/-- **The blanks that are taken off a statement are those at the end of its primary query.** -/
theorem trim_withKeyword (tables : List CommonTable) (clause : String) (query : Query) :
    Text.trim (withKeyword tables ++ clause ++ " " ++ query.sql) =
      withKeyword tables ++ clause ++ " " ++ Text.trimEnd query.sql := by
  obtain ⟨letters, start⟩ := withKeyword_head tables
  obtain ⟨others, select⟩ := query.sql_head
  have head : (withKeyword tables ++ clause ++ " ").toList =
      'W' :: (letters ++ clause.toList ++ " ".toList) := by
    simp only [String.toList_append, start, List.cons_append]
  have inside : 'S' ∈ query.sql.toList := by
    rw [select]
    exact List.mem_cons_self
  refine Text.trim_append head rfl ?_ inside
  rfl

theorem withKeyword_eq {statement : Statement} {placed : List (String × CommonTable)}
    (complete : placed.Perm statement.tables.entries) :
    withKeyword (placed.map Prod.snd) =
      if ∃ table ∈ statement.tables.values, table.isRecursive = true then "WITH RECURSIVE "
      else "WITH " := by
  have same : (placed.map Prod.snd).any CommonTable.isRecursive = true ↔
      ∃ table ∈ statement.tables.values, table.isRecursive = true := by
    rw [List.any_eq_true]
    exact exists_congr fun table => and_congr_left fun _ => (complete.map Prod.snd).mem_iff
  unfold withKeyword
  exact if_congr same rfl rfl

/-! ### The outcomes -/

section Outcomes

variable {statement : Statement} {placed : List (String × CommonTable)}

theorem sql_of_refused {cause : Obstacle}
    (refused : order CommonTable.dependencies statement.tables = .error cause) :
    statement.sql = .error (.noOrder cause) := by
  unfold sql withClause ordered
  rw [refused]
  rfl

theorem withClause_of_nil (accepted : order CommonTable.dependencies statement.tables = .ok []) :
    statement.withClause = .ok "" := by
  unfold withClause ordered
  rw [accepted]
  rfl

theorem withClause_of_accepted (some : placed ≠ [])
    (accepted : order CommonTable.dependencies statement.tables = .ok placed) :
    statement.withClause = do
      let elements ← placed.mapM (CommonTable.withElement ∘ Prod.snd)
      return withKeyword (placed.map Prod.snd) ++ ", ".intercalate elements := by
  unfold withClause ordered
  rw [accepted]
  cases placed with
  | nil => exact absurd rfl some
  | cons entry rest =>
    rw [← List.mapM_map]
    rfl

/-- The text of a statement whose tables are written as the given elements. -/
def textOf (statement : Statement) (elements : List String) : String :=
  if statement.tables.entries = [] then Text.trimEnd statement.query.sql
  else (if ∃ table ∈ statement.tables.values, table.isRecursive = true then "WITH RECURSIVE "
    else "WITH ") ++ ", ".intercalate elements ++ " " ++ Text.trimEnd statement.query.sql

/-- **The text of a statement whose tables have an order is decided by their elements.** -/
theorem sql_of_accepted (accepted : order CommonTable.dependencies statement.tables = .ok placed) :
    statement.sql =
      (placed.mapM (CommonTable.withElement ∘ Prod.snd)).map statement.textOf := by
  have complete := (isOrder_of_order_ok accepted).complete
  unfold sql
  by_cases none : placed = []
  · subst none
    have nothing : statement.tables.entries = [] := List.nil_perm.mp complete
    obtain ⟨letters, head⟩ := statement.query.sql_head
    have text : statement.textOf [] = Text.trimEnd statement.query.sql := if_pos nothing
    rw [withClause_of_nil accepted, List.mapM_nil]
    exact congrArg Except.ok ((Text.trim_blank_append head rfl).trans text.symm)
  · have something : statement.tables.entries ≠ [] := fun nothing =>
      none (List.perm_nil.mp (nothing ▸ complete))
    rw [withClause_of_accepted none accepted]
    cases placed.mapM (CommonTable.withElement ∘ Prod.snd) with
    | error fault => rfl
    | ok elements =>
      have text := trim_withKeyword (placed.map Prod.snd) (", ".intercalate elements) statement.query
      refine congrArg Except.ok (text.trans ?_)
      unfold textOf
      rw [if_neg something, withKeyword_eq complete]

theorem exists_sql_iff (statement : Statement) :
    (∃ text, statement.sql = .ok text) ↔
      (∃ placed, order CommonTable.dependencies statement.tables = .ok placed) ∧
        ∀ table ∈ statement.tables.values, ∃ element, table.withElement = .ok element := by
  cases result : order CommonTable.dependencies statement.tables with
  | error cause =>
    rw [sql_of_refused result]
    simp
  | ok placed =>
    -- The order has the registered tables and nothing else.
    have complete := (isOrder_of_order_ok result).complete
    have each := exists_mapM_ok_iff (f := CommonTable.withElement ∘ Prod.snd) placed
    rw [sql_of_accepted result]
    simp only [map_ok_iff]
    constructor
    · rintro ⟨text, elements, written, _⟩
      refine ⟨⟨placed, rfl⟩, fun table member => ?_⟩
      obtain ⟨entry, registered, rfl⟩ := List.mem_map.mp member
      exact each.mp ⟨elements, written⟩ entry (complete.mem_iff.mpr registered)
    · rintro ⟨_, fine⟩
      obtain ⟨elements, written⟩ := each.mpr fun entry member =>
        fine entry.2 (List.mem_map_of_mem (complete.mem_iff.mp member))
      exact ⟨statement.textOf elements, elements, written, rfl⟩

theorem sql_ok_iff (statement : Statement) (text : String) :
    statement.sql = .ok text ↔
      ∃ placed elements, order CommonTable.dependencies statement.tables = .ok placed ∧
        placed.map (CommonTable.withElement ∘ Prod.snd) = elements.map .ok ∧
        text = statement.textOf elements := by
  cases result : order CommonTable.dependencies statement.tables with
  | error cause =>
    rw [sql_of_refused result]
    simp
  | ok placed =>
    rw [sql_of_accepted result, map_ok_iff]
    constructor
    · rintro ⟨elements, written, rfl⟩
      exact ⟨placed, elements, rfl, (mapM_ok_iff placed elements).mp written, rfl⟩
    · rintro ⟨_, elements, accepted, written, rfl⟩
      cases accepted
      exact ⟨elements, (mapM_ok_iff placed elements).mpr written, rfl⟩

theorem sql_error_iff (statement : Statement) (fault : Fault) :
    statement.sql = .error fault ↔
      (∃ cause, order CommonTable.dependencies statement.tables = .error cause ∧
        fault = .noOrder cause) ∨
      ∃ before entry after,
        order CommonTable.dependencies statement.tables = .ok (before ++ entry :: after) ∧
        (∀ earlier ∈ before, ∃ element, earlier.2.withElement = .ok element) ∧
        entry.2.withElement = .error fault := by
  cases result : order CommonTable.dependencies statement.tables with
  | error cause =>
    rw [sql_of_refused result]
    simp [eq_comm]
  | ok placed =>
    rw [sql_of_accepted result, map_error_iff, mapM_error_iff]
    constructor
    · rintro ⟨before, entry, after, rfl, fine, here⟩
      exact .inr ⟨before, entry, after, rfl, fine, here⟩
    · rintro (⟨cause, refused, _⟩ | ⟨before, entry, after, accepted, fine, here⟩)
      · cases refused
      · cases accepted
        exact ⟨before, entry, after, rfl, fine, here⟩

theorem preview_error_iff (statement : Statement) (fault : Fault) :
    statement.preview = .error fault ↔ statement.sql = .error fault := by
  unfold preview
  cases statement.sql with
  | error cause => exact Iff.rfl
  | ok text => simp [bind, Except.bind, pure, Except.pure]

end Outcomes

/-- **The outcome of a statement.** There is a text exactly when the tables have an order and each
of them can be written. It is the WITH clause in that order, a space, and the primary query without
the blanks at its end. An order that is not found is reported first, then the first table in the
order that cannot be written. A preview fails where the text does. -/
theorem sql_outcome (statement : Statement) :
    ((∃ text, statement.sql = .ok text) ↔
      (∃ placed, order CommonTable.dependencies statement.tables = .ok placed) ∧
        ∀ table ∈ statement.tables.values, ∃ element, table.withElement = .ok element) ∧
    (∀ text, statement.sql = .ok text ↔
      ∃ placed elements, order CommonTable.dependencies statement.tables = .ok placed ∧
        IsOrder CommonTable.dependencies statement.tables placed ∧
        placed.map (fun entry => entry.2.withElement) = elements.map .ok ∧
        text =
          if statement.tables.entries = [] then Text.trimEnd statement.query.sql
          else (if ∃ table ∈ statement.tables.values, table.isRecursive = true
              then "WITH RECURSIVE " else "WITH ") ++
            ", ".intercalate elements ++ " " ++ Text.trimEnd statement.query.sql) ∧
    (∀ fault, statement.sql = .error fault ↔
      (∃ cause, order CommonTable.dependencies statement.tables = .error cause ∧
        fault = .noOrder cause) ∨
      ∃ before entry after,
        order CommonTable.dependencies statement.tables = .ok (before ++ entry :: after) ∧
        (∀ earlier ∈ before, ∃ element, earlier.2.withElement = .ok element) ∧
        entry.2.withElement = .error fault) ∧
    (∀ fault, statement.preview = .error fault ↔ statement.sql = .error fault) := by
  refine ⟨statement.exists_sql_iff, fun text => ?_, statement.sql_error_iff,
    statement.preview_error_iff⟩
  rw [sql_ok_iff]
  constructor
  · rintro ⟨placed, elements, accepted, written, same⟩
    exact ⟨placed, elements, accepted, isOrder_of_order_ok accepted, written, same⟩
  · rintro ⟨placed, elements, accepted, _, written, same⟩
    exact ⟨placed, elements, accepted, written, same⟩

end Statement

end WithClause
