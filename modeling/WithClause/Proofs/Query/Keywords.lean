/-
**What stands after the keywords of a query.**

The text of a query is SELECT and then clauses, each a keyword with the text after it
(`sql_eq_written`). A keyword is written if the clause was given anything, and this does not look at
the text. So three clauses can be without what belongs after the keyword: FROM where there are joins
and no source, and then a second blank follows; WHERE and HAVING where all conditions since the last
one that was set are empty, and then nothing follows.

The main result, `Query.keywords_followed`, is that these are the only cases, for any run of calls
with texts that are not empty.
-/

import WithClause.Proofs.Filter.Grouping
import WithClause.Proofs.FromClause.Walk

namespace WithClause

/-- A clause as it is written: its keyword and the text after it. -/
structure Written where
  keyword : String
  text : String
deriving DecidableEq

namespace Written

def sql (clause : Written) : String := clause.keyword ++ clause.text

/-- Clauses one after the other. -/
def allSql (clauses : List Written) : String := String.join (clauses.map sql)

@[simp]
theorem allSql_nil : allSql [] = "" := rfl

@[simp]
theorem allSql_singleton (clause : Written) : allSql [clause] = clause.sql := by
  simp [allSql]

theorem allSql_append (first second : List Written) :
    allSql (first ++ second) = allSql first ++ allSql second := by
  rw [allSql, List.map_append, String.join_append]
  rfl

end Written

namespace Query

/-! ### The clauses of a text -/

/-- The clause of a list. -/
def writtenList (keyword : String) (items : List String) : List Written :=
  if items = [] then [] else [⟨keyword, ", ".intercalate items⟩]

def writtenFilter (keyword : String) (filter : Option Filter) : List Written :=
  (filter.map fun filter => ⟨keyword, filter.sql⟩).toList

def writtenFrom (sources : List Source) (joins : List Join) : List Written :=
  if sources = [] ∧ joins = [] then [] else [⟨" FROM ", FromClause.sql sources joins⟩]

def writtenLimit (limit : Option Nat) : List Written :=
  (limit.map fun rows => ⟨" LIMIT ", rows.repr⟩).toList

def writtenOffset (offset : Option Nat) : List Written :=
  ((offset.filter (· ≠ 0)).map fun rows => ⟨" OFFSET ", rows.repr⟩).toList

/-- The clauses that are written, in their order. -/
def written (query : Query) : List Written :=
  writtenList " " query.columns ++ writtenFrom query.sources query.joins ++
    writtenFilter " WHERE " query.filter ++ writtenList " GROUP BY " query.grouping ++
    writtenFilter " HAVING " query.groupFilter ++ writtenList " ORDER BY " query.ordering ++
    writtenLimit query.limit ++ writtenOffset query.offset

theorem allSql_writtenList (keyword : String) (items : List String) :
    Written.allSql (writtenList keyword items) = listClause keyword items := by
  cases items with
  | nil => rfl
  | cons item others => exact Written.allSql_singleton _

theorem allSql_writtenFilter (keyword : String) (filter : Option Filter) :
    Written.allSql (writtenFilter keyword filter) = filterClause keyword filter := by
  cases filter with
  | none => rfl
  | some filter => exact Written.allSql_singleton _

theorem allSql_writtenFrom (query : Query) :
    Written.allSql (writtenFrom query.sources query.joins) = query.fromClause := by
  unfold writtenFrom fromClause
  by_cases nothing : query.sources = [] ∧ query.joins = []
  · simp [nothing]
  · have given : ¬(query.sources.isEmpty && query.joins.isEmpty) = true := by simpa using nothing
    rw [if_neg nothing, if_neg given]
    exact Written.allSql_singleton _

theorem allSql_writtenLimit (query : Query) :
    Written.allSql (writtenLimit query.limit) = query.limitClause := by
  unfold writtenLimit limitClause
  cases query.limit with
  | none => rfl
  | some rows => exact Written.allSql_singleton _

theorem allSql_writtenOffset (query : Query) :
    Written.allSql (writtenOffset query.offset) = query.offsetClause := by
  unfold writtenOffset offsetClause
  cases query.offset with
  | none => rfl
  | some rows =>
    rw [Option.filter_some]
    by_cases zero : rows = 0
    · simp [zero]
    · simp [zero, Written.sql]

/-- **The text of a query is SELECT and the clauses that are written.** -/
theorem sql_eq_written (query : Query) : query.sql = "SELECT" ++ Written.allSql query.written := by
  simp only [sql, written, Written.allSql_append, allSql_writtenList, allSql_writtenFilter,
    allSql_writtenFrom, allSql_writtenLimit, allSql_writtenOffset, String.append_assoc]

section Members

variable {clause : Written} {keyword : String}

theorem mem_writtenList {items : List String} :
    clause ∈ writtenList keyword items ↔ items ≠ [] ∧ clause = ⟨keyword, ", ".intercalate items⟩ := by
  by_cases nothing : items = [] <;> simp [writtenList, nothing]

theorem mem_writtenFilter {filter : Option Filter} :
    clause ∈ writtenFilter keyword filter ↔
      clause.keyword = keyword ∧ filter.map Filter.sql = some clause.text := by
  obtain ⟨word, text⟩ := clause
  cases filter with
  | none => simp [writtenFilter]
  | some filter => simp [writtenFilter, eq_comm]

theorem mem_writtenFrom {sources : List Source} {joins : List Join} :
    clause ∈ writtenFrom sources joins ↔
      ¬(sources = [] ∧ joins = []) ∧ clause = ⟨" FROM ", FromClause.sql sources joins⟩ := by
  by_cases nothing : sources = [] ∧ joins = [] <;> simp [writtenFrom, nothing]

theorem mem_writtenLimit {limit : Option Nat} :
    clause ∈ writtenLimit limit ↔ ∃ rows ∈ limit, clause = ⟨" LIMIT ", rows.repr⟩ := by
  cases limit <;> simp [writtenLimit]

theorem mem_writtenOffset {offset : Option Nat} :
    clause ∈ writtenOffset offset ↔ ∃ rows ∈ offset, rows ≠ 0 ∧ clause = ⟨" OFFSET ", rows.repr⟩ := by
  cases offset with
  | none => simp [writtenOffset]
  | some rows =>
    unfold writtenOffset
    rw [Option.filter_some]
    by_cases zero : rows = 0 <;> simp [zero]

variable {query : Query}

theorem mem_written :
    clause ∈ query.written ↔
      clause ∈ writtenList " " query.columns ∨ clause ∈ writtenFrom query.sources query.joins ∨
      clause ∈ writtenFilter " WHERE " query.filter ∨
      clause ∈ writtenList " GROUP BY " query.grouping ∨
      clause ∈ writtenFilter " HAVING " query.groupFilter ∨
      clause ∈ writtenList " ORDER BY " query.ordering ∨
      clause ∈ writtenLimit query.limit ∨ clause ∈ writtenOffset query.offset := by
  simp only [written, List.mem_append, or_assoc]

theorem from_mem_written {text : String} :
    ⟨" FROM ", text⟩ ∈ query.written ↔
      ¬(query.sources = [] ∧ query.joins = []) ∧
        text = FromClause.sql query.sources query.joins := by
  simp [mem_written, mem_writtenList, mem_writtenFrom, mem_writtenFilter, mem_writtenLimit,
    mem_writtenOffset]

theorem where_mem_written {text : String} :
    ⟨" WHERE ", text⟩ ∈ query.written ↔ query.filter.map Filter.sql = some text := by
  simp [mem_written, mem_writtenList, mem_writtenFrom, mem_writtenFilter, mem_writtenLimit,
    mem_writtenOffset]

theorem having_mem_written {text : String} :
    ⟨" HAVING ", text⟩ ∈ query.written ↔ query.groupFilter.map Filter.sql = some text := by
  simp [mem_written, mem_writtenList, mem_writtenFrom, mem_writtenFilter, mem_writtenLimit,
    mem_writtenOffset]

end Members

/-! ### Texts that are not empty -/

/-- The texts of a call, apart from conditions of filters. -/
def Call.texts : Call → List String
  | .select columns | .addSelect columns => columns
  | .addSource source => source.table :: source.label.toList
  | .addJoin join => [join.origin, join.table, join.label, join.condition]
  | .groupBy term | .addGroupBy term => [term]
  | .orderBy term direction | .addOrderBy term direction => term :: direction.toList
  | _ => []

/-- Whether a call has no empty text. A condition of a filter may be empty. -/
def Call.Solid (call : Call) : Prop := ∀ text ∈ call.texts, text ≠ ""

instance (call : Call) : Decidable call.Solid :=
  inferInstanceAs (Decidable (∀ text ∈ call.texts, text ≠ ""))

/-- A query whose lists and tables have no empty text. -/
structure Solid (query : Query) : Prop where
  columns : ∀ column ∈ query.columns, column ≠ ""
  sources : ∀ source ∈ query.sources, source.table ≠ ""
  grouping : ∀ term ∈ query.grouping, term ≠ ""
  ordering : ∀ term ∈ query.ordering, term ≠ ""

theorem directed_ne_empty {term : String} (given : term ≠ "") (direction : Option String) :
    directed term direction ≠ "" := by
  cases direction with
  | none => exact given
  | some direction => simp [directed]

theorem intercalate_ne_empty {separator : String} (visible : separator ≠ "") {items : List String}
    (given : items ≠ []) (solid : ∀ item ∈ items, item ≠ "") :
    separator.intercalate items ≠ "" := by
  rcases items with _ | ⟨first, _ | ⟨second, others⟩⟩
  · exact absurd rfl given
  · simpa using solid
  · simp [visible]

namespace Solid

theorem empty : Solid ∅ := ⟨nofun, nofun, nofun, nofun⟩

variable {query : Query}

theorem call (solid : query.Solid) {call : Call} (given : call.Solid) :
    (query.call call).Solid := by
  obtain ⟨columns, sources, grouping, ordering⟩ := solid
  cases call with
  | select others => exact ⟨given, sources, grouping, ordering⟩
  | addSelect others =>
    exact ⟨List.forall_mem_append.mpr ⟨columns, given⟩, sources, grouping, ordering⟩
  | addSource source =>
    have table : source.table ≠ "" := given source.table List.mem_cons_self
    refine ⟨columns, List.forall_mem_append.mpr ⟨sources, ?_⟩, grouping, ordering⟩
    exact List.forall_mem_singleton.mpr table
  | groupBy term => exact ⟨columns, sources, given, ordering⟩
  | addGroupBy term =>
    exact ⟨columns, sources, List.forall_mem_append.mpr ⟨grouping, given⟩, ordering⟩
  | orderBy term direction =>
    have solid := directed_ne_empty (given term List.mem_cons_self) direction
    exact ⟨columns, sources, grouping, List.forall_mem_singleton.mpr solid⟩
  | addOrderBy term direction =>
    have solid := directed_ne_empty (given term List.mem_cons_self) direction
    refine ⟨columns, sources, grouping, List.forall_mem_append.mpr ⟨ordering, ?_⟩⟩
    exact List.forall_mem_singleton.mpr solid
  | bindNamed value placeholder =>
    cases placeholder <;> exact ⟨columns, sources, grouping, ordering⟩
  | _ => exact ⟨columns, sources, grouping, ordering⟩

theorem run (solid : query.Solid) {calls : List Call} (given : ∀ call ∈ calls, call.Solid) :
    (query.run calls).Solid := by
  induction calls generalizing query with
  | nil => exact solid
  | cons call others ih =>
    obtain ⟨first, rest⟩ := List.forall_mem_cons.mp given
    exact ih (solid.call first) rest

/-- **A clause other than FROM, WHERE and HAVING has something after its keyword.** -/
theorem text_ne_empty (solid : query.Solid) {clause : Written} (member : clause ∈ query.written)
    (other : clause.keyword ∉ [" FROM ", " WHERE ", " HAVING "]) : clause.text ≠ "" := by
  have comma : ", " ≠ "" := by decide
  rcases mem_written.mp member with list | source | filter | list | filter | list | limit | offset
  · obtain ⟨given, rfl⟩ := mem_writtenList.mp list
    exact intercalate_ne_empty comma given solid.columns
  · obtain ⟨-, rfl⟩ := mem_writtenFrom.mp source
    exact absurd List.mem_cons_self other
  · rw [(mem_writtenFilter.mp filter).1] at other
    exact absurd (by decide) other
  · obtain ⟨given, rfl⟩ := mem_writtenList.mp list
    exact intercalate_ne_empty comma given solid.grouping
  · rw [(mem_writtenFilter.mp filter).1] at other
    exact absurd (by decide) other
  · obtain ⟨given, rfl⟩ := mem_writtenList.mp list
    exact intercalate_ne_empty comma given solid.ordering
  · obtain ⟨rows, -, rfl⟩ := mem_writtenLimit.mp limit
    exact Nat.repr_ne_empty
  · obtain ⟨rows, -, -, rfl⟩ := mem_writtenOffset.mp offset
    exact Nat.repr_ne_empty

end Solid

/-! ### Sources and joins -/

def Call.source? : Call → Option Source
  | .addSource source => some source
  | _ => none

def Call.join? : Call → Option Join
  | .addJoin join => some join
  | _ => none

/-- A list that is only added to has what is added, in its order. -/
theorem foldl_concat {α : Type} (before added : List α) :
    added.foldl (fun sofar item => sofar ++ [item]) before = before ++ added := by
  rw [List.foldl_append_eq_append, ← List.flatMap_def, List.flatMap_singleton']

theorem sources_run (calls : List Call) :
    ((∅ : Query).run calls).sources = calls.filterMap Call.source? := by
  refine (foldl_steps (fun query call => ?_) ∅ calls).trans (foldl_concat [] _)
  cases call with
  | bindNamed value placeholder => cases placeholder <;> rfl
  | _ => rfl

theorem joins_run (calls : List Call) :
    ((∅ : Query).run calls).joins = calls.filterMap Call.join? := by
  refine (foldl_steps (fun query call => ?_) ∅ calls).trans (foldl_concat [] _)
  cases call with
  | bindNamed value placeholder => cases placeholder <;> rfl
  | _ => rfl

end Query

namespace FromClause

/-- The text begins with the table of the first source. -/
theorem sql_cons (source : Source) (others : List Source) (joins : List Join) :
    ∃ after, sql (source :: others) joins = source.table ++ after := by
  have table : ∃ after, source.sql = source.table ++ after := by
    obtain ⟨table, _ | label⟩ := source
    · exact ⟨"", String.append_empty.symm⟩
    · exact ⟨" " ++ label, String.append_assoc⟩
  obtain ⟨after, own⟩ := table
  simp only [sql, attach, List.map_cons, own, String.append_assoc, String.intercalate_cons_append]
  exact ⟨_, rfl⟩

/-- Without a source the text begins with the first join, and so with a blank. -/
theorem sql_nil_cons (join : Join) (others : List Join) :
    ∃ after, sql [] (join :: others) = " " ++ join.kind.sql ++ after := by
  have joined : joinsSql (arrangeRest (join :: others)) =
      join.sql ++ joinsSql ((follow [join.label] others).1 ++
        arrangeRest (follow [join.label] others).2) := by
    rw [arrangeRest, joinsSql, List.cons_append, List.map_cons, String.join_cons]
    rfl
  simp only [sql, attach, List.map_nil, String.intercalate_nil, String.empty_append, joined,
    Join.sql, String.append_assoc]
  exact ⟨_, rfl⟩

/-- The text begins with the table of the first source or, without a source, with a blank. -/
theorem sql_begins {sources : List Source} {joins : List Join}
    (some : ¬(sources = [] ∧ joins = [])) :
    (∀ source ∈ sources.head?, ∃ after, sql sources joins = source.table ++ after) ∧
    (sources = [] →
      ∃ join ∈ joins.head?, ∃ after, sql sources joins = " " ++ join.kind.sql ++ after) := by
  refine ⟨fun source first => ?_, fun none => ?_⟩
  · obtain ⟨others, rfl⟩ := List.head?_eq_some_iff.mp first
    exact sql_cons source others joins
  · subst none
    cases joins with
    | nil => exact absurd ⟨rfl, rfl⟩ some
    | cons join others => exact ⟨join, rfl, sql_nil_cons join others⟩

end FromClause

namespace Filter

theorem foldl_step_eq_none_iff (steps : List Step) : steps.foldl step none = none ↔ steps = [] := by
  constructor
  · intro nothing
    rcases List.eq_nil_or_concat steps with rfl | ⟨before, last, rfl⟩
    · rfl
    · rw [List.concat_eq_append, List.foldl_append] at nothing
      cases last <;> cases nothing
  · rintro rfl
    rfl

/-- A filter has a text if there was any call on it. -/
theorem exists_text_iff (steps : List Step) :
    (∃ text, (steps.foldl step none).map sql = some text) ↔ steps ≠ [] := by
  rw [← Option.isSome_iff_exists, Option.isSome_map, Option.isSome_iff_ne_none]
  exact not_congr (foldl_step_eq_none_iff steps)

/-- **The text of a filter is empty if all its conditions are.** -/
theorem text_eq_empty_iff {steps : List Step} {text : String}
    (written : (steps.foldl step none).map sql = some text) :
    text = "" ↔ steps.foldl Step.collect [] = [] := by
  obtain ⟨grouping, grouped⟩ := exists_grouped steps
  have same : text = (grouping.map Grouping.text).getD "" := by
    rw [← grouped.text, ← text_foldl_step, written]
    rfl
  rw [same, ← grouped.conditions]
  cases grouping with
  | none => exact iff_of_true rfl rfl
  | some one =>
    have some : one.conditions ≠ [] := by cases one <;> simp [Grouping.conditions]
    exact iff_of_false (grouped.solid one rfl) some

end Filter

namespace Query

open FromClause (attach follow takeFrom? arrangeRest joinsSql)

/-- **A keyword is followed by what belongs to it, but for three cases.** The text of a query is
SELECT and its written clauses. After FROM stands the table of the first source; if there is none,
a second blank and a join. After WHERE and HAVING stands a text that is not empty, unless all
conditions since the last one that was set are. After the other keywords something stands always.
Which of the three are written depends only on which calls were made. -/
theorem keywords_followed (calls : List Call) (solid : ∀ call ∈ calls, call.Solid) :
    let query := (∅ : Query).run calls
    let sources := calls.filterMap Call.source?
    let joins := calls.filterMap Call.join?
    let rows := calls.filterMap Call.rowStep?
    let groups := calls.filterMap Call.groupStep?
    query.sql = "SELECT" ++ Written.allSql query.written ∧
    (∀ clause ∈ query.written, clause.keyword ∉ [" FROM ", " WHERE ", " HAVING "] →
      clause.text ≠ "") ∧
    (∀ text, ⟨" FROM ", text⟩ ∈ query.written →
      (∀ source ∈ sources.head?, source.table ≠ "" ∧ ∃ after, text = source.table ++ after) ∧
      (sources = [] → ∃ join ∈ joins.head?, ∃ after, text = " " ++ join.kind.sql ++ after)) ∧
    (∀ text, ⟨" WHERE ", text⟩ ∈ query.written →
      (text = "" ↔ rows.foldl Filter.Step.collect [] = [])) ∧
    (∀ text, ⟨" HAVING ", text⟩ ∈ query.written →
      (text = "" ↔ groups.foldl Filter.Step.collect [] = [])) ∧
    ((∃ text, ⟨" FROM ", text⟩ ∈ query.written) ↔ sources ≠ [] ∨ joins ≠ []) ∧
    ((∃ text, ⟨" WHERE ", text⟩ ∈ query.written) ↔ rows ≠ []) ∧
    ((∃ text, ⟨" HAVING ", text⟩ ∈ query.written) ↔ groups ≠ []) := by
  intro query sources joins rows groups
  have given : query.Solid := Solid.empty.run solid
  have sourced : query.sources = sources := sources_run calls
  have joined : query.joins = joins := joins_run calls
  have filtered : query.filter = rows.foldl Filter.step none := filter_run calls
  have grouped : query.groupFilter = groups.foldl Filter.step none := groupFilter_run calls
  refine ⟨sql_eq_written query, fun clause => given.text_ne_empty, ?_, ?_, ?_, ?_, ?_, ?_⟩
  · intro text member
    obtain ⟨some, rfl⟩ := from_mem_written.mp member
    rw [← sourced, ← joined]
    obtain ⟨table, blank⟩ := FromClause.sql_begins some
    refine ⟨fun source first => ⟨?_, table source first⟩, blank⟩
    exact given.sources source (List.mem_of_head? first)
  · intro text member
    exact Filter.text_eq_empty_iff (filtered ▸ where_mem_written.mp member)
  · intro text member
    exact Filter.text_eq_empty_iff (grouped ▸ having_mem_written.mp member)
  · simp [from_mem_written, sourced, joined, or_iff_not_imp_left]
  · simp only [where_mem_written, filtered, Filter.exists_text_iff]
  · simp only [having_mem_written, grouped, Filter.exists_text_iff]

/-- An empty condition before one that is not: the text after WHERE is the latter alone. -/
theorem keywords_followed_where :
    let calls : List Call := [.select ["a"], .addSource ⟨"t", none⟩, .setFilter "",
      .addFilter .or "b"]
    (∀ call ∈ calls, call.Solid) ∧
    ((∅ : Query).run calls).sql = "SELECT a FROM t WHERE b" ∧
    ∀ text, ⟨" WHERE ", text⟩ ∈ ((∅ : Query).run calls).written → text ≠ "" := by
  intro calls
  have solid : ∀ call ∈ calls, call.Solid := by decide
  obtain ⟨-, -, -, filtered, -⟩ := keywords_followed calls solid
  have source := FromClause.sql_of_no_joins [⟨"t", none⟩]
  have clause : ((∅ : Query).run calls).fromClause = " FROM t" := congrArg (" FROM " ++ ·) source
  refine ⟨solid, ?_, fun text member => ?_⟩
  · rw [sql, clause]
    rfl
  · exact (not_congr (filtered text member)).mpr (by decide)

/-- A join without a source leaves a second blank after FROM, and an empty condition leaves nothing
between WHERE and the blank of the next clause. -/
theorem keywords_bare :
    let joined : List Call := [.select ["a"],
      .addJoin { origin := "u", table := "orders", label := "o", condition := "o.user = u.id" }]
    let filtered : List Call := [.select ["a"], .addSource ⟨"t", none⟩, .setFilter "",
      .groupBy "a"]
    (∀ call ∈ joined ++ filtered, call.Solid) ∧
    ((∅ : Query).run joined).sql = "SELECT a FROM  INNER JOIN orders o ON o.user = u.id" ∧
    ⟨" FROM ", " INNER JOIN orders o ON o.user = u.id"⟩ ∈ ((∅ : Query).run joined).written ∧
    ((∅ : Query).run filtered).sql = "SELECT a FROM t WHERE  GROUP BY a" ∧
    ⟨" WHERE ", ""⟩ ∈ ((∅ : Query).run filtered).written := by
  intro joined filtered
  have source := FromClause.sql_of_no_joins [⟨"t", none⟩]
  have join : FromClause.sql [] [⟨.inner, "u", "orders", "o", "o.user = u.id"⟩] =
      " INNER JOIN orders o ON o.user = u.id" := by
    simp [FromClause.sql, attach, follow, takeFrom?, arrangeRest, joinsSql, Join.sql, JoinType.sql]
  have first : ((∅ : Query).run joined).fromClause = " FROM  INNER JOIN orders o ON o.user = u.id" :=
    congrArg (" FROM " ++ ·) join
  have second : ((∅ : Query).run filtered).fromClause = " FROM t" :=
    congrArg (" FROM " ++ ·) source
  refine ⟨by decide, ?_, from_mem_written.mpr ⟨by decide, join.symm⟩, ?_, by decide⟩
  · rw [sql, first]
    rfl
  · rw [sql, second]
    rfl

end Query

end WithClause
