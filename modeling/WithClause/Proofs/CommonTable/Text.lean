/-
**The text of a common table.**

A table is a tree: its content may be other tables, and further tables are attached to it. Its text
is a row of queries with a UNION word between each two (`members`), unless some table in the tree
has something attached while a query that its own content comes down to sorts its rows (`Offends`,
`contentQueries`). Then there is no text, and the first such table is named, in the order of
`nodes`: those in the content, the table itself, those attached.

`decided` is what the tables of a list decide: a value, or the fault of the first one that offends.
It follows concatenation (`decided_append`), as the text does, so that each reading of the tree is
one step of an induction on it (`CommonTable.sql_eq`).
-/

import WithClause.CommonTable

namespace WithClause

/-! ### What a table consists of -/

/-- A part of the text of a table: a query, or the word between two. -/
inductive Piece where
  | select (query : Query)
  | union (all : Bool)

namespace Piece

def sql : Piece → String
  | select query => query.sql
  | union all => Branch.word all

/-- The texts of several pieces, one after the other. -/
def text (pieces : List Piece) : String := String.join (pieces.map sql)

theorem text_append (first second : List Piece) :
    text (first ++ second) = text first ++ text second := by
  unfold text
  rw [List.map_append, String.join_append]

theorem text_cons (piece : Piece) (pieces : List Piece) :
    text (piece :: pieces) = piece.sql ++ text pieces := by
  unfold text
  rw [List.map_cons, String.join_cons]

theorem text_select (query : Query) : text [.select query] = query.sql := by
  rw [text_cons]
  exact String.append_empty

end Piece

mutual

/-- The queries of a table with the words between them: those of the content, then those of each
attached table after its word. -/
def CommonTable.members : CommonTable → List Piece
  | ⟨_, query, _, _, attached, _, content⟩ => content.members query ++ attachedMembers attached

def Content.members (query : Query) : Content → List Piece
  | .own => [.select query]
  | .another inner => inner.members
  | .several parts => unitedMembers parts

/-- The members of several tables, with UNION before each but the first. -/
def unitedMembers : List CommonTable → List Piece
  | [] => []
  | first :: others => first.members ++ furtherMembers others

/-- The members of several tables, with UNION before each. -/
def furtherMembers : List CommonTable → List Piece
  | [] => []
  | part :: others => .union false :: part.members ++ furtherMembers others

def attachedMembers : List Branch → List Piece
  | [] => []
  | ⟨table, all⟩ :: others => .union all :: table.members ++ attachedMembers others

end

mutual

/-- The queries that the content of a table comes down to, without anything attached. -/
def CommonTable.contentQueries : CommonTable → List Query
  | ⟨_, query, _, _, _, _, content⟩ => content.queries query

def Content.queries (query : Query) : Content → List Query
  | .own => [query]
  | .another inner => inner.contentQueries
  | .several parts => partsQueries parts

def partsQueries : List CommonTable → List Query
  | [] => []
  | part :: others => part.contentQueries ++ partsQueries others

end

mutual

/-- The tables of a tree: those in the content, the table itself, those attached. -/
def CommonTable.nodes : CommonTable → List CommonTable
  | ⟨name, query, dependencies, columns, attached, anchor, content⟩ =>
    content.nodes ++ ⟨name, query, dependencies, columns, attached, anchor, content⟩ ::
      attachedNodes attached

def Content.nodes : Content → List CommonTable
  | .own => []
  | .another inner => inner.nodes
  | .several parts => partsNodes parts

def partsNodes : List CommonTable → List CommonTable
  | [] => []
  | part :: others => part.nodes ++ partsNodes others

def attachedNodes : List Branch → List CommonTable
  | [] => []
  | ⟨table, _⟩ :: others => table.nodes ++ attachedNodes others

end

/-- Something is attached to a table whose content has an ORDER BY clause. -/
def CommonTable.Offends (table : CommonTable) : Prop :=
  table.attached ≠ [] ∧ ∃ query ∈ table.contentQueries, query.ordering ≠ []

instance (table : CommonTable) : Decidable table.Offends :=
  inferInstanceAs (Decidable (_ ∧ _))

/-! ### Whether the content sorts its rows -/

mutual

theorem CommonTable.sortsRows_iff : ∀ table : CommonTable,
    table.sortsRows = true ↔ ∃ query ∈ table.contentQueries, query.ordering ≠ []
  | ⟨_, query, _, _, _, _, content⟩ => content.sortsRows_iff query

theorem Content.sortsRows_iff (query : Query) : ∀ content : Content,
    content.sortsRows query = true ↔ ∃ one ∈ content.queries query, one.ordering ≠ []
  | .own => by simp [Content.sortsRows, Content.queries, Query.sortsRows]
  | .another inner => inner.sortsRows_iff
  | .several parts => anySortsRows_iff parts

theorem anySortsRows_iff : ∀ parts : List CommonTable,
    anySortsRows parts = true ↔ ∃ query ∈ partsQueries parts, query.ordering ≠ []
  | [] => by simp [anySortsRows, partsQueries]
  | part :: others => by
    rw [anySortsRows, partsQueries, Bool.or_eq_true, part.sortsRows_iff, anySortsRows_iff others]
    simp only [List.mem_append, or_and_right, exists_or]

end

theorem CommonTable.offends_iff (table : CommonTable) :
    table.Offends ↔ table.attached ≠ [] ∧ table.sortsRows = true :=
  and_congr_right fun _ => table.sortsRows_iff.symm

/-! ### What the tables of a list decide -/

/-- A value, or the fault of the first table that offends. -/
def decided {α : Type} (tables : List CommonTable) (value : α) : Except Fault α :=
  match tables.find? fun table => table.Offends with
  | some table => .error (.unionOfSorted table.name)
  | none => .ok value

section Decided

variable {α β : Type} {table : CommonTable}

theorem decided_nil (value : α) : decided [] value = .ok value := rfl

theorem decided_cons_of_offends (offends : table.Offends) (others : List CommonTable) (value : α) :
    decided (table :: others) value = .error (.unionOfSorted table.name) := by
  unfold decided
  rw [List.find?_cons_of_pos (by simpa using offends)]

theorem decided_cons_of_not_offends (fine : ¬ table.Offends) (others : List CommonTable)
    (value : α) : decided (table :: others) value = decided others value := by
  unfold decided
  rw [List.find?_cons_of_neg (by simpa using fine)]

/-- What comes after a value is reached where no table offends. -/
theorem decided_bind (tables : List CommonTable) (value : α) (next : α → Except Fault β) :
    decided tables value >>= next = decided tables () >>= fun _ => next value := by
  unfold decided
  cases tables.find? fun table => table.Offends <;> rfl

theorem decided_bind_pure (tables : List CommonTable) (value : α) (change : α → β) :
    (decided tables value >>= fun result => pure (change result)) =
      decided tables (change value) := by
  unfold decided
  cases tables.find? fun table => table.Offends <;> rfl

theorem decided_append (first second : List CommonTable) (value : α) :
    decided (first ++ second) value = decided first () >>= fun _ => decided second value := by
  unfold decided
  rw [List.find?_append]
  cases first.find? fun table => table.Offends <;> rfl

theorem decided_ok_iff (tables : List CommonTable) (value result : α) :
    decided tables value = .ok result ↔ (∀ table ∈ tables, ¬ table.Offends) ∧ result = value := by
  unfold decided
  cases found : tables.find? fun table => table.Offends with
  | none =>
    have fine := List.find?_eq_none.mp found
    simp only [decide_eq_true_eq] at fine
    rw [Except.ok.injEq, eq_comm, iff_and_self]
    exact fun _ => fine
  | some table =>
    have offends := List.find?_some found
    have member := List.mem_of_find?_eq_some found
    simp only [decide_eq_true_eq] at offends
    simp only [reduceCtorEq, false_iff, not_and]
    exact fun fine => absurd offends (fine table member)

theorem decided_error_iff (tables : List CommonTable) (value : α) (fault : Fault) :
    decided tables value = .error fault ↔
      ∃ before table after, tables = before ++ table :: after ∧
        (∀ earlier ∈ before, ¬ earlier.Offends) ∧ table.Offends ∧
        fault = .unionOfSorted table.name := by
  have first : decided tables value = .error fault ↔
      ∃ table, tables.find? (fun table => table.Offends) = some table ∧
        fault = .unionOfSorted table.name := by
    unfold decided
    cases tables.find? fun table => table.Offends <;> simp [eq_comm]
  simp only [first, List.find?_eq_some_iff_append, decide_eq_true_eq, Bool.not_eq_true',
    decide_eq_false_iff_not]
  constructor
  · rintro ⟨table, ⟨offends, before, after, split, fine⟩, same⟩
    exact ⟨before, table, after, split, fine, offends, same⟩
  · rintro ⟨before, table, after, split, fine, offends, same⟩
    exact ⟨table, ⟨offends, before, after, split, fine⟩, same⟩

end Decided

/-! ### The text -/

/-- The texts of united tables with UNION between them. -/
theorem intercalate_members (parts : List CommonTable) :
    " UNION ".intercalate (parts.map fun part => Piece.text part.members) =
      Piece.text (unitedMembers parts) := by
  cases parts with
  | nil => rfl
  | cons first others =>
    rw [unitedMembers, Piece.text_append, List.map_cons]
    induction others generalizing first with
    | nil => exact String.append_empty.symm
    | cons second others ih =>
      rw [List.map_cons, String.intercalate_cons_cons, ih, furtherMembers, List.cons_append,
        Piece.text_cons, Piece.text_append, String.append_assoc]
      rfl

mutual

/-- **The text of a table is that of its members, if no table in the tree offends.** -/
theorem CommonTable.sql_eq : ∀ table : CommonTable,
    table.sql = decided table.nodes (Piece.text table.members)
  | ⟨name, query, dependencies, columns, attached, anchor, content⟩ => by
    rw [CommonTable.sql, content.sql_eq query, CommonTable.nodes, CommonTable.members,
      Piece.text_append, decided_append, decided_bind]
    refine congrArg _ (funext fun _ => ?_)
    cases attached with
    | nil =>
      rw [decided_cons_of_not_offends fun offends => offends.1 rfl]
      exact congrArg Except.ok String.append_empty.symm
    | cons branch others =>
      have offends := CommonTable.offends_iff
        ⟨name, query, dependencies, columns, branch :: others, anchor, content⟩
      by_cases sorted : content.sortsRows query = true
      · rw [decided_cons_of_offends (offends.mpr ⟨List.cons_ne_nil _ _, sorted⟩), if_pos sorted]
        rfl
      · rw [decided_cons_of_not_offends fun both => sorted (offends.mp both).2, if_neg sorted,
          branchesSql_eq (branch :: others)]
        exact decided_bind_pure _ _ _

theorem Content.sql_eq (query : Query) : ∀ content : Content,
    content.sql query = decided content.nodes (Piece.text (content.members query))
  | .own => by
    rw [Content.sql, Content.nodes, Content.members, decided_nil, Piece.text_select]
  | .another inner => inner.sql_eq
  | .several parts => by
    rw [Content.sql, partsSql_eq parts, decided_bind_pure, intercalate_members]
    rfl

theorem partsSql_eq : ∀ parts : List CommonTable,
    partsSql parts = decided (partsNodes parts) (parts.map fun part => Piece.text part.members)
  | [] => rfl
  | part :: others => by
    rw [partsSql, part.sql_eq, partsSql_eq others, partsNodes, decided_append, decided_bind]
    simp only [decided_bind_pure]
    rfl

theorem branchesSql_eq : ∀ attached : List Branch,
    branchesSql attached =
      decided (attachedNodes attached) (Piece.text (attachedMembers attached))
  | [] => rfl
  | ⟨table, all⟩ :: others => by
    rw [branchesSql, table.sql_eq, branchesSql_eq others, attachedNodes, decided_append,
      decided_bind]
    simp only [decided_bind_pure, attachedMembers, Piece.text_cons, Piece.text_append,
      List.cons_append, String.append_assoc]
    rfl

end

/-- **The outcome of a table.** There is no text exactly when some table in the tree offends, and
then the first one is named: those in the content come before the table itself, and those attached
after it. Otherwise the text is that of the members. -/
theorem CommonTable.sql_by_nodes (table : CommonTable) :
    ((∃ fault, table.sql = .error fault) ↔ ∃ node ∈ table.nodes, node.Offends) ∧
    (∀ fault, table.sql = .error fault ↔
      ∃ before node after, table.nodes = before ++ node :: after ∧
        (∀ earlier ∈ before, ¬ earlier.Offends) ∧ node.Offends ∧
        fault = .unionOfSorted node.name) ∧
    (∀ text, table.sql = .ok text ↔
      (∀ node ∈ table.nodes, ¬ node.Offends) ∧ text = Piece.text table.members) := by
  rw [table.sql_eq]
  refine ⟨?_, decided_error_iff table.nodes _, decided_ok_iff table.nodes _⟩
  constructor
  · rintro ⟨fault, refused⟩
    obtain ⟨before, node, after, split, _, offends, _⟩ := (decided_error_iff _ _ _).mp refused
    exact ⟨node, by simp [split], offends⟩
  · rintro ⟨node, member, offends⟩
    cases result : decided table.nodes (Piece.text table.members) with
    | error fault => exact ⟨fault, rfl⟩
    | ok text => exact absurd offends (((decided_ok_iff _ _ _).mp result).1 node member)

/-- Something is attached both to a table and to its content, which sorts its rows: the content is
named. -/
example :
    let sorted := CommonTable.ofQuery "inner" ((∅ : Query).call (.orderBy "id" none))
    let other := CommonTable.ofQuery "other" ∅
    ((CommonTable.ofTable "outer" (sorted.attach other false)).attach other true).sql =
      .error (.unionOfSorted "inner") := by
  rfl

end WithClause
