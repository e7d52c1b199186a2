/-
**Keys that a table holds.**

The bindings of a table reach every query of its tree in two ways. Those of the tables in its
content are collected when they are asked for; those of an attached table, and of a query that the
recursion was started from, were bound in the own query when they came. The second way is lost if
all bindings of the own query are replaced afterwards.

`Made` says how a table comes about by calls that keep from this. It keeps what the table forgets
(`Traced`): the queries that a recursion was started from, and whether the own query took over
anything. A call keeps every key in reach (`Covered.edit`), and therefore the table holds the keys
of all queries in its tree and of all those seeds (`Made.keys_subset`).
-/

import WithClause.Proofs.CommonTable.Text
import WithClause.Proofs.OrderedMap.Merging
import WithClause.Proofs.Statement.Calls

namespace WithClause

/-! ### Keys of merged bindings -/

theorem OrderedMap.mem_keys_merge {α β : Type} [DecidableEq α] (first second : OrderedMap α β)
    (key : α) : key ∈ (first.merge second).keys ↔ key ∈ first.keys ∨ key ∈ second.keys :=
  first.mem_keys_insertAll second.entries key

theorem CommonTable.mem_keys_bindings (table : CommonTable) (key : Key) :
    key ∈ table.bindings.keys ↔
      key ∈ table.content.bindings.keys ∨ key ∈ table.query.bindings.keys := by
  cases table
  exact OrderedMap.mem_keys_merge _ _ key

theorem mem_keys_mergedBindings (sofar : OrderedMap Key Value) (parts : List CommonTable)
    (key : Key) :
    key ∈ (mergedBindings sofar parts).keys ↔
      key ∈ sofar.keys ∨ ∃ part ∈ parts, key ∈ part.bindings.keys := by
  induction parts generalizing sofar with
  | nil => simp [mergedBindings]
  | cons part others ih =>
    rw [mergedBindings, ih, OrderedMap.mem_keys_merge, List.exists_mem_cons_iff, or_assoc]

namespace CommonTable

theorem nodes_eq (table : CommonTable) :
    table.nodes = table.content.nodes ++ table :: attachedNodes table.attached := by
  cases table
  rfl

end CommonTable

theorem partsNodes_eq (parts : List CommonTable) :
    partsNodes parts = parts.flatMap CommonTable.nodes := by
  induction parts with
  | nil => rfl
  | cons part others ih => rw [partsNodes, ih, List.flatMap_cons]

theorem attachedNodes_eq (attached : List Branch) :
    attachedNodes attached = attached.flatMap fun branch => branch.table.nodes := by
  induction attached with
  | nil => rfl
  | cons branch others ih =>
    obtain ⟨table, all⟩ := branch
    rw [attachedNodes, ih, List.flatMap_cons]

/-! ### What a call on a table brings in -/

namespace CommonTable.Edit

/-- The tables that a call attaches. -/
def tables : Edit → List CommonTable
  | .attach attached _ => [attached]
  | .attachOnly attached _ => attached
  | _ => []

/-- The query that a call starts the recursion from. -/
def seeds : Edit → List Query
  | .anchorOn query => [query]
  | _ => []

/-- Whether a call puts other bindings in the place of all those of the own query. -/
def replacesBindings : Edit → Bool
  | .call (.setBindings _) | .setQuery _ => true
  | _ => false

end CommonTable.Edit

namespace CommonTable

theorem foldl_attach (several : List CommonTable) (all : Bool) (table : CommonTable) :
    several.foldl (fun sofar other => sofar.attach other all) table =
      { table with
        query := several.foldl (fun query other => query.bindEach other.bindings) table.query
        attached := table.attached ++ several.map fun other => ⟨other, all⟩ } := by
  induction several generalizing table with
  | nil =>
    cases table
    simp
  | cons first others ih =>
    rw [List.foldl_cons, ih]
    simp [attach]

theorem attachOnly_eq (table : CommonTable) (several : List CommonTable) (all : Bool) :
    table.attachOnly several all =
      { table with
        query := several.foldl (fun query other => query.bindEach other.bindings) table.query
        attached := several.map fun other => ⟨other, all⟩ } :=
  foldl_attach several all { table with attached := [] }

/-- The own query takes over the keys of several tables and keeps those that it has. -/
theorem mem_keys_foldl_bindEach (several : List CommonTable) (query : Query) (key : Key) :
    key ∈ (several.foldl (fun query other => query.bindEach other.bindings) query).bindings.keys ↔
      key ∈ query.bindings.keys ∨ ∃ other ∈ several, key ∈ other.bindings.keys := by
  induction several generalizing query with
  | nil => simp
  | cons first others ih =>
    rw [List.foldl_cons, ih, List.exists_mem_cons_iff, ← or_assoc]
    exact or_congr_left (OrderedMap.mem_keys_merge _ _ key)

section Edits

variable (table : CommonTable) {edit : Edit}

/-- No call changes the content of a table. -/
theorem content_edit (edit : Edit) : (table.edit edit).content = table.content := by
  cases edit with
  | attachOnly several all =>
    show (table.attachOnly several all).content = _
    rw [attachOnly_eq]
  | _ => rfl

/-- What is attached was attached before, or it is brought in by the call. -/
theorem mem_attached_edit {branch : Branch} (member : branch ∈ (table.edit edit).attached) :
    branch ∈ table.attached ∨ branch.table ∈ edit.tables := by
  cases edit with
  | attach other all =>
    rcases List.mem_append.mp member with before | now
    · exact .inl before
    · rw [List.mem_singleton.mp now]
      exact .inr List.mem_cons_self
  | attachOnly several all =>
    have now : branch ∈ (table.attachOnly several all).attached := member
    rw [attachOnly_eq] at now
    obtain ⟨other, among, rfl⟩ := List.mem_map.mp now
    exact .inr among
  | _ => exact .inl member

/-- A call keeps the keys of the own query, if it does not replace all bindings. -/
theorem keys_subset_edit (keeps : edit.replacesBindings = false) :
    table.query.bindings.keys ⊆ (table.edit edit).query.bindings.keys := by
  intro key there
  cases edit with
  | call one =>
    cases one with
    | bind | bindPositional => exact (OrderedMap.mem_keys_insert _ _ _ _).mpr (.inl there)
    | bindNamed value placeholder =>
      cases placeholder <;> exact (OrderedMap.mem_keys_insert _ _ _ _).mpr (.inl there)
    | setBindings => cases keeps
    | _ => exact there
  | setQuery => cases keeps
  | attach | anchorOn => exact (OrderedMap.mem_keys_merge _ _ key).mpr (.inl there)
  | attachOnly several all =>
    show key ∈ (table.attachOnly several all).query.bindings.keys
    rw [attachOnly_eq]
    exact (mem_keys_foldl_bindEach several _ key).mpr (.inl there)
  | _ => exact there

/-- **The own query takes over the keys of the tables that are attached.** -/
theorem keys_subset_edit_of_attached {other : CommonTable} (member : other ∈ edit.tables) :
    other.bindings.keys ⊆ (table.edit edit).query.bindings.keys := by
  intro key there
  cases edit with
  | attach attached all =>
    rw [List.mem_singleton.mp member] at there
    exact (OrderedMap.mem_keys_merge _ _ key).mpr (.inr there)
  | attachOnly several all =>
    show key ∈ (table.attachOnly several all).query.bindings.keys
    rw [attachOnly_eq]
    exact (mem_keys_foldl_bindEach several _ key).mpr (.inr ⟨other, member, there⟩)
  | _ => cases member

/-- **The own query takes over the keys of a query that the recursion is started from.** -/
theorem keys_subset_edit_of_seed {seed : Query} (member : seed ∈ edit.seeds) :
    seed.bindings.keys ⊆ (table.edit edit).query.bindings.keys := by
  intro key there
  cases edit with
  | anchorOn query =>
    rw [List.mem_singleton.mp member] at there
    exact (OrderedMap.mem_keys_merge _ _ key).mpr (.inr there)
  | _ => cases member

end Edits

end CommonTable

/-! ### Tables with their history -/

/-- A table with what it forgets of its history. -/
structure Traced where
  table : CommonTable
  /-- The queries that the recursion of a table in the tree was started from. -/
  seeds : List Query := []
  /-- Whether the own query took over the bindings of an attached table or of a seed. -/
  hosts : Bool := false

namespace Traced

/-- The table after a call that attaches the given tables. -/
def edit (traced : Traced) (edit : CommonTable.Edit) (attached : List Traced) : Traced where
  table := traced.table.edit edit
  seeds := traced.seeds ++ edit.seeds ++ attached.flatMap seeds
  hosts := traced.hosts || !edit.seeds.isEmpty || !attached.isEmpty

/-- The tables that calls can make which do not replace the bindings of an own query after it took
over others. -/
inductive Made : Traced → Prop
  | ofQuery (name : String) (query : Query) : Made { table := .ofQuery name query }
  | recursive (name : String) (query : Query) : Made { table := .recursive name query }
  | ofTable (name : String) {inner : Traced} (made : Made inner) :
    Made { table := .ofTable name inner.table, seeds := inner.seeds }
  | ofTables (name : String) {first : Traced} {others : List Traced}
    (made : ∀ part ∈ first :: others, Made part) :
    Made
      { table := .ofTables name first.table (others.map table)
        seeds := (first :: others).flatMap seeds }
  | edit {before : Traced} {edit : CommonTable.Edit} {attached : List Traced} (made : Made before)
    (others : ∀ other ∈ attached, Made other) (same : attached.map table = edit.tables)
    (careful : before.hosts = true → edit.replacesBindings = false) :
    Made (before.edit edit attached)

/-- Before a table takes over anything, calls that bring nothing in are free. -/
theorem Made.edit_alone {table : CommonTable} (made : Made { table }) (edit : CommonTable.Edit)
    (attaches : edit.tables = []) (seeds : edit.seeds = []) :
    Made { table := table.edit edit } := by
  have changed : Made (Traced.edit { table } edit []) :=
    made.edit (by simp) attaches.symm fun hosts => by cases hosts
  simpa [Traced.edit, seeds] using changed

/-- The queries of the tree, and those that a recursion was started from. -/
def queries (traced : Traced) : List Query :=
  traced.table.nodes.map CommonTable.query ++ traced.seeds

/-- Those queries but the own one. -/
def others (traced : Traced) : List Query :=
  (traced.table.content.nodes ++ attachedNodes traced.table.attached).map CommonTable.query ++
    traced.seeds

theorem mem_queries_iff (traced : Traced) (query : Query) :
    query ∈ traced.queries ↔
      (∃ node ∈ traced.table.nodes, node.query = query) ∨ query ∈ traced.seeds := by
  rw [queries, List.mem_append, List.mem_map]

theorem mem_others_iff (traced : Traced) (query : Query) :
    query ∈ traced.others ↔
      (∃ node ∈ traced.table.content.nodes, node.query = query) ∨
      (∃ branch ∈ traced.table.attached, ∃ node ∈ branch.table.nodes, node.query = query) ∨
      query ∈ traced.seeds := by
  rw [others, attachedNodes_eq, List.map_append, List.map_flatMap]
  simp only [List.mem_append, List.mem_flatMap, List.mem_map, or_assoc]

/-- The own query is the only one that the others lack. -/
theorem eq_or_mem_others {traced : Traced} {query : Query} (member : query ∈ traced.queries) :
    query = traced.table.query ∨ query ∈ traced.others := by
  unfold queries at member
  unfold others
  rw [traced.table.nodes_eq] at member
  simp only [List.map_append, List.map_cons, List.mem_append, List.mem_cons] at member ⊢
  tauto

/-- The keys of all other queries are in the content, or the own query took them over. -/
def Covered (traced : Traced) : Prop :=
  ∀ query ∈ traced.others, ∀ key ∈ query.bindings.keys,
    key ∈ traced.table.content.bindings.keys ∨
      traced.hosts = true ∧ key ∈ traced.table.query.bindings.keys

theorem Covered.keys_subset {traced : Traced} (covered : traced.Covered) {query : Query}
    (member : query ∈ traced.queries) : query.bindings.keys ⊆ traced.table.bindings.keys := by
  intro key there
  refine (traced.table.mem_keys_bindings key).mpr ?_
  rcases eq_or_mem_others member with rfl | other
  · exact .inr there
  · exact (covered query other key there).imp_right And.right

/-- A query that counts after a call counted before, or the call brings it in. -/
theorem mem_others_edit {traced : Traced} {edit : CommonTable.Edit} {attached : List Traced}
    (same : attached.map table = edit.tables) {query : Query}
    (member : query ∈ (traced.edit edit attached).others) :
    query ∈ traced.others ∨ query ∈ edit.seeds ∨ ∃ other ∈ attached, query ∈ other.queries := by
  rw [mem_others_iff] at member ⊢
  rcases member with inside | ⟨branch, listed, inside⟩ | seed
  · rw [Traced.edit, traced.table.content_edit] at inside
    exact .inl (.inl inside)
  · rcases traced.table.mem_attached_edit listed with before | now
    · exact .inl (.inr (.inl ⟨branch, before, inside⟩))
    · rw [← same] at now
      obtain ⟨other, among, table⟩ := List.mem_map.mp now
      rw [← table] at inside
      exact .inr (.inr ⟨other, among, (other.mem_queries_iff query).mpr (.inl inside)⟩)
  · rcases List.mem_append.mp seed with own | brought
    · rcases List.mem_append.mp own with before | now
      · exact .inl (.inr (.inr before))
      · exact .inr (.inl now)
    · obtain ⟨other, among, seed⟩ := List.mem_flatMap.mp brought
      exact .inr (.inr ⟨other, among, (other.mem_queries_iff query).mpr (.inr seed)⟩)

/-- **A call keeps all keys in reach.** -/
theorem Covered.edit {traced : Traced} {edit : CommonTable.Edit} {attached : List Traced}
    (covered : traced.Covered) (others : ∀ other ∈ attached, other.Covered)
    (same : attached.map table = edit.tables)
    (careful : traced.hosts = true → edit.replacesBindings = false) :
    (traced.edit edit attached).Covered := by
  intro query member key there
  show key ∈ (traced.table.edit edit).content.bindings.keys ∨
    (traced.edit edit attached).hosts = true ∧ key ∈ (traced.table.edit edit).query.bindings.keys
  rw [traced.table.content_edit]
  -- Where nothing was taken over yet, all keys of old queries are in the content, which stays.
  rcases mem_others_edit same member with before | seed | ⟨other, among, inside⟩
  · refine (covered query before key there).imp_right fun ⟨hosts, own⟩ => ?_
    exact ⟨by simp [Traced.edit, hosts], traced.table.keys_subset_edit (careful hosts) own⟩
  · have taken := traced.table.keys_subset_edit_of_seed seed there
    exact .inr ⟨by simp [Traced.edit, List.ne_nil_of_mem seed], taken⟩
  · have attaches : other.table ∈ edit.tables := same ▸ List.mem_map_of_mem among
    have held := (others other among).keys_subset inside there
    have taken := traced.table.keys_subset_edit_of_attached attaches held
    exact .inr ⟨by simp [Traced.edit, List.ne_nil_of_mem among], taken⟩

theorem Made.covered {traced : Traced} (made : traced.Made) : traced.Covered := by
  induction made with
  -- A table that is only just made has nothing attached, so its content is all there is.
  | ofQuery | recursive => exact fun query member => by cases member
  | @ofTable name inner _ ih =>
    intro query member key there
    have inside : query ∈ inner.queries := by
      rcases (mem_others_iff _ query).mp member with node | ⟨_, none, _⟩ | seed
      · exact (inner.mem_queries_iff query).mpr (.inl node)
      · cases none
      · exact (inner.mem_queries_iff query).mpr (.inr seed)
    exact .inl (ih.keys_subset inside there)
  | @ofTables name first rest _ ih =>
    intro query member key there
    have inside : ∃ part ∈ first :: rest, query ∈ part.queries := by
      rcases (mem_others_iff _ query).mp member with ⟨node, inside, same⟩ | ⟨_, none, _⟩ | seed
      · have listed : node ∈ partsNodes ((first :: rest).map table) := inside
        rw [partsNodes_eq, List.flatMap_map] at listed
        obtain ⟨part, among, inside⟩ := List.mem_flatMap.mp listed
        exact ⟨part, among, (part.mem_queries_iff query).mpr (.inl ⟨node, inside, same⟩)⟩
      · cases none
      · obtain ⟨part, among, seed⟩ := List.mem_flatMap.mp seed
        exact ⟨part, among, (part.mem_queries_iff query).mpr (.inr seed)⟩
    obtain ⟨part, among, inside⟩ := inside
    have held := (ih part among).keys_subset inside there
    have listed : part.table ∈ (first :: rest).map table := List.mem_map_of_mem among
    exact .inl ((mem_keys_mergedBindings ∅ _ key).mpr (.inr ⟨part.table, listed, held⟩))
  | edit _ _ same careful ih others => exact ih.edit others same careful

/-- **A table holds the keys of all queries in its tree, and of those that a recursion was started
from.** -/
theorem Made.keys_subset {traced : Traced} (made : traced.Made) {query : Query}
    (member : query ∈ traced.queries) : query.bindings.keys ⊆ traced.table.bindings.keys :=
  made.covered.keys_subset member

end Traced

end WithClause
