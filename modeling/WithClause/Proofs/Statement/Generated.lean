/-
**Generated bindings in a statement.**

Each query numbers its placeholders on its own. Two queries of a statement may answer the same
text, and of the values bound under it the last stays; likewise for the places. The main result,
`Statement.generated_bindings`, says what is left where all queries are fragments: a placeholder
stands for the last value that was bound to its text, and there are as many places as the fragment
with the most of them has.

All queries of a statement are fragments if they were made by calls that choose no key
(`Statement.exists_fragments_of_run`). Calls on a table change its own query or attach tables, and
a table takes over the bindings of what is attached to it (`CommonTable.query_attach`).
-/

import Mathlib.Data.List.MinMax
import Mathlib.Data.List.Nodup
import Mathlib.Data.Set.List
import Mathlib.Order.Nat
import WithClause.Proofs.Query.Fragment
import WithClause.Proofs.Statement.Bindings
import WithClause.Proofs.Statement.Registry

namespace WithClause

open OrderedMap (valuesOf valuesOf_append valuesOf_cons_self valuesOf_eq_nil_iff valuesOf_flatMap)

/-! ### Fragments one after the other -/

/-- What fragments leave behind is what was bound in them. -/
theorem ofList_bindingsInOrder (fragments : List Fragment) :
    OrderedMap.ofList (bindingsInOrder (fragments.map Fragment.query)) =
      .ofList (fragments.flatMap Fragment.log) := by
  induction fragments using List.reverseRecOn with
  | nil => rfl
  | append_singleton fragments last ih =>
    have single : bindingsInOrder [last.query] = last.query.bindings.entries :=
      List.flatMap_singleton ..
    rw [List.map_append, bindingsInOrder_append, List.flatMap_append, List.flatMap_singleton,
      List.map_singleton, single, OrderedMap.ofList, OrderedMap.insertAll_append]
    show (OrderedMap.ofList (bindingsInOrder _)).merge last.query.bindings = _
    rw [ih, last.bindings_eq, OrderedMap.merge_ofList]

/-- A query that takes over from fragments binds at once what was bound in them. -/
theorem query_foldl_takeOver (own : Fragment) (others : List Fragment) :
    (others.foldl .takeOver own).query =
      own.query.bindEach (.ofList (others.flatMap Fragment.log)) := by
  induction others using List.reverseRecOn with
  | nil => rfl
  | append_singleton others last ih =>
    rw [List.foldl_concat, List.flatMap_append, List.flatMap_singleton, Fragment.query, ih,
      last.bindings_eq, ← OrderedMap.merge_ofList]
    unfold Query.bindEach
    rw [OrderedMap.merge_assoc]

/-! ### Tables whose queries are fragments -/

/-- A query with the history of a fragment. -/
def Query.Generated (query : Query) : Prop := ∃ fragment : Fragment, fragment.query = query

theorem exists_fragments {queries : List Query} (generated : ∀ query ∈ queries, query.Generated) :
    ∃ fragments : List Fragment, queries = fragments.map Fragment.query := by
  have inside : queries ∈ Set.range (List.map Fragment.query) := by
    rw [Set.range_list_map]
    exact generated
  obtain ⟨fragments, same⟩ := inside
  exact ⟨fragments, same.symm⟩

theorem Query.Generated.call {query : Query} (generated : query.Generated) {call : Query.Call}
    (leaves : call.generates) : (query.call call).Generated := by
  obtain ⟨fragment, rfl⟩ := generated
  exact ⟨fragment.call call leaves, rfl⟩

namespace CommonTable

variable {table attached : CommonTable}

/-- All queries that the bindings of a table come from are fragments. -/
def Generated (table : CommonTable) : Prop := ∀ query ∈ table.bindingQueries, query.Generated

theorem Generated.own (generated : table.Generated) : table.query.Generated :=
  generated table.query (by simp [bindingQueries_eq])

/-- It is enough to look at the own query where the content stays. -/
theorem Generated.of_content {changed : CommonTable} (generated : table.Generated)
    (content : changed.content = table.content) (own : changed.query.Generated) :
    changed.Generated := by
  intro query member
  rw [bindingQueries_eq, content, List.mem_append, List.mem_singleton] at member
  rcases member with member | rfl
  · exact generated query (by simp [bindingQueries_eq, member])
  · exact own

/-- A table to which another is attached takes over from the queries of the other. -/
theorem query_attach {own : Fragment} {others : List Fragment} (made : table.query = own.query)
    (attachedMade : attached.bindingQueries = others.map Fragment.query) (all : Bool) :
    (table.attach attached all).query = (others.foldl .takeOver own).query := by
  rw [query_foldl_takeOver, ← ofList_bindingsInOrder, ← attachedMade, ← attached.bindings_eq,
    ← made]
  rfl

theorem Generated.attach (generated : table.Generated) (other : attached.Generated) (all : Bool) :
    (table.attach attached all).Generated := by
  obtain ⟨own, made⟩ := generated.own
  obtain ⟨others, attachedMade⟩ := exists_fragments other
  exact generated.of_content rfl ⟨_, (query_attach made.symm attachedMade all).symm⟩

theorem Generated.attachOnly (generated : table.Generated) {several : List CommonTable}
    (others : ∀ other ∈ several, other.Generated) (all : Bool) :
    (table.attachOnly several all).Generated := by
  unfold CommonTable.attachOnly
  have start : Generated { table with attached := [] } := generated.of_content rfl generated.own
  generalize { table with attached := [] } = sofar at start
  induction several generalizing sofar with
  | nil => exact start
  | cons first rest ih =>
    obtain ⟨head, tail⟩ := List.forall_mem_cons.mp others
    exact ih tail _ (start.attach head all)

/-- What a call on a table brings in are fragments too. -/
def Edit.Generates : Edit → Prop
  | .call one => one.generates
  | .setQuery query | .anchorOn query => query.Generated
  | .attach attached _ => attached.Generated
  | .attachOnly attached _ => ∀ other ∈ attached, other.Generated
  | _ => True

/-- **A call on a table that chooses no key leaves fragments behind.** -/
theorem Generated.edit (generated : table.Generated) {edit : Edit} (leaves : edit.Generates) :
    (table.edit edit).Generated := by
  cases edit with
  | call call => exact generated.of_content rfl (generated.own.call leaves)
  | setQuery query => exact generated.of_content rfl leaves
  | attach attached all => exact generated.attach leaves all
  | attachOnly attached all => exact generated.attachOnly leaves all
  | anchorOn query =>
    obtain ⟨own, made⟩ := generated.own
    obtain ⟨other, rfl⟩ := leaves
    refine generated.of_content rfl ⟨own.takeOver other, ?_⟩
    rw [Fragment.query, made]
    rfl
  | _ => exact generated.of_content rfl generated.own

end CommonTable

namespace Statement

/-- All queries that the bindings of a statement come from are fragments. -/
structure Generated (statement : Statement) : Prop where
  primary : statement.query.Generated
  tables : ∀ name table, statement.tables.get? name = some table → table.Generated

theorem Generated.exists_fragments {statement : Statement} (generated : statement.Generated) :
    ∃ fragments : List Fragment, statement.bindingQueries = fragments.map Fragment.query := by
  refine WithClause.exists_fragments (List.forall_mem_cons.mpr ⟨generated.primary, ?_⟩)
  intro query member
  obtain ⟨table, listed, inside⟩ := (mem_partsBindingQueries query _).mp member
  obtain ⟨⟨name, _⟩, entry, rfl⟩ := List.mem_map.mp listed
  have found := (statement.tables.get?_eq_some_iff name _).mpr entry
  exact generated.tables name _ found query inside

/-- A call that chooses no key, and brings in fragments only. -/
def Call.Generates : Call → Prop
  | .call one => one.generates
  | .add table | .replace table | .put _ table => table.Generated
  | .edit _ one => one.Generates
  | _ => True

section Calls

variable {call : Call} {table : CommonTable}

theorem Call.Generates.made (leaves : call.Generates) (made : call.made? = some table) :
    table.Generated := by
  have bare : Query.Generated ∅ := ⟨.empty, rfl⟩
  cases call with
  | addEmpty name =>
    cases made
    exact List.forall_mem_singleton.mpr bare
  | addRecursive name =>
    cases made
    exact List.forall_mem_singleton.mpr bare
  | add other =>
    cases made
    exact leaves
  | _ => cases made

theorem Call.Generates.change {name : String} {change : CommonTable → CommonTable}
    (leaves : call.Generates) (changes : call.change? = some (name, change))
    (generated : table.Generated) : (change table).Generated := by
  cases call with
  | replace other =>
    cases changes
    exact leaves
  | edit target edit =>
    cases changes
    exact generated.edit leaves
  | put target other =>
    cases changes
    exact leaves
  | _ => cases changes

end Calls

theorem Generated.step {statement changed : Statement} {call : Call} {success : Bool}
    (generated : statement.Generated) (leaves : call.Generates)
    (step : Step statement call success changed) : changed.Generated where
  primary := by
    cases step with
    | call primary => exact generated.primary.call leaves
    | clear => exact ⟨.empty, rfl⟩
    | _ => exact generated.primary
  tables :=
    step.each_table (fun _ table => table.Generated) leaves.made leaves.change generated.tables

/-- **A run of calls that choose no key leaves fragments behind.** -/
theorem exists_fragments_of_run {query : Query} (primary : query.Generated) {calls : List Call}
    (leave : ∀ call ∈ calls, call.Generates) :
    ∃ fragments : List Fragment,
      ((ofQuery query).run calls).bindingQueries = fragments.map Fragment.query := by
  have start : Generated (ofQuery query) := ⟨primary, fun name table found => by cases found⟩
  exact Generated.exists_fragments
    (run_induct start fun member step before => before.step (leave _ member) step)

end Statement

/-! ### The bindings of a statement -/

namespace Fragment

/-- The largest number of places that were bound on one fragment. -/
def mostPlaces (fragments : List Fragment) : Nat :=
  ((fragments.flatMap sources).map placeCount).foldr max 0

theorem lt_mostPlaces_iff (fragments : List Fragment) (place : Nat) :
    place < mostPlaces fragments ↔
      ∃ fragment ∈ fragments, ∃ source ∈ fragment.sources, place < source.placeCount := by
  constructor
  · intro beyond
    by_contra none
    refine Nat.not_le_of_lt beyond (List.max_le_of_forall_le _ place fun count counted => ?_)
    obtain ⟨source, member, rfl⟩ := List.mem_map.mp counted
    obtain ⟨fragment, among, found⟩ := List.mem_flatMap.mp member
    exact Nat.le_of_not_lt fun more => none ⟨fragment, among, source, found, more⟩
  · rintro ⟨fragment, among, source, found, beyond⟩
    have member := List.mem_flatMap.mpr ⟨fragment, among, found⟩
    exact Nat.lt_of_succ_le (List.le_max_of_le (List.mem_map_of_mem member) beyond)

end Fragment

namespace Statement

/-- The places that values are bound to. -/
def places (statement : Statement) : List Key :=
  statement.bindings.keys.filter fun key => key.name? = none

section Fragments

variable {statement : Statement} {fragments : List Fragment}

theorem bindings_of_fragments (made : statement.bindingQueries = fragments.map Fragment.query) :
    statement.bindings = .ofList (fragments.flatMap Fragment.log) := by
  rw [statement.bindings_eq, made, ofList_bindingsInOrder]

theorem binding?_numbered (made : statement.bindingQueries = fragments.map Fragment.query)
    (number : Nat) :
    statement.binding? (.named (Query.nameOf (Query.numbered number))) =
      (valuesOf (Query.numbered number) (fragments.flatMap Fragment.placeholders)).getLast? := by
  rw [binding?, bindings_of_fragments made, OrderedMap.get?_ofList, valuesOf_flatMap,
    valuesOf_flatMap]
  simp only [Fragment.valuesOf_log]

theorem mem_places_iff (made : statement.bindingQueries = fragments.map Fragment.query)
    (key : Key) :
    key ∈ statement.places ↔ ∃ place < Fragment.mostPlaces fragments, .positional place = key := by
  have bound : ∀ place, Key.positional place ∈ statement.bindings.keys ↔
      place < Fragment.mostPlaces fragments := by
    intro place
    rw [bindings_of_fragments made, OrderedMap.mem_keys_ofList, List.map_flatMap, List.mem_flatMap,
      Fragment.lt_mostPlaces_iff]
    simp only [Fragment.positional_mem_log_iff]
  rw [places, List.mem_filter, decide_eq_true_iff]
  cases key with
  | named name => simp [Key.name?]
  | positional place => simp [Key.name?, bound]

/-- **The places that are bound are those from zero to the largest count of a fragment.** -/
theorem places_perm (made : statement.bindingQueries = fragments.map Fragment.query) :
    statement.places.Perm ((List.range (Fragment.mostPlaces fragments)).map .positional) := by
  have injective : Function.Injective Key.positional := fun _ _ => Key.positional.inj
  have distinct : statement.places.Nodup := statement.bindings.keys_nodup.filter _
  refine (List.perm_ext_iff_of_nodup distinct (List.nodup_range.map injective)).mpr fun key => ?_
  rw [mem_places_iff made, List.mem_map]
  simp only [List.mem_range]

/-- **Generated bindings in a statement.** If all its queries number their placeholders themselves,
a placeholder that one of them answered stands for its value, unless the same text was answered for
a value that was bound later; it stands for some value in any case. There are as many places as the
fragment with the most of them has. -/
theorem generated_bindings (made : statement.bindingQueries = fragments.map Fragment.query) :
    let answered := fragments.flatMap Fragment.placeholders
    (∀ earlier placeholder value later, answered = earlier ++ (placeholder, value) :: later →
      placeholder ∉ later.map Prod.fst →
        statement.binding? (.named (Query.nameOf placeholder)) = some value) ∧
    (∀ placeholder ∈ answered.map Prod.fst,
      statement.hasBinding (.named (Query.nameOf placeholder)) = true) ∧
    statement.places.length = Fragment.mostPlaces fragments := by
  intro answered
  have numbered : ∀ placeholder ∈ answered.map Prod.fst, ∃ number,
      placeholder = Query.numbered number := by
    intro placeholder member
    rw [List.map_flatMap, List.mem_flatMap] at member
    obtain ⟨fragment, _, found⟩ := member
    exact Fragment.numbered_of_mem found
  refine ⟨fun earlier placeholder value later split absent => ?_, fun placeholder member => ?_, ?_⟩
  · obtain ⟨number, rfl⟩ := numbered placeholder (by simp [split])
    rw [binding?_numbered made]
    show (valuesOf _ answered).getLast? = _
    rw [split, valuesOf_append, valuesOf_cons_self, (valuesOf_eq_nil_iff _ later).mpr absent]
    exact List.getLast?_concat ..
  · obtain ⟨number, rfl⟩ := numbered placeholder member
    have some : valuesOf (Query.numbered number) answered ≠ [] := fun none =>
      (valuesOf_eq_nil_iff _ answered).mp none member
    rw [hasBinding, ← OrderedMap.isSome_get?]
    show (statement.binding? _).isSome = true
    rw [binding?_numbered made]
    exact List.getLast?_isSome.mpr some
  · rw [(places_perm made).length_eq, List.length_map, List.length_range]

end Fragments

/-- A table takes over the bindings of another that is attached to it; its own value for the first
place gives way to that of the other, and the named value of the primary query does too. -/
theorem generated_bindings_attached :
    let primary := Fragment.empty.call (.bindNamed (.int 1) none) rfl
    let own := Fragment.empty.call (.bindPositional (.int 2)) rfl
    let other := (Fragment.empty.call (.bindPositional (.int 3)) rfl).call
      (.bindNamed (.int 4) none) rfl
    let table := (CommonTable.ofQuery "a" own.query).attach (.ofQuery "b" other.query) true
    let statement : Statement :=
      { query := primary.query, tables := .ofList [("a", table)] }
    let fragments := [primary, own.takeOver other]
    statement.bindingQueries = fragments.map Fragment.query ∧
    fragments.flatMap Fragment.placeholders = [(":dcValue1", .int 1), (":dcValue1", .int 4)] ∧
    statement.binding? (.named (Query.nameOf ":dcValue1")) = some (.int 4) ∧
    statement.places.length = 1 := by
  intro primary own other table statement fragments
  have made : statement.bindingQueries = fragments.map Fragment.query := by rfl
  have answered : fragments.flatMap Fragment.placeholders =
      [(":dcValue1", .int 1), (":dcValue1", .int 4)] := by rfl
  obtain ⟨last, _, places⟩ := generated_bindings made
  exact ⟨made, answered, last [(":dcValue1", .int 1)] _ _ [] answered (by simp),
    places.trans (by rfl)⟩

/-- Two queries answer the same placeholder, and both bind the first place: the values of the
primary query are lost. -/
theorem generated_bindings_overwritten :
    let primary := (Fragment.empty.call (.bindNamed (.int 1) none) rfl).call
      (.bindPositional (.int 1)) rfl
    let own := (Fragment.empty.call (.bindNamed (.int 2) none) rfl).call
      (.bindPositional (.int 2)) rfl
    let statement : Statement :=
      { query := primary.query, tables := .ofList [("a", .ofQuery "a" own.query)] }
    statement.bindingQueries = [primary, own].map Fragment.query ∧
    (":dcValue1", .int 1) ∈ primary.placeholders ∧
    statement.binding? (.named (Query.nameOf ":dcValue1")) ≠ some (.int 1) ∧
    statement.places.length ≠ primary.placeCount + own.placeCount := by
  intro primary own statement
  exact ⟨rfl, List.mem_singleton.mpr rfl, by decide, by decide⟩

end Statement

end WithClause
