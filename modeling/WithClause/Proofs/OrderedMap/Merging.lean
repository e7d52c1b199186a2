/-
**Merging maps.**

A map is known by its keys and by look-up (`ext_get?`). Entries that are inserted one after the
other add the keys that are new, and of the values under one key the last stays (`get?_insertAll`,
`mem_keys_insertAll`).

`insertAll_ofList`: it makes no difference whether a list of entries is inserted or the map that
the list leaves behind. Merging maps is therefore inserting one list (`merge_ofList`). The reason
is that a key which is there already keeps its place, so that its value can be set before or after
other keys are inserted (`insertAll_insert`). In the map that a list leaves behind each key stands
where it first came, with its last value (`keys_ofList`, `get?_ofList`).
-/

import Mathlib.Data.List.Basic
import Mathlib.Data.List.Induction
import WithClause.OrderedMap

namespace WithClause.OrderedMap

universe u v

variable {α : Type u} {β : Type v} [DecidableEq α]

/-! ### Maps by keys and look-up -/

/-- The keys of a map with their values. -/
theorem entries_eq_filterMap (map : OrderedMap α β) :
    map.entries = map.keys.filterMap fun key => (map.get? key).map (key, ·) := by
  have each : ∀ entry ∈ map.entries, (map.get? entry.1).map (entry.1, ·) = some entry := by
    intro entry member
    rw [(map.get?_eq_some_iff entry.1 entry.2).mpr member]
    rfl
  rw [keys, List.filterMap_map]
  exact ((List.filterMap_congr each).trans List.filterMap_some).symm

theorem ext_get? {first second : OrderedMap α β} (keys : first.keys = second.keys)
    (values : ∀ key, first.get? key = second.get? key) : first = second := by
  apply OrderedMap.ext
  rw [entries_eq_filterMap first, entries_eq_filterMap second, keys]
  simp only [values]

theorem insert_insert (map : OrderedMap α β) (key : α) (first second : β) :
    (map.insert key first).insert key second = map.insert key second := by
  apply ext_get?
  · simp only [keys_insert]
    split <;> simp_all
  · intro other
    simp only [get?_insert]
    split <;> rfl

theorem modify_insert (map : OrderedMap α β) (key : α) (value : β) (change : β → β) :
    (map.insert key value).modify key change = map.insert key (change value) := by
  apply ext_get?
  · rw [keys_modify, keys_insert, keys_insert]
  · intro other
    simp only [get?_modify, get?_insert]
    split <;> rfl

/-- A key that is there keeps its place, whatever other key is inserted. -/
theorem insert_comm {map : OrderedMap α β} {key other : α} (there : key ∈ map.keys)
    (apart : key ≠ other) (value second : β) :
    (map.insert other second).insert key value = (map.insert key value).insert other second := by
  apply ext_get?
  · simp only [keys_insert, if_pos there]
    split <;> simp [there]
  · intro third
    simp only [get?_insert]
    by_cases same : key = third
    · have off : ¬ other = third := fun eq => apart (same.trans eq.symm)
      simp [same, off]
    · simp [same]

/-! ### The values under one key -/

/-- The values that entries have under a key, in the order of the entries. -/
def valuesOf (key : α) (entries : List (α × β)) : List β :=
  (entries.filter fun entry => entry.1 = key).map Prod.snd

theorem valuesOf_singleton (key other : α) (value : β) :
    valuesOf key [(other, value)] = if other = key then [value] else [] := by
  by_cases same : other = key <;> simp [valuesOf, same]

theorem valuesOf_cons_self (key : α) (value : β) (entries : List (α × β)) :
    valuesOf key ((key, value) :: entries) = value :: valuesOf key entries := by
  simp [valuesOf]

theorem valuesOf_append (key : α) (first second : List (α × β)) :
    valuesOf key (first ++ second) = valuesOf key first ++ valuesOf key second := by
  simp only [valuesOf, List.filter_append, List.map_append]

theorem valuesOf_flatMap {γ : Type*} (key : α) (several : List γ) (entries : γ → List (α × β)) :
    valuesOf key (several.flatMap entries) =
      several.flatMap fun each => valuesOf key (entries each) := by
  simp only [valuesOf, List.filter_flatMap, List.map_flatMap]

theorem valuesOf_eq_nil_iff (key : α) (entries : List (α × β)) :
    valuesOf key entries = [] ↔ key ∉ entries.map Prod.fst := by
  simp only [valuesOf, List.map_eq_nil_iff, List.filter_eq_nil_iff, decide_eq_true_iff,
    List.mem_map, not_exists, not_and]

/-! ### Entries inserted one after the other -/

@[simp] theorem insertAll_nil (map : OrderedMap α β) : map.insertAll [] = map := rfl

@[simp] theorem insertAll_cons (map : OrderedMap α β) (entry : α × β) (entries : List (α × β)) :
    map.insertAll (entry :: entries) = (map.insert entry.1 entry.2).insertAll entries := rfl

theorem insertAll_append (map : OrderedMap α β) (first second : List (α × β)) :
    map.insertAll (first ++ second) = (map.insertAll first).insertAll second :=
  List.foldl_append

theorem insertAll_concat (map : OrderedMap α β) (entries : List (α × β)) (key : α) (value : β) :
    map.insertAll (entries ++ [(key, value)]) = (map.insertAll entries).insert key value :=
  insertAll_append map entries [(key, value)]

theorem mem_keys_insert (map : OrderedMap α β) (key other : α) (value : β) :
    other ∈ (map.insert key value).keys ↔ other ∈ map.keys ∨ other = key := by
  rw [keys_insert]
  split
  · next there =>
    exact ⟨.inl, fun either => either.elim id fun same => same ▸ there⟩
  · rw [List.mem_append, List.mem_singleton]

theorem mem_keys_insertAll (map : OrderedMap α β) (entries : List (α × β)) (key : α) :
    key ∈ (map.insertAll entries).keys ↔ key ∈ map.keys ∨ key ∈ entries.map Prod.fst := by
  induction entries generalizing map with
  | nil => simp
  | cons entry rest ih =>
    rw [insertAll_cons, ih, mem_keys_insert, List.map_cons, List.mem_cons, or_assoc]

/-- **Of the values inserted under a key the last stays.** -/
theorem get?_insertAll (map : OrderedMap α β) (entries : List (α × β)) (key : α) :
    (map.insertAll entries).get? key = (valuesOf key entries).getLast?.or (map.get? key) := by
  induction entries using List.reverseRecOn with
  | nil => rfl
  | append_singleton entries last ih =>
    rw [insertAll_concat, get?_insert, ih, valuesOf_append, valuesOf_singleton]
    by_cases same : last.1 = key <;> simp [same]

/-- The value of a key that is there can be set before or after other keys are inserted. -/
theorem insertAll_insert {map : OrderedMap α β} {entries : List (α × β)} {key : α}
    (there : key ∈ map.keys) (apart : key ∉ entries.map Prod.fst) (value : β) :
    (map.insertAll entries).insert key value = (map.insert key value).insertAll entries := by
  induction entries generalizing map with
  | nil => rfl
  | cons entry rest ih =>
    obtain ⟨head, tail⟩ := not_or.mp (mt List.mem_cons.mpr apart)
    have still : key ∈ (map.insert entry.1 entry.2).keys :=
      (mem_keys_insert map entry.1 key entry.2).mpr (.inl there)
    rw [insertAll_cons, insertAll_cons, ih still tail, insert_comm there head]

theorem insertAll_setEntry (map : OrderedMap α β) (entries : List (α × β)) (key : α) (value : β)
    (distinct : (entries.map Prod.fst).Nodup) :
    map.insertAll (setEntry key value entries) = (map.insertAll entries).insert key value := by
  induction entries generalizing map with
  | nil => rfl
  | cons entry rest ih =>
    rw [List.map_cons, List.nodup_cons] at distinct
    rw [setEntry, insertAll_cons]
    by_cases same : entry.1 = key
    · subst same
      have there : entry.1 ∈ (map.insert entry.1 entry.2).keys :=
        (mem_keys_insert map entry.1 entry.1 entry.2).mpr (.inr rfl)
      rw [if_pos rfl, insertAll_insert there distinct.1, insert_insert, insertAll_cons]
    · rw [if_neg same, insertAll_cons, ih _ distinct.2]

/-- **A list of entries can be inserted as the map that it leaves behind.** -/
theorem insertAll_ofList (map : OrderedMap α β) (entries : List (α × β)) :
    map.insertAll (ofList entries).entries = map.insertAll entries := by
  induction entries using List.reverseRecOn with
  | nil => rfl
  | append_singleton entries last ih =>
    unfold ofList at ih ⊢
    rw [insertAll_concat, insertAll_concat, ← ih]
    exact map.insertAll_setEntry _ last.1 last.2 (distinct _)

theorem merge_ofList (first second : List (α × β)) :
    (ofList first).merge (ofList second) = ofList (first ++ second) := by
  unfold merge
  rw [insertAll_ofList]
  exact (insertAll_append empty first second).symm

theorem setEntry_of_notMem {key : α} {entries : List (α × β)}
    (absent : key ∉ entries.map Prod.fst) (value : β) :
    setEntry key value entries = entries ++ [(key, value)] := by
  induction entries with
  | nil => rfl
  | cons entry rest ih =>
    obtain ⟨head, tail⟩ := not_or.mp (mt List.mem_cons.mpr absent)
    rw [setEntry, if_neg (Ne.symm head), ih tail, List.cons_append]

/-- **A map is left behind by its own entries.** -/
theorem ofList_entries (map : OrderedMap α β) : ofList map.entries = map := by
  obtain ⟨entries, distinct⟩ := map
  apply OrderedMap.ext
  show (ofList entries).entries = entries
  induction entries using List.reverseRecOn with
  | nil => rfl
  | append_singleton entries last ih =>
    rw [List.map_append, List.nodup_append] at distinct
    obtain ⟨before, _, apart⟩ := distinct
    have absent : last.1 ∉ entries.map Prod.fst := fun there => apart _ there _ (by simp) rfl
    unfold ofList at ih ⊢
    rw [insertAll_concat]
    show setEntry last.1 last.2 (empty.insertAll entries).entries = entries ++ [last]
    rw [ih before, setEntry_of_notMem absent]

theorem merge_assoc (first second third : OrderedMap α β) :
    (first.merge second).merge third = first.merge (second.merge third) := by
  rw [← first.ofList_entries, ← second.ofList_entries, ← third.ofList_entries]
  simp only [merge_ofList, List.append_assoc]

theorem mem_keys_ofList (entries : List (α × β)) (key : α) :
    key ∈ (ofList entries).keys ↔ key ∈ entries.map Prod.fst := by
  rw [ofList, mem_keys_insertAll]
  exact or_iff_right fun none => by cases none

/-- **The keys stand in the order in which they first come.** -/
theorem keys_ofList (entries : List (α × β)) :
    (ofList entries).keys = (entries.map Prod.fst).eraseDups := by
  induction entries using List.reverseRecOn with
  | nil => rfl
  | append_singleton entries last ih =>
    unfold ofList at ih ⊢
    rw [insertAll_concat, keys_insert, ih, List.map_append, List.eraseDups_append]
    by_cases there : last.1 ∈ entries.map Prod.fst
    · rw [if_pos (List.mem_eraseDups.mpr there)]
      simp [List.removeAll, List.mem_map.mp there]
    · rw [if_neg (mt List.mem_eraseDups.mp there)]
      simp [List.removeAll, mt List.mem_map.mpr there, List.eraseDups_cons]

theorem get?_ofList (entries : List (α × β)) (key : α) :
    (ofList entries).get? key = (valuesOf key entries).getLast? :=
  (get?_insertAll empty entries key).trans (Option.or_none ..)

/-- A merged map has the value of the second map under a key, or else that of the first. -/
theorem get?_merge (first second : OrderedMap α β) (key : α) :
    (first.merge second).get? key = (second.get? key).or (first.get? key) := by
  have own : (valuesOf key second.entries).getLast? = second.get? key := by
    rw [← get?_ofList, ofList_entries]
  rw [merge, get?_insertAll, own]

end WithClause.OrderedMap
