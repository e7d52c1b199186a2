/-
**Maps that remember the order of insertion.**

A map is a list of entries whose keys are pairwise distinct; the list is the order in which the
keys first came. Setting a key that is already there keeps its place and changes its value. Each
operation has one law through the keys and one through look-up:

* `keys_insert`, `get?_insert`: an insertion adds the key at the end, or nothing;
* `keys_modify`, `get?_modify`: a change of one value moves no key.
-/

namespace WithClause

universe u v

/-- Entries with pairwise distinct keys, in the order in which the keys first came. -/
@[ext]
structure OrderedMap (α : Type u) (β : Type v) where
  entries : List (α × β)
  distinct : (entries.map Prod.fst).Nodup

namespace OrderedMap

variable {α : Type u} {β : Type v}

def empty : OrderedMap α β := ⟨[], List.nodup_nil⟩

instance : EmptyCollection (OrderedMap α β) := ⟨empty⟩

instance : Inhabited (OrderedMap α β) := ⟨empty⟩

def keys (map : OrderedMap α β) : List α := map.entries.map Prod.fst

/-- The values, in the order of their keys. -/
def values (map : OrderedMap α β) : List β := map.entries.map Prod.snd

def size (map : OrderedMap α β) : Nat := map.entries.length

@[simp] theorem keys_empty : (∅ : OrderedMap α β).keys = [] := rfl

theorem keys_nodup (map : OrderedMap α β) : map.keys.Nodup := map.distinct

section Operations

variable [DecidableEq α]

/-- The entries after `key` is set to `value`: in place, or at the end. -/
def setEntry (key : α) (value : β) : List (α × β) → List (α × β)
  | [] => [(key, value)]
  | entry :: rest =>
    if entry.1 = key then (key, value) :: rest else entry :: setEntry key value rest

theorem keys_setEntry (key : α) (value : β) (entries : List (α × β)) :
    (setEntry key value entries).map Prod.fst =
      if key ∈ entries.map Prod.fst then entries.map Prod.fst
      else entries.map Prod.fst ++ [key] := by
  induction entries with
  | nil => rfl
  | cons entry rest ih =>
    rw [setEntry]
    by_cases same : entry.1 = key
    · simp [same]
    · rw [if_neg same, List.map_cons, ih]
      by_cases there : key ∈ rest.map Prod.fst
      · rw [if_pos there, List.map_cons, if_pos (List.mem_cons_of_mem _ there)]
      · rw [if_neg there, List.map_cons,
          if_neg (fun found => (List.mem_cons.mp found).elim (fun eq => same eq.symm) there)]
        rfl

theorem nodup_setEntry (key : α) (value : β) (entries : List (α × β))
    (distinct : (entries.map Prod.fst).Nodup) :
    ((setEntry key value entries).map Prod.fst).Nodup := by
  rw [keys_setEntry]
  split
  · exact distinct
  · next absent =>
    rw [List.nodup_append]
    exact ⟨distinct, by simp, fun other found last lastMem eq =>
      absent (List.mem_singleton.mp lastMem ▸ eq ▸ found)⟩

/-- Sets `key` to `value`; a key that is there keeps its place. -/
def insert (map : OrderedMap α β) (key : α) (value : β) : OrderedMap α β :=
  ⟨setEntry key value map.entries, nodup_setEntry key value map.entries map.distinct⟩

def get? (map : OrderedMap α β) (key : α) : Option β :=
  (map.entries.find? (fun entry => entry.1 = key)).map Prod.snd

def contains (map : OrderedMap α β) (key : α) : Bool := decide (key ∈ map.keys)

/-- Inserts entries one after the other; of entries with one key the last value stays. -/
def insertAll (map : OrderedMap α β) (entries : List (α × β)) : OrderedMap α β :=
  entries.foldl (fun sofar entry => sofar.insert entry.1 entry.2) map

/-- The map that a list of entries leaves behind when they are inserted in turn. -/
def ofList (entries : List (α × β)) : OrderedMap α β := empty.insertAll entries

/-- The first map with the entries of the second inserted in their order. -/
def merge (first second : OrderedMap α β) : OrderedMap α β := first.insertAll second.entries

/-- The entries with the value under `key` changed. -/
def modifyEntry (key : α) (change : β → β) (entries : List (α × β)) : List (α × β) :=
  entries.map (fun entry => if entry.1 = key then (entry.1, change entry.2) else entry)

theorem keys_modifyEntry (key : α) (change : β → β) (entries : List (α × β)) :
    (modifyEntry key change entries).map Prod.fst = entries.map Prod.fst := by
  rw [modifyEntry, List.map_map]
  refine List.map_congr_left fun entry _ => ?_
  simp only [Function.comp_apply]
  split <;> rfl

/-- Changes the value under `key`, if there is one. -/
def modify (map : OrderedMap α β) (key : α) (change : β → β) : OrderedMap α β :=
  ⟨modifyEntry key change map.entries, by rw [keys_modifyEntry]; exact map.distinct⟩

/-- Same keys with agreeing values; the order of the keys does not count. -/
def equalBy (agree : β → β → Bool) (first second : OrderedMap α β) : Bool :=
  first.size == second.size &&
    first.entries.all fun entry =>
      match second.get? entry.1 with
      | some value => agree entry.2 value
      | none => false

/-! ### Keys -/

theorem keys_insert (map : OrderedMap α β) (key : α) (value : β) :
    (map.insert key value).keys = if key ∈ map.keys then map.keys else map.keys ++ [key] :=
  keys_setEntry key value map.entries

@[simp] theorem keys_modify (map : OrderedMap α β) (key : α) (change : β → β) :
    (map.modify key change).keys = map.keys :=
  keys_modifyEntry key change map.entries

theorem contains_iff (map : OrderedMap α β) (key : α) :
    map.contains key = true ↔ key ∈ map.keys := decide_eq_true_iff

/-! ### Look-up -/

@[simp] theorem get?_empty (key : α) : (∅ : OrderedMap α β).get? key = none := rfl

theorem find?_setEntry (key other : α) (value : β) (entries : List (α × β)) :
    ((setEntry key value entries).find? (fun entry => entry.1 = other)).map Prod.snd =
      if key = other then some value
      else (entries.find? (fun entry => entry.1 = other)).map Prod.snd := by
  induction entries with
  | nil => by_cases same : key = other <;> simp [setEntry, same]
  | cons entry rest ih =>
    rw [setEntry]
    by_cases head : entry.1 = key
    · by_cases same : key = other
      · simp [head, same]
      · simp [head, same]
    · rw [if_neg head]
      by_cases found : entry.1 = other
      · have apart : ¬ key = other := fun same => head (found.trans same.symm)
        simp [found, apart]
      · rw [List.find?_cons, List.find?_cons]
        simp only [found, decide_false]
        exact ih

theorem get?_insert (map : OrderedMap α β) (key other : α) (value : β) :
    (map.insert key value).get? other = if key = other then some value else map.get? other :=
  find?_setEntry key other value map.entries

theorem find?_modifyEntry (key other : α) (change : β → β) (entries : List (α × β)) :
    ((modifyEntry key change entries).find? (fun entry => entry.1 = other)).map Prod.snd =
      if key = other then
        ((entries.find? (fun entry => entry.1 = other)).map Prod.snd).map change
      else (entries.find? (fun entry => entry.1 = other)).map Prod.snd := by
  induction entries with
  | nil => by_cases same : key = other <;> simp [modifyEntry, same]
  | cons entry rest ih =>
    rw [modifyEntry, List.map_cons, ← modifyEntry]
    by_cases found : entry.1 = other
    · by_cases same : key = other
      · subst same
        simp [found]
      · have apart : ¬ other = key := fun eq => same eq.symm
        simp [found, same, apart]
    · have skip : ¬ (if entry.1 = key then (entry.1, change entry.2) else entry).1 = other := by
        split <;> exact found
      rw [List.find?_cons, List.find?_cons]
      simp only [found, skip, decide_false]
      exact ih

theorem get?_modify (map : OrderedMap α β) (key other : α) (change : β → β) :
    (map.modify key change).get? other =
      if key = other then (map.get? other).map change else map.get? other :=
  find?_modifyEntry key other change map.entries

theorem isSome_get? (map : OrderedMap α β) (key : α) :
    (map.get? key).isSome = map.contains key := by
  rw [get?, Option.isSome_map, contains, Bool.eq_iff_iff, decide_eq_true_iff,
    List.find?_isSome, keys, List.mem_map]
  simp only [decide_eq_true_iff]

theorem get?_eq_some_iff (map : OrderedMap α β) (key : α) (value : β) :
    map.get? key = some value ↔ (key, value) ∈ map.entries := by
  obtain ⟨entries, distinct⟩ := map
  unfold get?
  induction entries with
  | nil => simp
  | cons entry rest ih =>
    rw [List.map_cons, List.nodup_cons] at distinct
    rw [List.find?_cons]
    by_cases found : entry.1 = key
    · have absent : (key, value) ∉ rest := fun there =>
        distinct.1 (List.mem_map.mpr ⟨(key, value), there, found.symm⟩)
      subst found
      simp [absent, Prod.ext_iff, eq_comm]
    · have apart : (key, value) ≠ entry := fun same => found (same ▸ rfl)
      simp only [found, decide_false, List.mem_cons, apart, false_or]
      exact ih distinct.2

theorem mem_keys_iff (map : OrderedMap α β) (key : α) :
    key ∈ map.keys ↔ ∃ value, map.get? key = some value := by
  rw [← contains_iff, ← isSome_get?, Option.isSome_iff_exists]

end Operations

end OrderedMap

end WithClause
