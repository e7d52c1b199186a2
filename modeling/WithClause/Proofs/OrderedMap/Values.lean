/-
**Maps with their values changed.**

A function on the values of a map moves no key, and each look-up finds the changed value
(`keys_mapValues`, `get?_mapValues`). It goes through insertion (`mapValues_ofList`).
-/

import WithClause.Proofs.OrderedMap.Merging

namespace WithClause.OrderedMap

universe u v w x

variable {α : Type u} {β : Type v} {γ : Type w} {δ : Type x}

/-- The map with every value changed by one function. -/
def mapValues (change : β → γ) (map : OrderedMap α β) : OrderedMap α γ :=
  ⟨map.entries.map (Prod.map id change), by rw [List.map_map]; exact map.distinct⟩

theorem keys_mapValues (change : β → γ) (map : OrderedMap α β) :
    (map.mapValues change).keys = map.keys :=
  List.map_map

theorem values_mapValues (change : β → γ) (map : OrderedMap α β) :
    (map.mapValues change).values = map.values.map change := by
  unfold values mapValues
  rw [List.map_map, List.map_map]
  rfl

theorem mapValues_mapValues (change : β → γ) (further : γ → δ) (map : OrderedMap α β) :
    (map.mapValues change).mapValues further = map.mapValues (further ∘ change) := by
  apply OrderedMap.ext
  exact List.map_map

variable [DecidableEq α]

theorem get?_mapValues (change : β → γ) (map : OrderedMap α β) (key : α) :
    (map.mapValues change).get? key = (map.get? key).map change := by
  unfold get? mapValues
  rw [List.find?_map, Option.map_map, Option.map_map]
  rfl

theorem mapValues_insert (change : β → γ) (map : OrderedMap α β) (key : α) (value : β) :
    (map.insert key value).mapValues change = (map.mapValues change).insert key (change value) := by
  apply ext_get?
  · simp only [keys_mapValues, keys_insert]
  · intro other
    simp only [get?_mapValues, get?_insert]
    split <;> rfl

theorem mapValues_ofList (change : β → γ) (entries : List (α × β)) :
    (ofList entries).mapValues change = ofList (entries.map (Prod.map id change)) := by
  -- From the end, as the last entry is inserted last.
  induction entries using List.reverseRecOn with
  | nil => rfl
  | append_singleton entries last ih =>
    unfold ofList at ih ⊢
    rw [insertAll_concat, mapValues_insert, ih, List.map_append]
    exact (insertAll_concat empty _ last.1 (change last.2)).symm

end WithClause.OrderedMap
