/-
**Maps that agree.**

Two maps agree if under each key both have no value, or both have values that agree. The order of
the keys does not count: this is what the comparison of maps decides (`equalBy_iff`), and the keys
of such maps are the same up to order (`Agree.keys_perm`).

Agreement goes through insertion (`Agree.insert`, `Agree.insertAll`), through merging, of two maps
(`Agree.merge`) and of several (`Agree.foldl_merge`), and through new names for the keys
(`Agree.rename`). Values need not agree with themselves; a map agrees with itself if its values do
(`agree_self`).
-/

import Mathlib.Data.List.Perm.Subperm
import WithClause.Proofs.OrderedMap.Merging

namespace WithClause.OrderedMap

universe u v w

variable {α : Type u} {β : Type v} {γ : Type w}

theorem length_keys (map : OrderedMap α β) : map.keys.length = map.size := List.length_map ..

/-- As many keys and no other ones are the same keys. -/
theorem keys_perm_of_subset {first second : OrderedMap α β} (size : first.size = second.size)
    (sub : first.keys ⊆ second.keys) : first.keys.Perm second.keys := by
  have length : second.keys.length ≤ first.keys.length := by
    rw [length_keys, length_keys]
    exact Nat.le_of_eq size.symm
  exact (List.subperm_of_subset first.keys_nodup sub).perm_of_length_le length

variable [DecidableEq α] [DecidableEq γ]

/-- Under each key both maps have no value, or values that agree. -/
def Agree (agree : β → β → Bool) (first second : OrderedMap α β) : Prop :=
  ∀ key, Option.Rel (fun value other => agree value other = true) (first.get? key) (second.get? key)

variable {agree : β → β → Bool} {first second : OrderedMap α β}

/-- The two cases of maps that agree, under one key. -/
theorem Agree.get? (same : Agree agree first second) (key : α) :
    first.get? key = none ∧ second.get? key = none ∨
      ∃ value other, first.get? key = some value ∧ second.get? key = some other ∧
        agree value other = true := by
  have related := same key
  revert related
  generalize first.get? key = one
  generalize second.get? key = two
  rintro (agreeing | _)
  · exact .inr ⟨_, _, rfl, rfl, agreeing⟩
  · exact .inl ⟨rfl, rfl⟩

/-! ### The comparison of maps -/

theorem Agree.mem_keys_iff (same : Agree agree first second) (key : α) :
    key ∈ first.keys ↔ key ∈ second.keys := by
  rw [first.mem_keys_iff, second.mem_keys_iff]
  obtain ⟨one, two⟩ | ⟨value, other, one, two, -⟩ := same.get? key
  · simp [one, two]
  · simp [one, two]

/-- **Maps that agree have the same keys, in some order.** -/
theorem Agree.keys_perm (same : Agree agree first second) : first.keys.Perm second.keys :=
  (List.perm_ext_iff_of_nodup first.keys_nodup second.keys_nodup).mpr same.mem_keys_iff

theorem equalBy_eq_true_iff :
    equalBy agree first second = true ↔
      first.size = second.size ∧
        ∀ key value, first.get? key = some value →
          ∃ other, second.get? key = some other ∧ agree value other = true := by
  have entries : equalBy agree first second =
      (first.size == second.size &&
        first.entries.all fun entry => (second.get? entry.1).any (agree entry.2)) := rfl
  rw [entries, Bool.and_eq_true, beq_iff_eq, List.all_eq_true]
  simp only [Option.any_eq_true, Prod.forall, ← get?_eq_some_iff]

/-- **The comparison of maps decides whether they agree.** -/
theorem equalBy_iff : equalBy agree first second = true ↔ Agree agree first second := by
  rw [equalBy_eq_true_iff]
  constructor
  · rintro ⟨size, found⟩ key
    have perm : first.keys.Perm second.keys := by
      refine keys_perm_of_subset size fun key there => ?_
      obtain ⟨value, there⟩ := (first.mem_keys_iff key).mp there
      obtain ⟨other, there, -⟩ := found key value there
      exact (second.mem_keys_iff key).mpr ⟨other, there⟩
    cases one : first.get? key with
    | some value =>
      obtain ⟨other, two, agreeing⟩ := found key value one
      rw [two]
      exact .some agreeing
    | none =>
      have absent : second.get? key = none := by
        rw [Option.eq_none_iff_forall_ne_some]
        intro other two
        have there := perm.mem_iff.mpr ((second.mem_keys_iff key).mpr ⟨other, two⟩)
        obtain ⟨value, there⟩ := (first.mem_keys_iff key).mp there
        cases one.symm.trans there
      rw [absent]
      exact .none
  · intro same
    refine ⟨?_, fun key value there => ?_⟩
    · rw [← length_keys, ← length_keys, same.keys_perm.length_eq]
    · obtain ⟨one, -⟩ | ⟨_, other, one, two, agreeing⟩ := same.get? key
      · cases one.symm.trans there
      · cases one.symm.trans there
        exact ⟨other, two, agreeing⟩

/-! ### Values that agree with themselves -/

theorem agree_self {map : OrderedMap α β} (each : ∀ value ∈ map.values, agree value value = true) :
    Agree agree map map := by
  intro key
  cases found : map.get? key with
  | none => exact .none
  | some value =>
    have there := (map.get?_eq_some_iff key value).mp found
    exact .some (each value (List.mem_map_of_mem there))

/-! ### Insertion -/

theorem Agree.insert (same : Agree agree first second) (key : α) {value other : β}
    (agreeing : agree value other = true) :
    Agree agree (first.insert key value) (second.insert key other) := by
  intro place
  rw [get?_insert, get?_insert]
  by_cases here : key = place
  · rw [if_pos here, if_pos here]
    exact .some agreeing
  · rw [if_neg here, if_neg here]
    exact same place

theorem Agree.insertAll (same : Agree agree first second) {entries : List (α × β)}
    (each : ∀ entry ∈ entries, agree entry.2 entry.2 = true) :
    Agree agree (first.insertAll entries) (second.insertAll entries) := by
  induction entries generalizing first second with
  | nil => exact same
  | cons entry rest ih =>
    obtain ⟨head, tail⟩ := List.forall_mem_cons.mp each
    exact ih (same.insert entry.1 head) tail

/-! ### Merging -/

theorem Agree.merge {one other : OrderedMap α β} (same : Agree agree first second)
    (added : Agree agree one other) : Agree agree (first.merge one) (second.merge other) := by
  intro key
  rw [get?_merge, get?_merge]
  obtain ⟨none, none'⟩ | ⟨value, value', some, some', agreeing⟩ := added.get? key
  · rw [none, none']
    exact same key
  · rw [some, some']
    exact .some agreeing

/-- **Merging maps that agree one by one makes maps that agree.** -/
theorem Agree.foldl_merge {ones others : List (OrderedMap α β)}
    (added : List.Forall₂ (Agree agree) ones others) (same : Agree agree first second) :
    Agree agree (ones.foldl OrderedMap.merge first) (others.foldl OrderedMap.merge second) := by
  induction added generalizing first second with
  | nil => exact same
  | cons head _ ih => exact ih (same.merge head)

/-! ### New names for the keys -/

theorem valuesOf_rename {rename : α → γ} (apart : Function.Injective rename) (key : α)
    (entries : List (α × β)) :
    valuesOf (rename key) (entries.map (Prod.map rename id)) = valuesOf key entries := by
  unfold valuesOf
  rw [List.filter_map, List.map_map]
  simp only [Function.comp_def, Prod.map_fst, Prod.map_snd, apart.eq_iff, id_eq]

theorem Agree.rename {rename : α → γ} (apart : Function.Injective rename)
    (same : Agree agree first second) :
    Agree agree (ofList (first.entries.map (Prod.map rename id)))
      (ofList (second.entries.map (Prod.map rename id))) := by
  intro name
  rw [get?_ofList, get?_ofList]
  by_cases named : ∃ key, rename key = name
  · obtain ⟨key, rfl⟩ := named
    rw [valuesOf_rename apart, valuesOf_rename apart, ← get?_ofList, ← get?_ofList,
      ofList_entries, ofList_entries]
    exact same key
  · have unnamed (entries : List (α × β)) :
        valuesOf name (entries.map (Prod.map rename id)) = [] := by
      rw [valuesOf_eq_nil_iff, List.map_map]
      intro there
      obtain ⟨entry, -, renamed⟩ := List.mem_map.mp there
      exact named ⟨entry.1, renamed⟩
    rw [unnamed, unnamed]
    exact .none

end WithClause.OrderedMap
