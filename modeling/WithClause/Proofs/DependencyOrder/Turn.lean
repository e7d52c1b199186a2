/-
**The turn of an item.**

Where dependencies lead down to items without any (`Grounded`), each item has a turn, by recursion
along its dependencies: an item has its turn no sooner than each dependency registered before it,
and later than each one registered after it (`turn`). Turns are the numbers of the rounds, from one;
with the place of registration they rank the keys (`rank`).

* `turn_le_iff`: the turn as the least number with that property;
* `turn_eq_of_needs_iff`: turns depend on each list of dependencies only as a set;
* `turn_eq_one_of_follows`: all is placed in the first round if dependencies are registered first.
-/

import Mathlib.Data.Prod.Lex
import Mathlib.Order.WellFounded
import WithClause.Proofs.DependencyOrder.Run

namespace WithClause.DependencyOrder

variable {α : Type}

/-- Where a key stands among the registered ones. -/
def position (items : OrderedMap String α) (key : String) : Nat := items.keys.idxOf key

theorem position_lt_of_split {items : OrderedMap String α}
    {before after : List (String × α)} {entry : String × α}
    (split : items.entries = before ++ entry :: after) {key : String}
    (earlier : key ∈ before.map Prod.fst) : position items key < position items entry.1 := by
  have keys : items.keys = before.map Prod.fst ++ entry.1 :: after.map Prod.fst := by
    rw [OrderedMap.keys, split, List.map_append, List.map_cons]
  have distinct := items.keys_nodup
  rw [keys, List.nodup_append] at distinct
  have absent : entry.1 ∉ before.map Prod.fst := fun there =>
    distinct.2.2 _ there _ List.mem_cons_self rfl
  unfold position
  rw [keys, List.idxOf_append_of_mem earlier, List.idxOf_append_of_notMem absent,
    List.idxOf_cons_self, Nat.add_zero]
  exact List.idxOf_lt_length_of_mem earlier

theorem pairwise_position (items : OrderedMap String α) :
    items.entries.Pairwise fun first second =>
      position items first.1 < position items second.1 := by
  rw [List.pairwise_iff_forall_sublist]
  intro first second part
  obtain ⟨before, rest, split, here, there⟩ := List.cons_sublist_iff.mp part
  obtain ⟨front, back, rfl⟩ := List.append_of_mem (List.singleton_sublist.mp there)
  rw [← List.append_assoc] at split
  refine position_lt_of_split split ?_
  exact List.mem_map_of_mem (List.mem_append_left _ here)

variable (needs : α → List String) (items : OrderedMap String α)

/-- Dependencies lead down to items without any. -/
def Grounded : Prop := WellFounded (flip (Needs needs items))

variable {needs items}

theorem grounded_of_placeable (each : ∀ key ∈ items.keys, Placeable needs items key) :
    Grounded needs items := by
  refine ⟨fun key => ?_⟩
  by_cases registered : key ∈ items.keys
  · exact (each key registered).acc
  · exact Acc.intro key fun _ edge => absurd (Needs.registered edge) registered

theorem Grounded.ne_of_needs (grounded : Grounded needs items) {key dependency : String}
    (edge : Needs needs items key dependency) : dependency ≠ key := by
  rintro rfl
  exact grounded.irrefl.irrefl _ edge

/-- The turn of the item under a key: at least the first, not before that of a dependency
registered before the item, and after that of a dependency registered after it. -/
def turn (grounded : Grounded needs items) (key : String) : Nat :=
  match found : items.get? key with
  | none => 1
  | some item =>
    ((needs item).attach.map fun dependency =>
      if position items dependency.1 < position items key then turn grounded dependency.1
      else turn grounded dependency.1 + 1).foldr max 1
termination_by WellFounded.wrap grounded key
decreasing_by all_goals exact ⟨item, found, dependency.2⟩

/-- The rank of a key: its turn, then its position. -/
def rank (grounded : Grounded needs items) (key : String) : ℕ ×ₗ ℕ :=
  toLex (turn grounded key, position items key)

/-- The first turn that a dependency leaves open to an item. -/
def turnAfter (grounded : Grounded needs items) (key dependency : String) : Nat :=
  if position items dependency < position items key then turn grounded dependency
  else turn grounded dependency + 1

theorem foldr_max_le_iff (bounds : List Nat) (least limit : Nat) :
    bounds.foldr max least ≤ limit ↔ least ≤ limit ∧ ∀ bound ∈ bounds, bound ≤ limit := by
  induction bounds with
  | nil => simp
  | cons bound rest ih =>
    rw [List.foldr_cons, max_le_iff, ih, List.forall_mem_cons]
    exact and_left_comm

/-- **The turn is the least number from one that every dependency leaves open.** -/
theorem turn_le_iff (grounded : Grounded needs items) (key : String) (limit : Nat) :
    turn grounded key ≤ limit ↔
      1 ≤ limit ∧ ∀ dependency, Needs needs items key dependency →
        turnAfter grounded key dependency ≤ limit := by
  rw [turn]
  split
  · next absent => simp [Needs, absent]
  · next item found =>
    rw [foldr_max_le_iff]
    refine and_congr_right fun _ => ?_
    constructor
    · intro each dependency edge
      have listed := (needs_iff_of_get? found dependency).mp edge
      exact each _ (List.mem_map.mpr ⟨⟨dependency, listed⟩, List.mem_attach _ _, rfl⟩)
    · intro each bound member
      obtain ⟨dependency, _, rfl⟩ := List.mem_map.mp member
      exact each dependency.1 ⟨item, found, dependency.2⟩

theorem one_le_turn (grounded : Grounded needs items) (key : String) : 1 ≤ turn grounded key :=
  ((turn_le_iff grounded key _).mp (Nat.le_refl _)).1

theorem turnAfter_le_turn (grounded : Grounded needs items) {key dependency : String}
    (edge : Needs needs items key dependency) :
    turnAfter grounded key dependency ≤ turn grounded key :=
  ((turn_le_iff grounded key _).mp (Nat.le_refl _)).2 dependency edge

/-- **Turns depend on each list of dependencies only as a set.** -/
theorem turn_eq_of_needs_iff {β : Type} {needs' : β → List String} {items' : OrderedMap String β}
    (grounded : Grounded needs items) (grounded' : Grounded needs' items')
    (keys : items'.keys = items.keys)
    (same : ∀ key dependency, Needs needs' items' key dependency ↔ Needs needs items key dependency)
    (key : String) : turn grounded' key = turn grounded key := by
  induction key using grounded.induction with
  | _ key ih =>
    refine eq_of_forall_ge_iff fun limit => ?_
    rw [turn_le_iff, turn_le_iff]
    refine and_congr_right fun _ => forall_congr' fun dependency => ?_
    rw [same key dependency]
    refine imp_congr_right fun edge => ?_
    unfold turnAfter position
    rw [keys, ih dependency edge]

/-- **If dependencies are registered first, every item has the first turn.** -/
theorem turn_eq_one_of_follows (grounded : Grounded needs items)
    (follows : Follows needs items.entries) (key : String) : turn grounded key = 1 := by
  induction key using grounded.induction with
  | _ key ih =>
    refine Nat.le_antisymm ?_ (one_le_turn grounded key)
    rw [turn_le_iff]
    refine ⟨Nat.le_refl 1, fun dependency edge => ?_⟩
    obtain ⟨item, found, listed⟩ := edge
    obtain ⟨before, after, split⟩ :=
      List.append_of_mem ((items.get?_eq_some_iff key item).mp found)
    have earlier := follows before (key, item) after split dependency listed
    unfold turnAfter
    rw [if_pos (position_lt_of_split split earlier)]
    exact (ih dependency ⟨item, found, listed⟩).le

end WithClause.DependencyOrder
