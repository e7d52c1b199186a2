/-
**The graph of dependencies.**

An edge leads from the key of an item to each key that the item depends on (`Needs`). Two readings
of the graph say which items can be placed at all:

* `Closed` and `Acyclic`: every edge ends at a registered key, and no path of edges leads from a key
  back to it;
* `Placeable`: the least set of keys that has every registered key whose dependencies are all in it.

`placeable_iff` ties the two: every registered key is placeable exactly when the graph is closed and
acyclic. One direction is an induction over the finitely many keys along paths; for the other, a
placeable key is accessible along its edges (`Placeable.acc`), so that no path leads back to it.
-/

import Mathlib.Data.Fintype.Card
import Mathlib.Data.Set.Finite.Basic
import WithClause.DependencyOrder

namespace WithClause.DependencyOrder

variable {α : Type} (needs : α → List String) (items : OrderedMap String α)

/-- The item under a key depends on another key. -/
def Needs (key dependency : String) : Prop :=
  ∃ item, items.get? key = some item ∧ dependency ∈ needs item

/-- Whatever an item depends on is registered. -/
def Closed : Prop := ∀ key dependency, Needs needs items key dependency → dependency ∈ items.keys

/-- No item depends on itself, through however many others. -/
def Acyclic : Prop := ∀ key, ¬ Relation.TransGen (Needs needs items) key key

/-- The keys that can get a place: the least set with every registered key whose dependencies are
all in it. -/
inductive Placeable : String → Prop
  | intro {key : String} {item : α} (registered : items.get? key = some item)
      (each : ∀ dependency ∈ needs item, Placeable dependency) : Placeable key

variable {needs items}

theorem Needs.registered {key dependency : String} (edge : Needs needs items key dependency) :
    key ∈ items.keys := by
  obtain ⟨item, found, _⟩ := edge
  exact (items.mem_keys_iff key).mpr ⟨item, found⟩

theorem needs_iff_of_get? {key : String} {item : α} (found : items.get? key = some item)
    (dependency : String) : Needs needs items key dependency ↔ dependency ∈ needs item := by
  constructor
  · rintro ⟨other, same, member⟩
    cases found.symm.trans same
    exact member
  · exact fun member => ⟨item, found, member⟩

theorem dependsBack_iff {key dependency : String} :
    dependsBack needs items key dependency = true ↔ Needs needs items dependency key := by
  unfold dependsBack
  cases found : items.get? dependency with
  | none => simp [Needs, found]
  | some item => rw [needs_iff_of_get? found, List.contains_iff_mem]

namespace Placeable

theorem registered {key : String} (placeable : Placeable needs items key) : key ∈ items.keys := by
  obtain ⟨found, _⟩ := placeable
  exact (items.mem_keys_iff key).mpr ⟨_, found⟩

theorem dependency {key dependency : String} (placeable : Placeable needs items key)
    (edge : Needs needs items key dependency) : Placeable needs items dependency := by
  obtain ⟨found, each⟩ := placeable
  exact each dependency ((needs_iff_of_get? found dependency).mp edge)

/-- Along its edges a placeable key is reached by no infinite descent. -/
theorem acc {key : String} (placeable : Placeable needs items key) :
    Acc (flip (Needs needs items)) key := by
  induction placeable with
  | intro found _ ih =>
    exact Acc.intro _ fun dependency edge =>
      ih dependency ((needs_iff_of_get? found dependency).mp edge)

/-- **No path leads from a placeable key back to it.** -/
theorem not_loop {key : String} (placeable : Placeable needs items key) :
    ¬ Relation.TransGen (Needs needs items) key key := by
  intro loop
  have back : Relation.TransGen (flip (Needs needs items)) key key := Relation.transGen_swap.mp loop
  have reached : Acc (Relation.TransGen (flip (Needs needs items))) key := placeable.acc.transGen
  induction reached with
  | intro _ _ ih => exact ih _ back placeable loop back

theorem not_reciprocal {key dependency : String} (placeable : Placeable needs items key)
    (edge : Needs needs items key dependency) : ¬ Needs needs items dependency key :=
  fun back => placeable.not_loop ((Relation.TransGen.single edge).tail back)

end Placeable

/-- The paths of a closed acyclic graph descend, since there are finitely many keys. -/
theorem placeable_of_acyclic (closed : Closed needs items) (acyclic : Acyclic needs items)
    {key : String} (registered : key ∈ items.keys) : Placeable needs items key := by
  let below (lower upper : {key // key ∈ items.keys}) : Prop :=
    Relation.TransGen (Needs needs items) upper.1 lower.1
  have transitive : IsTrans _ below := ⟨fun _ _ _ first second => second.trans first⟩
  have irreflexive : Std.Irrefl below := ⟨fun key loop => acyclic key.1 loop⟩
  have finite : Finite {key // key ∈ items.keys} := (List.finite_toSet items.keys).to_subtype
  have descends : WellFounded below := Finite.wellFounded_of_trans_of_irrefl below
  suffices each : ∀ node : {key // key ∈ items.keys}, Placeable needs items node.1 from
    each ⟨key, registered⟩
  intro node
  induction node using descends.induction with
  | _ node ih =>
    obtain ⟨item, found⟩ := (items.mem_keys_iff node.1).mp node.2
    refine .intro found fun dependency member => ?_
    have edge : Needs needs items node.1 dependency := ⟨item, found, member⟩
    exact ih ⟨dependency, closed _ _ edge⟩ (.single edge)

/-- **Every registered key is placeable exactly when the graph is closed and acyclic.** -/
theorem placeable_iff :
    (∀ key ∈ items.keys, Placeable needs items key) ↔
      Closed needs items ∧ Acyclic needs items := by
  constructor
  · intro each
    refine ⟨fun key dependency edge => ?_, fun key loop => ?_⟩
    · exact ((each key edge.registered).dependency edge).registered
    · obtain ⟨_, edge, _⟩ := Relation.TransGen.head'_iff.mp loop
      exact (each key edge.registered).not_loop loop
  · rintro ⟨closed, acyclic⟩ key registered
    exact placeable_of_acyclic closed acyclic registered

end WithClause.DependencyOrder
