/-
**Which obstacle is reported.**

What is reported when items have no order depends on the registered items alone, not on how far the
rounds have come. It is read off the placeable keys:

* `Reciprocal`: an item and a dependency of it that depends back on it, where only placeable
  dependencies are listed before. Wherever there is such a pair, one is reported;
* `LastUnplaceable`: the last registered item that is not placeable, with the first of its
  dependencies that is not. It is reported where there is no reciprocal pair.

When a round places nothing, the placed keys are the placeable ones, so that the round would have
come to every reciprocal pair (`not_reciprocal_of_stall`) and the last entry that waits is the last
one that is not placeable (`lastUnplaceable_of_stall`).
-/

import WithClause.Proofs.DependencyOrder.Run

namespace WithClause.DependencyOrder

variable {α : Type} (needs : α → List String) (items : OrderedMap String α)

/-- An item and a registered dependency of it that depends back on it; all dependencies listed
before that one are placeable. -/
def Reciprocal (key dependency : String) : Prop :=
  ∃ item earlier later, items.get? key = some item ∧
    needs item = earlier ++ dependency :: later ∧
    (∀ other ∈ earlier, Placeable needs items other) ∧ Needs needs items dependency key

/-- The last registered item that is not placeable and the first of its dependencies that is
not. -/
def LastUnplaceable (key dependency : String) : Prop :=
  ∃ item before after earlier later, items.entries = before ++ (key, item) :: after ∧
    ¬ Placeable needs items key ∧ (∀ entry ∈ after, Placeable needs items entry.1) ∧
    needs item = earlier ++ dependency :: later ∧
    (∀ other ∈ earlier, Placeable needs items other) ∧ ¬ Placeable needs items dependency

variable {needs items}

theorem LastUnplaceable.edge {key dependency : String}
    (last : LastUnplaceable needs items key dependency) : Needs needs items key dependency := by
  obtain ⟨item, before, after, earlier, later, split, _, _, listed, _, _⟩ := last
  refine ⟨item, (items.get?_eq_some_iff key item).mpr (by rw [split]; simp), ?_⟩
  rw [listed]
  simp

/-- An item that is the first unplaceable one of its own dependencies is a reciprocal pair. -/
theorem LastUnplaceable.reciprocal_of_self {key : String}
    (last : LastUnplaceable needs items key key) : Reciprocal needs items key key := by
  have edge := last.edge
  obtain ⟨item, before, after, earlier, later, split, _, _, listed, passed, _⟩ := last
  have found : items.get? key = some item :=
    (items.get?_eq_some_iff key item).mpr (by rw [split]; simp)
  exact ⟨item, earlier, later, found, listed, passed, edge⟩

/-- Of two places in a list one comes first, or they are the same. -/
theorem mem_or_eq_or_mem_of_split {first second : String}
    {before after before' after' : List String}
    (same : before ++ first :: after = before' ++ second :: after') :
    first ∈ before' ∨ first = second ∨ second ∈ before := by
  rcases List.append_eq_append_iff.mp same with ⟨between, rfl, rest⟩ | ⟨between, rfl, rest⟩
  · cases between with
    | nil => exact .inr (.inl (List.cons.inj rest).1)
    | cons head tail =>
      obtain rfl := (List.cons.inj rest).1
      exact .inl (by simp)
  · cases between with
    | nil => exact .inr (.inl (List.cons.inj rest).1.symm)
    | cons head tail =>
      obtain rfl := (List.cons.inj rest).1
      exact .inr (.inr (by simp))

section Stall

variable {stage : Stage α} {after : List (String × α)} {blocked : List ((String × α) × String)}

/-- What a stalled round says of an entry that waits. -/
theorem waits_of_stall (sound : Sound needs items stage)
    (whole : Round needs items stage.placed stage.waiting after blocked)
    (nothing : stage.waiting.length ≤ blocked.length)
    {entry : String × α} {dependency : String} (member : (entry, dependency) ∈ blocked) :
    ∃ earlier later, needs entry.2 = earlier ++ dependency :: later ∧
      (∀ other ∈ earlier, Placeable needs items other ∧ ¬ Needs needs items other entry.1) ∧
      ¬ Placeable needs items dependency ∧ ¬ Needs needs items dependency entry.1 := by
  have known := sound.mem_placed_iff_of_stall whole nothing
  obtain ⟨⟨earlier, later, listed, passed⟩, absent, apart⟩ :=
    whole.waits (sound.stall whole nothing).1 _ member
  refine ⟨earlier, later, listed, fun other before => ?_, fun placeable => ?_, apart⟩
  · exact ⟨(known other).mp (passed other before).1, (passed other before).2⟩
  · exact absent ((known dependency).mpr placeable)

/-- **A round that places nothing leaves no reciprocal pair unreported.** -/
theorem not_reciprocal_of_stall (sound : Sound needs items stage)
    (whole : Round needs items stage.placed stage.waiting after blocked)
    (nothing : stage.waiting.length ≤ blocked.length) (key dependency : String) :
    ¬ Reciprocal needs items key dependency := by
  rintro ⟨item, earlier, later, found, listed, passed, back⟩
  have edge : Needs needs items key dependency := ⟨item, found, by rw [listed]; simp⟩
  have never : ¬ Placeable needs items key := fun placeable => placeable.not_reciprocal edge back
  have waits : (key, item) ∈ stage.waiting := by
    refine (sound.mem_waiting_iff (key, item)).mpr
      ⟨(items.get?_eq_some_iff key item).mp found, fun placed => never ?_⟩
    exact sound.placeable key placed
  rw [← (sound.stall whole nothing).2] at waits
  obtain ⟨⟨entry, awaited⟩, member, rfl⟩ := List.mem_map.mp waits
  obtain ⟨earlier', later', listed', passed', absent, apart⟩ :=
    waits_of_stall sound whole nothing member
  -- The scan of the item stopped before the reciprocal dependency, at it, or after it.
  rcases mem_or_eq_or_mem_of_split (listed.symm.trans listed') with before | same | before
  · exact (passed' dependency before).2 back
  · exact apart (same ▸ back)
  · exact absent (passed awaited before)

/-- **A round that places nothing reports the last unplaceable item.** -/
theorem lastUnplaceable_of_stall (sound : Sound needs items stage) (some : stage.waiting ≠ [])
    (whole : Round needs items stage.placed stage.waiting after blocked)
    (nothing : stage.waiting.length ≤ blocked.length) :
    ∃ key dependency, stalled blocked = .unmet key dependency ∧
      LastUnplaceable needs items key dependency := by
  have known := sound.mem_placed_iff_of_stall whole nothing
  have left := (sound.stall whole nothing).2
  rcases List.eq_nil_or_concat blocked with rfl | ⟨others, ⟨⟨key, item⟩, dependency⟩, rfl⟩
  · exact absurd left.symm some
  · rw [List.concat_eq_append] at *
    refine ⟨key, dependency, by unfold stalled; rw [List.getLast?_concat], ?_⟩
    obtain ⟨earlier, later, listed, passed, absent, _⟩ :=
      waits_of_stall sound whole nothing (List.mem_append_right _ List.mem_cons_self)
    -- The entries that wait are those not placed, so after the last of them all are placed.
    rw [List.map_append, List.map_singleton, sound.waiting_eq] at left
    obtain ⟨front, back, whole', _, final⟩ := List.filter_eq_append_iff.mp left.symm
    obtain ⟨middle, rest, rfl, _, here, none⟩ := List.filter_eq_cons_iff.mp final
    refine ⟨item, front ++ middle, rest, earlier, later, ?_, fun placeable => ?_, fun entry member =>
      ?_, listed, fun other before => (passed other before).1, absent⟩
    · rw [whole', List.append_assoc]
    · exact of_decide_eq_true here ((known key).mpr placeable)
    · have outside := List.filter_eq_nil_iff.mp none entry member
      rw [decide_eq_true_iff, not_not] at outside
      exact (known entry.1).mp outside

end Stall

theorem Fails.cause_spec {stage : Stage α} {cause : Obstacle}
    (fails : Fails needs items stage cause) (sound : Sound needs items stage) :
    (∃ key dependency, cause = .reciprocal key dependency ∧
        Reciprocal needs items key dependency) ∨
      (∃ key dependency, cause = .unmet key dependency ∧
        LastUnplaceable needs items key dependency) ∧
        ∀ key dependency, ¬ Reciprocal needs items key dependency := by
  cases fails with
  | @reciprocal before rest placed entry blocked dependency split part reached back =>
    have few : before.Sublist stage.waiting := by
      rw [split]
      exact List.sublist_append_left _ _
    have placeable := placeable_of_follows (sound.round_inside part few)
      (part.follows sound.follows)
    have registered : entry ∈ items.entries :=
      sound.waiting_sublist.subset (by rw [split]; simp)
    obtain ⟨earlier, later, listed, passed⟩ := reached
    exact .inl ⟨entry.1, dependency, rfl, entry.2, earlier, later,
      (items.get?_eq_some_iff _ _).mpr registered, listed,
      fun other member => placeable other (passed other member).1, back⟩
  | stall some whole nothing =>
    exact .inr ⟨lastUnplaceable_of_stall sound some whole nothing,
      not_reciprocal_of_stall sound whole nothing⟩

/-- **The obstacle that is reported is a reciprocal pair where there is one, and the last
unplaceable item with its first unplaceable dependency where there is none.** The report of a round
without waiting entries is never seen. -/
theorem order_error_cause (needs : α → List String) (items : OrderedMap String α)
    (cause : Obstacle) (refused : order needs items = .error cause) :
    ((∃ key dependency, cause = .reciprocal key dependency) ↔
        ∃ key dependency, Reciprocal needs items key dependency) ∧
      (∀ key dependency, cause = .reciprocal key dependency →
        Reciprocal needs items key dependency) ∧
      ((¬ ∃ key dependency, cause = .reciprocal key dependency) →
        ∃ key dependency, cause = .unmet key dependency ∧
          LastUnplaceable needs items key dependency) ∧
      cause ≠ .unmet "undefined" "undefined" := by
  obtain ⟨stage, sound, fails⟩ := fails_of_order_error refused
  rcases fails.cause_spec sound with
    ⟨key, dependency, rfl, pair⟩ | ⟨⟨key, dependency, rfl, last⟩, none⟩
  · refine ⟨⟨fun _ => ⟨key, dependency, pair⟩, fun _ => ⟨key, dependency, rfl⟩⟩, ?_,
      fun never => absurd ⟨key, dependency, rfl⟩ never, by simp⟩
    rintro key dependency ⟨⟩
    exact pair
  · refine ⟨⟨?_, ?_⟩, ?_, fun _ => ⟨key, dependency, rfl, last⟩, ?_⟩
    · rintro ⟨_, _, ⟨⟩⟩
    · rintro ⟨other, needed, pair⟩
      exact absurd pair (none other needed)
    · rintro _ _ ⟨⟩
    · rintro ⟨⟩
      exact none _ _ last.reciprocal_of_self

/-- Two items that depend on each other, each behind a name that is not registered. -/
theorem order_error_cause_masked :
    order (fun listed => listed)
        (OrderedMap.ofList [("a", ["ghost", "b"]), ("b", ["ghost", "a"]), ("c", [])]) =
        .error (.unmet "b" "ghost") ∧
      LastUnplaceable (fun listed => listed)
        (OrderedMap.ofList [("a", ["ghost", "b"]), ("b", ["ghost", "a"]), ("c", [])])
        "b" "ghost" := by
  have refused : order (fun listed => listed)
      (OrderedMap.ofList [("a", ["ghost", "b"]), ("b", ["ghost", "a"]), ("c", [])]) =
        .error (.unmet "b" "ghost") := by decide +kernel
  obtain ⟨key, dependency, ⟨⟩, last⟩ := (order_error_cause _ _ _ refused).2.2.1 (by simp)
  exact ⟨refused, last⟩

end WithClause.DependencyOrder
