/-
**The order that is found.**

The order is the one by rank: first by turn, then by registration (`order_eq_mergeSort`). Round
after round the items of the next turn are placed, in the order of registration. Within a round
(`Paced`) the entries that were examined are told from those to be examined by their positions, so
that an entry finds all its dependencies placed exactly if this is the round of its turn
(`Paced.turn_eq_of_ready`, `Paced.lt_turn_of_wait`).

Two consequences: the order does not depend on how often and in which order an item lists its
dependencies (`order_congr`), and items whose dependencies are registered first keep the order of
registration (`order_eq_of_follows`).
-/

import WithClause.Proofs.DependencyOrder.Turn

namespace WithClause.DependencyOrder

variable {α : Type} {needs : α → List String} {items : OrderedMap String α}

/-- The invariant of the round of one turn, with the entries that are still to be examined in it. -/
structure Paced (grounded : Grounded needs items) (now : Nat)
    (placed waiting : List (String × α)) : Prop where
  placed_iff : ∀ key ∈ items.keys, key ∈ placed.map Prod.fst ↔
    turn grounded key < now ∨ turn grounded key = now ∧ key ∉ waiting.map Prod.fst
  examined : ∀ key ∈ items.keys, now ≤ turn grounded key → key ∉ waiting.map Prod.fst →
    ∀ entry ∈ waiting, position items key < position items entry.1
  due : ∀ entry ∈ waiting, now ≤ turn grounded entry.1
  inOrder : waiting.Pairwise fun first second =>
    position items first.1 < position items second.1
  inside : ∀ entry ∈ waiting, entry ∈ items.entries
  registered : ∀ key ∈ placed.map Prod.fst, key ∈ items.keys
  sorted : (placed.map Prod.fst).Pairwise fun first second =>
    rank grounded first < rank grounded second

namespace Paced

variable {grounded : Grounded needs items} {now : Nat} {placed waiting after : List (String × α)}
  {entry : String × α} {blocked : List ((String × α) × String)}

theorem get?_head (paced : Paced grounded now placed (entry :: waiting)) :
    items.get? entry.1 = some entry.2 :=
  (items.get?_eq_some_iff entry.1 entry.2).mpr (paced.inside entry List.mem_cons_self)

theorem turn_eq_of_ready (paced : Paced grounded now placed (entry :: waiting))
    (positive : 1 ≤ now) (ready : ∀ dependency ∈ needs entry.2, dependency ∈ placed.map Prod.fst) :
    turn grounded entry.1 = now := by
  refine Nat.le_antisymm ?_ (paced.due entry List.mem_cons_self)
  rw [turn_le_iff]
  refine ⟨positive, fun dependency edge => ?_⟩
  have there := ready dependency ((needs_iff_of_get? paced.get?_head dependency).mp edge)
  have registered := paced.registered dependency there
  unfold turnAfter
  rcases (paced.placed_iff dependency registered).mp there with earlier | ⟨same, examined⟩
  · split <;> omega
  · rw [if_pos (paced.examined dependency registered same.ge examined entry List.mem_cons_self)]
    exact same.le

theorem lt_turn_of_wait (paced : Paced grounded now placed (entry :: waiting))
    (closed : Closed needs items) {dependency : String} (listed : dependency ∈ needs entry.2)
    (absent : dependency ∉ placed.map Prod.fst) : now < turn grounded entry.1 := by
  have edge : Needs needs items entry.1 dependency :=
    (needs_iff_of_get? paced.get?_head dependency).mpr listed
  rw [paced.placed_iff dependency (closed _ _ edge)] at absent
  refine Nat.lt_of_lt_of_le ?_ (turnAfter_le_turn grounded edge)
  unfold turnAfter
  by_cases later : now < turn grounded dependency
  · split <;> omega
  · -- The dependency has its turn now and is still to be examined, after the entry.
    have waits : dependency ∈ (entry :: waiting).map Prod.fst := by
      by_contra examined
      exact absent ((Nat.lt_or_eq_of_le (Nat.le_of_not_lt later)).imp_right (⟨·, examined⟩))
    rw [List.map_cons, List.mem_cons] at waits
    obtain ⟨other, member, rfl⟩ := List.mem_map.mp (waits.resolve_left (grounded.ne_of_needs edge))
    have behind := (List.pairwise_cons.mp paced.inOrder).1 other member
    rw [if_neg (by omega)]
    omega

theorem head_notMem (paced : Paced grounded now placed (entry :: waiting)) :
    entry.1 ∉ waiting.map Prod.fst := by
  intro again
  obtain ⟨other, member, same⟩ := List.mem_map.mp again
  have behind := (List.pairwise_cons.mp paced.inOrder).1 other member
  rw [same] at behind
  exact Nat.lt_irrefl _ behind

/-- When an entry has been examined, it is the last one that was. -/
theorem examined_tail (paced : Paced grounded now placed (entry :: waiting)) {key : String}
    (registered : key ∈ items.keys) (due : now ≤ turn grounded key)
    (examined : key ∉ waiting.map Prod.fst) :
    ∀ other ∈ waiting, position items key < position items other.1 := by
  intro other member
  by_cases last : key = entry.1
  · rw [last]
    exact (List.pairwise_cons.mp paced.inOrder).1 other member
  · refine paced.examined key registered due ?_ other (List.mem_cons_of_mem _ member)
    rw [List.map_cons, List.mem_cons]
    exact not_or.mpr ⟨last, examined⟩

/-- An entry that is placed in the round of its turn. -/
theorem place (paced : Paced grounded now placed (entry :: waiting))
    (here : turn grounded entry.1 = now) : Paced grounded now (placed ++ [entry]) waiting where
  placed_iff key registered := by
    have before := paced.placed_iff key registered
    rw [List.map_cons, List.mem_cons] at before
    rw [List.map_append, List.mem_append, List.map_singleton, List.mem_singleton, before]
    by_cases last : key = entry.1
    · subst last
      simp [here, paced.head_notMem]
    · simp [last]
  examined _ registered due examined := paced.examined_tail registered due examined
  due other member := paced.due other (List.mem_cons_of_mem _ member)
  inOrder := (List.pairwise_cons.mp paced.inOrder).2
  inside other member := paced.inside other (List.mem_cons_of_mem _ member)
  registered key member := by
    rw [List.map_append, List.mem_append] at member
    rcases member with member | member
    · exact paced.registered key member
    · obtain rfl : key = entry.1 := List.mem_singleton.mp member
      exact List.mem_map_of_mem (paced.inside entry List.mem_cons_self)
  sorted := by
    rw [List.map_append, List.pairwise_append]
    refine ⟨paced.sorted, List.pairwise_singleton _ _, fun key member last final => ?_⟩
    obtain rfl : last = entry.1 := List.mem_singleton.mp final
    have registered := paced.registered key member
    refine Prod.Lex.toLex_lt_toLex.mpr ?_
    rcases (paced.placed_iff key registered).mp member with earlier | ⟨same, examined⟩
    · exact .inl (here ▸ earlier)
    · exact .inr ⟨same.trans here.symm,
        paced.examined key registered same.ge examined entry List.mem_cons_self⟩

/-- An entry that is left waiting in a round before its turn. -/
theorem wait (paced : Paced grounded now placed (entry :: waiting))
    (later : now < turn grounded entry.1) : Paced grounded now placed waiting where
  placed_iff key registered := by
    rw [paced.placed_iff key registered, List.map_cons, List.mem_cons]
    by_cases last : key = entry.1
    · subst last
      omega
    · simp [last]
  examined _ registered due examined := paced.examined_tail registered due examined
  due other member := paced.due other (List.mem_cons_of_mem _ member)
  inOrder := (List.pairwise_cons.mp paced.inOrder).2
  inside other member := paced.inside other (List.mem_cons_of_mem _ member)
  registered := paced.registered
  sorted := paced.sorted

/-- **A round places the entries whose turn it is.** -/
theorem round (paced : Paced grounded now placed waiting) (positive : 1 ≤ now)
    (closed : Closed needs items) (one : Round needs items placed waiting after blocked) :
    Paced grounded now after [] := by
  induction one with
  | done => exact paced
  | place ready _ ih => exact ih (paced.place (paced.turn_eq_of_ready positive ready))
  | wait reached absent _ _ ih =>
    exact ih (paced.wait (paced.lt_turn_of_wait closed reached.mem absent))

theorem none : Paced grounded 0 [] [] where
  placed_iff key _ := by
    have first := one_le_turn grounded key
    simp only [List.map_nil, List.not_mem_nil, not_false_eq_true, and_true, false_iff]
    omega
  examined _ _ _ _ _ member := by cases member
  due _ member := by cases member
  inOrder := .nil
  inside _ member := by cases member
  registered _ member := by cases member
  sorted := .nil

/-- The next round starts where one has ended. -/
theorem begin {stage : Stage α} (paced : Paced grounded now stage.placed [])
    (sound : Sound needs items stage) : Paced grounded (now + 1) stage.placed stage.waiting := by
  have known : ∀ key ∈ items.keys,
      key ∈ stage.placed.map Prod.fst ↔ turn grounded key < now + 1 := by
    intro key registered
    rw [paced.placed_iff key registered]
    simp only [List.map_nil, List.not_mem_nil, not_false_eq_true, and_true]
    omega
  have waits : ∀ key ∈ items.keys, now + 1 ≤ turn grounded key →
      key ∈ stage.waiting.map Prod.fst := by
    intro key registered later
    obtain ⟨entry, member, rfl⟩ := List.mem_map.mp registered
    refine List.mem_map_of_mem ((sound.mem_waiting_iff entry).mpr ⟨member, fun there => ?_⟩)
    exact Nat.not_lt_of_le later ((known entry.1 registered).mp there)
  refine ⟨fun key registered => ?_, fun key registered later examined => ?_, fun entry member => ?_,
    (pairwise_position items).sublist sound.waiting_sublist,
    fun entry member => sound.waiting_sublist.subset member, paced.registered, paced.sorted⟩
  · rw [known key registered]
    refine ⟨.inl, fun either => either.elim id fun ⟨same, examined⟩ => ?_⟩
    exact absurd (waits key registered same.ge) examined
  · exact absurd (waits key registered later) examined
  · obtain ⟨registered, absent⟩ := (sound.mem_waiting_iff entry).mp member
    rw [known entry.1 (List.mem_map_of_mem registered)] at absent
    exact Nat.le_of_not_lt absent

variable (grounded) in
/-- **After each round of a run, the entries of the turns so far are placed by rank.** -/
theorem run {stage : Stage α} (closed : Closed needs items)
    (steps : Relation.ReflTransGen (Advance needs items) (Stage.start items) stage) :
    ∃ now, Paced grounded now stage.placed [] := by
  induction steps with
  | refl => exact ⟨0, none⟩
  | tail before step ih =>
    obtain ⟨now, paced⟩ := ih
    obtain ⟨blocked, one, _⟩ := step
    exact ⟨now + 1, (paced.begin (Sound.start.run before)).round (Nat.le_add_left 1 now) closed one⟩

end Paced

/-! ### The order by rank -/

def rankLe (grounded : Grounded needs items) (first second : String × α) : Bool :=
  decide (rank grounded first.1 ≤ rank grounded second.1)

theorem eq_of_rank_eq (grounded : Grounded needs items) {first second : String × α}
    (here : first ∈ items.entries) (there : second ∈ items.entries)
    (same : rank grounded first.1 = rank grounded second.1) : first = second := by
  have places : position items first.1 = position items second.1 :=
    congrArg (fun rank => (ofLex rank).2) same
  have keys : first.1 = second.1 := (List.idxOf_inj (List.mem_map_of_mem here)).mp places
  have value := (items.get?_eq_some_iff first.1 first.2).mpr here
  rw [keys, (items.get?_eq_some_iff second.1 second.2).mpr there] at value
  exact Prod.ext keys (Option.some.inj value).symm

section Accepted

variable {placed : List (String × α)}

theorem grounded_of_order_ok (accepted : order needs items = .ok placed) : Grounded needs items :=
  grounded_of_placeable (order_ok_iff_placeable.mp ⟨placed, accepted⟩)

theorem pairwise_rank_of_order_ok (grounded : Grounded needs items)
    (accepted : order needs items = .ok placed) :
    (placed.map Prod.fst).Pairwise fun first second =>
      rank grounded first < rank grounded second := by
  have closed := (placeable_iff.mp (order_ok_iff_placeable.mp ⟨placed, accepted⟩)).1
  obtain ⟨_, paced⟩ := Paced.run grounded closed (run_of_order_ok accepted)
  exact paced.sorted

theorem order_eq_mergeSort (grounded : Grounded needs items)
    (accepted : order needs items = .ok placed) :
    placed = items.entries.mergeSort (rankLe grounded) := by
  have isOrder := isOrder_of_order_ok accepted
  have sorted : placed.Pairwise fun first second => rankLe grounded first second = true :=
    (List.pairwise_map.mp (pairwise_rank_of_order_ok grounded accepted)).imp
      fun before => decide_eq_true before.le
  have sorts : (items.entries.mergeSort (rankLe grounded)).Pairwise
      fun first second => rankLe grounded first second = true := by
    refine List.pairwise_mergeSort (fun _ _ _ one two => ?_) (fun first second => ?_) _
    · exact decide_eq_true ((of_decide_eq_true one).trans (of_decide_eq_true two))
    · simp only [rankLe, Bool.or_eq_true, decide_eq_true_eq]
      exact le_total _ _
  refine List.Perm.eq_of_pairwise (fun first second here there one two => ?_) sorted sorts
    (isOrder.complete.trans (List.mergeSort_perm _ _).symm)
  exact eq_of_rank_eq grounded (isOrder.complete.mem_iff.mp here) (List.mem_mergeSort.mp there)
    (le_antisymm (of_decide_eq_true one) (of_decide_eq_true two))

/-- **The order does not depend on how an item lists its dependencies.** -/
theorem order_congr {β : Type} {needs' : β → List String} {items' : OrderedMap String β}
    (accepted : order needs items = .ok placed) (keys : items'.keys = items.keys)
    (same : ∀ key dependency,
      Needs needs' items' key dependency ↔ Needs needs items key dependency) :
    ∃ placed', order needs' items' = .ok placed' ∧
      placed'.map Prod.fst = placed.map Prod.fst := by
  have grounded := grounded_of_order_ok accepted
  have edges : Needs needs' items' = Needs needs items :=
    funext₂ fun key dependency => propext (same key dependency)
  have graph : Closed needs' items' ∧ Acyclic needs' items' := by
    unfold Closed Acyclic
    rw [edges, keys]
    exact placeable_iff.mp (order_ok_iff_placeable.mp ⟨placed, accepted⟩)
  obtain ⟨placed', accepted'⟩ := order_ok_iff_placeable.mpr (placeable_iff.mpr graph)
  have grounded' := grounded_of_order_ok accepted'
  have ranks : rank grounded' = rank grounded := by
    funext key
    unfold rank position
    rw [turn_eq_of_needs_iff grounded grounded' keys same key, keys]
  have sorted' := pairwise_rank_of_order_ok grounded' accepted'
  rw [ranks] at sorted'
  refine ⟨placed', accepted', ?_⟩
  refine List.Perm.eq_of_pairwise (fun _ _ _ _ one two => absurd one two.asymm) sorted'
    (pairwise_rank_of_order_ok grounded accepted) ?_
  have complete := (isOrder_of_order_ok accepted).complete.map Prod.fst
  have complete' := (isOrder_of_order_ok accepted').complete.map Prod.fst
  exact complete'.trans ((List.Perm.of_eq keys).trans complete.symm)

/-- **Items whose dependencies are registered first keep the order of registration.** -/
theorem order_eq_of_follows (accepted : order needs items = .ok placed)
    (follows : Follows needs items.entries) : placed = items.entries := by
  have grounded := grounded_of_order_ok accepted
  rw [order_eq_mergeSort grounded accepted]
  refine List.mergeSort_of_pairwise ((pairwise_position items).imp fun before => ?_)
  refine decide_eq_true (le_of_lt (Prod.Lex.toLex_lt_toLex.mpr (.inr ⟨?_, before⟩)))
  show turn grounded _ = turn grounded _
  rw [turn_eq_one_of_follows grounded follows, turn_eq_one_of_follows grounded follows]

end Accepted

/-- **The order is the one by turn and registration**, so it depends on each list of dependencies
only as a set, and items whose dependencies are registered first keep the order of registration. -/
theorem order_canonical (needs : α → List String) (items : OrderedMap String α)
    (placed : List (String × α)) (accepted : order needs items = .ok placed) :
    (∃ grounded : Grounded needs items, placed = items.entries.mergeSort (rankLe grounded)) ∧
      (∀ {β : Type} (needs' : β → List String) (items' : OrderedMap String β),
        items'.keys = items.keys →
        (∀ key dependency,
          Needs needs' items' key dependency ↔ Needs needs items key dependency) →
        ∃ placed', order needs' items' = .ok placed' ∧
          placed'.map Prod.fst = placed.map Prod.fst) ∧
      (Follows needs items.entries → placed = items.entries) :=
  ⟨⟨grounded_of_order_ok accepted, order_eq_mergeSort _ accepted⟩,
    fun _ _ keys same => order_congr accepted keys same, order_eq_of_follows accepted⟩

/-- Three turns: the first one is taken by two items. -/
theorem order_canonical_three_turns :
    order (fun listed => listed)
        (OrderedMap.ofList [("c", ["b", "a"]), ("b", ["a"]), ("a", []), ("d", ["a"])]) =
        .ok [("a", []), ("d", ["a"]), ("b", ["a"]), ("c", ["b", "a"])] ∧
      ∃ grounded : Grounded (fun listed => listed)
          (OrderedMap.ofList [("c", ["b", "a"]), ("b", ["a"]), ("a", []), ("d", ["a"])]),
        [("a", []), ("d", ["a"]), ("b", ["a"]), ("c", ["b", "a"])] =
          (OrderedMap.ofList
            [("c", ["b", "a"]), ("b", ["a"]), ("a", []), ("d", ["a"])]).entries.mergeSort
            (rankLe grounded) := by
  have accepted :
      order (fun listed => listed)
        (OrderedMap.ofList [("c", ["b", "a"]), ("b", ["a"]), ("a", []), ("d", ["a"])]) =
        .ok [("a", []), ("d", ["a"]), ("b", ["a"]), ("c", ["b", "a"])] := by decide +kernel
  exact ⟨accepted, (order_canonical _ _ _ accepted).1⟩

end WithClause.DependencyOrder
