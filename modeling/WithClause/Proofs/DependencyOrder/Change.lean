/-
**The order of changed items.**

The order looks at keys and dependencies alone. If the items of a registry are changed by a
function, and what they depend on can be read off the changed items, then the changed registry has
the changed order, or the same obstacle (`order_mapValues`). Two registries which agree in what a
function keeps of their items are therefore ordered alike.
-/

import WithClause.DependencyOrder
import WithClause.Proofs.OrderedMap.Values

namespace WithClause.DependencyOrder

variable {α β : Type} (change : α → β) (needs : β → List String) (items : OrderedMap String α)

/-- An entry with its item changed. -/
def changeEntry : String × α → String × β := Prod.map id change

theorem map_fst_changeEntry (entries : List (String × α)) :
    (entries.map (changeEntry change)).map Prod.fst = entries.map Prod.fst :=
  List.map_map

theorem dependsBack_mapValues (key dependency : String) :
    dependsBack needs (items.mapValues change) key dependency =
      dependsBack (needs ∘ change) items key dependency := by
  unfold dependsBack
  rw [OrderedMap.get?_mapValues]
  cases items.get? dependency <;> rfl

theorem readiness_mapValues (placed : List String) (key : String) (dependencies : List String) :
    readiness needs (items.mapValues change) placed key dependencies =
      readiness (needs ∘ change) items placed key dependencies := by
  induction dependencies with
  | nil => rfl
  | cons dependency others ih => rw [readiness, readiness, dependsBack_mapValues, ih]

/-- What a round answers, with the items changed. -/
def changeRound (result : List (String × α) × List ((String × α) × String)) :
    List (String × β) × List ((String × β) × String) :=
  (result.1.map (changeEntry change), result.2.map (Prod.map (changeEntry change) id))

theorem round_mapValues (placed waiting : List (String × α)) :
    round needs (items.mapValues change) (placed.map (changeEntry change))
        (waiting.map (changeEntry change)) =
      (round (needs ∘ change) items placed waiting).map (changeRound change) := by
  induction waiting generalizing placed with
  | nil => rfl
  | cons entry rest ih =>
    have ready : readiness needs (items.mapValues change) (placed.map Prod.fst)
        (changeEntry change entry).1 (needs (changeEntry change entry).2) =
        readiness (needs ∘ change) items (placed.map Prod.fst) entry.1 ((needs ∘ change) entry.2) :=
      readiness_mapValues change needs items _ _ _
    rw [List.map_cons, round, round, map_fst_changeEntry, ready]
    cases readiness (needs ∘ change) items (placed.map Prod.fst) entry.1
        ((needs ∘ change) entry.2) with
    | ready =>
      have later := ih (placed ++ [entry])
      rw [List.map_append] at later
      exact later
    | waitsFor dependency =>
      simp only [ih placed]
      cases round (needs ∘ change) items placed rest <;> rfl
    | reciprocalWith dependency => rfl

theorem stalled_changed (blocked : List ((String × α) × String)) :
    stalled (blocked.map (Prod.map (changeEntry change) id)) = stalled blocked := by
  unfold stalled
  rw [List.getLast?_map]
  cases blocked.getLast? <;> rfl

theorem rounds_mapValues (placed waiting : List (String × α)) :
    rounds needs (items.mapValues change) (placed.map (changeEntry change))
        (waiting.map (changeEntry change)) =
      (rounds (needs ∘ change) items placed waiting).map (List.map (changeEntry change)) := by
  fun_induction rounds (needs ∘ change) items placed waiting with
  | case1 placed waiting none =>
    rw [rounds, if_pos (by simpa using none)]
    rfl
  | case2 placed waiting some cause failed =>
    rw [rounds, if_neg (by simpa using some), round_mapValues, failed]
    rfl
  | case3 placed waiting some after blocked went shorter ih =>
    have left : (blocked.map (Prod.map (changeEntry change) id)).map Prod.fst =
        (blocked.map Prod.fst).map (changeEntry change) := by
      simp
    rw [rounds, if_neg (by simpa using some), round_mapValues, went]
    simp only [Except.map, changeRound, List.length_map]
    rw [if_pos shorter, left]
    exact ih
  | case4 placed waiting some after blocked went stuck =>
    rw [rounds, if_neg (by simpa using some), round_mapValues, went]
    simp only [Except.map, changeRound, List.length_map]
    rw [if_neg stuck, stalled_changed]

/-- **The order of changed items is the changed order.** -/
theorem order_mapValues :
    order needs (items.mapValues change) =
      (order (needs ∘ change) items).map (List.map (changeEntry change)) :=
  rounds_mapValues change needs items [] items.entries

end WithClause.DependencyOrder
