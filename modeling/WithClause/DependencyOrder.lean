/-
**The order of dependencies.**

Items are registered under keys and depend on keys. They are placed in rounds: a round goes through
the waiting items in the order of registration and places each one whose dependencies are all
placed, those of the same round included. The rounds end when nothing waits, when two items are
found to depend on each other, or when a round places nothing.

* `round`: one round; it answers what is placed now and, for each item that still waits, the
  dependency that it waits for;
* `stalled`: the report of a round that placed nothing;
* `order`: the items in an order in which each follows its dependencies.
-/

import WithClause.Fault
import WithClause.OrderedMap

namespace WithClause.DependencyOrder

variable {α : Type}

/-- What an item's dependencies say about it. -/
inductive Readiness where
  | ready
  /-- The first one that is not placed. -/
  | waitsFor (dependency : String)
  /-- One that depends on the item, found before any that is not placed. -/
  | reciprocalWith (dependency : String)

/-- Whether a dependency is registered and itself depends on a key. -/
def dependsBack (needs : α → List String) (items : OrderedMap String α) (key dependency : String) :
    Bool :=
  match items.get? dependency with
  | some item => (needs item).contains key
  | none => false

/-- Goes through the dependencies of the item under a key, in their order. -/
def readiness (needs : α → List String) (items : OrderedMap String α) (placed : List String)
    (key : String) : List String → Readiness
  | [] => .ready
  | dependency :: others =>
    if dependsBack needs items key dependency then .reciprocalWith dependency
    else if dependency ∈ placed then readiness needs items placed key others
    else .waitsFor dependency

/-- One round over the waiting entries: all placed entries, and the entries that still wait, each
with the dependency it waits for. -/
def round (needs : α → List String) (items : OrderedMap String α) (placed : List (String × α)) :
    List (String × α) →
      Except Obstacle (List (String × α) × List ((String × α) × String))
  | [] => .ok (placed, [])
  | entry :: rest =>
    match readiness needs items (placed.map Prod.fst) entry.1 (needs entry.2) with
    | .reciprocalWith dependency => .error (.reciprocal entry.1 dependency)
    | .ready => round needs items (placed ++ [entry]) rest
    | .waitsFor dependency =>
      match round needs items placed rest with
      | .ok (after, waiting) => .ok (after, (entry, dependency) :: waiting)
      | .error cause => .error cause

/-- What a round reports that placed nothing: the last entry that waits, with its dependency. -/
def stalled (blocked : List ((String × α) × String)) : Obstacle :=
  match blocked.getLast? with
  | some (entry, dependency) => .unmet entry.1 dependency
  | none => .unmet "undefined" "undefined"

/-- Rounds until nothing waits; a round that places nothing ends them. -/
def rounds (needs : α → List String) (items : OrderedMap String α)
    (placed waiting : List (String × α)) : Except Obstacle (List (String × α)) :=
  if waiting.isEmpty then .ok placed
  else
    match round needs items placed waiting with
    | .error cause => .error cause
    | .ok (after, blocked) =>
      if blocked.length < waiting.length then rounds needs items after (blocked.map Prod.fst)
      else .error (stalled blocked)
termination_by waiting.length
decreasing_by rwa [List.length_map]

def order (needs : α → List String) (items : OrderedMap String α) :
    Except Obstacle (List (String × α)) :=
  rounds needs items [] items.entries

end WithClause.DependencyOrder
