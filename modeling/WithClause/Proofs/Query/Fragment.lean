/-
**Queries that number their placeholders.**

A query that leaves all its placeholders to itself is a `Fragment`: it was put together by calls
that choose no key (`Call.generates`), and it may have taken over the bindings of other such
queries. The fragment keeps what the query forgets: the named placeholders that were answered, with
their values, and the number of places that were bound.

`Fragment.bindings_eq` replays the history of a query as one list of bindings. The rest is read off
that list, for the names by `Fragment.valuesOf_log` and for the places by
`Fragment.positional_mem_log_iff`. For a call this is what the call binds; for bindings that were
taken over it is a concatenation.
-/

import WithClause.Proofs.OrderedMap.Merging
import WithClause.Query.Call

namespace WithClause

open OrderedMap (valuesOf valuesOf_append valuesOf_singleton)

namespace Query

/-! ### What a call binds -/

theorem nameOf_numbered (number : Nat) : nameOf (numbered number) = "dcValue" ++ number.repr := by
  have letters : (numbered number).toList = ':' :: ("dcValue" ++ number.repr).toList := by
    rw [numbered, String.toList_append, String.toList_append]
    rfl
  rw [nameOf, letters]
  exact String.ofList_toList

theorem numbered_eq (number : Nat) : numbered number = ":" ++ nameOf (numbered number) := by
  rw [nameOf_numbered, ← String.append_assoc]
  rfl

/-- Numbered placeholders are the same if the names that they stand for are. -/
theorem nameOf_numbered_inj (first second : Nat) :
    nameOf (numbered first) = nameOf (numbered second) ↔ numbered first = numbered second := by
  constructor
  · intro same
    rw [numbered_eq first, same, ← numbered_eq]
  · exact congrArg nameOf

namespace Call

/-- Whether a call leaves it to the query under which key a value is bound. -/
def generates : Call → Bool
  | .bind _ _ | .setBindings _ | .bindNamed _ (some _) => false
  | _ => true

/-- The named placeholder that a call answers, with the value bound to it. -/
def placeholders (query : Query) : Call → List (String × Value)
  | .bindNamed value placeholder => [((query.bindNamed value placeholder).1, value)]
  | _ => []

/-- What a call binds, if it does not replace all bindings. -/
def bound (query : Query) : Call → List (Key × Value)
  | .bind key value => [(key, value)]
  | .bindNamed value placeholder =>
    [(.named (nameOf (query.bindNamed value placeholder).1), value)]
  | .bindPositional value => [(.positional query.positionalCount, value)]
  | _ => []

/-- The number of places that a call binds. -/
def places : Call → Nat
  | .bindPositional _ => 1
  | _ => 0

variable {call : Call} (query : Query)

theorem bindings_call (generates : call.generates) :
    (query.call call).bindings = query.bindings.insertAll (call.bound query) := by
  cases call with
  | setBindings => cases generates
  | bindNamed _ placeholder => cases placeholder <;> rfl
  | _ => rfl

theorem positionalCount_call :
    (query.call call).positionalCount = query.positionalCount + call.places := by
  cases call with
  | bindNamed _ placeholder => cases placeholder <;> rfl
  | _ => rfl

theorem numbered_of_mem (generates : call.generates) {placeholder : String}
    (member : placeholder ∈ (call.placeholders query).map Prod.fst) :
    ∃ number, placeholder = numbered number := by
  cases call with
  | bindNamed _ given =>
    cases given with
    | none => exact ⟨_, List.mem_singleton.mp member⟩
    | some => cases generates
  | _ => cases member

theorem valuesOf_bound (generates : call.generates) (number : Nat) :
    valuesOf (.named (nameOf (numbered number))) (call.bound query) =
      valuesOf (numbered number) (call.placeholders query) := by
  cases call with
  | bind => cases generates
  | bindNamed value given =>
    cases given with
    | none =>
      have same := nameOf_numbered_inj (query.namedCount + 1) number
      show valuesOf _ [(Key.named (nameOf (numbered (query.namedCount + 1))), value)] =
        valuesOf _ [(numbered (query.namedCount + 1), value)]
      rw [valuesOf_singleton, valuesOf_singleton]
      exact if_congr ((Key.named.injEq ..).to_iff.trans same) rfl rfl
    | some => cases generates
  | bindPositional value => rfl
  | _ => rfl

theorem positional_mem_bound (generates : call.generates) (place : Nat) :
    .positional place ∈ (call.bound query).map Prod.fst ↔
      query.positionalCount ≤ place ∧ place < query.positionalCount + call.places := by
  cases call with
  | bind => cases generates
  | bindNamed _ given => simp [bound, places]
  | bindPositional value => simp [bound, places]; omega
  | _ => simp [bound, places]

end Call

end Query

/-! ### Queries that number their placeholders -/

/-- The history of a query that leaves its placeholders to itself. -/
inductive Fragment where
  | empty
  | call (before : Fragment) (call : Query.Call) (generates : call.generates)
  /-- The bindings of another query are bound in this one too. -/
  | takeOver (before other : Fragment)

namespace Fragment

def query : Fragment → Query
  | .empty => ∅
  | .call before last _ => before.query.call last
  | .takeOver before other => before.query.bindEach other.query.bindings

/-- The named placeholders that were answered, with their values, in the order of binding. -/
def placeholders : Fragment → List (String × Value)
  | .empty => []
  | .call before last _ => before.placeholders ++ last.placeholders before.query
  | .takeOver before other => before.placeholders ++ other.placeholders

/-- The number of places that were bound by calls on the fragment itself. -/
def placeCount : Fragment → Nat
  | .empty => 0
  | .call before last _ => before.placeCount + last.places
  | .takeOver before _ => before.placeCount

/-- The fragments whose bindings were taken over, also by those taken over. -/
def takenOver : Fragment → List Fragment
  | .empty => []
  | .call before _ _ => before.takenOver
  | .takeOver before other => before.takenOver ++ other :: other.takenOver

/-- The fragments that the bindings were made on. -/
def sources (fragment : Fragment) : List Fragment := fragment :: fragment.takenOver

/-- The bindings in the order in which they were made. -/
def log : Fragment → List (Key × Value)
  | .empty => []
  | .call before last _ => before.log ++ last.bound before.query
  | .takeOver before other => before.log ++ other.log

/-- **A query keeps what the bindings of its history leave behind.** -/
theorem bindings_eq : ∀ fragment : Fragment, fragment.query.bindings = .ofList fragment.log
  | .empty => rfl
  | .call before last generates => by
    rw [query, Query.Call.bindings_call _ generates, before.bindings_eq]
    exact (OrderedMap.insertAll_append _ _ _).symm
  | .takeOver before other => by
    show before.query.bindings.merge other.query.bindings = _
    rw [before.bindings_eq, other.bindings_eq, OrderedMap.merge_ofList, log]

theorem positionalCount_eq : ∀ fragment : Fragment,
    fragment.query.positionalCount = fragment.placeCount
  | .empty => rfl
  | .call before last _ => by
    rw [query, Query.Call.positionalCount_call, before.positionalCount_eq, placeCount]
  | .takeOver before _ => before.positionalCount_eq

theorem numbered_of_mem {placeholder : String} : ∀ {fragment : Fragment},
    placeholder ∈ fragment.placeholders.map Prod.fst → ∃ number, placeholder = Query.numbered number
  | .empty, member => by cases member
  | .call before last generates, member => by
    rw [placeholders, List.map_append, List.mem_append] at member
    exact member.elim numbered_of_mem (Query.Call.numbered_of_mem _ generates)
  | .takeOver before other, member => by
    rw [placeholders, List.map_append, List.mem_append] at member
    exact member.elim numbered_of_mem numbered_of_mem

/-- **Under the name of a placeholder stand the values that it was answered for.** -/
theorem valuesOf_log (number : Nat) : ∀ fragment : Fragment,
    valuesOf (.named (Query.nameOf (Query.numbered number))) fragment.log =
      valuesOf (Query.numbered number) fragment.placeholders
  | .empty => rfl
  | .call before last generates => by
    rw [log, placeholders, valuesOf_append, valuesOf_append, before.valuesOf_log,
      Query.Call.valuesOf_bound _ generates]
  | .takeOver before other => by
    rw [log, placeholders, valuesOf_append, valuesOf_append, before.valuesOf_log,
      other.valuesOf_log]

/-- **A place is bound if one of the fragments counts beyond it.** -/
theorem positional_mem_log_iff (place : Nat) : ∀ fragment : Fragment,
    .positional place ∈ fragment.log.map Prod.fst ↔
      ∃ source ∈ fragment.sources, place < source.placeCount
  | .empty => by simp [log, sources, takenOver, placeCount]
  | .call before last generates => by
    have here : place < before.placeCount ∨
        before.placeCount ≤ place ∧ place < before.placeCount + last.places ↔
          place < before.placeCount + last.places := by omega
    rw [log, List.map_append, List.mem_append, before.positional_mem_log_iff,
      Query.Call.positional_mem_bound _ generates, before.positionalCount_eq]
    simp only [sources, takenOver, List.exists_mem_cons_iff, placeCount, or_right_comm, here]
  | .takeOver before other => by
    rw [log, List.map_append, List.mem_append, before.positional_mem_log_iff,
      other.positional_mem_log_iff]
    simp only [sources, takenOver, List.exists_mem_cons_iff, List.mem_append, or_and_right,
      exists_or, or_assoc, placeCount]

end Fragment

end WithClause
