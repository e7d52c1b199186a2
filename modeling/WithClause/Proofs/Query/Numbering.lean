/-
**How a query numbers its placeholders.**

A query numbers the named placeholders that no caller chose, and the places. In a run of calls from
an empty query the numbered placeholders are `:dcValue1`, `:dcValue2` and so on, one for each such
call, whatever is called in between (`numberedAnswers_eq`). No two of them are the same, so that the
value of one stays until a call binds its name by choice or replaces all bindings
(`get?_run_of_free`).

Where no call chooses a place, the places among the keys are those that were counted, in their
order, each with its value (`PlacesCounted`). One call keeps this, so a run does
(`placesCounted_run`).
-/

import Mathlib.Data.List.Induction
import Mathlib.Data.List.Nodup
import WithClause.Proofs.Query.Congruence

namespace WithClause

def Key.isPlace : Key → Bool
  | named _ => false
  | positional _ => true

namespace Query

theorem numbered_injective : Function.Injective numbered := by
  intro first second same
  have letters := congrArg String.toList same
  unfold numbered at letters
  rw [String.toList_append, String.toList_append] at letters
  have digits := congrArg (Nat.ofDigitChars 10 · 0) (List.append_cancel_left letters)
  simpa only [Nat.toList_repr, Nat.ofDigitChars_ten_toDigits] using digits

/-! ### Numbered placeholders -/

/-- Whether a call leaves its placeholder to the numbering. -/
def Call.isNumbered : Call → Bool
  | .bindNamed _ none => true
  | _ => false

/-- The placeholders that a run answers to the calls that leave them to the numbering. -/
def numberedAnswers (query : Query) : List Call → List String
  | [] => []
  | call :: others =>
    (if call.isNumbered then (query.placeholder? call).toList else []) ++
      (query.call call).numberedAnswers others

/-- **The numbering goes on by one with each call that leaves its placeholder to it,** and with no
other. -/
theorem namedCount_call (query : Query) (call : Call) :
    (query.call call).namedCount = query.namedCount + if call.isNumbered then 1 else 0 := by
  cases call with
  | bindNamed value placeholder => cases placeholder <;> rfl
  | _ => rfl

theorem namedCount_run (query : Query) (calls : List Call) :
    (query.run calls).namedCount = query.namedCount + calls.countP Call.isNumbered := by
  induction calls generalizing query with
  | nil => rfl
  | cons call others ih =>
    show ((query.call call).run others).namedCount = _
    rw [ih, namedCount_call, List.countP_cons]
    omega

theorem placeholder?_of_isNumbered {call : Call} (left : call.isNumbered = true) (query : Query) :
    query.placeholder? call = some (numbered (query.namedCount + 1)) := by
  cases call with
  | bindNamed value placeholder =>
    cases placeholder with
    | none => rfl
    | some => cases left
  | _ => cases left

/-- **A run answers the numbers from the next one on.** -/
theorem numberedAnswers_eq (query : Query) (calls : List Call) :
    query.numberedAnswers calls =
      (List.range' (query.namedCount + 1) (calls.countP Call.isNumbered)).map numbered := by
  induction calls generalizing query with
  | nil => rfl
  | cons call others ih =>
    rw [numberedAnswers, ih, namedCount_call]
    by_cases left : call.isNumbered = true
    · rw [if_pos left, if_pos left, List.countP_cons_of_pos left, List.range'_succ,
        placeholder?_of_isNumbered left]
      rfl
    · rw [if_neg left, if_neg left, List.countP_cons_of_neg left]
      rfl

/-! ### The value of a numbered placeholder -/

/-- Whether a call binds a key because its caller chose it, or replaces all bindings. -/
def Call.chooses (key : Key) : Call → Bool
  | .bind chosen _ => decide (chosen = key)
  | .bindNamed _ (some given) => decide (.named (nameOf given) = key)
  | .setBindings _ => true
  | _ => false

section Stays

variable {query : Query} {number : Nat} (passed : number ≤ query.namedCount)
include passed

/-- The numbering never comes back to a number, so that a call binds its name by choice only. -/
theorem get?_call_of_free {call : Call}
    (free : call.chooses (.named (nameOf (numbered number))) = false) :
    (query.call call).bindings.get? (.named (nameOf (numbered number))) =
      query.bindings.get? (.named (nameOf (numbered number))) := by
  have unchanged {key : Key} {value : Value} (apart : key ≠ .named (nameOf (numbered number))) :
      (query.bindings.insert key value).get? (.named (nameOf (numbered number))) =
        query.bindings.get? (.named (nameOf (numbered number))) := by
    rw [OrderedMap.get?_insert, if_neg apart]
  cases call with
  | bind chosen value => exact unchanged (of_decide_eq_false free)
  | setBindings => cases free
  | bindPositional value => exact unchanged fun same => by cases same
  | bindNamed value placeholder =>
    cases placeholder with
    | some given => exact unchanged (of_decide_eq_false free)
    | none =>
      refine unchanged fun same => ?_
      have again : query.namedCount + 1 = number :=
        numbered_injective ((nameOf_numbered_inj _ _).mp (Key.named.inj same))
      omega
  | _ => rfl

theorem get?_run_of_free {calls : List Call}
    (free : ∀ call ∈ calls, call.chooses (.named (nameOf (numbered number))) = false) :
    (query.run calls).bindings.get? (.named (nameOf (numbered number))) =
      query.bindings.get? (.named (nameOf (numbered number))) := by
  induction calls generalizing query with
  | nil => rfl
  | cons call others ih =>
    obtain ⟨head, tail⟩ := List.forall_mem_cons.mp free
    have further : number ≤ (query.call call).namedCount := by
      rw [namedCount_call]
      omega
    exact (ih further tail).trans (get?_call_of_free passed head)

end Stays

/-- The name that was numbered is bound to the value. -/
theorem get?_call_bindNamed (query : Query) (value : Value) :
    (query.call (.bindNamed value none)).bindings.get?
      (.named (nameOf (numbered (query.namedCount + 1)))) = some value := by
  show (query.bindings.insert _ value).get? _ = _
  rw [OrderedMap.get?_insert, if_pos rfl]

/-! ### Places -/

/-- The values that calls bind to the next place, in the order of the calls. -/
def placeValues (calls : List Call) : List Value :=
  calls.filterMap fun
    | .bindPositional value => some value
    | _ => none

/-- Whether a call binds a place because its caller chose it, or replaces all bindings. -/
def Call.choosesPlace : Call → Bool
  | .bind (.positional _) _ | .setBindings _ => true
  | _ => false

/-- The places among the keys are those that the query counted, in order, with the given values. -/
structure PlacesCounted (query : Query) (values : List Value) : Prop where
  count : query.positionalCount = values.length
  keys : query.bindings.keys.filter Key.isPlace = (List.range values.length).map Key.positional
  values : ∀ place, query.bindings.get? (.positional place) = values[place]?

namespace PlacesCounted

variable {query : Query} {values : List Value} (counted : PlacesCounted query values)
include counted

theorem next_notMem : .positional values.length ∉ query.bindings.keys := by
  intro there
  have value := (OrderedMap.mem_keys_iff _ _).mp there
  rw [counted.values, List.getElem?_length] at value
  obtain ⟨_, none⟩ := value
  cases none

/-- A name is no place. -/
theorem bind_named (name : String) (value : Value) :
    PlacesCounted (query.bind (.named name) value) values where
  count := counted.count
  keys := by
    show (query.bindings.insert (.named name) value).keys.filter Key.isPlace = _
    rw [OrderedMap.keys_insert, ← counted.keys]
    split
    · rfl
    · exact (List.filter_append _ _).trans (List.append_nil _)
  values place := by
    rw [← counted.values place]
    exact (OrderedMap.get?_insert ..).trans (if_neg fun same => by cases same)

/-- The next place stands behind the others. -/
theorem bindPositional (value : Value) :
    PlacesCounted (query.bindPositional value).2 (values ++ [value]) where
  count := by
    show query.positionalCount + 1 = _
    rw [counted.count, List.length_append, List.length_singleton]
  keys := by
    show (query.bindings.insert (.positional query.positionalCount) value).keys.filter _ = _
    rw [counted.count, OrderedMap.keys_insert, if_neg counted.next_notMem, List.filter_append,
      counted.keys, List.length_append, List.length_singleton, List.range_succ, List.map_append]
    rfl
  values place := by
    show (query.bindings.insert (.positional query.positionalCount) value).get? _ = _
    rw [counted.count, OrderedMap.get?_insert]
    by_cases last : values.length = place
    · rw [if_pos (congrArg Key.positional last), ← last, List.getElem?_concat_length]
    · rw [if_neg fun same => last (Key.positional.inj same), counted.values]
      grind

/-- **One call that chooses no place keeps the places counted.** -/
theorem call {call : Call} (free : call.choosesPlace = false) :
    PlacesCounted (query.call call) (values ++ placeValues [call]) := by
  have names (name : String) (value : Value) := counted.bind_named name value
  cases call with
  | bindPositional value => exact counted.bindPositional value
  | setBindings => cases free
  | bind key value =>
    cases key with
    | named name => exact (List.append_nil values).symm ▸ names name value
    | positional => cases free
  | bindNamed value placeholder =>
    have bound := names (nameOf (query.bindNamed value placeholder).1) value
    cases placeholder with
    | none => exact (List.append_nil values).symm ▸ ⟨bound.count, bound.keys, bound.values⟩
    | some given => exact (List.append_nil values).symm ▸ bound
  | _ => exact (List.append_nil values).symm ▸ ⟨counted.count, counted.keys, counted.values⟩

end PlacesCounted

theorem placesCounted_empty : PlacesCounted ∅ [] := ⟨rfl, rfl, fun _ => rfl⟩

/-- **A run that chooses no place keeps the places counted.** -/
theorem placesCounted_run {calls : List Call} (free : ∀ call ∈ calls, call.choosesPlace = false) :
    PlacesCounted ((∅ : Query).run calls) (placeValues calls) := by
  induction calls using List.reverseRecOn with
  | nil => exact placesCounted_empty
  | append_singleton calls last ih =>
    have extended : (∅ : Query).run (calls ++ [last]) = ((∅ : Query).run calls).call last :=
      List.foldl_append
    have before := ih fun call member => free call (List.mem_append_left _ member)
    rw [extended, placeValues, List.filterMap_append]
    exact before.call (free last (by simp))

/-! ### A run -/

/-- **What a run of calls on an empty query numbers.** The calls that leave their placeholder to the
query are answered `:dcValue1`, `:dcValue2` and so on, which are all different. The value of such a
call stays bound under its name as long as no later call binds that name by choice or replaces all
bindings. And if no call chooses a place or replaces all bindings, the places among the keys are
`0`, `1` and so on, as many as calls have left their place to the query, each with the value of its
call. -/
theorem run_numbers (calls : List Call) :
    let answers := (∅ : Query).numberedAnswers calls
    let bindings := ((∅ : Query).run calls).bindings
    answers = (List.range' 1 (calls.countP Call.isNumbered)).map
      (fun number => ":dcValue" ++ number.repr) ∧
    answers.Nodup ∧
    (∀ before value after, calls = before ++ .bindNamed value none :: after →
      let name := "dcValue" ++ (before.countP Call.isNumbered + 1).repr
      ((∅ : Query).run before).placeholder? (.bindNamed value none) = some (":" ++ name) ∧
      ((∀ call ∈ after, call.chooses (.named name) = false) →
        bindings.get? (.named name) = some value)) ∧
    ((∀ call ∈ calls, call.choosesPlace = false) →
      bindings.keys.filter Key.isPlace =
        (List.range (placeValues calls).length).map Key.positional ∧
      ∀ place, bindings.get? (.positional place) = (placeValues calls)[place]?) := by
  intro answers bindings
  have numbers : answers = (List.range' 1 (calls.countP Call.isNumbered)).map numbered :=
    numberedAnswers_eq ∅ calls
  refine ⟨numbers, ?_, ?_, fun free => ?_⟩
  · rw [numbers]
    exact List.Nodup.map numbered_injective List.nodup_range'
  · rintro before value after rfl name
    have count : ((∅ : Query).run before).namedCount = before.countP Call.isNumbered :=
      (namedCount_run ∅ before).trans (Nat.zero_add _)
    have named : nameOf (numbered (((∅ : Query).run before).namedCount + 1)) = name := by
      rw [nameOf_numbered, count]
    refine ⟨?_, fun free => ?_⟩
    · rw [placeholder?_of_isNumbered rfl, numbered_eq, named]
    · have reached : (∅ : Query).run (before ++ .bindNamed value none :: after) =
          (((∅ : Query).run before).call (.bindNamed value none)).run after := List.foldl_append
      have passed : ((∅ : Query).run before).namedCount + 1 ≤
          (((∅ : Query).run before).call (.bindNamed value none)).namedCount := Nat.le_refl _
      rw [← named] at free
      show ((∅ : Query).run (before ++ .bindNamed value none :: after)).bindings.get? _ = _
      rw [reached, ← named, get?_run_of_free passed free, get?_call_bindNamed]
  · have counted := placesCounted_run free
    exact ⟨counted.keys, counted.values⟩

/-- Names and places in turn, a name with a number that a caller chose, and one that is bound
again. -/
def mixedCalls : List Call :=
  [.bindPositional (.int 10), .bindNamed (.int 11) none, .bindNamed (.int 12) (some ":dcValue3"),
    .bindPositional (.int 13), .bindNamed (.int 14) none, .bind (.named "dcValue1") (.int 15),
    .setLimit 3, .bindNamed (.int 16) none]

theorem run_numbers_mixed :
    let bindings := ((∅ : Query).run mixedCalls).bindings
    (∅ : Query).numberedAnswers mixedCalls = [":dcValue1", ":dcValue2", ":dcValue3"] ∧
    (∀ call ∈ mixedCalls.drop 5, call.chooses (.named "dcValue2") = false) ∧
    bindings.get? (.named "dcValue2") = some (.int 14) ∧
    bindings.get? (.named "dcValue1") = some (.int 15) ∧
    bindings.get? (.named "dcValue3") = some (.int 16) ∧
    (∀ call ∈ mixedCalls, call.choosesPlace = false) ∧
    bindings.keys.filter Key.isPlace = [.positional 0, .positional 1] ∧
    bindings.get? (.positional 1) = some (.int 13) := by
  obtain ⟨answers, _, stays, places⟩ := run_numbers mixedCalls
  have later : ∀ call ∈ mixedCalls.drop 5, call.chooses (.named "dcValue2") = false := by decide
  have free : ∀ call ∈ mixedCalls, call.choosesPlace = false := by decide
  have second := (stays (mixedCalls.take 4) (.int 14) (mixedCalls.drop 5) rfl).2 later
  obtain ⟨keys, values⟩ := places free
  exact ⟨answers, later, second, by decide, by decide, free, keys, values 1⟩

end Query

end WithClause
