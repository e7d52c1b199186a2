/-
**Queries that compare equal behave alike.**

Queries that compare equal need not be the same: their bindings may stand in another order, and a
zero may have another sign. No call tells them apart. What a call makes of the bindings depends on
the counters and on what it binds (`call_withBindings`), so that queries that compare equal still do
after a call that binds no NaN (`call_agrees`), and answer it alike (`placeholder?_of_agrees`). By
induction this holds of a run of such calls, and with it the same text (`run_of_agrees`).

A NaN has to be left out: it does not compare equal to itself.
-/

import WithClause.Proofs.FromClause.Walk
import WithClause.Proofs.Query.Agreement
import WithClause.Proofs.Query.Clauses
import WithClause.Proofs.Query.Fragment

namespace WithClause

/-! ### Values -/

def Value.isNaN : Value → Bool
  | .float number => number.isNaN
  | _ => false

theorem Value.agrees_self_iff (value : Value) : value.agrees value = true ↔ value.isNaN = false := by
  cases value with
  | float number => exact number.agrees_self_iff
  | _ => simp [agrees, isNaN]

namespace Query

/-- The values that a call binds. -/
def Call.values : Call → List Value
  | .bind _ value | .bindNamed value _ | .bindPositional value => [value]
  | .setBindings bindings => bindings.values
  | _ => []

/-- No value that a call binds is a NaN. -/
def Call.BindsNoNaN (call : Call) : Prop := ∀ value ∈ call.values, value.isNaN = false

instance (call : Call) : Decidable call.BindsNoNaN := inferInstanceAs (Decidable (∀ _ ∈ _, _))

/-! ### What a call makes of the bindings -/

/-- The bindings after a call on a query, if they were the given ones before. -/
def Call.rebind (query : Query) (sofar : OrderedMap Key Value) : Call → OrderedMap Key Value
  | .setBindings bindings => bindings
  | call => sofar.insertAll (call.bound query)

/-- **No call looks at the bindings, but to change them.** -/
theorem call_withBindings (query : Query) (bindings : OrderedMap Key Value) (call : Call) :
    Query.call { query with bindings } call =
      { query.call call with bindings := call.rebind query bindings } := by
  cases call with
  | bindNamed value placeholder => cases placeholder <;> rfl
  | _ => rfl

theorem Call.value_of_mem_bound (query : Query) {call : Call} {binding : Key × Value}
    (member : binding ∈ call.bound query) : binding.2 ∈ call.values := by
  cases call with
  | bind key value => exact List.mem_singleton.mpr (congrArg Prod.snd (List.mem_singleton.mp member))
  | bindNamed value placeholder =>
    exact List.mem_singleton.mpr (congrArg Prod.snd (List.mem_singleton.mp member))
  | bindPositional value =>
    exact List.mem_singleton.mpr (congrArg Prod.snd (List.mem_singleton.mp member))
  | _ => cases member

theorem Call.rebind_agree (query : Query) {call : Call} (numbers : call.BindsNoNaN)
    {one other : OrderedMap Key Value} (same : OrderedMap.Agree Value.agrees one other) :
    OrderedMap.Agree Value.agrees (call.rebind query one) (call.rebind query other) := by
  have each (value : Value) (bound : value ∈ call.values) : value.agrees value = true :=
    value.agrees_self_iff.mpr (numbers value bound)
  cases call with
  | setBindings bindings => exact OrderedMap.agree_self each
  | _ =>
    exact same.insertAll fun binding member => each binding.2 (value_of_mem_bound query member)

/-! ### One call and a run -/

section Agreeing

variable {first second : Query} (same : first.agrees second = true)
include same

theorem sortsRows_of_agrees : first.sortsRows = second.sortsRows := by
  rw [(agrees_iff.mp same).1]
  rfl

/-- **A call that binds no NaN keeps queries equal.** -/
theorem call_agrees {call : Call} (numbers : call.BindsNoNaN) :
    (first.call call).agrees (second.call call) = true := by
  obtain ⟨shape, bindings⟩ := agrees_iff.mp same
  have changed := second.call_withBindings second.bindings call
  rw [shape, call_withBindings, show second.call call = _ from changed]
  exact agrees_with_bindings _ (call.rebind_agree second numbers bindings)

theorem placeholder?_of_agrees (call : Call) : first.placeholder? call = second.placeholder? call := by
  rw [(agrees_iff.mp same).1]
  cases call with
  | bindNamed value placeholder => cases placeholder <;> rfl
  | _ => rfl

theorem run_agrees {calls : List Call} (numbers : ∀ call ∈ calls, call.BindsNoNaN) :
    (first.run calls).agrees (second.run calls) = true ∧
      first.answers calls = second.answers calls := by
  induction calls generalizing first second with
  | nil => exact ⟨same, rfl⟩
  | cons call others ih =>
    obtain ⟨head, tail⟩ := List.forall_mem_cons.mp numbers
    obtain ⟨after, later⟩ := ih (call_agrees same head) tail
    refine ⟨after, ?_⟩
    rw [answers, answers, placeholder?_of_agrees same, later]

end Agreeing

/-- **Queries that compare equal are not told apart.** After any calls that bind no NaN they still
compare equal, and have answered the same placeholders; they have the same text, and both sort their
rows or neither does; and their bindings have the same keys, with values that agree. With no calls
this is about the queries as they are. -/
theorem run_of_agrees {first second : Query} (same : first.agrees second = true)
    {calls : List Call} (numbers : ∀ call ∈ calls, call.BindsNoNaN) :
    let one := first.run calls
    let other := second.run calls
    one.agrees other = true ∧
    first.answers calls = second.answers calls ∧
    one.sql = other.sql ∧
    one.sortsRows = other.sortsRows ∧
    one.bindings.keys.Perm other.bindings.keys ∧
    ∀ key, Option.Rel (fun value value' => value.agrees value' = true)
      (one.bindings.get? key) (other.bindings.get? key) := by
  intro one other
  obtain ⟨after, answers⟩ := run_agrees same numbers
  have bindings := bindings_of_agrees after
  exact ⟨after, answers, sql_of_agrees after, sortsRows_of_agrees after, bindings.keys_perm, bindings⟩

/-- Two queries with their bindings in another order, and with zeros of either sign. -/
theorem run_of_agrees_zeros :
    let zero := Value.float ⟨0⟩
    let minusZero := Value.float ⟨0x8000000000000000⟩
    let start : Query := { columns := [":low"], sources := [⟨"levels", none⟩], namedCount := 4 }
    let first := (start.bind (.named "low") zero).bind (.named "high") (.int 9)
    let second := (start.bind (.named "high") (.int 9)).bind (.named "low") minusZero
    let calls := [.bindNamed zero none, .addFilter .and "n < :dcValue5", .bindPositional (.int 1),
      .bind (.named "low") (.int 3)]
    first.bindings ≠ second.bindings ∧
    first.agrees second = true ∧
    (∀ call ∈ calls, call.BindsNoNaN) ∧
    (first.run calls).bindings ≠ (second.run calls).bindings ∧
    (first.run calls).agrees (second.run calls) = true ∧
    second.answers calls = [":dcValue5", "?"] ∧
    (second.run calls).sql = "SELECT :low FROM levels WHERE n < :dcValue5" := by
  intro zero minusZero start first second calls
  have same : first.agrees second = true := by decide
  have numbers : ∀ call ∈ calls, call.BindsNoNaN := by decide
  have keys (one other : OrderedMap Key Value) (apart : one.keys ≠ other.keys) : one ≠ other :=
    fun eq => apart (congrArg OrderedMap.keys eq)
  obtain ⟨after, answers, sql, -⟩ := run_of_agrees same numbers
  refine ⟨keys _ _ (by decide), same, numbers, keys _ _ (by decide), after, ?_, ?_⟩
  · rw [← answers]
    show [numbered 5, "?"] = _
    rfl
  · have source := FromClause.sql_of_no_joins [⟨"levels", none⟩]
    have clause : (first.run calls).fromClause = " FROM levels" := congrArg (" FROM " ++ ·) source
    rw [← sql, Query.sql, clause]
    rfl

end Query

end WithClause
