/-
**Walks through pending joins.**

A walk takes joins off the pending ones: each starts from a label of the stack, or from the label of
a join that was taken before it (`Supplied`). `Walk` says what a walk comes to. The joins that are
left keep their order, and none of them starts from a label of the stack or of a taken join, so that
the walk took all that it could. `follow_walk` is an induction along the walk.
-/

import Mathlib.Data.List.Basic
import WithClause.FromClause

namespace WithClause.FromClause

/-! ### One join -/

theorem takeFrom?_eq_none_iff (label : String) (pending : List Join) :
    takeFrom? label pending = none ↔ ∀ join ∈ pending, join.origin ≠ label := by
  induction pending with
  | nil => simp [takeFrom?]
  | cons head tail ih =>
    rw [takeFrom?]
    by_cases here : head.origin = label
    · simp [here]
    · simp [here, ih]

/-- A join that is taken starts from the label, and one copy of it is no longer pending. -/
theorem takeFrom?_eq_some {label : String} {pending rest : List Join} {join : Join}
    (taken : takeFrom? label pending = some (join, rest)) :
    join ∈ pending ∧ join.origin = label ∧ rest = pending.erase join := by
  induction pending generalizing rest with
  | nil => cases taken
  | cons head tail ih =>
    rw [takeFrom?] at taken
    by_cases here : head.origin = label
    · rw [if_pos here] at taken
      cases taken
      exact ⟨List.mem_cons_self, here, (List.erase_cons_head ..).symm⟩
    · rw [if_neg here] at taken
      obtain ⟨⟨found, others⟩, inTail, same⟩ := Option.map_eq_some_iff.mp taken
      cases same
      obtain ⟨member, starts, left⟩ := ih inTail
      have apart : (head == join) = false := beq_false_of_ne fun same => here (same ▸ starts)
      refine ⟨List.mem_cons_of_mem _ member, starts, ?_⟩
      rw [List.erase_cons_tail (by simp [apart]), left]

/-! ### Runs of joins that follow each other -/

/-- Each join of a run starts from one of the labels, or from the label of a join before it. -/
def Supplied (labels : List String) (run : List Join) : Prop :=
  ∀ before join after, run = before ++ join :: after →
    join.origin ∈ labels ∨ ∃ other ∈ before, join.origin = other.label

namespace Supplied

variable {labels : List String} {run before after : List Join} {join : Join}

theorem nil : Supplied labels [] := by
  intro before join after split
  simp at split

theorem mono {more : List String} (supplied : Supplied labels run) (fewer : labels ⊆ more) :
    Supplied more run := by
  intro before join after split
  exact (supplied before join after split).imp_left fun member => fewer member

theorem cons (starts : join.origin ∈ labels) (rest : Supplied (join.label :: labels) run) :
    Supplied labels (join :: run) := by
  intro before other after split
  cases before with
  | nil =>
    cases split
    exact .inl starts
  | cons head tail =>
    cases split
    rcases rest tail other after rfl with member | ⟨source, member, same⟩
    · rcases List.mem_cons.mp member with same | member
      · exact .inr ⟨join, List.mem_cons_self, same⟩
      · exact .inl member
    · exact .inr ⟨source, List.mem_cons_of_mem _ member, same⟩

theorem initial (supplied : Supplied labels (before ++ after)) : Supplied labels before := by
  intro start join rest split
  refine supplied start join (rest ++ after) ?_
  rw [split, List.append_assoc, List.cons_append]

end Supplied

/-! ### Walks -/

/-- What a walk from some labels comes to: the joins that are placed and those that are left. -/
structure Walk (labels : List String) (pending placed left : List Join) : Prop where
  complete : (placed ++ left).Perm pending
  left_eq : left = pending.diff placed
  supplied : Supplied labels placed
  exhausted : ∀ join ∈ left, join.origin ∉ labels ∧ ∀ other ∈ placed, join.origin ≠ other.label

namespace Walk

variable {label : String} {labels : List String} {pending placed left : List Join} {join : Join}

theorem left_subset (walk : Walk labels pending placed left) : left ⊆ pending := fun _ member =>
  walk.complete.subset (List.mem_append_right placed member)

theorem mem_pending_iff (walk : Walk labels pending placed left) (join : Join) :
    join ∈ pending ↔ join ∈ placed ∨ join ∈ left := by
  rw [← walk.complete.mem_iff, List.mem_append]

/-- A walk goes on from a label where no pending join starts. -/
theorem skip (none : ∀ join ∈ pending, join.origin ≠ label)
    (walk : Walk labels pending placed left) : Walk (label :: labels) pending placed left where
  complete := walk.complete
  left_eq := walk.left_eq
  supplied := walk.supplied.mono (List.subset_cons_self label labels)
  exhausted := by
    intro join member
    obtain ⟨outside, apart⟩ := walk.exhausted join member
    have fresh := none join (walk.left_subset member)
    exact ⟨List.not_mem_cons_of_ne_of_not_mem fresh outside, apart⟩

/-- A walk begins with a join and goes on with its label on the stack. -/
theorem take (member : join ∈ pending) (starts : join.origin ∈ labels)
    (walk : Walk (join.label :: labels) (pending.erase join) placed left) :
    Walk labels pending (join :: placed) left where
  complete := (walk.complete.cons join).trans (List.perm_cons_erase member).symm
  left_eq := by rw [List.diff_cons, walk.left_eq]
  supplied := .cons starts walk.supplied
  exhausted := by
    intro other remains
    obtain ⟨outside, apart⟩ := walk.exhausted other remains
    have fresh := List.ne_of_not_mem_cons outside
    exact ⟨List.not_mem_of_not_mem_cons outside, List.forall_mem_cons.mpr ⟨fresh, apart⟩⟩

end Walk

/-- **What is taken off the pending joins is a walk.** -/
theorem follow_walk (stack : List String) (pending : List Join) :
    Walk stack pending (follow stack pending).1 (follow stack pending).2 := by
  fun_induction follow stack pending with
  | case1 pending => exact ⟨.refl _, rfl, .nil, by simp⟩
  | case2 pending label below none ih =>
    exact ih.skip ((takeFrom?_eq_none_iff label pending).mp none)
  | case3 pending label below join rest taken _ placed left walk ih =>
    obtain ⟨member, starts, rfl⟩ := takeFrom?_eq_some taken
    rw [walk] at ih
    exact ih.take member (starts ▸ List.mem_cons_self)

/-! ### No joins -/

theorem attach_nil (sources : List Source) :
    attach sources [] = (sources.map fun source => (source, []), []) := by
  induction sources with
  | nil => rfl
  | cons source others ih => simp [attach, follow, takeFrom?, ih]

/-- Without joins the text is that of the sources. -/
theorem sql_of_no_joins (sources : List Source) :
    sql sources [] = ", ".intercalate (sources.map Source.sql) := by
  simp [sql, attach_nil, arrangeRest, joinsSql, Function.comp_def]

end WithClause.FromClause
