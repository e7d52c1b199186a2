/-
**Runs of rounds.**

Between two rounds stands a stage: what is placed and what waits. The rounds are a run of steps
between stages (`rounds_run`), which ends where nothing waits or at a stage that `Fails`.

`Sound` is the invariant of a run: what waits are the entries that are not placed, in the order of
registration, and each placed entry stands after its dependencies. It holds of the first stage and
one round keeps it (`Sound.advance`), so it holds of every stage of a run (`Sound.run`).

* `Sound.isOrder`: a sound stage where nothing waits is an order of all items;
* `Sound.mem_placed_iff_of_stall`: where a round places nothing, the placed keys are the placeable
  ones.
-/

import WithClause.Proofs.DependencyOrder.Rounds

namespace WithClause.DependencyOrder

variable {α : Type}

/-- What is placed and what waits, between two rounds. -/
structure Stage (α : Type) where
  /-- The placed entries, in the order in which they were placed. -/
  placed : List (String × α)
  /-- The entries that wait, in the order of registration. -/
  waiting : List (String × α)

def Stage.start (items : OrderedMap String α) : Stage α := ⟨[], items.entries⟩

variable (needs : α → List String) (items : OrderedMap String α)

/-- A round that places something leads from one stage to the next. -/
def Advance (stage next : Stage α) : Prop :=
  ∃ blocked, Round needs items stage.placed stage.waiting next.placed blocked ∧
    next.waiting = blocked.map Prod.fst ∧ blocked.length < stage.waiting.length

/-- A stage whose round ends the run with an obstacle. -/
inductive Fails (stage : Stage α) : Obstacle → Prop
  /-- The round comes to an entry with a dependency that depends back on it. -/
  | reciprocal {before after placed : List (String × α)} {entry : String × α}
      {blocked : List ((String × α) × String)} {dependency : String}
      (split : stage.waiting = before ++ entry :: after)
      (part : Round needs items stage.placed before placed blocked)
      (reached : Reached needs items (placed.map Prod.fst) entry.1 (needs entry.2) dependency)
      (back : Needs needs items dependency entry.1) :
      Fails stage (.reciprocal entry.1 dependency)
  /-- The round places nothing. -/
  | stall {after : List (String × α)} {blocked : List ((String × α) × String)}
      (some : stage.waiting ≠ [])
      (whole : Round needs items stage.placed stage.waiting after blocked)
      (nothing : stage.waiting.length ≤ blocked.length) :
      Fails stage (stalled blocked)

/-- A list of entries is an order of the items: it has every entry once and nothing else, and each
stands after the entries of all its dependencies. -/
structure IsOrder (placed : List (String × α)) : Prop where
  complete : placed.Perm items.entries
  follows : Follows needs placed

/-- The invariant of a run. -/
structure Sound (stage : Stage α) : Prop where
  waiting_eq : stage.waiting =
    items.entries.filter fun entry => entry.1 ∉ stage.placed.map Prod.fst
  inside : ∀ entry ∈ stage.placed, entry ∈ items.entries
  distinct : (stage.placed.map Prod.fst).Nodup
  follows : Follows needs stage.placed

variable {needs items}

variable (needs items) in
/-- **The rounds are a run of steps that place something, to its end or to an obstacle.** -/
theorem rounds_run (placed waiting : List (String × α)) :
    match rounds needs items placed waiting with
    | .ok after => Relation.ReflTransGen (Advance needs items) ⟨placed, waiting⟩ ⟨after, []⟩
    | .error cause => ∃ stage, Relation.ReflTransGen (Advance needs items) ⟨placed, waiting⟩ stage ∧
        Fails needs items stage cause := by
  fun_induction rounds needs items placed waiting with
  | case1 placed waiting none =>
    rw [List.isEmpty_iff.mp none]
  | case2 placed waiting some cause ended =>
    obtain ⟨before, entry, after, reachedPlaced, blocked, dependency, split, part, reached, back,
      rfl⟩ := round_error ended
    exact ⟨⟨placed, waiting⟩, .refl, .reciprocal split part reached back⟩
  | case3 placed waiting some after blocked ended fewer ih =>
    have step : Advance needs items ⟨placed, waiting⟩ ⟨after, blocked.map Prod.fst⟩ :=
      ⟨blocked, round_ok ended, rfl, fewer⟩
    cases rest : rounds needs items after (blocked.map Prod.fst) with
    | ok last =>
      rw [rest] at ih
      exact ih.head step
    | error cause =>
      rw [rest] at ih
      obtain ⟨stage, more, fails⟩ := ih
      exact ⟨stage, more.head step, fails⟩
  | case4 placed waiting some after blocked ended nothing =>
    have waits : waiting ≠ [] := fun none => some (List.isEmpty_iff.mpr none)
    exact ⟨⟨placed, waiting⟩, .refl, .stall waits (round_ok ended) (Nat.le_of_not_lt nothing)⟩

/-! ### The invariant -/

namespace Sound

variable {stage next : Stage α}

theorem start : Sound needs items (Stage.start items) where
  waiting_eq := (List.filter_eq_self.mpr (by simp [Stage.start])).symm
  inside := fun _ member => by cases member
  distinct := List.nodup_nil
  follows := follows_nil

theorem mem_waiting_iff (sound : Sound needs items stage) (entry : String × α) :
    entry ∈ stage.waiting ↔ entry ∈ items.entries ∧ entry.1 ∉ stage.placed.map Prod.fst := by
  rw [sound.waiting_eq, List.mem_filter, decide_eq_true_iff]

theorem waiting_sublist (sound : Sound needs items stage) : stage.waiting.Sublist items.entries := by
  rw [sound.waiting_eq]
  exact List.filter_sublist

theorem waiting_distinct (sound : Sound needs items stage) :
    (stage.waiting.map Prod.fst).Nodup :=
  items.distinct.sublist (sound.waiting_sublist.map Prod.fst)

theorem waiting_apart (sound : Sound needs items stage) :
    ∀ entry ∈ stage.waiting, entry.1 ∉ stage.placed.map Prod.fst :=
  fun entry member => ((sound.mem_waiting_iff entry).mp member).2

/-- A round, or its beginning, places registered entries. -/
theorem round_inside (sound : Sound needs items stage) {before placed : List (String × α)}
    {blocked : List ((String × α) × String)}
    (one : Round needs items stage.placed before placed blocked)
    (part : before.Sublist stage.waiting) : ∀ entry ∈ placed, entry ∈ items.entries := by
  obtain ⟨added, rfl, few⟩ := one.grows
  intro entry member
  rcases List.mem_append.mp member with member | member
  · exact sound.inside entry member
  · exact (few.trans (part.trans sound.waiting_sublist)).subset member

theorem round_blocked_eq (sound : Sound needs items stage) {after : List (String × α)}
    {blocked : List ((String × α) × String)}
    (one : Round needs items stage.placed stage.waiting after blocked) :
    blocked.map Prod.fst = stage.waiting.filter fun entry => entry.1 ∉ after.map Prod.fst :=
  one.blocked_eq sound.waiting_distinct sound.waiting_apart

/-- **One round keeps the invariant.** -/
theorem advance (sound : Sound needs items stage) (step : Advance needs items stage next) :
    Sound needs items next := by
  obtain ⟨blocked, one, left, _⟩ := step
  obtain ⟨added, grown, few⟩ := one.grows
  refine ⟨?_, sound.round_inside one (List.Sublist.refl _), ?_, one.follows sound.follows⟩
  · rw [left, sound.round_blocked_eq one, sound.waiting_eq, List.filter_filter]
    refine List.filter_congr fun entry _ => ?_
    -- Entries that were placed before the round are among those placed after it.
    simp only [grown, List.map_append, List.mem_append]
    by_cases there : entry.1 ∈ stage.placed.map Prod.fst <;> simp [there]
  · rw [grown, List.map_append, List.nodup_append]
    refine ⟨sound.distinct, sound.waiting_distinct.sublist (few.map Prod.fst), ?_⟩
    rintro key old other fresh rfl
    obtain ⟨entry, member, rfl⟩ := List.mem_map.mp fresh
    exact sound.waiting_apart entry (few.subset member) old

/-- **Every stage of a run is sound.** -/
theorem run (sound : Sound needs items stage)
    (steps : Relation.ReflTransGen (Advance needs items) stage next) : Sound needs items next := by
  induction steps with
  | refl => exact sound
  | tail _ step ih => exact ih.advance step

theorem placeable (sound : Sound needs items stage) :
    ∀ key ∈ stage.placed.map Prod.fst, Placeable needs items key :=
  placeable_of_follows sound.inside sound.follows

/-- **A sound stage where nothing waits is an order of the items.** -/
theorem isOrder (sound : Sound needs items stage) (done : stage.waiting = []) :
    IsOrder needs items stage.placed where
  follows := sound.follows
  complete := by
    refine (List.perm_ext_iff_of_nodup sound.distinct.of_map items.distinct.of_map).mpr
      fun entry => ⟨sound.inside entry, fun member => ?_⟩
    have waits := sound.mem_waiting_iff entry
    rw [done] at waits
    have there : entry.1 ∈ stage.placed.map Prod.fst := by
      by_contra absent
      cases waits.mpr ⟨member, absent⟩
    -- An entry with the same key is placed, and keys are distinct.
    obtain ⟨other, placed, same⟩ := List.mem_map.mp there
    have first := (items.get?_eq_some_iff other.1 other.2).mpr (sound.inside other placed)
    have second := (items.get?_eq_some_iff entry.1 entry.2).mpr member
    rw [same, second] at first
    rwa [show entry = other from Prod.ext same.symm (Option.some.inj first)]

/-! ### Rounds that place nothing -/

variable {after : List (String × α)} {blocked : List ((String × α) × String)}

theorem stall (sound : Sound needs items stage)
    (one : Round needs items stage.placed stage.waiting after blocked)
    (nothing : stage.waiting.length ≤ blocked.length) :
    after = stage.placed ∧ blocked.map Prod.fst = stage.waiting := by
  obtain ⟨added, grown, _⟩ := one.grows
  have total := one.length
  rw [grown, List.length_append] at total
  have none : added = [] := List.length_eq_zero_iff.mp (by omega)
  have same : after = stage.placed := by rw [grown, none, List.append_nil]
  refine ⟨same, ?_⟩
  rw [sound.round_blocked_eq one, same, List.filter_eq_self]
  exact fun entry member => decide_eq_true (sound.waiting_apart entry member)

/-- **Where a round places nothing, exactly the placeable keys are placed.** -/
theorem mem_placed_iff_of_stall (sound : Sound needs items stage)
    (one : Round needs items stage.placed stage.waiting after blocked)
    (nothing : stage.waiting.length ≤ blocked.length) (key : String) :
    key ∈ stage.placed.map Prod.fst ↔ Placeable needs items key := by
  refine ⟨sound.placeable key, fun placeable => ?_⟩
  obtain ⟨same, left⟩ := sound.stall one nothing
  induction placeable with
  | @intro key item found _ ih =>
    by_contra absent
    have registered := (items.get?_eq_some_iff key item).mp found
    have waits : (key, item) ∈ stage.waiting :=
      (sound.mem_waiting_iff (key, item)).mpr ⟨registered, absent⟩
    obtain ⟨⟨entry, dependency⟩, member, rfl⟩ := List.mem_map.mp (left ▸ waits)
    obtain ⟨reached, missing, _⟩ := one.waits same _ member
    exact missing (ih dependency reached.mem)

end Sound

/-- **A run fails only over a key that is not placeable.** -/
theorem Fails.exists_not_placeable {stage : Stage α} {cause : Obstacle}
    (fails : Fails needs items stage cause) (sound : Sound needs items stage) :
    ∃ key ∈ items.keys, ¬ Placeable needs items key := by
  cases fails with
  | @reciprocal before after _ entry _ dependency split _ reached back =>
    have member : entry ∈ stage.waiting := by rw [split]; simp
    have registered := sound.waiting_sublist.subset member
    have edge : Needs needs items entry.1 dependency :=
      ⟨entry.2, (items.get?_eq_some_iff entry.1 entry.2).mpr registered, reached.mem⟩
    exact ⟨entry.1, edge.registered, fun placeable => placeable.not_reciprocal edge back⟩
  | stall some whole nothing =>
    obtain ⟨entry, rest, first⟩ := List.exists_cons_of_ne_nil some
    obtain ⟨registered, absent⟩ := (sound.mem_waiting_iff entry).mp (by rw [first]; simp)
    refine ⟨entry.1, List.mem_map_of_mem registered, fun placeable => absent ?_⟩
    exact (sound.mem_placed_iff_of_stall whole nothing entry.1).mpr placeable

/-! ### The whole run -/

theorem run_of_order_ok {placed : List (String × α)}
    (accepted : order needs items = .ok placed) :
    Relation.ReflTransGen (Advance needs items) (Stage.start items) ⟨placed, []⟩ := by
  have steps := rounds_run needs items [] items.entries
  rw [← order, accepted] at steps
  exact steps

theorem isOrder_of_order_ok {placed : List (String × α)}
    (accepted : order needs items = .ok placed) : IsOrder needs items placed :=
  (Sound.start.run (run_of_order_ok accepted)).isOrder rfl

theorem fails_of_order_error {cause : Obstacle} (refused : order needs items = .error cause) :
    ∃ stage, Sound needs items stage ∧ Fails needs items stage cause := by
  have steps := rounds_run needs items [] items.entries
  rw [← order, refused] at steps
  obtain ⟨stage, run, fails⟩ := steps
  exact ⟨stage, Sound.start.run run, fails⟩

theorem IsOrder.placeable {placed : List (String × α)} (isOrder : IsOrder needs items placed) :
    ∀ key ∈ items.keys, Placeable needs items key := by
  intro key registered
  refine placeable_of_follows (fun _ => isOrder.complete.mem_iff.mp) isOrder.follows key ?_
  exact (isOrder.complete.map Prod.fst).mem_iff.mpr registered

/-- **An order is found exactly when every registered key is placeable.** -/
theorem order_ok_iff_placeable :
    (∃ placed, order needs items = .ok placed) ↔
      ∀ key ∈ items.keys, Placeable needs items key := by
  constructor
  · rintro ⟨placed, accepted⟩
    exact (isOrder_of_order_ok accepted).placeable
  · intro each
    cases result : order needs items with
    | ok placed => exact ⟨placed, rfl⟩
    | error cause =>
      obtain ⟨stage, sound, fails⟩ := fails_of_order_error result
      obtain ⟨key, registered, never⟩ := fails.exists_not_placeable sound
      exact absurd (each key registered) never

end WithClause.DependencyOrder
