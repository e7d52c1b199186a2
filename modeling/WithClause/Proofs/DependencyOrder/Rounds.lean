/-
**What one round does.**

A round is described entry by entry: each entry that waits is placed or goes on waiting for one of
its dependencies (`Round`). Everything known about a round follows from that description.

* `readiness_spec`: what a scan of the dependencies of an item finds;
* `round_ok`, `round_error`: what a round has done that ended, and what it has done before it met
  two items that depend on each other;
* `Round.grows`, `Round.follows`, `Round.blocked_eq`: entries are placed at the end, each after its
  dependencies, and what waits after the round is what waited and was not placed;
* `Round.waits`: the dependencies that block a round that placed nothing.

A list of entries that stand after their dependencies has placeable keys only
(`placeable_of_follows`).
-/

import WithClause.Proofs.DependencyOrder.Graph

namespace WithClause.DependencyOrder

variable {α : Type} (needs : α → List String) (items : OrderedMap String α)

/-! ### Lists in which entries follow their dependencies -/

/-- Each entry of a list stands after entries for all its dependencies. -/
def Follows (placed : List (String × α)) : Prop :=
  ∀ before entry after, placed = before ++ entry :: after →
    ∀ dependency ∈ needs entry.2, dependency ∈ before.map Prod.fst

variable {needs items}

theorem follows_nil : Follows needs [] := by
  intro before entry after split
  simp at split

theorem follows_concat_iff (placed : List (String × α)) (entry : String × α) :
    Follows needs (placed ++ [entry]) ↔
      Follows needs placed ∧ ∀ dependency ∈ needs entry.2, dependency ∈ placed.map Prod.fst := by
  constructor
  · intro follows
    refine ⟨fun before other after split => ?_, follows placed entry [] rfl⟩
    exact follows before other (after ++ [entry]) (by rw [split, List.append_assoc, List.cons_append])
  · rintro ⟨follows, last⟩ before other after split
    rcases List.eq_nil_or_concat after with rfl | ⟨after, final, rfl⟩
    · obtain ⟨rfl, same⟩ := List.append_inj' split rfl
      cases same
      exact last
    · rw [List.concat_eq_append, ← List.cons_append, ← List.append_assoc] at split
      exact follows before other after (List.append_inj' split rfl).1

theorem placeable_of_follows {placed : List (String × α)}
    (inside : ∀ entry ∈ placed, entry ∈ items.entries) (follows : Follows needs placed) :
    ∀ key ∈ placed.map Prod.fst, Placeable needs items key := by
  -- From the front to the back, as the entries were placed.
  induction placed using List.reverseRecOn with
  | nil => exact fun _ member => by cases member
  | append_singleton placed entry ih =>
    rw [follows_concat_iff] at follows
    have earlier := ih (fun other member => inside other (List.mem_append_left _ member)) follows.1
    intro key member
    rw [List.map_append, List.mem_append] at member
    rcases member with member | member
    · exact earlier key member
    · obtain rfl : key = entry.1 := List.mem_singleton.mp member
      have here : entry ∈ items.entries := inside entry (by simp)
      exact .intro ((items.get?_eq_some_iff entry.1 entry.2).mpr here) fun dependency needed =>
        earlier dependency (follows.2 dependency needed)

/-! ### The dependencies of one item -/

variable (needs items)

/-- The dependency that a scan of an item's dependencies comes to: those before it are placed, and
none of them depends on the item. -/
def Reached (placed : List String) (key : String) (dependencies : List String)
    (dependency : String) : Prop :=
  ∃ earlier later, dependencies = earlier ++ dependency :: later ∧
    ∀ other ∈ earlier, other ∈ placed ∧ ¬ Needs needs items other key

variable {needs items}

theorem Reached.cons {placed : List String} {key head dependency : String}
    {dependencies : List String} (there : head ∈ placed) (apart : ¬ Needs needs items head key)
    (reached : Reached needs items placed key dependencies dependency) :
    Reached needs items placed key (head :: dependencies) dependency := by
  obtain ⟨earlier, later, rfl, passed⟩ := reached
  refine ⟨head :: earlier, later, rfl, fun other member => ?_⟩
  rcases List.mem_cons.mp member with rfl | member
  · exact ⟨there, apart⟩
  · exact passed other member

theorem Reached.mem {placed : List String} {key dependency : String} {dependencies : List String}
    (reached : Reached needs items placed key dependencies dependency) :
    dependency ∈ dependencies := by
  obtain ⟨earlier, later, rfl, _⟩ := reached
  simp

variable (needs items) in
/-- **What the dependencies of an item say about it.** -/
theorem readiness_spec (placed : List String) (key : String) (dependencies : List String) :
    match readiness needs items placed key dependencies with
    | .ready => ∀ dependency ∈ dependencies, dependency ∈ placed
    | .waitsFor dependency =>
      Reached needs items placed key dependencies dependency ∧ dependency ∉ placed ∧
        ¬ Needs needs items dependency key
    | .reciprocalWith dependency =>
      Reached needs items placed key dependencies dependency ∧
        Needs needs items dependency key := by
  induction dependencies with
  | nil => exact fun _ member => by cases member
  | cons head others ih =>
    have first : Reached needs items placed key (head :: others) head :=
      ⟨[], others, rfl, fun _ member => by cases member⟩
    unfold readiness
    by_cases back : dependsBack needs items key head = true
    · rw [if_pos back]
      exact ⟨first, dependsBack_iff.mp back⟩
    · have apart : ¬ Needs needs items head key := fun edge => back (dependsBack_iff.mpr edge)
      rw [if_neg back]
      by_cases there : head ∈ placed
      · rw [if_pos there]
        cases scanned : readiness needs items placed key others with
        | ready =>
          rw [scanned] at ih
          exact fun dependency member => (List.mem_cons.mp member).elim (· ▸ there) (ih dependency)
        | waitsFor dependency =>
          rw [scanned] at ih
          exact ⟨ih.1.cons there apart, ih.2⟩
        | reciprocalWith dependency =>
          rw [scanned] at ih
          exact ⟨ih.1.cons there apart, ih.2⟩
      · rw [if_neg there]
        exact ⟨first, there, apart⟩

/-! ### One round, entry by entry -/

variable (needs items)

/-- How a round over waiting entries turns what was placed into what is placed after it, and which
entries still wait for which dependency. -/
inductive Round : List (String × α) → List (String × α) → List (String × α) →
    List ((String × α) × String) → Prop
  | done (placed : List (String × α)) : Round placed [] placed []
  /-- The first entry has all its dependencies and is placed. -/
  | place {placed waiting after : List (String × α)} {entry : String × α}
      {blocked : List ((String × α) × String)}
      (ready : ∀ dependency ∈ needs entry.2, dependency ∈ placed.map Prod.fst)
      (others : Round (placed ++ [entry]) waiting after blocked) :
      Round placed (entry :: waiting) after blocked
  /-- The first entry still waits for a dependency. -/
  | wait {placed waiting after : List (String × α)} {entry : String × α} {dependency : String}
      {blocked : List ((String × α) × String)}
      (reached : Reached needs items (placed.map Prod.fst) entry.1 (needs entry.2) dependency)
      (absent : dependency ∉ placed.map Prod.fst)
      (apart : ¬ Needs needs items dependency entry.1)
      (others : Round placed waiting after blocked) :
      Round placed (entry :: waiting) after ((entry, dependency) :: blocked)

variable {needs items}

/-- **What a round that ends has done.** -/
theorem round_ok {placed waiting after : List (String × α)}
    {blocked : List ((String × α) × String)}
    (ended : round needs items placed waiting = .ok (after, blocked)) :
    Round needs items placed waiting after blocked := by
  induction waiting generalizing placed after blocked with
  | nil =>
    cases ended
    exact .done placed
  | cons entry rest ih =>
    have spec := readiness_spec needs items (placed.map Prod.fst) entry.1 (needs entry.2)
    rw [round] at ended
    split at ended
    · cases ended
    · next scanned =>
      rw [scanned] at spec
      exact .place spec (ih ended)
    · next scanned =>
      rw [scanned] at spec
      split at ended
      · next inner =>
        cases ended
        exact .wait spec.1 spec.2.1 spec.2.2 (ih inner)
      · cases ended

/-- **What a round has done before it meets an item whose dependency depends back on it.** -/
theorem round_error {placed waiting : List (String × α)} {cause : Obstacle}
    (ended : round needs items placed waiting = .error cause) :
    ∃ before entry after reachedPlaced blocked dependency,
      waiting = before ++ entry :: after ∧
      Round needs items placed before reachedPlaced blocked ∧
      Reached needs items (reachedPlaced.map Prod.fst) entry.1 (needs entry.2) dependency ∧
      Needs needs items dependency entry.1 ∧ cause = .reciprocal entry.1 dependency := by
  induction waiting generalizing placed with
  | nil => cases ended
  | cons entry rest ih =>
    have spec := readiness_spec needs items (placed.map Prod.fst) entry.1 (needs entry.2)
    rw [round] at ended
    split at ended
    · next dependency scanned =>
      rw [scanned] at spec
      cases ended
      exact ⟨[], entry, rest, placed, [], dependency, rfl, .done placed, spec.1, spec.2, rfl⟩
    · next scanned =>
      rw [scanned] at spec
      obtain ⟨before, other, after, reachedPlaced, blocked, dependency, rfl, part, found⟩ :=
        ih ended
      exact ⟨entry :: before, other, after, reachedPlaced, blocked, dependency, rfl,
        .place spec part, found⟩
    · next waited scanned =>
      rw [scanned] at spec
      split at ended
      · cases ended
      · next inner =>
        cases ended
        obtain ⟨before, other, after, reachedPlaced, blocked, dependency, rfl, part, found⟩ :=
          ih inner
        exact ⟨entry :: before, other, after, reachedPlaced, (entry, waited) :: blocked,
          dependency, rfl, .wait spec.1 spec.2.1 spec.2.2 part, found⟩

namespace Round

variable {placed waiting after : List (String × α)} {blocked : List ((String × α) × String)}

theorem grows (one : Round needs items placed waiting after blocked) :
    ∃ added, after = placed ++ added ∧ added.Sublist waiting := by
  induction one with
  | done placed => exact ⟨[], (List.append_nil placed).symm, .slnil⟩
  | @place placed _ _ entry _ _ _ ih =>
    obtain ⟨added, rfl, part⟩ := ih
    exact ⟨entry :: added, by simp, part.cons_cons entry⟩
  | @wait _ _ _ entry _ _ _ _ _ _ ih =>
    obtain ⟨added, same, part⟩ := ih
    exact ⟨added, same, part.cons entry⟩

theorem follows (one : Round needs items placed waiting after blocked)
    (sofar : Follows needs placed) : Follows needs after := by
  induction one with
  | done => exact sofar
  | place ready _ ih => exact ih ((follows_concat_iff _ _).mpr ⟨sofar, ready⟩)
  | wait _ _ _ _ ih => exact ih sofar

theorem blocked_eq (one : Round needs items placed waiting after blocked)
    (distinct : (waiting.map Prod.fst).Nodup)
    (apart : ∀ entry ∈ waiting, entry.1 ∉ placed.map Prod.fst) :
    blocked.map Prod.fst = waiting.filter fun entry => entry.1 ∉ after.map Prod.fst := by
  induction one with
  | done => rfl
  | @place placed waiting after entry blocked _ others ih =>
    rw [List.map_cons, List.nodup_cons] at distinct
    have inside : entry.1 ∈ after.map Prod.fst := by
      obtain ⟨added, rfl, _⟩ := others.grows
      simp
    have still : ∀ other ∈ waiting, other.1 ∉ (placed ++ [entry]).map Prod.fst := by
      intro other member found
      rw [List.map_append, List.mem_append] at found
      rcases found with found | found
      · exact apart other (List.mem_cons_of_mem _ member) found
      · have same : other.1 = entry.1 := List.mem_singleton.mp found
        exact distinct.1 (same ▸ List.mem_map_of_mem member)
    rw [ih distinct.2 still, List.filter_cons_of_neg (by simpa using inside)]
  | @wait placed waiting after entry dependency blocked _ _ _ others ih =>
    rw [List.map_cons, List.nodup_cons] at distinct
    have outside : entry.1 ∉ after.map Prod.fst := by
      obtain ⟨added, rfl, part⟩ := others.grows
      rw [List.map_append, List.mem_append]
      rintro (found | found)
      · exact apart entry List.mem_cons_self found
      · exact distinct.1 ((part.map Prod.fst).subset found)
    have still := ih distinct.2 fun other member => apart other (List.mem_cons_of_mem _ member)
    rw [List.map_cons, still, List.filter_cons_of_pos (by simpa using outside)]

theorem length (one : Round needs items placed waiting after blocked) :
    after.length + blocked.length = placed.length + waiting.length := by
  induction one with
  | done => rfl
  | place _ _ ih =>
    rw [List.length_append, List.length_singleton] at ih
    rw [List.length_cons]
    omega
  | wait _ _ _ _ ih =>
    rw [List.length_cons, List.length_cons]
    omega

/-- Each entry that waits in a round that placed nothing waits for a dependency that is not
placed. -/
theorem waits (one : Round needs items placed waiting after blocked) (nothing : after = placed) :
    ∀ pair ∈ blocked,
      Reached needs items (placed.map Prod.fst) pair.1.1 (needs pair.1.2) pair.2 ∧
        pair.2 ∉ placed.map Prod.fst ∧ ¬ Needs needs items pair.2 pair.1.1 := by
  induction one with
  | done => exact fun _ member => by cases member
  | place _ others =>
    obtain ⟨added, grown, _⟩ := others.grows
    have lengths := congrArg List.length (nothing.symm.trans grown)
    simp at lengths
  | wait reached absent apart _ ih =>
    intro pair member
    rcases List.mem_cons.mp member with rfl | member
    · exact ⟨reached, absent, apart⟩
    · exact ih nothing pair member

end Round

end WithClause.DependencyOrder
