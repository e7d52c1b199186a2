/-
**The loop of rounds, one entry at a time.**

A round goes through all entries and passes over those that are placed. Between two entries the
loop holds a `Snapshot`: the placed entries, the set of their keys, whether the round has placed
anything, and the last entry that it found to wait. `Snapshot.step` goes on by one entry, begins a
round or ends one, or answers; `Step` is what a step can do.

* `answers_rounds`: the loop answers, and its answer is that of the rounds over waiting entries,
  which is the order of the items or the obstacle to one;
* `Kept`: what every snapshot keeps. Placed entries and known keys are the same without repetition,
  and each round but the present one has placed something, so that there are no more rounds than
  items (`Kept.begun_le_size`). A round that has placed nothing so far has recorded an entry that
  waits, if it came to one that is not placed, so that it never ends without (`Kept.blocked`);
* `Grown`: what a later snapshot has of an earlier one.
-/

import Mathlib.Data.List.Perm.Subperm
import WithClause.Proofs.DependencyOrder.Run

namespace WithClause.DependencyOrder

variable {α : Type}

/-- What the loop holds at one time. -/
structure Snapshot (α : Type) where
  /-- The number of rounds that have begun. -/
  begun : Nat
  /-- The entries that the round has still to go through; none between two rounds. -/
  ahead : Option (List (String × α))
  /-- The placed entries, in the order in which they were placed. -/
  placed : List (String × α)
  /-- The set of the keys of placed entries. -/
  known : List String
  /-- Whether the round has placed an entry. -/
  moved : Bool
  /-- The key of the last entry that the round found to wait, and the key that it waits for. -/
  blocked : Option (String × String)

def Snapshot.start : Snapshot α := ⟨0, none, [], [], false, none⟩

/-- What comes of a step of the loop. -/
inductive Outcome (α : Type) where
  | goesOn (next : Snapshot α)
  | answers (answer : Except Obstacle (List (String × α)))

variable (needs : α → List String) (items : OrderedMap String α)

/-- One step of the loop. -/
def Snapshot.step (now : Snapshot α) : Outcome α :=
  match now.ahead with
  | none =>
    if now.placed.length < items.size then
      .goesOn { now with
        begun := now.begun + 1, ahead := some items.entries, moved := false, blocked := none }
    else .answers (.ok now.placed)
  | some [] =>
    if now.moved then .goesOn { now with ahead := none }
    else
      let (key, dependency) := now.blocked.getD ("undefined", "undefined")
      .answers (.error (.unmet key dependency))
  | some (entry :: rest) =>
    if entry.1 ∈ now.known then .goesOn { now with ahead := some rest }
    else
      match readiness needs items now.known entry.1 (needs entry.2) with
      | .reciprocalWith dependency => .answers (.error (.reciprocal entry.1 dependency))
      | .waitsFor dependency =>
        .goesOn { now with ahead := some rest, blocked := some (entry.1, dependency) }
      | .ready =>
        .goesOn { now with
          ahead := some rest, placed := now.placed ++ [entry],
          known := now.known.insert entry.1, moved := true }

/-- A step leads from one snapshot to the next. -/
def Leads (now next : Snapshot α) : Prop := now.step needs items = .goesOn next

/-- Some steps lead from one snapshot to another. -/
def LeadsTo (now later : Snapshot α) : Prop := Relation.ReflTransGen (Leads needs items) now later

/-- What a step can do. -/
inductive Step (now : Snapshot α) : Snapshot α → Prop
  | begins (between : now.ahead = none) (unfinished : now.placed.length < items.size) :
      Step now { now with
        begun := now.begun + 1, ahead := some items.entries, moved := false, blocked := none }
  | ends (through : now.ahead = some []) (some : now.moved = true) :
      Step now { now with ahead := none }
  | passes {entry : String × α} {rest : List (String × α)}
      (here : now.ahead = some (entry :: rest)) (old : entry.1 ∈ now.known) :
      Step now { now with ahead := some rest }
  | waits {entry : String × α} {rest : List (String × α)} {dependency : String}
      (here : now.ahead = some (entry :: rest)) (new : entry.1 ∉ now.known)
      (listed : dependency ∈ needs entry.2) (absent : dependency ∉ now.known) :
      Step now { now with ahead := some rest, blocked := some (entry.1, dependency) }
  | places {entry : String × α} {rest : List (String × α)}
      (here : now.ahead = some (entry :: rest)) (new : entry.1 ∉ now.known) :
      Step now { now with
        ahead := some rest, placed := now.placed ++ [entry],
        known := now.known.insert entry.1, moved := true }

variable {needs items} {now next later : Snapshot α}

theorem Leads.step (leads : Leads needs items now next) : Step needs items now next := by
  unfold Leads Snapshot.step at leads
  split at leads
  · next between =>
    split at leads
    · next unfinished =>
      cases leads
      exact .begins between unfinished
    · cases leads
  · next through =>
    split at leads
    · next some =>
      cases leads
      exact .ends through some
    · cases leads
  · next entry rest here =>
    split at leads
    · next old =>
      cases leads
      exact .passes here old
    · next new =>
      have spec := readiness_spec needs items now.known entry.1 (needs entry.2)
      split at leads
      · cases leads
      · next dependency scanned =>
        rw [scanned] at spec
        cases leads
        exact .waits here new spec.1.mem spec.2.1
      · cases leads
        exact .places here new

/-! ### What every snapshot keeps -/

variable (needs items) in
/-- A registered key that is not known to be placed, and a dependency of it that is not either. -/
def Blocking (known : List String) (pair : String × String) : Prop :=
  pair.1 ∈ items.keys ∧ pair.1 ∉ known ∧ Needs needs items pair.1 pair.2 ∧ pair.2 ∉ known

variable (needs items) in
/-- The invariant of the loop. -/
structure Kept (now : Snapshot α) : Prop where
  /-- The known keys are those of the placed entries. -/
  same : ∀ key, key ∈ now.known ↔ key ∈ now.placed.map Prod.fst
  once : now.known.Nodup
  distinct : (now.placed.map Prod.fst).Nodup
  inside : ∀ entry ∈ now.placed, entry ∈ items.entries
  /-- A round has still to go through the last entries. -/
  suffix : ∀ rest, now.ahead = some rest → rest <:+ items.entries
  /-- A round begins where something waits. -/
  unfinished : now.ahead.isSome = true → now.moved = false → now.placed.length < items.size
  /-- Each round has placed an entry, but for one that goes on and has not yet. -/
  begun_le : now.begun ≤ now.placed.length + if now.ahead.isSome && !now.moved then 1 else 0
  /-- What a round has gone through without placing anything was placed before, or it has recorded
  an entry that waits. -/
  blocked : ∀ rest, now.ahead = some rest → now.moved = false →
    (∀ entry ∈ items.entries, entry ∉ rest → entry.1 ∈ now.known) ∨
      ∃ pair, now.blocked = some pair ∧ Blocking needs items now.known pair

theorem same_placed (same : ∀ key, key ∈ now.known ↔ key ∈ now.placed.map Prod.fst)
    (entry : String × α) (key : String) :
    key ∈ now.known.insert entry.1 ↔ key ∈ (now.placed ++ [entry]).map Prod.fst := by
  rw [List.mem_insert_iff, List.map_append, List.mem_append, same key, or_comm]
  exact or_congr_right List.mem_singleton.symm

namespace Kept

theorem start : Kept needs items .start where
  same := fun key => by simp [Snapshot.start]
  once := List.nodup_nil
  distinct := List.nodup_nil
  inside := fun entry member => by cases member
  suffix := fun rest none => by cases none
  unfinished := fun within => by cases within
  begun_le := Nat.le_refl 0
  blocked := fun rest none => by cases none

variable (kept : Kept needs items now)
include kept

/-- Entries ahead are registered. -/
theorem registered {entry : String × α} {rest : List (String × α)}
    (here : now.ahead = some (entry :: rest)) : entry ∈ items.entries :=
  (kept.suffix _ here).subset List.mem_cons_self

theorem length_placed_le_size : now.placed.length ≤ items.size := by
  have few := (List.subperm_of_subset kept.distinct.of_map kept.inside).length_le
  exact few

/-- **One step keeps the invariant.** -/
theorem step (step : Step needs items now next) : Kept needs items next := by
  have count := kept.begun_le
  cases step with
  | begins between unfinished =>
    refine { kept with
      suffix := ?_, unfinished := fun _ _ => unfinished, begun_le := ?_, blocked := ?_ }
    · rintro rest ⟨⟩
      exact List.suffix_refl _
    · rw [between] at count
      exact Nat.succ_le_succ count
    · rintro rest ⟨⟩ _
      exact .inl fun entry member absent => absurd member absent
  | ends through some =>
    refine { kept with suffix := ?_, unfinished := ?_, begun_le := ?_, blocked := ?_ }
    · rintro rest ⟨⟩
    · rintro ⟨⟩
    · rw [some, Bool.not_true, Bool.and_false] at count
      exact count
    · rintro rest ⟨⟩
  | @passes entry rest here old =>
    refine { kept with suffix := ?_, unfinished := ?_, begun_le := ?_, blocked := ?_ }
    · rintro _ ⟨⟩
      exact (List.suffix_cons _ _).trans (kept.suffix _ here)
    · exact fun _ => kept.unfinished (by rw [here]; rfl)
    · rw [here] at count
      exact count
    · rintro _ ⟨⟩ still
      refine (kept.blocked _ here still).imp_left fun each other member absent => ?_
      by_cases first : other = entry
      · exact first ▸ old
      · exact each other member (mt List.mem_cons.mp (not_or.mpr ⟨first, absent⟩))
  | @waits entry rest dependency here new listed absent =>
    have registered := kept.registered here
    refine { kept with suffix := ?_, unfinished := ?_, begun_le := ?_, blocked := ?_ }
    · rintro _ ⟨⟩
      exact (List.suffix_cons _ _).trans (kept.suffix _ here)
    · exact fun _ => kept.unfinished (by rw [here]; rfl)
    · rw [here] at count
      exact count
    · rintro _ ⟨⟩ _
      refine .inr ⟨(entry.1, dependency), rfl, List.mem_map_of_mem registered, new, ?_, absent⟩
      exact ⟨entry.2, (items.get?_eq_some_iff entry.1 entry.2).mpr registered, listed⟩
  | @places entry rest here new =>
    have fresh : entry.1 ∉ now.placed.map Prod.fst := mt (kept.same entry.1).mpr new
    exact {
      same := same_placed kept.same entry
      once := kept.once.insert
      distinct := by
        rw [List.map_append]
        exact kept.distinct.append (List.nodup_singleton _) (List.disjoint_singleton.mpr fresh)
      inside := fun other member => by
        rcases List.mem_append.mp member with old | last
        · exact kept.inside other old
        · exact List.mem_singleton.mp last ▸ kept.registered here
      suffix := by
        rintro _ ⟨⟩
        exact (List.suffix_cons _ _).trans (kept.suffix _ here)
      unfinished := fun _ still => by cases still
      begun_le := by
        show now.begun ≤ (now.placed ++ [entry]).length + 0
        rw [List.length_append, List.length_singleton]
        split at count <;> omega
      blocked := fun _ _ still => by cases still }

/-- **There are no more rounds than items.** -/
theorem begun_le_size : now.begun ≤ items.size := by
  have count := kept.begun_le
  have placed := kept.length_placed_le_size
  split at count
  · next goesOn =>
    obtain ⟨within, still⟩ := Bool.and_eq_true_iff.mp goesOn
    have unfinished := kept.unfinished within (by simpa using still)
    omega
  · omega

/-- **A round that ends without having placed anything has recorded an entry that waits.** -/
theorem blocked_of_stall (through : now.ahead = some []) (still : now.moved = false) :
    ∃ pair, now.blocked = some pair ∧ Blocking needs items now.known pair := by
  refine (kept.blocked [] through still).resolve_left fun each => ?_
  have all : items.keys ⊆ now.placed.map Prod.fst := by
    intro key member
    obtain ⟨entry, registered, rfl⟩ := List.mem_map.mp member
    exact (kept.same entry.1).mp (each entry registered (by simp))
  have few := (List.subperm_of_subset items.keys_nodup all).length_le
  have unfinished := kept.unfinished (by rw [through]; rfl) still
  rw [OrderedMap.keys, List.length_map, List.length_map] at few
  exact Nat.lt_irrefl _ (Nat.lt_of_lt_of_le unfinished few)

omit kept in
theorem run (kept : Kept needs items now) (leads : LeadsTo needs items now later) :
    Kept needs items later := by
  induction leads with
  | refl => exact kept
  | tail _ leads ih => exact ih.step leads.step

end Kept

/-! ### What a round adds -/

/-- What a later snapshot has of an earlier one: nothing is taken back, and where a round begins
later and has ended or placed something, there is more. -/
structure Grown (first now : Snapshot α) : Prop where
  begins : first.placed <+: now.placed
  later : first.begun ≤ now.begun
  more : first.begun < now.begun → now.ahead = none ∨ now.moved = true →
    first.placed.length < now.placed.length

namespace Grown

variable {first : Snapshot α}

theorem refl (now : Snapshot α) : Grown now now where
  begins := List.prefix_refl _
  later := Nat.le_refl _
  more := fun begun => absurd begun (Nat.lt_irrefl _)

theorem step (grown : Grown first now) (step : Step needs items now next) : Grown first next := by
  cases step with
  | begins between unfinished =>
    exact {
      begins := grown.begins
      later := Nat.le_succ_of_le grown.later
      more := fun _ ended => by simp at ended }
  | ends through some =>
    exact { grown with more := fun begun _ => grown.more begun (.inr some) }
  | passes here old =>
    exact { grown with more := fun begun ended => grown.more begun (.inr (by simpa using ended)) }
  | waits here new listed absent =>
    exact { grown with more := fun begun ended => grown.more begun (.inr (by simpa using ended)) }
  | @places entry rest here new =>
    have longer := grown.begins.length_le
    exact {
      begins := grown.begins.trans (List.prefix_append _ _)
      later := grown.later
      more := fun _ _ => by
        rw [List.length_append, List.length_singleton]
        omega }

theorem run (leads : LeadsTo needs items now later) : Grown now later := by
  induction leads with
  | refl => exact .refl now
  | tail _ leads ih => exact ih.step leads.step

/-- **Between two rounds, each round before has added a key.** -/
theorem exists_new (grown : Grown first now) (kept : Kept needs items first)
    (kept' : Kept needs items now) (between : now.ahead = none) (begun : first.begun < now.begun) :
    (∀ key ∈ first.known, key ∈ now.known) ∧ ∃ key ∈ now.known, key ∉ first.known := by
  obtain ⟨added, same⟩ := grown.begins
  have longer := grown.more begun (.inl between)
  rw [← same, List.length_append] at longer
  obtain ⟨entry, rest, rfl⟩ := List.exists_cons_of_length_pos (l := added) (by omega)
  have distinct := kept'.distinct
  rw [← same, List.map_append, List.nodup_append] at distinct
  have old : ∀ key ∈ first.known, key ∈ now.placed.map Prod.fst := fun key there => by
    rw [← same, List.map_append, List.mem_append]
    exact .inl ((kept.same key).mp there)
  have new : entry.1 ∈ now.placed.map Prod.fst := by
    rw [← same]
    simp
  refine ⟨fun key there => (kept'.same key).mpr (old key there),
    entry.1, (kept'.same entry.1).mpr new, fun there => ?_⟩
  exact distinct.2.2 _ ((kept.same entry.1).mp there) entry.1 (by simp) rfl

end Grown

/-! ### The answer of the loop -/

/-- What is placed matters to the readiness of an item only as a set. -/
theorem readiness_congr {placed known : List String} (same : ∀ key, key ∈ known ↔ key ∈ placed)
    (key : String) (dependencies : List String) :
    readiness needs items known key dependencies =
      readiness needs items placed key dependencies := by
  induction dependencies with
  | nil => rfl
  | cons dependency others ih =>
    unfold readiness
    rw [ih]
    simp only [same]

/-- The entries that a round does not pass over. -/
def left (placed entries : List (String × α)) : List (String × α) :=
  entries.filter fun entry => entry.1 ∉ placed.map Prod.fst

variable (needs items) in
/-- The loop gets through the entries ahead as a round over waiting entries ended. -/
def Completes (now : Snapshot α) (waiting : List (String × α)) :
    Except Obstacle (List (String × α) × List ((String × α) × String)) → Prop
  | .error cause => ∃ last, LeadsTo needs items now last ∧
      last.step needs items = .answers (.error cause)
  | .ok (after, blocked) => ∃ last, LeadsTo needs items now last ∧
      last.ahead = some [] ∧ last.placed = after ∧
      (∀ key, key ∈ last.known ↔ key ∈ after.map Prod.fst) ∧
      last.moved = (now.moved || decide (blocked.length < waiting.length)) ∧
      last.blocked = (blocked.getLast?.map fun pair => (pair.1.1, pair.2)).or now.blocked

namespace Completes

variable {waiting : List (String × α)}
  {ended : Except Obstacle (List (String × α) × List ((String × α) × String))}
  (leads : Leads needs items now next)
include leads

/-- An entry that is passed over does not wait. -/
theorem pass (completes : Completes needs items next waiting ended)
    (moved : next.moved = now.moved) (blocked : next.blocked = now.blocked) :
    Completes needs items now waiting ended := by
  cases ended with
  | error cause =>
    obtain ⟨last, more, answer⟩ := completes
    exact ⟨last, more.head leads, answer⟩
  | ok result =>
    obtain ⟨last, more, found⟩ := completes
    rw [moved, blocked] at found
    exact ⟨last, more.head leads, found⟩

/-- A round that places an entry has moved on, whatever it does with the others. -/
theorem place (completes : Completes needs items next waiting ended)
    (moved : next.moved = true) (blocked : next.blocked = now.blocked)
    (fewer : ∀ after recorded, ended = .ok (after, recorded) → recorded.length ≤ waiting.length)
    (entry : String × α) : Completes needs items now (entry :: waiting) ended := by
  cases ended with
  | error cause =>
    obtain ⟨last, more, answer⟩ := completes
    exact ⟨last, more.head leads, answer⟩
  | ok result =>
    obtain ⟨last, more, through, placed, known, movedOn, found⟩ := completes
    refine ⟨last, more.head leads, through, placed, known, ?_, blocked ▸ found⟩
    have shorter := Nat.lt_succ_of_le (fewer result.1 result.2 rfl)
    rw [movedOn, moved, Bool.true_or, List.length_cons, decide_eq_true shorter, Bool.or_true]

/-- An entry that waits is recorded, unless a later one is. -/
theorem wait {entry : String × α} {dependency : String} (moved : next.moved = now.moved)
    (blocked : next.blocked = some (entry.1, dependency)) :
    Completes needs items next waiting ended →
      Completes needs items now (entry :: waiting)
        (match ended with
          | .ok (after, recorded) => .ok (after, (entry, dependency) :: recorded)
          | .error cause => .error cause) := by
  cases ended with
  | error cause =>
    rintro ⟨last, more, answer⟩
    exact ⟨last, more.head leads, answer⟩
  | ok result =>
    rintro ⟨last, more, through, placed, known, movedOn, found⟩
    refine ⟨last, more.head leads, through, placed, known, ?_, ?_⟩
    · rw [movedOn, moved, List.length_cons, List.length_cons]
      simp only [Nat.add_lt_add_iff_right]
    · rw [found, blocked, List.getLast?_cons]
      cases result.2.getLast? <;> rfl

end Completes

section Entry

variable {entry : String × α} {rest : List (String × α)} (here : now.ahead = some (entry :: rest))
  (same : ∀ key, key ∈ now.known ↔ key ∈ now.placed.map Prod.fst)
include here same

theorem leads_of_old (old : entry.1 ∈ now.placed.map Prod.fst) :
    Leads needs items now { now with ahead := some rest } := by
  unfold Leads Snapshot.step
  rw [here]
  exact if_pos ((same entry.1).mpr old)

theorem step_of_new (new : entry.1 ∉ now.placed.map Prod.fst) :
    now.step needs items =
      match readiness needs items (now.placed.map Prod.fst) entry.1 (needs entry.2) with
      | .reciprocalWith dependency => .answers (.error (.reciprocal entry.1 dependency))
      | .waitsFor dependency =>
        .goesOn { now with ahead := some rest, blocked := some (entry.1, dependency) }
      | .ready =>
        .goesOn { now with
          ahead := some rest, placed := now.placed ++ [entry],
          known := now.known.insert entry.1, moved := true } := by
  unfold Snapshot.step
  rw [here]
  exact (if_neg (mt (same entry.1).mp new)).trans (by rw [readiness_congr same])

end Entry

theorem left_concat {placed entries : List (String × α)} {entry : String × α}
    (apart : entry.1 ∉ entries.map Prod.fst) :
    left (placed ++ [entry]) entries = left placed entries := by
  refine List.filter_congr fun other member => ?_
  have differs : other.1 ≠ entry.1 := fun same => apart (same ▸ List.mem_map_of_mem member)
  simp [differs]

theorem length_blocked_le {placed waiting after : List (String × α)}
    {blocked : List ((String × α) × String)}
    (ended : round needs items placed waiting = .ok (after, blocked)) :
    blocked.length ≤ waiting.length := by
  have lengths := (round_ok ended).length
  obtain ⟨added, grown, _⟩ := (round_ok ended).grows
  rw [grown, List.length_append] at lengths
  omega

/-- **The loop goes through the entries ahead as a round goes through those that wait.** -/
theorem completes_round {entries : List (String × α)} (ahead : now.ahead = some entries)
    (same : ∀ key, key ∈ now.known ↔ key ∈ now.placed.map Prod.fst)
    (distinct : (entries.map Prod.fst).Nodup) :
    Completes needs items now (left now.placed entries)
      (round needs items now.placed (left now.placed entries)) := by
  induction entries generalizing now with
  | nil => exact ⟨now, .refl, ahead, rfl, same, by simp [left], rfl⟩
  | cons entry rest ih =>
    rw [List.map_cons, List.nodup_cons] at distinct
    by_cases old : entry.1 ∈ now.placed.map Prod.fst
    · have skipped : left now.placed (entry :: rest) = left now.placed rest :=
        List.filter_cons_of_neg (by simpa using old)
      rw [skipped]
      have others := @ih { now with ahead := some rest } rfl same distinct.2
      exact others.pass (leads_of_old ahead same old) rfl rfl
    · have kept : left now.placed (entry :: rest) = entry :: left now.placed rest :=
        List.filter_cons_of_pos (by simpa using old)
      have step := @step_of_new α needs items now entry rest ahead same old
      rw [kept, round]
      cases scanned : readiness needs items (now.placed.map Prod.fst) entry.1 (needs entry.2) with
      | reciprocalWith dependency =>
        rw [scanned] at step
        exact ⟨now, .refl, step⟩
      | ready =>
        rw [scanned] at step
        have others := @ih { now with
          ahead := some rest, placed := now.placed ++ [entry],
          known := now.known.insert entry.1, moved := true } rfl (same_placed same entry) distinct.2
        rw [left_concat distinct.1] at others
        exact others.place step rfl rfl (fun _ _ => length_blocked_le) entry
      | waitsFor dependency =>
        rw [scanned] at step
        have others := @ih { now with
          ahead := some rest, blocked := some (entry.1, dependency) } rfl same distinct.2
        exact Completes.wait step rfl rfl others

theorem Sound.length_placed_lt {stage : Stage α} (sound : Sound needs items stage)
    (some : stage.waiting ≠ []) : stage.placed.length < items.size := by
  obtain ⟨entry, rest, split⟩ := List.exists_cons_of_ne_nil some
  obtain ⟨registered, absent⟩ := (sound.mem_waiting_iff entry).mp (by rw [split]; simp)
  have distinct : (entry :: stage.placed).Nodup :=
    List.nodup_cons.mpr ⟨fun there => absent (List.mem_map_of_mem there), sound.distinct.of_map⟩
  have inside : entry :: stage.placed ⊆ items.entries :=
    List.cons_subset.mpr ⟨registered, sound.inside⟩
  exact (List.subperm_of_subset distinct inside).length_le

/-- A round that begins goes through the entries that wait. -/
theorem exists_begun {waiting : List (String × α)}
    (sound : Sound needs items ⟨now.placed, waiting⟩) (some : waiting ≠ [])
    (between : now.ahead = none) (same : ∀ key, key ∈ now.known ↔ key ∈ now.placed.map Prod.fst) :
    ∃ next, Leads needs items now next ∧ next.moved = false ∧ next.blocked = none ∧
      Completes needs items next waiting (round needs items now.placed waiting) := by
  refine ⟨{ now with
    begun := now.begun + 1, ahead := .some items.entries, moved := false, blocked := none },
    ?_, rfl, rfl, ?_⟩
  · unfold Leads Snapshot.step
    rw [between]
    exact if_pos (sound.length_placed_lt some)
  · rw [show waiting = left now.placed items.entries from sound.waiting_eq]
    exact completes_round rfl same items.distinct

/-- **Between two rounds the loop comes to the answer of the rounds that are left.** -/
theorem answers_rounds {placed waiting : List (String × α)} {now : Snapshot α}
    (sound : Sound needs items ⟨placed, waiting⟩) (here : now.placed = placed)
    (between : now.ahead = none) (same : ∀ key, key ∈ now.known ↔ key ∈ placed.map Prod.fst) :
    ∃ last, LeadsTo needs items now last ∧
      last.step needs items = .answers (rounds needs items placed waiting) := by
  fun_induction rounds needs items placed waiting generalizing now with
  | case1 placed waiting none =>
    subst here
    have finished := (sound.isOrder (List.isEmpty_iff.mp none)).complete.length_eq
    refine ⟨now, .refl, ?_⟩
    unfold Snapshot.step
    rw [between]
    exact if_neg (Nat.not_lt_of_le finished.ge)
  | case2 placed waiting some cause ended =>
    subst here
    obtain ⟨next, leads, _, _, completes⟩ :=
      exists_begun sound (fun none => some (List.isEmpty_iff.mpr none)) between same
    obtain ⟨last, more, answer⟩ := ended ▸ completes
    exact ⟨last, more.head leads, answer⟩
  | case3 placed waiting some after blocked ended fewer ih =>
    subst here
    obtain ⟨next, leads, _, _, completes⟩ :=
      exists_begun sound (fun none => some (List.isEmpty_iff.mpr none)) between same
    obtain ⟨last, more, through, placed, known, moved, _⟩ := ended ▸ completes
    rw [decide_eq_true fewer, Bool.or_true] at moved
    have ends : Leads needs items last { last with ahead := none } := by
      unfold Leads Snapshot.step
      rw [through]
      exact if_pos moved
    have further : Sound needs items ⟨after, blocked.map Prod.fst⟩ :=
      sound.advance ⟨blocked, round_ok ended, rfl, fewer⟩
    obtain ⟨final, rest, answer⟩ := @ih { last with ahead := none } further placed rfl known
    exact ⟨final, ((more.tail ends).trans rest).head leads, answer⟩
  | case4 placed waiting some after blocked ended nothing =>
    subst here
    obtain ⟨next, leads, still, unblocked, completes⟩ :=
      exists_begun sound (fun none => some (List.isEmpty_iff.mpr none)) between same
    obtain ⟨last, more, through, _, _, moved, reported⟩ := ended ▸ completes
    rw [still, decide_eq_false nothing] at moved
    refine ⟨last, more.head leads, ?_⟩
    unfold Snapshot.step
    rw [through]
    refine (if_neg (by rw [moved]; exact Bool.false_ne_true)).trans ?_
    rw [reported, unblocked, Option.or_none, stalled]
    cases blocked.getLast? <;> rfl

/-- **The loop answers within as many rounds as there are items,** with the order of the items or
the obstacle to one. At each time until then the set of known keys and the list of placed entries
hold the same keys without repetition. Each round that ends and is not the last one has added a key
to them, and a round that ends without having placed anything has recorded a registered key that is
not known and a dependency of it that is not known either. -/
theorem loop_answers_within_size (needs : α → List String) (items : OrderedMap String α) :
    (∃ last, LeadsTo needs items .start last ∧
      last.step needs items = .answers (order needs items)) ∧
    ∀ now, LeadsTo needs items .start now →
      now.begun ≤ items.size ∧
      (now.known.Nodup ∧ (now.placed.map Prod.fst).Nodup ∧
        ∀ key, key ∈ now.known ↔ key ∈ now.placed.map Prod.fst) ∧
      (∀ later, LeadsTo needs items now later → now.ahead = none → later.ahead = none →
        now.begun < later.begun →
        (∀ key ∈ now.known, key ∈ later.known) ∧ ∃ key ∈ later.known, key ∉ now.known) ∧
      (now.ahead = some [] → now.moved = false →
        ∃ key dependency, now.blocked = some (key, dependency) ∧ key ∈ items.keys ∧
          key ∉ now.known ∧ Needs needs items key dependency ∧ dependency ∉ now.known) := by
  refine ⟨?_, fun now reached => ?_⟩
  · exact answers_rounds Sound.start rfl rfl fun key => by simp [Snapshot.start]
  · have kept := Kept.start.run reached
    refine ⟨kept.begun_le_size, ⟨kept.once, kept.distinct, kept.same⟩, ?_, fun through still => ?_⟩
    · intro later leads _ between begun
      exact (Grown.run leads).exists_new kept (kept.run leads) between begun
    · obtain ⟨⟨key, dependency⟩, recorded, blocking⟩ := kept.blocked_of_stall through still
      exact ⟨key, dependency, recorded, blocking⟩

/-- Three items in a circle and one that depends on none. -/
theorem loop_answers_within_size_circle :
    let items := OrderedMap.ofList [("a", ["b"]), ("b", ["c"]), ("c", ["a"]), ("d", [])]
    ∃ last, LeadsTo id items .start last ∧
      last.step id items = .answers (.error (.unmet "c" "a")) ∧ last.begun ≤ 4 ∧
      ∀ key, key ∈ last.known ↔ key ∈ last.placed.map Prod.fst := by
  intro items
  obtain ⟨⟨last, reached, answer⟩, each⟩ := loop_answers_within_size id items
  obtain ⟨rounds, ⟨_, _, same⟩, _⟩ := each last reached
  have refused : order id items = .error (.unmet "c" "a") := by decide +kernel
  exact ⟨last, reached, refused ▸ answer, rounds, same⟩

end WithClause.DependencyOrder
