/-
**The layout of a FROM clause.**

The joins of a FROM clause may form cycles, share labels and start from labels that nothing has.
What a label leads to is said without the walk (`LeadsTo`). A layout has the sources, each with a
run of joins, and after them groups of joins that no source leads to, each group with a first join
and a run of joins (`Layout`). `IsLayout` says which layouts are right:

* each recorded join stands there exactly once;
* after a source stand the joins that it leads to, save those that an earlier source leads to;
* each group begins with the earliest recorded join that does not stand before it, and has all that
  this join leads to and that does not stand before it, so that no copy of one is left (`IsGroup`);
* in each run every join follows what it starts from.

Between two walks the recorded joins are split into those that are placed and those that are
pending, and no pending join starts from the label of a placed one (`Progress`). A walk keeps this
(`Progress.walk`), and therefore takes exactly the pending joins that its label leads to
(`Progress.mem_placed_iff`), whatever was placed before.
-/

import Mathlib.Data.List.Induction
import WithClause.Proofs.FromClause.Walk
import WithClause.Query

namespace WithClause.FromClause

/-- The joins that a label leads to: those that start from it, and those that start from the label
of a join that it leads to. -/
inductive LeadsTo (joins : List Join) (label : String) : Join → Prop
  | first {join : Join} (recorded : join ∈ joins) (starts : join.origin = label) :
      LeadsTo joins label join
  | next {join other : Join} (before : LeadsTo joins label other) (recorded : join ∈ joins)
      (starts : join.origin = other.label) : LeadsTo joins label join

theorem LeadsTo.recorded {joins : List Join} {label : String} {join : Join}
    (leads : LeadsTo joins label join) : join ∈ joins := by
  cases leads <;> assumption

/-- A label leads to each join of a run that it supplies. -/
theorem Supplied.leadsTo {joins run : List Join} {label : String} (supplied : Supplied [label] run)
    (recorded : run ⊆ joins) : ∀ join ∈ run, LeadsTo joins label join := by
  induction run using List.reverseRecOn with
  | nil => exact fun _ member => by cases member
  | append_singleton before last ih =>
    have earlier := ih supplied.initial fun _ member => recorded (List.mem_append_left _ member)
    have here : last ∈ joins := recorded (by simp)
    intro join member
    rcases List.mem_append.mp member with member | member
    · exact earlier join member
    · rw [List.mem_singleton.mp member]
      rcases supplied before last [] rfl with starts | ⟨other, member, starts⟩
      · exact .first here (List.mem_singleton.mp starts)
      · exact .next (earlier other member) here starts

/-! ### Layouts -/

def attachedJoins (attached : List (Source × List Join)) : List Join := attached.flatMap Prod.snd

def groupJoins (groups : List (Join × List Join)) : List Join :=
  groups.flatMap fun group => group.1 :: group.2

/-- The sources with the joins after each, and then groups of joins without a source. -/
structure Layout where
  attached : List (Source × List Join)
  groups : List (Join × List Join)

namespace Layout

/-- The joins in the order of the text. -/
def joins (layout : Layout) : List Join := attachedJoins layout.attached ++ groupJoins layout.groups

def sql (layout : Layout) : String :=
  ", ".intercalate (layout.attached.map fun (source, own) => source.sql ++ joinsSql own) ++
    joinsSql (groupJoins layout.groups)

end Layout

/-- A group of joins without a source, behind the joins that stand before it. -/
structure IsGroup (joins placed : List Join) (first : Join) (own : List Join) : Prop where
  /-- It begins with the earliest join that is left. -/
  earliest : (joins.diff placed).head? = some first
  mem_own_iff : ∀ join, join ∈ own ↔
    join ∈ joins.diff (placed ++ [first]) ∧ LeadsTo joins first.label join
  supplied : Supplied [first.label] own
  /-- Of the joins that are left behind it, copies included, its first one leads to none. -/
  exhausted : ∀ join ∈ joins.diff (placed ++ first :: own), ¬ LeadsTo joins first.label join

/-- The layouts of sources and joins, both in the order in which they were added. -/
structure IsLayout (sources : List Source) (joins : List Join) (layout : Layout) : Prop where
  sources_eq : layout.attached.map Prod.fst = sources
  complete : layout.joins.Perm joins
  /-- A join stands after the first source that leads to it. -/
  mem_own_iff : ∀ before source own after, layout.attached = before ++ (source, own) :: after →
    ∀ join, join ∈ own ↔ LeadsTo joins source.key join ∧
      ∀ earlier ∈ before, ¬ LeadsTo joins earlier.1.key join
  supplied : ∀ entry ∈ layout.attached, Supplied [entry.1.key] entry.2
  /-- A join stands after all sources if none leads to it. -/
  mem_groups_iff : ∀ join, join ∈ groupJoins layout.groups ↔
    join ∈ joins ∧ ∀ source ∈ sources, ¬ LeadsTo joins source.key join
  group : ∀ before first own after, layout.groups = before ++ (first, own) :: after →
    IsGroup joins (attachedJoins layout.attached ++ groupJoins before) first own

/-! ### Between two walks -/

/-- The recorded joins in two parts. A pending join that starts from the label of a placed one
starts from one of the given labels. -/
structure Progress (joins : List Join) (labels : List String) (placed pending : List Join) :
    Prop where
  complete : (placed ++ pending).Perm joins
  pending_eq : pending = joins.diff placed
  apart : ∀ join ∈ pending, ∀ other ∈ placed, join.origin = other.label → join.origin ∈ labels

namespace Progress

variable {joins placed pending own left : List Join} {labels : List String} {label : String}
  {first : Join}

theorem start (joins : List Join) : Progress joins [] [] joins where
  complete := .refl _
  pending_eq := rfl
  apart := by simp

theorem allow (progress : Progress joins [] placed pending) (labels : List String) :
    Progress joins labels placed pending where
  complete := progress.complete
  pending_eq := progress.pending_eq
  apart join member other placed same := by
    cases progress.apart join member other placed same

/-- The first pending join is placed, and joins may start from its label. -/
theorem begin (progress : Progress joins [] placed (first :: pending)) :
    Progress joins [first.label] (placed ++ [first]) pending where
  complete := by
    rw [List.append_assoc]
    exact progress.complete
  pending_eq := by
    rw [List.diff_append, ← progress.pending_eq, List.diff_cons, List.erase_cons_head,
      List.diff_nil]
  apart := by
    intro join member other there same
    rcases List.mem_append.mp there with there | there
    · have never := progress.apart join (List.mem_cons_of_mem _ member) other there same
      cases never
    · rw [same, List.mem_singleton.mp there]
      exact List.mem_singleton_self _

/-- **A walk leaves no pending join that starts from the label of a placed one.** -/
theorem walk (progress : Progress joins labels placed pending)
    (walk : Walk labels pending own left) : Progress joins [] (placed ++ own) left where
  complete := by
    rw [List.append_assoc]
    exact (walk.complete.append_left placed).trans progress.complete
  pending_eq := by rw [List.diff_append, ← progress.pending_eq, walk.left_eq]
  apart := by
    intro join member other there same
    obtain ⟨outside, apart⟩ := walk.exhausted join member
    rcases List.mem_append.mp there with there | there
    · have inside := progress.apart join (walk.left_subset member) other there same
      exact absurd inside outside
    · exact absurd same (apart other there)

theorem pending_subset (progress : Progress joins labels placed pending) : pending ⊆ joins :=
  fun _ member => progress.complete.subset (List.mem_append_right placed member)

/-- What is left after a walk is nothing that its label leads to. The induction is along the way
from the label: a join before a pending one on this way is pending too, since no pending join
starts from a placed one. -/
theorem not_leadsTo_of_mem_left (progress : Progress joins [label] placed pending)
    (walk : Walk [label] pending own left) {join : Join} (leads : LeadsTo joins label join) :
    join ∉ left := by
  induction leads with
  | first recorded starts =>
    intro remains
    exact (walk.exhausted _ remains).1 (starts ▸ List.mem_singleton_self _)
  | @next join other _ recorded starts ih =>
    intro remains
    obtain ⟨outside, apart⟩ := walk.exhausted _ remains
    have before : other ∈ placed ∨ other ∈ pending := by
      rw [← List.mem_append, progress.complete.mem_iff]
      exact LeadsTo.recorded ‹_›
    rcases before with before | before
    · exact outside (progress.apart join (walk.left_subset remains) other before starts)
    · rcases (walk.mem_pending_iff other).mp before with before | before
      · exact apart other before starts
      · exact ih before

/-- **A walk takes the pending joins that its label leads to.** -/
theorem mem_placed_iff (progress : Progress joins [label] placed pending)
    (walk : Walk [label] pending own left) (join : Join) :
    join ∈ own ↔ join ∈ pending ∧ LeadsTo joins label join := by
  constructor
  · intro member
    have waits : own ⊆ pending := fun other there => (walk.mem_pending_iff other).mpr (.inl there)
    have recorded : own ⊆ joins := fun other there => progress.pending_subset (waits there)
    exact ⟨waits member, walk.supplied.leadsTo recorded join member⟩
  · rintro ⟨member, leads⟩
    rcases (walk.mem_pending_iff join).mp member with member | remains
    · exact member
    · exact absurd remains (progress.not_leadsTo_of_mem_left walk leads)

theorem mem_left_iff (progress : Progress joins [label] placed pending)
    (walk : Walk [label] pending own left) (join : Join) :
    join ∈ left ↔ join ∈ pending ∧ ¬ LeadsTo joins label join := by
  constructor
  · intro remains
    exact ⟨walk.left_subset remains, fun leads =>
      progress.not_leadsTo_of_mem_left walk leads remains⟩
  · rintro ⟨member, never⟩
    rcases (walk.mem_pending_iff join).mp member with member | remains
    · exact absurd ((progress.mem_placed_iff walk join).mp member).2 never
    · exact remains

/-- **The first pending join and the walk from its label are a group.** -/
theorem isGroup (progress : Progress joins [] placed (first :: pending))
    (walk : Walk [first.label] pending own left) : IsGroup joins placed first own where
  earliest := by rw [← progress.pending_eq, List.head?_cons]
  mem_own_iff join := by
    rw [progress.begin.mem_placed_iff walk, progress.begin.pending_eq]
  supplied := walk.supplied
  exhausted join remains leads := by
    have rest : left = joins.diff (placed ++ first :: own) := by
      rw [(progress.begin.walk walk).pending_eq, List.append_assoc, List.singleton_append]
    exact progress.begin.not_leadsTo_of_mem_left walk leads (rest ▸ remains)

end Progress

/-! ### The sources -/

/-- Progress where the pending joins are those that none of the keys leads to. -/
structure Swept (joins : List Join) (keys : List String) (placed pending : List Join) : Prop
    extends Progress joins [] placed pending where
  mem_pending_iff : ∀ join, join ∈ pending ↔
    join ∈ joins ∧ ∀ key ∈ keys, ¬ LeadsTo joins key join

section Sources

variable {joins placed pending own left : List Join} {keys : List String} {key : String}
  {source : Source} {before after : List (Source × List Join)}

theorem Swept.walk (swept : Swept joins keys placed pending) (walk : Walk [key] pending own left) :
    Swept joins (keys ++ [key]) (placed ++ own) left where
  toProgress := (swept.allow [key]).walk walk
  mem_pending_iff join := by
    rw [(swept.allow [key]).mem_left_iff walk, swept.mem_pending_iff, List.forall_mem_append,
      List.forall_mem_singleton, and_assoc]

theorem attach_cons (source : Source) (others : List Source) (pending : List Join) :
    attach (source :: others) pending =
      ((source, (follow [source.key] pending).1) ::
          (attach others (follow [source.key] pending).2).1,
        (attach others (follow [source.key] pending).2).2) := rfl

theorem attach_sources (sources : List Source) (pending : List Join) :
    (attach sources pending).1.map Prod.fst = sources := by
  induction sources generalizing pending with
  | nil => rfl
  | cons source others ih => rw [attach_cons, List.map_cons, ih]

/-- **After all sources the joins are left that none of them leads to.** -/
theorem attach_swept (sources : List Source) (swept : Swept joins keys placed pending) :
    Swept joins (keys ++ sources.map Source.key)
      (placed ++ attachedJoins (attach sources pending).1) (attach sources pending).2 := by
  induction sources generalizing keys placed pending with
  | nil => simpa [attach, attachedJoins] using swept
  | cons source others ih =>
    have rest := ih (swept.walk (follow_walk [source.key] pending))
    rw [List.append_assoc, List.append_assoc] at rest
    exact rest

/-- After each source stands the walk from its key, through what the sources before it left. -/
theorem attach_entry (sources : List Source) (swept : Swept joins keys placed pending)
    (split : (attach sources pending).1 = before ++ (source, own) :: after) :
    ∃ waiting left, Swept joins (keys ++ before.map fun entry => entry.1.key)
      (placed ++ attachedJoins before) waiting ∧ Walk [source.key] waiting own left := by
  induction sources generalizing keys placed pending before with
  | nil => simp [attach] at split
  | cons head others ih =>
    rw [attach_cons] at split
    cases before with
    | nil =>
      cases split
      refine ⟨pending, _, ?_, follow_walk [source.key] pending⟩
      simpa [attachedJoins] using swept
    | cons entry earlier =>
      obtain ⟨same, rest⟩ := List.cons.inj split
      obtain ⟨waiting, left, reached, walk⟩ :=
        ih (swept.walk (follow_walk [head.key] pending)) rest
      refine ⟨waiting, left, ?_, walk⟩
      rw [List.append_assoc, List.append_assoc] at reached
      rw [← same]
      exact reached

end Sources

/-! ### The joins without a source -/

/-- The joins that no source leads to, in groups: the first one and those that it leads to, then
the first one that is left. -/
def groups : List Join → List (Join × List Join)
  | [] => []
  | first :: rest =>
    (first, (follow [first.label] rest).1) :: groups (follow [first.label] rest).2
termination_by pending => pending.length
decreasing_by
  have total := length_follow [first.label] rest
  rw [List.length_cons]
  omega

theorem arrangeRest_eq (pending : List Join) :
    arrangeRest pending = groupJoins (groups pending) := by
  fun_induction groups pending with
  | case1 => simp [arrangeRest, groupJoins]
  | case2 first rest ih =>
    rw [arrangeRest, ih]
    simp [groupJoins]

theorem groups_perm (pending : List Join) : (groupJoins (groups pending)).Perm pending := by
  fun_induction groups pending with
  | case1 => exact .refl _
  | case2 first rest ih =>
    have walk := follow_walk [first.label] rest
    exact .cons first ((ih.append_left _).trans walk.complete)

/-- **Each group begins with the first pending join, and goes on with the walk from its label.** -/
theorem groups_entry {joins placed pending own : List Join} {first : Join}
    {before after : List (Join × List Join)} (progress : Progress joins [] placed pending)
    (split : groups pending = before ++ (first, own) :: after) :
    ∃ waiting left, Progress joins [] (placed ++ groupJoins before) (first :: waiting) ∧
      Walk [first.label] waiting own left := by
  induction before generalizing placed pending with
  | nil =>
    cases pending with
    | nil => simp [groups] at split
    | cons head rest =>
      rw [groups] at split
      cases split
      refine ⟨rest, _, ?_, follow_walk [first.label] rest⟩
      simpa [groupJoins] using progress
  | cons group earlier ih =>
    cases pending with
    | nil => simp [groups] at split
    | cons head rest =>
      rw [groups] at split
      obtain ⟨same, later⟩ := List.cons.inj split
      obtain ⟨waiting, left, reached, walk⟩ :=
        ih (progress.begin.walk (follow_walk [head.label] rest)) later
      refine ⟨waiting, left, ?_, walk⟩
      rw [List.append_assoc, List.append_assoc] at reached
      rw [← same]
      exact reached

/-! ### The layout of a query -/

def layout (sources : List Source) (joins : List Join) : Layout :=
  ⟨(attach sources joins).1, groups (attach sources joins).2⟩

theorem sql_eq_layout_sql (sources : List Source) (joins : List Join) :
    sql sources joins = (layout sources joins).sql := by
  show _ ++ joinsSql (arrangeRest (attach sources joins).2) = _
  rw [arrangeRest_eq]
  rfl

theorem isLayout_layout (sources : List Source) (joins : List Join) :
    IsLayout sources joins (layout sources joins) := by
  have start : Swept joins [] [] joins := ⟨.start joins, by simp⟩
  have swept := attach_swept sources start
  rw [List.nil_append, List.nil_append] at swept
  have rest := groups_perm (attach sources joins).2
  refine ⟨attach_sources sources joins, ?_, ?_, ?_, ?_, ?_⟩
  · exact (rest.append_left _).trans swept.complete
  · intro before source own after split join
    obtain ⟨waiting, left, reached, walk⟩ := attach_entry sources start split
    have recorded (leads : LeadsTo joins source.key join) : join ∈ joins := leads.recorded
    rw [(reached.allow _).mem_placed_iff walk, reached.mem_pending_iff]
    simp only [List.nil_append, List.forall_mem_map]
    tauto
  · intro entry member
    obtain ⟨before, after, split⟩ := List.append_of_mem member
    obtain ⟨waiting, left, _, walk⟩ := attach_entry sources start split
    exact walk.supplied
  · intro join
    rw [show (layout sources joins).groups = groups (attach sources joins).2 from rfl,
      rest.mem_iff, swept.mem_pending_iff, List.forall_mem_map]
  · intro before first own after split
    obtain ⟨waiting, left, reached, walk⟩ := groups_entry swept.toProgress split
    exact reached.isGroup walk

end WithClause.FromClause

namespace WithClause.Query

open FromClause (IsLayout layout sql_eq_layout_sql isLayout_layout)

/-- **The FROM clause of a query is laid out.** Whatever labels its joins have, each of them stands
there exactly once, after what it starts from; joins that a source leads to stand after the first
such source. The others stand after all sources, the earliest one that is left first, and after it
all that it leads to, copies included, before the next one. -/
theorem fromClause_laid_out (query : Query) :
    IsLayout query.sources query.joins (layout query.sources query.joins) ∧
    query.fromClause =
      if query.sources = [] ∧ query.joins = [] then ""
      else " FROM " ++ (layout query.sources query.joins).sql := by
  refine ⟨isLayout_layout query.sources query.joins, ?_⟩
  rw [← sql_eq_layout_sql]
  unfold fromClause
  refine if_congr ?_ rfl rfl
  rw [Bool.and_eq_true, List.isEmpty_iff, List.isEmpty_iff]

/-- Two joins that start from each other's label stand at the end, the one recorded first before
the other. -/
example :
    (layout [⟨"users", some "u"⟩]
      [⟨.left, "i", "orders", "o", "1"⟩, ⟨.inner, "o", "items", "i", "2"⟩,
        ⟨.inner, "u", "roles", "r", "3"⟩]).groups =
      [(⟨.left, "i", "orders", "o", "1"⟩, [⟨.inner, "o", "items", "i", "2"⟩])] := by
  cbv

/-- A join that was recorded twice stands twice after the join that leads to it, before the next
one that nothing leads to. -/
example :
    (layout []
      [⟨.inner, "z", "f", "a", "1"⟩, ⟨.inner, "y", "g", "q", "2"⟩,
        ⟨.inner, "a", "j", "b", "3"⟩, ⟨.inner, "a", "j", "b", "3"⟩]).groups =
      [(⟨.inner, "z", "f", "a", "1"⟩,
          [⟨.inner, "a", "j", "b", "3"⟩, ⟨.inner, "a", "j", "b", "3"⟩]),
        (⟨.inner, "y", "g", "q", "2"⟩, [])] := by
  cbv

end WithClause.Query
