/-
**The order of the joins in a FROM clause.**

Joins are recorded in any order; each names the label that it starts from. In the text every join
follows what it starts from. A source is followed by the first join that starts from it, this by
the joins that start from the new label, and so on in depth before the next join of the source.
Joins that no source leads to stand at the end, in the same way each with those that follow from
it.

* `follow`: the joins that a stack of labels leads to, and those still pending;
* `takeFrom?_length`, `length_follow`: a join that is taken is no longer pending, which is why the
  walk ends whatever cycles the labels form.
-/

namespace WithClause

inductive JoinType where
  | inner
  | left
  | right
deriving DecidableEq, Inhabited

/-- The words of a kind of join. -/
def JoinType.sql : JoinType → String
  | inner => "INNER JOIN"
  | left => "LEFT JOIN"
  | right => "RIGHT JOIN"

/-- A table to select from. -/
structure Source where
  table : String
  /-- The label it goes by, if it has one. -/
  label : Option String := none
deriving DecidableEq

namespace Source

/-- What joins call the source: its label, or else its table. -/
def key (source : Source) : String := source.label.getD source.table

def sql (source : Source) : String :=
  match source.label with
  | some label => source.table ++ " " ++ label
  | none => source.table

end Source

/-- A table joined to what goes before it. -/
structure Join where
  kind : JoinType := .inner
  /-- The label that the join starts from. -/
  origin : String
  table : String
  label : String
  condition : String
deriving DecidableEq

/-- The text of a join, with a space in front. -/
def Join.sql (join : Join) : String :=
  " " ++ join.kind.sql ++ " " ++ join.table ++ " " ++ join.label ++ " ON " ++ join.condition

namespace FromClause

/-- The first pending join that starts from a label, and the others. -/
def takeFrom? (label : String) : List Join → Option (Join × List Join)
  | [] => none
  | join :: rest =>
    if join.origin = label then some (join, rest)
    else (takeFrom? label rest).map fun (found, others) => (found, join :: others)

theorem takeFrom?_length (label : String) (pending : List Join) (join : Join) (rest : List Join)
    (taken : takeFrom? label pending = some (join, rest)) : rest.length + 1 = pending.length := by
  induction pending generalizing rest with
  | nil => simp [takeFrom?] at taken
  | cons head tail ih =>
    rw [takeFrom?] at taken
    split at taken
    · cases taken
      rfl
    · obtain ⟨⟨found, others⟩, inTail, same⟩ := Option.map_eq_some_iff.mp taken
      cases same
      rw [List.length_cons, List.length_cons, ih others inTail]

/-- The joins that a stack of labels leads to, in the order of the text, and the pending joins
that are left. -/
def follow (stack : List String) (pending : List Join) : List Join × List Join :=
  match stack with
  | [] => ([], pending)
  | label :: below =>
    match taken : takeFrom? label pending with
    | none => follow below pending
    | some (join, rest) =>
      have _shorter : rest.length + 1 = pending.length :=
        takeFrom?_length label pending join rest taken
      let (placed, left) := follow (join.label :: label :: below) rest
      (join :: placed, left)
termination_by (pending.length, stack.length)
decreasing_by
  · exact Prod.Lex.right _ (Nat.lt_succ_self _)
  · exact Prod.Lex.left _ _ (by omega)

theorem length_follow (stack : List String) (pending : List Join) :
    (follow stack pending).1.length + (follow stack pending).2.length = pending.length := by
  fun_induction follow stack pending with
  | case1 pending => exact Nat.zero_add _
  | case2 pending label below none ih => exact ih
  | case3 pending label below join rest taken _ placed left walk ih =>
    have shorter := takeFrom?_length label pending join rest taken
    rw [walk] at ih
    simp only [List.length_cons] at ih ⊢
    omega

/-- Each source with the joins that it leads to, and the joins that none does. -/
def attach : List Source → List Join → List (Source × List Join) × List Join
  | [], pending => ([], pending)
  | source :: others, pending =>
    let (joins, left) := follow [source.key] pending
    let (attached, orphans) := attach others left
    ((source, joins) :: attached, orphans)

/-- Joins without a source: the first one and those that it leads to, then the first one that is
left. -/
def arrangeRest : List Join → List Join
  | [] => []
  | join :: rest =>
    have shorter : (follow [join.label] rest).2.length < rest.length + 1 := by
      have total := length_follow [join.label] rest
      omega
    join :: (follow [join.label] rest).1 ++ arrangeRest (follow [join.label] rest).2
termination_by pending => pending.length
decreasing_by exact shorter

/-- The texts of joins, one after the other. -/
def joinsSql (joins : List Join) : String := String.join (joins.map Join.sql)

/-- The text after FROM. -/
def sql (sources : List Source) (joins : List Join) : String :=
  let (attached, orphans) := attach sources joins
  ", ".intercalate (attached.map fun (source, own) => source.sql ++ joinsSql own) ++
    joinsSql (arrangeRest orphans)

end FromClause

end WithClause
