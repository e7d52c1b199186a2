/-
**Operands read back from a text.**

Conditions that are connected can be told apart in the text again. A reader takes an opening
parenthesis, all up to where it is closed, then a connective, and so on (`operands?`). From a text
of balanced conditions it gets the conditions that are not empty, in their order, and the connective
before each but the first (`readsBack_connect`).

A text of connected conditions is balanced itself, so that it can be connected again. In a tree of
conditions therefore no text reaches into the one next to it, however deep they stand: each node is
read back from its own text, and its text is read from that of the whole tree
(`ConditionTree.nodes_read_back`). The filter of a query is such a tree (`Filter.sql_toTree`).
-/

import WithClause.Filter
import WithClause.Proofs.Condition.Balanced

namespace WithClause

namespace Condition

/-! ### Reading -/

/-- What stands in parentheses at the beginning, and the letters after them. -/
def group? : List Char → Option (List Char × List Char)
  | '(' :: rest => closing? 0 rest
  | _ => none

/-- The connective at the beginning, and the letters after its word. -/
def word? : List Char → Option (Connective × List Char)
  | ' ' :: 'A' :: 'N' :: 'D' :: ' ' :: rest => some (.and, rest)
  | ' ' :: 'O' :: 'R' :: ' ' :: rest => some (.or, rest)
  | _ => none

theorem length_group? {letters inside after : List Char}
    (read : group? letters = some (inside, after)) : after.length < letters.length := by
  unfold group? at read
  split at read
  · exact Nat.lt_succ_of_lt (length_closing? read)
  · cases read

theorem length_word? {letters after : List Char} {connective : Connective}
    (read : word? letters = some (connective, after)) : after.length < letters.length := by
  unfold word? at read
  split at read
  · cases read
    simp only [List.length_cons]
    omega
  · cases read
    simp only [List.length_cons]
    omega
  · cases read

/-- The first operand and the others, each with the connective before it, if the letters are
operands in parentheses with a connective between each two. -/
def operands? (letters : List Char) : Option (List Char × List (Connective × List Char)) :=
  match grouped : group? letters with
  | none => none
  | some (first, rest) =>
    if rest = [] then some (first, [])
    else
      match connected : word? rest with
      | none => none
      | some (connective, further) =>
        have _shorter : further.length < letters.length :=
          Nat.lt_trans (length_word? connected) (length_group? grouped)
        (operands? further).map fun (next, others) => (first, (connective, next) :: others)
termination_by letters.length

theorem operands?_single {letters first : List Char} (grouped : group? letters = some (first, [])) :
    operands? letters = some (first, []) := by
  rw [operands?]
  split
  · next none => cases none.symm.trans grouped
  · next one rest some =>
    cases some.symm.trans grouped
    rfl

theorem operands?_further {letters first further : List Char} {connective : Connective}
    (grouped : group? letters = some (first, connective.word.toList ++ further)) :
    operands? letters =
      (operands? further).map fun (next, others) => (first, (connective, next) :: others) := by
  have connected : word? (connective.word.toList ++ further) = some (connective, further) := by
    cases connective <;> rfl
  have more : connective.word.toList ++ further ≠ [] := by
    cases connective <;> exact List.cons_ne_nil _ _
  rw [operands?]
  split
  · next none => cases none.symm.trans grouped
  · next one rest some =>
    cases some.symm.trans grouped
    rw [if_neg more]
    split
    · next none => cases none.symm.trans connected
    · next same =>
      cases same.symm.trans connected
      rfl

/-- **Operands that are connected are read back.** -/
theorem operands?_intercalate (connective : Connective) (first : String) (others : List String)
    (balanced : ∀ operand ∈ first :: others, Balanced operand.toList) :
    operands? (connective.word.intercalate ((first :: others).map Connective.enclosed)).toList =
      some (first.toList, others.map fun other => (connective, other.toList)) := by
  induction others generalizing first with
  | nil =>
    have grouped : group? (Connective.enclosed first).toList = some (first.toList, []) := by
      rw [toList_enclosed]
      exact closing?_balanced (balanced first List.mem_cons_self) []
    exact operands?_single grouped
  | cons next rest ih =>
    have tail : ∀ operand ∈ next :: rest, Balanced operand.toList :=
      fun operand member => balanced operand (List.mem_cons_of_mem first member)
    rw [List.map_cons, List.map_cons, String.intercalate_cons_cons, String.toList_append,
      String.toList_append, toList_enclosed, ← List.map_cons]
    have grouped (further : List Char) :
        group? ('(' :: (first.toList ++ [')']) ++ connective.word.toList ++ further) =
          some (first.toList, connective.word.toList ++ further) := by
      have letters : '(' :: (first.toList ++ [')']) ++ connective.word.toList ++ further =
          '(' :: (first.toList ++ ')' :: (connective.word.toList ++ further)) := by simp
      rw [letters]
      exact closing?_balanced (balanced first List.mem_cons_self) _
    rw [operands?_further (grouped _), ih next tail]
    rfl

/-- What a text of operands is: several operands can be read back, a single one is the text, and
without any the text is empty. Empty operands are none. -/
def ReadsBack (connective : Connective) (operands : List String) (text : String) : Prop :=
  match operands.filter (· ≠ "") with
  | [] => text = ""
  | [single] => text = single
  | first :: others =>
    operands? text.toList =
      some (first.toList, others.map fun other => (connective, other.toList))

theorem readsBack_connect (connective : Connective) {operands : List String}
    (balanced : ∀ operand ∈ operands, Balanced operand.toList) :
    ReadsBack connective operands (connective.connect operands) := by
  have given : ∀ operand ∈ operands.filter (· ≠ ""), Balanced operand.toList :=
    fun operand member => balanced operand (List.mem_of_mem_filter member)
  unfold ReadsBack Connective.connect
  revert given
  rcases operands.filter (· ≠ "") with _ | ⟨first, _ | ⟨second, others⟩⟩
  · exact fun _ => String.intercalate_nil
  · exact fun _ => rfl
  · exact operands?_intercalate connective first (second :: others)

/-! ### Reading again and again -/

/-- A text that is got by reading operands, of the whole text or of operands got before. -/
inductive Reached (whole : List Char) : List Char → Prop where
  | whole : Reached whole whole
  | operand {text first operand : List Char} {others : List (Connective × List Char)}
    (before : Reached whole text) (read : operands? text = some (first, others))
    (member : operand ∈ first :: others.map Prod.snd) : Reached whole operand

theorem Reached.trans {whole middle part : List Char} (outer : Reached whole middle)
    (inner : Reached middle part) : Reached whole part := by
  induction inner with
  | whole => exact outer
  | operand _ read member ih => exact .operand ih read member

theorem reached_nil {part : List Char} (reached : Reached [] part) : part = [] := by
  induction reached with
  | whole => rfl
  | operand _ read _ ih =>
    subst ih
    have none : operands? [] = none := by
      rw [operands?]
      rfl
    cases none.symm.trans read

/-- An operand that is not empty is reached from the text. -/
theorem ReadsBack.reached {connective : Connective} {operands : List String} {text operand : String}
    (back : ReadsBack connective operands text) (member : operand ∈ operands)
    (given : operand ≠ "") : Reached text.toList operand.toList := by
  have kept : operand ∈ operands.filter (· ≠ "") := by simpa using ⟨member, given⟩
  unfold ReadsBack at back
  revert back kept
  rcases operands.filter (· ≠ "") with _ | ⟨first, _ | ⟨second, others⟩⟩
  · intro _ kept
    cases kept
  · intro same kept
    rw [List.mem_singleton.mp kept, show text = first from same]
    exact .whole
  · intro read kept
    refine .operand .whole read ?_
    rw [List.map_map]
    exact List.mem_map_of_mem (f := String.toList) kept

end Condition

/-! ### Trees of conditions -/

/-- Conditions that are connected, and connected again. -/
inductive ConditionTree where
  | condition (text : String)
  | connected (connective : Connective) (operands : List ConditionTree)

namespace ConditionTree

open Condition (ReadsBack Reached readsBack_connect reached_nil)

mutual

def sql : ConditionTree → String
  | condition text => text
  | connected connective operands => connective.connect (sqls operands)

def sqls : List ConditionTree → List String
  | [] => []
  | operand :: others => operand.sql :: sqls others

end

mutual

/-- The texts of the conditions at the ends of the tree. -/
def conditions : ConditionTree → List String
  | condition text => [text]
  | connected _ operands => allConditions operands

def allConditions : List ConditionTree → List String
  | [] => []
  | operand :: others => operand.conditions ++ allConditions others

end

mutual

/-- The tree with all trees in it. -/
def nodes : ConditionTree → List ConditionTree
  | condition text => [condition text]
  | connected connective operands => connected connective operands :: allNodes operands

def allNodes : List ConditionTree → List ConditionTree
  | [] => []
  | operand :: others => operand.nodes ++ allNodes others

end

theorem sqls_eq (operands : List ConditionTree) : sqls operands = operands.map sql := by
  induction operands with
  | nil => rfl
  | cons operand others ih => rw [sqls, ih, List.map_cons]

theorem mem_allConditions (text : String) (operands : List ConditionTree) :
    text ∈ allConditions operands ↔ ∃ operand ∈ operands, text ∈ operand.conditions := by
  induction operands with
  | nil => simp [allConditions]
  | cons operand others ih => rw [allConditions, List.mem_append, ih, List.exists_mem_cons_iff]

theorem mem_allNodes (node : ConditionTree) (operands : List ConditionTree) :
    node ∈ allNodes operands ↔ ∃ operand ∈ operands, node ∈ operand.nodes := by
  induction operands with
  | nil => simp [allNodes]
  | cons operand others ih => rw [allNodes, List.mem_append, ih, List.exists_mem_cons_iff]

/-- What holds of conditions, and of connected trees if of each of them, holds of all trees. -/
@[elab_as_elim, induction_eliminator]
theorem induct {motive : ConditionTree → Prop}
    (condition : ∀ text, motive (condition text))
    (connected : ∀ connective operands, (∀ operand ∈ operands, motive operand) →
      motive (connected connective operands)) : ∀ tree, motive tree
  | .condition text => condition text
  | .connected connective operands =>
    connected connective operands fun operand _ => induct condition connected operand

/-- Whether each condition of a tree is balanced. -/
def IsBalanced (tree : ConditionTree) : Prop := ∀ text ∈ tree.conditions, Balanced text.toList

theorem IsBalanced.operand {connective : Connective} {operands : List ConditionTree}
    (balanced : IsBalanced (connected connective operands)) {operand : ConditionTree}
    (member : operand ∈ operands) : operand.IsBalanced :=
  fun text there => balanced text ((mem_allConditions text operands).mpr ⟨operand, member, there⟩)

/-- **The text of a tree is balanced if its conditions are.** -/
theorem IsBalanced.sql {tree : ConditionTree} (balanced : tree.IsBalanced) :
    Balanced tree.sql.toList := by
  induction tree with
  | condition text => exact balanced text (List.mem_singleton_self text)
  | connected connective operands ih =>
    refine .connect connective fun text member => ?_
    rw [sqls_eq] at member
    obtain ⟨operand, there, rfl⟩ := List.mem_map.mp member
    exact ih operand there (balanced.operand there)

/-- **The operands of a tree can be read back from its text.** -/
theorem IsBalanced.readsBack {connective : Connective} {operands : List ConditionTree}
    (balanced : IsBalanced (connected connective operands)) :
    ReadsBack connective (operands.map ConditionTree.sql) (connected connective operands).sql := by
  have each : ∀ text ∈ operands.map ConditionTree.sql, Balanced text.toList := by
    intro text member
    obtain ⟨operand, there, rfl⟩ := List.mem_map.mp member
    exact (balanced.operand there).sql
  show ReadsBack _ _ (connective.connect (sqls operands))
  rw [sqls_eq]
  exact readsBack_connect connective each

theorem IsBalanced.node {tree node : ConditionTree} (balanced : tree.IsBalanced)
    (member : node ∈ tree.nodes) : node.IsBalanced := by
  induction tree with
  | condition text =>
    rw [List.mem_singleton.mp member]
    exact balanced
  | connected connective operands ih =>
    obtain rfl | below := List.mem_cons.mp member
    · exact balanced
    · obtain ⟨operand, there, inside⟩ := (mem_allNodes node operands).mp below
      exact ih operand there (balanced.operand there) inside

/-- **The text of a tree leads to the texts of all trees in it.** -/
theorem IsBalanced.reached {tree node : ConditionTree} (balanced : tree.IsBalanced)
    (member : node ∈ tree.nodes) (given : node.sql ≠ "") :
    Reached tree.sql.toList node.sql.toList := by
  induction tree with
  | condition text =>
    rw [List.mem_singleton.mp member]
    exact .whole
  | connected connective operands ih =>
    obtain rfl | below := List.mem_cons.mp member
    · exact .whole
    · obtain ⟨operand, there, inside⟩ := (mem_allNodes node operands).mp below
      have inner := ih operand there (balanced.operand there) inside
      -- From an empty text nothing else would be reached.
      have solid : operand.sql ≠ "" := by
        intro blank
        rw [blank] at inner
        exact given (String.toList_eq_nil_iff.mp (reached_nil inner))
      exact (balanced.readsBack.reached (List.mem_map_of_mem there) solid).trans inner

end ConditionTree

/-- The filter as a tree of conditions. -/
def Filter.toTree : Filter → ConditionTree
  | single condition => .condition condition
  | chain connective first rest =>
    .connected connective (first.toTree :: rest.map ConditionTree.condition)

theorem Filter.sql_toTree (filter : Filter) : filter.toTree.sql = filter.sql := by
  induction filter with
  | single condition => rfl
  | chain connective first rest ih =>
    have leaves : (rest.map ConditionTree.condition).map ConditionTree.sql = rest := by
      rw [List.map_map]
      exact List.map_id rest
    show connective.connect (ConditionTree.sqls _) = connective.connect (first.sql :: rest)
    rw [ConditionTree.sqls_eq, List.map_cons, ih, leaves]

/-- **Connected conditions are told apart in the text.** A text of balanced conditions is balanced,
and the conditions that are not empty can be read back from it, with their connective. In a tree of
conditions this holds at every node, and reading again and again from the text of the whole tree one
gets the text of every node that is not empty. The text of a filter is that of such a tree. -/
theorem ConditionTree.nodes_read_back :
    (∀ (connective : Connective) (operands : List String),
      (∀ operand ∈ operands, Balanced operand.toList) →
        Balanced (connective.connect operands).toList ∧
        Condition.ReadsBack connective operands (connective.connect operands)) ∧
    (∀ tree : ConditionTree, (∀ text ∈ tree.conditions, Balanced text.toList) →
      Balanced tree.sql.toList ∧
      (∀ connective operands, connected connective operands ∈ tree.nodes →
        Condition.ReadsBack connective (operands.map sql) (connected connective operands).sql) ∧
      ∀ node ∈ tree.nodes, node.sql ≠ "" →
        Condition.Reached tree.sql.toList node.sql.toList) ∧
    ∀ filter : Filter, filter.toTree.sql = filter.sql := by
  refine ⟨fun connective operands balanced => ?_, fun tree balanced => ⟨?_, ?_, ?_⟩, ?_⟩
  · exact ⟨.connect connective balanced, Condition.readsBack_connect connective balanced⟩
  · exact IsBalanced.sql balanced
  · exact fun connective operands member => (IsBalanced.node balanced member).readsBack
  · exact fun node member given => IsBalanced.reached balanced member given
  · exact Filter.sql_toTree

/-- An alternative inside a conjunction: it is one operand of the outer text, although its own text
has parentheses and both connectives. -/
theorem ConditionTree.nodes_read_back_nested :
    let alternative := ConditionTree.connected .or
      [.condition "f(x) = 1", .condition "", .condition "(a) AND (b)"]
    let tree := ConditionTree.connected .and [alternative, .condition "c"]
    (∀ text ∈ tree.conditions, Balanced text.toList) ∧
    tree.sql = "((f(x) = 1) OR ((a) AND (b))) AND (c)" ∧
    Condition.operands? "((f(x) = 1) OR ((a) AND (b))) AND (c)".toList =
      some ("(f(x) = 1) OR ((a) AND (b))".toList, [(.and, "c".toList)]) ∧
    Condition.Reached "((f(x) = 1) OR ((a) AND (b))) AND (c)".toList "f(x) = 1".toList := by
  intro alternative tree
  have balanced : ∀ text ∈ tree.conditions, Balanced text.toList := by decide
  obtain ⟨-, each, reached⟩ := nodes_read_back.2.1 tree balanced
  refine ⟨balanced, rfl, ?_, ?_⟩
  · exact each .and [alternative, .condition "c"] List.mem_cons_self
  · have third : ConditionTree.condition "f(x) = 1" ∈ tree.nodes :=
      List.mem_cons_of_mem _ (List.mem_cons_of_mem _ List.mem_cons_self)
    exact reached (.condition "f(x) = 1") third (by decide)

end WithClause
