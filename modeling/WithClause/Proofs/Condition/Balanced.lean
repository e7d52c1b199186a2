/-
**Balanced parentheses.**

Letters are balanced if no start of them closes more parentheses than it opens, and if they close
as many as they open. What follows an opening parenthesis is cut off where that one is closed
(`closing?`). Balanced letters cannot close it, so that they all stand before that place
(`closing?_balanced`); the induction goes over the letters, with any number of parentheses open
before them (`closing?_append`).

Balanced letters stay balanced next to others and in parentheses (`Balanced.append`,
`Balanced.enclosed`), and balanced texts therefore when they are connected (`Balanced.connect`).
-/

import Mathlib.Data.List.Basic
import WithClause.Condition

namespace WithClause

/-- No start of the letters closes more parentheses than it opens, if `depth` are open before. -/
def Within (depth : Nat) (letters : List Char) : Prop :=
  ∀ place, (letters.take place).count ')' ≤ depth + (letters.take place).count '('

/-- No parenthesis is closed that was not opened before, and none stays open. -/
structure Balanced (letters : List Char) : Prop where
  within : Within 0 letters
  total : letters.count '(' = letters.count ')'

/-- The starts of the letters are those up to their length. -/
theorem within_iff (depth : Nat) (letters : List Char) :
    Within depth letters ↔
      ∀ place < letters.length + 1,
        (letters.take place).count ')' ≤ depth + (letters.take place).count '(' := by
  refine ⟨fun within place _ => within place, fun each place => ?_⟩
  by_cases inside : place < letters.length + 1
  · exact each place inside
  · have whole := each letters.length (Nat.lt_succ_self _)
    rw [List.take_length] at whole
    rw [List.take_of_length_le (by omega)]
    exact whole

instance (depth : Nat) (letters : List Char) : Decidable (Within depth letters) :=
  decidable_of_iff _ (within_iff depth letters).symm

instance (letters : List Char) : Decidable (Balanced letters) :=
  decidable_of_iff (Within 0 letters ∧ letters.count '(' = letters.count ')')
    ⟨fun both => ⟨both.1, both.2⟩, fun balanced => ⟨balanced.within, balanced.total⟩⟩

/-! ### Where a parenthesis is closed -/

/-- The number of open parentheses after a letter. -/
def deeper (depth : Nat) (letter : Char) : Nat :=
  if letter = '(' then depth + 1 else if letter = ')' then depth - 1 else depth

/-- The letters up to the parenthesis that is closed first, if `depth` further ones are to be closed
before it, and the letters after that. -/
def closing? (depth : Nat) : List Char → Option (List Char × List Char)
  | [] => none
  | letter :: rest =>
    if letter = ')' ∧ depth = 0 then some ([], rest)
    else (closing? (deeper depth letter) rest).map fun (inside, after) => (letter :: inside, after)

theorem length_closing? {depth : Nat} {letters inside after : List Char}
    (read : closing? depth letters = some (inside, after)) : after.length < letters.length := by
  induction letters generalizing depth inside with
  | nil => cases read
  | cons letter rest ih =>
    rw [closing?] at read
    split at read
    · cases read
      exact Nat.lt_succ_self _
    · obtain ⟨⟨within, beyond⟩, later, same⟩ := Option.map_eq_some_iff.mp read
      cases same
      exact Nat.lt_succ_of_lt (ih later)

section Within

variable {depth : Nat} {letter : Char} {letters : List Char}

theorem Within.head (within : Within depth (letter :: letters)) : ¬ (letter = ')' ∧ depth = 0) := by
  rintro ⟨rfl, rfl⟩
  exact absurd (within 1) (by simp)

/-- A letter that closes no parenthesis of those before opens one, or closes one, or does neither. -/
theorem deeper_add (within : Within depth (letter :: letters)) :
    deeper depth letter + (if letter == ')' then 1 else 0) =
      depth + if letter == '(' then 1 else 0 := by
  have head := within.head
  unfold deeper
  by_cases opens : letter = '('
  · subst opens
    rfl
  · by_cases closes : letter = ')'
    · subst closes
      have some : depth ≠ 0 := fun none => head ⟨rfl, none⟩
      simp only [beq_self_eq_true, if_true, if_neg opens, beq_iff_eq]
      omega
    · simp [opens, closes]

theorem Within.tail (within : Within depth (letter :: letters)) :
    Within (deeper depth letter) letters := by
  intro place
  have start := within (place + 1)
  have step := deeper_add within
  rw [List.take_succ_cons, List.count_cons, List.count_cons] at start
  omega

theorem depth_of_within (within : Within depth letters) :
    letters.foldl deeper depth + letters.count ')' = depth + letters.count '(' := by
  induction letters generalizing depth with
  | nil => rfl
  | cons letter rest ih =>
    have later := ih within.tail
    have step := deeper_add within
    rw [List.foldl_cons, List.count_cons, List.count_cons]
    omega

/-- **Letters that close no parenthesis of those before stand before the place where it is
closed.** -/
theorem closing?_append (within : Within depth letters) (rest : List Char) :
    closing? depth (letters ++ rest) =
      (closing? (letters.foldl deeper depth) rest).map fun (inside, after) =>
        (letters ++ inside, after) := by
  induction letters generalizing depth with
  | nil => exact (Option.map_id_apply ..).symm
  | cons letter others ih =>
    rw [List.cons_append, closing?, if_neg within.head, ih within.tail, Option.map_map]
    rfl

/-- **What stands in parentheses is read up to the one that closes them.** -/
theorem closing?_balanced (balanced : Balanced letters) (rest : List Char) :
    closing? 0 (letters ++ ')' :: rest) = some (letters, rest) := by
  have depth := depth_of_within balanced.within
  have zero : letters.foldl deeper 0 = 0 := by
    have total := balanced.total
    omega
  rw [closing?_append balanced.within, zero]
  simp [closing?]

end Within

/-! ### Balanced letters put together -/

section Together

variable {first second letters : List Char}

theorem Balanced.append (one : Balanced first) (other : Balanced second) :
    Balanced (first ++ second) where
  within place := by
    have before := one.within place
    have after := other.within (place - first.length)
    rw [List.take_append, List.count_append, List.count_append]
    omega
  total := by
    rw [List.count_append, List.count_append, one.total, other.total]

theorem Balanced.enclosed (inside : Balanced letters) : Balanced ('(' :: (letters ++ [')'])) where
  within
    | 0 => by simp
    | place + 1 => by
      have before := inside.within place
      have last : ([')'].take (place - letters.length)).count ')' ≤ 1 :=
        (List.take_sublist ..).count_le ')'
      rw [List.take_succ_cons, List.take_append, List.count_cons_of_ne (by decide),
        List.count_cons_self, List.count_append, List.count_append]
      omega
  total := by
    have total := inside.total
    simp [List.count_append, total]

end Together

theorem toList_enclosed (text : String) :
    (Connective.enclosed text).toList = '(' :: (text.toList ++ [')']) := by
  simp [Connective.enclosed]

theorem balanced_word (connective : Connective) : Balanced connective.word.toList := by
  cases connective <;> decide

/-- Texts in parentheses with a connective between each two. -/
theorem Balanced.intercalate (connective : Connective) (operands : List String)
    (balanced : ∀ operand ∈ operands, Balanced operand.toList) :
    Balanced (connective.word.intercalate (operands.map Connective.enclosed)).toList := by
  induction operands with
  | nil =>
    rw [List.map_nil, String.intercalate_nil]
    decide
  | cons operand others ih =>
    obtain ⟨head, tail⟩ := List.forall_mem_cons.mp balanced
    have here : Balanced (Connective.enclosed operand).toList := by
      rw [toList_enclosed]
      exact head.enclosed
    cases others with
    | nil => simpa using here
    | cons next rest =>
      rw [List.map_cons, List.map_cons, String.intercalate_cons_cons, String.toList_append,
        String.toList_append]
      exact (here.append (balanced_word connective)).append (ih tail)

/-- **Connecting balanced texts makes a balanced text.** -/
theorem Balanced.connect (connective : Connective) {operands : List String}
    (balanced : ∀ operand ∈ operands, Balanced operand.toList) :
    Balanced (connective.connect operands).toList := by
  have given : ∀ operand ∈ operands.filter (· ≠ ""), Balanced operand.toList :=
    fun operand member => balanced operand (List.mem_of_mem_filter member)
  unfold Connective.connect
  split
  · next single same => exact given single (same ▸ List.mem_singleton_self single)
  · exact .intercalate connective _ given

end WithClause
