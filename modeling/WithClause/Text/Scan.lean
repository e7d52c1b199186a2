/-
**Reading off the front of a text.**

A scan reads something off the front of a list of characters and answers what it read with what is
left, or fails. Scans are put together in sequence (`do`), by choice (`orElse`) and by repetition
(`many`). Repetition goes on while the scan succeeds and takes something, so it ends on every text.
-/

import WithClause.Text.Blank
import WithClause.Text.Digits

namespace WithClause

/-- Reads off the front of a text. -/
structure Scan (α : Type) where
  /-- What was read, and what is left. -/
  run : List Char → Option (α × List Char)

namespace Scan

variable {α β : Type}

instance : Monad Scan where
  pure value := ⟨fun letters => some (value, letters)⟩
  bind scan next := ⟨fun letters =>
    match scan.run letters with
    | some (value, rest) => (next value).run rest
    | none => none⟩

def fail : Scan α := ⟨fun _ => none⟩

/-- The second scan where the first one fails, from the same place. -/
def orElse (first second : Scan α) : Scan α := ⟨fun letters =>
  match first.run letters with
  | some result => some result
  | none => second.run letters⟩

/-- The first of several scans that succeeds. -/
def oneOf (scans : List (Scan α)) : Scan α := scans.foldr orElse fail

/-- What a scan reads, or nothing read where it fails. -/
def optional (scan : Scan α) : Scan (Option α) := orElse (some <$> scan) (pure none)

/-- Goes on only with a value. -/
def demand (value : Option α) : Scan α := ⟨fun letters => value.map (·, letters)⟩

/-- Goes on only where a condition holds. -/
def require (condition : Bool) : Scan Unit := if condition then pure () else fail

/-- One character that passes a test. -/
def satisfy (test : Char → Bool) : Scan Char := ⟨fun letters =>
  match letters with
  | head :: rest => if test head then some (head, rest) else none
  | [] => none⟩

/-- One given character. -/
def letter (expected : Char) : Scan Unit := do
  let _ ← satisfy (· == expected)
  pure ()

/-- The characters of a word, one after the other. -/
def word : List Char → Scan Unit
  | [] => pure ()
  | first :: others => do
    letter first
    word others

/-- The longest run of characters that pass a test, which may be empty. -/
def takeWhile (test : Char → Bool) : Scan (List Char) := ⟨fun letters =>
  some (letters.takeWhile test, letters.dropWhile test)⟩

/-- The longest run of characters that pass a test, of which there has to be one. -/
def takeWhile1 (test : Char → Bool) : Scan (List Char) := do
  let run ← takeWhile test
  require (!run.isEmpty)
  pure run

/-- Passes over the characters that pass a test. -/
def skipWhile (test : Char → Bool) : Scan Unit := do
  let _ ← takeWhile test
  pure ()

def skipBlanks : Scan Unit := skipWhile Text.isBlank

/-- A run of one or more decimal digits, of which at most `most` are taken. -/
def digitsUpTo (most : Nat) : Scan (List Char) := ⟨fun letters =>
  let run := (letters.takeWhile Char.isDigit).take most
  if run.isEmpty then none else some (run, letters.drop run.length)⟩

/-- Exactly `count` characters that pass a test. -/
def exactly (count : Nat) (test : Char → Bool) : Scan (List Char) := ⟨fun letters =>
  let run := letters.take count
  if run.length = count ∧ run.all test then some (run, letters.drop count) else none⟩

/-- What a scan reads as often as it succeeds and takes something, and what is left. -/
def collect (scan : Scan α) (letters : List Char) : List α × List Char :=
  match scan.run letters with
  | some (value, rest) =>
    if rest.length < letters.length then
      let (values, left) := collect scan rest
      (value :: values, left)
    else ([], letters)
  | none => ([], letters)
termination_by letters.length

/-- Repeats a scan as often as it succeeds and takes something. -/
def many (scan : Scan α) : Scan (List α) := ⟨fun letters => some (collect scan letters)⟩

/-- Repeats a scan, which has to succeed once. -/
def many1 (scan : Scan α) : Scan (List α) := do
  let first ← scan
  let others ← many scan
  return first :: others

/-- One or more scans with a separator between them. -/
def separated (scan : Scan α) (separator : Scan Unit) : Scan (List α) := do
  let first ← scan
  let others ← many (do separator; scan)
  return first :: others

/-- Looks whether a scan succeeds here, and takes nothing. -/
def ahead (scan : Scan α) : Scan Unit := ⟨fun letters =>
  match scan.run letters with
  | some _ => some ((), letters)
  | none => none⟩

def finish : Scan Unit := ⟨fun letters => if letters.isEmpty then some ((), []) else none⟩

/-- What a scan reads when it reads the whole text. -/
def whole (scan : Scan α) (text : String) : Option α :=
  match scan.run text.toList with
  | some (value, []) => some value
  | _ => none

/-! ### Laws -/

theorem run_bind (scan : Scan α) (next : α → Scan β) (letters : List Char) :
    (scan >>= next).run letters =
      match scan.run letters with
      | some (value, rest) => (next value).run rest
      | none => none := rfl

theorem run_bind_of_some {scan : Scan α} {letters rest : List Char} {value : α}
    (read : scan.run letters = some (value, rest)) (next : α → Scan β) :
    (scan >>= next).run letters = (next value).run rest := by
  rw [run_bind, read]

theorem run_map (change : α → β) (scan : Scan α) (letters : List Char) :
    (change <$> scan).run letters =
      (scan.run letters).map fun (value, rest) => (change value, rest) := by
  show (match scan.run letters with
    | some (value, rest) => some (change value, rest)
    | none => none) = _
  cases scan.run letters <;> rfl

theorem run_satisfy_cons (test : Char → Bool) (head : Char) (rest : List Char)
    (passes : test head = true) : (satisfy test).run (head :: rest) = some (head, rest) :=
  if_pos passes

theorem run_letter_cons (expected : Char) (rest : List Char) :
    (letter expected).run (expected :: rest) = some ((), rest) := by
  rw [letter, run_bind, run_satisfy_cons (· == expected) _ _ (beq_self_eq_true expected)]
  rfl

section Runs

variable {test : Char → Bool} {run rest : List Char}

end Runs

end Scan

end WithClause
