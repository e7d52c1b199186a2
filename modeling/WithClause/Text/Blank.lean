/-
**Blank characters.**

The characters with the Unicode property White_Space: the ASCII controls from tab to carriage
return, space, and nineteen further ones. `trim` takes blanks off both ends of a text, `trimEnd` off
the end alone.
-/

namespace WithClause.Text

/-- Whether a character has the Unicode property White_Space. -/
def isBlank (letter : Char) : Bool :=
  let code := letter.toNat
  (0x09 ≤ code && code ≤ 0x0D) || code == 0x20 || code == 0x85 || code == 0xA0 ||
    code == 0x1680 || (0x2000 ≤ code && code ≤ 0x200A) || code == 0x2028 || code == 0x2029 ||
    code == 0x202F || code == 0x205F || code == 0x3000

/-- The letters after the leading blanks. -/
def dropBlanks (letters : List Char) : List Char := letters.dropWhile isBlank

/-- The letters before the trailing blanks. -/
def dropBlanksEnd (letters : List Char) : List Char := (dropBlanks letters.reverse).reverse

def trimEnd (text : String) : String := String.ofList (dropBlanksEnd text.toList)

def trim (text : String) : String := String.ofList (dropBlanksEnd (dropBlanks text.toList))

theorem dropBlanks_cons {letter : Char} (solid : isBlank letter = false) (letters : List Char) :
    dropBlanks (letter :: letters) = letter :: letters := by
  unfold dropBlanks
  rw [List.dropWhile_cons, if_neg (by rw [solid]; exact Bool.false_ne_true)]

/-- Trailing blanks end before a letter that is none, whatever stands before it. -/
theorem dropBlanksEnd_append (letters : List Char) {letter : Char} {rest : List Char}
    (solid : isBlank letter = false) (inside : letter ∈ rest) :
    dropBlanksEnd (letters ++ rest) = letters ++ dropBlanksEnd rest := by
  unfold dropBlanksEnd dropBlanks
  have kept : (rest.reverse.dropWhile isBlank).isEmpty = false := by
    rw [Bool.eq_false_iff, Ne, List.isEmpty_iff]
    intro none
    have blank : rest.reverse.all isBlank = true := by
      rw [← Bool.not_eq_false', ← List.any_dropWhile, none, List.any_nil]
    rw [List.all_eq_true.mp blank letter (List.mem_reverse.mpr inside)] at solid
    cases solid
  rw [List.reverse_append, List.dropWhile_append, kept]
  simp

/-- **Trimming leaves alone what stands between two letters that are no blanks.** -/
theorem trim_append {start rest : String} {first letter : Char} {letters : List Char}
    (head : start.toList = first :: letters) (solid : isBlank first = false)
    (stays : isBlank letter = false) (inside : letter ∈ rest.toList) :
    trim (start ++ rest) = start ++ trimEnd rest := by
  unfold trim trimEnd
  rw [String.toList_append, head, List.cons_append, dropBlanks_cons solid, ← List.cons_append,
    ← head, dropBlanksEnd_append _ stays inside, String.ofList_append, String.ofList_toList]

theorem trim_blank_append {text : String} {first : Char} {letters : List Char}
    (head : text.toList = first :: letters) (solid : isBlank first = false) :
    trim (" " ++ text) = trimEnd text := by
  have leading : dropBlanks (' ' :: first :: letters) = first :: letters := by
    unfold dropBlanks
    rw [List.dropWhile_cons_of_pos (by rfl)]
    exact dropBlanks_cons solid letters
  unfold trim trimEnd
  rw [String.toList_append, head]
  exact congrArg (fun kept => String.ofList (dropBlanksEnd kept)) leading

end WithClause.Text
