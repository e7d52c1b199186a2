/-
**Digits.**

Naturals and integers as decimal text, with leading zeros where a fixed width is asked for; the
natural that a run of digits stands for, in decimal and in other bases; and characters by their
code.
-/

namespace WithClause.Text

/-- The decimal digits of a natural, with zeros in front up to a width. -/
def padded (width natural : Nat) : List Char :=
  let digits := Nat.toDigits 10 natural
  List.replicate (width - digits.length) '0' ++ digits

/-- The natural that a list of decimal digits stands for. -/
def digitsValue (digits : List Char) : Nat := Nat.ofDigitChars 10 digits 0

/-- An integer in decimal, with a sign when it is below zero. -/
def integer (number : Int) : String :=
  if number < 0 then "-" ++ number.natAbs.repr else number.natAbs.repr

/-- The value of a digit in bases up to sixteen, letters of either case. -/
def hexDigitValue (digit : Char) : Nat :=
  if digit.isDigit then digit.toNat - '0'.toNat
  else if 'a' ≤ digit ∧ digit ≤ 'f' then digit.toNat - 'a'.toNat + 10
  else digit.toNat - 'A'.toNat + 10

/-- Whether a character is a digit to the base sixteen. -/
def isHexDigit (digit : Char) : Bool :=
  digit.isDigit || ('a' ≤ digit && digit ≤ 'f') || ('A' ≤ digit && digit ≤ 'F')

/-- The natural that a list of digits stands for in a base up to sixteen. -/
def valueInBase (base : Nat) (digits : List Char) : Nat :=
  digits.foldl (fun sofar digit => base * sofar + hexDigitValue digit) 0

/-- The character with a code, unless the code is a surrogate or too large. -/
def letterOfCode? (code : Nat) : Option Char :=
  if code.isValidChar then some (Char.ofNat code) else none

/-! ### Digits of naturals -/

end WithClause.Text
