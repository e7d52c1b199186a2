/-
**TOML numbers.**

Digits may be parted by single underscores. A decimal integer has a sign or none and no zero in
front; integers to the bases sixteen, eight and two follow `0x`, `0o` and `0b`. Integers have 64
bits. A number with a fraction or an exponent is the nearest double; one that is too large for the
doubles is refused, unless it is negative.
-/

import WithClause.Binary64.Decimal
import WithClause.Text.Scan

namespace WithClause.Toml

/-- A digit, and further digits with single underscores between them. -/
def digitRun (test : Char → Bool) : Scan (List Char) := do
  let first ← Scan.satisfy test
  let others ← Scan.many (do
    let _ ← Scan.optional (Scan.letter '_')
    Scan.satisfy test)
  return first :: others

/-- A sign, if there is one: whether it is a minus. -/
def minusSign : Scan Bool := do
  let sign ← Scan.optional (Scan.satisfy fun letter => letter == '+' || letter == '-')
  return sign == some '-'

/-- The digits of a decimal integer: a zero alone, or digits that start with another one. -/
def decimalDigits : Scan (List Char) :=
  Scan.orElse
    (do Scan.ahead (Scan.satisfy (· != '0')); digitRun Char.isDigit)
    (do return [← Scan.satisfy Char.isDigit])

/-- The integer of 64 bits with a value. -/
def integerOf (value : Int) : Scan Int64 := do
  Scan.require (Int64.minValue.toInt ≤ value && value ≤ Int64.maxValue.toInt)
  return Int64.ofInt value

/-- An integer to another base after its mark. -/
def basedInteger (mark : Char) (base : Nat) (test : Char → Bool) : Scan Int64 := do
  Scan.word ['0', mark]
  let digits ← digitRun test
  integerOf (Text.valueInBase base digits)

def decimalInteger : Scan Int64 := do
  let negative ← minusSign
  let digits ← decimalDigits
  let magnitude : Int := Text.digitsValue digits
  integerOf (if negative then -magnitude else magnitude)

def integer : Scan Int64 :=
  Scan.oneOf [
    basedInteger 'x' 16 Text.isHexDigit,
    basedInteger 'o' 8 fun digit => '0' ≤ digit && digit ≤ '7',
    basedInteger 'b' 2 fun digit => digit == '0' || digit == '1',
    decimalInteger]

/-- The letter `e`, a sign and digits. -/
def exponent : Scan Int := do
  let _ ← Scan.satisfy fun letter => letter == 'e' || letter == 'E'
  let negative ← minusSign
  let digits ← digitRun Char.isDigit
  let magnitude : Int := Text.digitsValue digits
  return if negative then -magnitude else magnitude

/-- A number with a fraction or an exponent. -/
def decimalFloat : Scan Binary64 := do
  let negative ← minusSign
  let digits ← decimalDigits
  let places ← Scan.optional (do Scan.letter '.'; digitRun Char.isDigit)
  let power ← Scan.optional exponent
  Scan.require (places.isSome || power.isSome)
  let fraction := places.getD []
  let value := Binary64.ofDecimal negative (Text.digitsValue (digits ++ fraction))
    (power.getD 0 - fraction.length)
  Scan.require (negative || !value.isInfinite)
  return value

/-- Infinity or the number that is none, with or without a sign. -/
def specialFloat : Scan Binary64 := do
  let negative ← minusSign
  Scan.orElse
    (do Scan.word "inf".toList; return Binary64.infinity negative)
    (do Scan.word "nan".toList; return Binary64.nan negative)

def float : Scan Binary64 := Scan.orElse decimalFloat specialFloat

end WithClause.Toml
