/-
**JSON numbers.**

An integer that fits 64 bits with a sign is an integer. Every other number is a double, which need
not be the nearest one: the digits are gathered into a significand of 64 bits, as long as the next
one fits, and the significand is then rounded and multiplied or divided by a rounded power of ten.
A number beyond the doubles is refused.
-/

import WithClause.Binary64.Decimal
import WithClause.Text.Scan

namespace WithClause.Json

/-- A JSON number. -/
inductive Number where
  /-- An integer of 64 bits. -/
  | integer (value : Int64)
  /-- Any other number. -/
  | real (value : Binary64)

/-- Takes digits into a significand as long as 64 bits hold it, and answers how many were left
out. -/
def gather (significand : Nat) : List Char → Nat × Nat
  | [] => (significand, 0)
  | digit :: rest =>
    let next := 10 * significand + Text.hexDigitValue digit
    if next < UInt64.size then gather next rest else (significand, rest.length + 1)

/-- The double nearest to a power of ten. -/
def powerOfTen (power : Nat) : Binary64 := .ofDecimal false 1 power

/-- Scales a double by a power of ten, in one rounded step where the power is a finite double;
nothing past the largest double. -/
def scaleByTen (number : Binary64) (power : Int) : Option Binary64 :=
  if 308 < power then
    if number.isZero then some number else none
  else if 0 ≤ power then
    let product := number.mul (powerOfTen power.toNat)
    if product.isInfinite then none else some product
  else if -308 ≤ power then some (number.div (powerOfTen (-power).toNat))
  else if number.isZero then some number
  else scaleByTen (number.div (powerOfTen 308)) (power + 308)
termination_by (-power).toNat
decreasing_by omega

/-- The number without fraction and exponent: an integer if it fits, and no integer is minus
zero. -/
def ofInteger (negative : Bool) (magnitude : Nat) : Number :=
  let value : Int := if negative then -magnitude else magnitude
  if Int64.minValue.toInt ≤ value ∧ value ≤ Int64.maxValue.toInt ∧ ¬(negative ∧ magnitude = 0) then
    .integer (Int64.ofInt value)
  else
    let rounded := Binary64.ofNat magnitude
    .real (if negative then rounded.neg else rounded)

/-- The digits before the point: no zero in front of others. -/
def scanWhole : Scan (List Char) := do
  let digits ← Scan.takeWhile1 Char.isDigit
  Scan.require (digits.head? != some '0' || digits.length == 1)
  return digits

/-- A point and digits. -/
def scanFraction : Scan (List Char) := do
  Scan.letter '.'
  Scan.takeWhile1 Char.isDigit

/-- The letter `e`, a sign and digits. -/
def scanExponent : Scan Int := do
  let _ ← Scan.satisfy fun letter => letter == 'e' || letter == 'E'
  let sign ← Scan.optional (Scan.satisfy fun letter => letter == '+' || letter == '-')
  let digits ← Scan.takeWhile1 Char.isDigit
  return if sign == some '-' then -(Text.digitsValue digits : Int) else Text.digitsValue digits

def scanNumber : Scan Number := do
  let minus ← Scan.optional (Scan.letter '-')
  let negative := minus.isSome
  let digits ← scanWhole
  let fraction ← Scan.optional scanFraction
  let exponent ← Scan.optional scanExponent
  let (wholeDigits, spilled) := gather 0 digits
  if fraction.isNone ∧ exponent.isNone ∧ spilled = 0 then
    return ofInteger negative wholeDigits
  else
    let places := fraction.getD []
    let (significand, ignored) := gather wholeDigits places
    let power : Int := spilled - (places.length - ignored : Nat) + exponent.getD 0
    let value ← Scan.demand (scaleByTen (.ofNat significand) power)
    return .real (if negative then value.neg else value)

end WithClause.Json
