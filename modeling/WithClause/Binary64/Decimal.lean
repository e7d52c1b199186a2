/-
**Doubles in decimal.**

* `ofDecimal`: the double nearest to a decimal number, whatever its length and exponent.
* `shortest`: the decimal of the coarsest decimal grid that reads back as the number, the one
  nearest to it if the grid has two; of two equally near ones the larger.
* `text`: that decimal written out positionally, without an exponent and without a point where no
  digit follows it.
-/

import WithClause.Binary64.Rounding

namespace WithClause.Binary64

/-- The number of decimal digits of a natural; zero has one. -/
def digitCount (natural : Nat) : Nat := (Nat.toDigits 10 natural).length

/-- The double nearest to `digits * 10 ^ power` with a sign. Exponents far outside the range of
doubles are answered without computing the power. -/
def ofDecimal (negative : Bool) (digits : Nat) (power : Int) : Binary64 :=
  let leading := (digitCount digits : Int) + power
  if digits = 0 ∨ leading < -400 then ofMagnitude negative 0
  else if 400 < leading then infinity negative
  else ofRatio negative (.scaled digits 10 power)

/-! ### The shortest decimal -/

/-- A decimal number `digits * 10 ^ power`. -/
structure Decimal where
  digits : Nat
  power : Int

/-- The reals that round to a finite number that is not zero: between two exact ends, which belong
to it when `closed`. All three quotients share one denominator. -/
structure Interval where
  lower : Nat
  centre : Nat
  upper : Nat
  den : Nat
  closed : Bool

/-- The rounding interval: half way to the neighbours, of which the lower one is nearer where the
exponent changes. -/
def interval (number : Binary64) : Interval :=
  let below := if number.fraction = 0 ∧ 1 < number.exponentField then 1 else 2
  let unit := Ratio.scaled 1 2 (number.scale - 2)
  { lower := (4 * number.significand - below) * unit.num
    centre := 4 * number.significand * unit.num
    upper := (4 * number.significand + 2) * unit.num
    den := unit.den
    closed := number.significand % 2 == 0 }

/-- Whether `digits * 10 ^ power` rounds to the number of the interval. -/
def Interval.covers (range : Interval) (decimal : Decimal) : Bool :=
  let value := Ratio.scaled decimal.digits 10 decimal.power
  let scaled := value.num * range.den
  if range.closed then
    range.lower * value.den ≤ scaled && scaled ≤ range.upper * value.den
  else range.lower * value.den < scaled && scaled < range.upper * value.den

/-- The decimal on the grid of multiples of `10 ^ power` that rounds to the number, if there is
one: of the two around the number the nearer that does, a tie going up. -/
def Interval.onGrid? (range : Interval) (power : Int) : Option Decimal :=
  let value := (Ratio.mk range.centre range.den).mul (.scaled 1 10 (-power))
  let floor := value.num / value.den
  let twice := 2 * (value.num % value.den)
  let below : Decimal := ⟨floor, power⟩
  let above : Decimal := ⟨floor + 1, power⟩
  let nearer := if twice < value.den then [below, above] else [above, below]
  nearer.find? range.covers

/-- The least power of ten above the number, so that the number has no digit there. -/
def Interval.topPower (range : Interval) : Int :=
  if range.den ≤ range.centre then digitCount (range.centre / range.den)
  else 1 - (digitCount ((range.den - 1) / range.centre) : Int)

/-- Tries finer and finer grids. -/
def Interval.search (range : Interval) (power : Int) : Nat → Option Decimal
  | 0 => none
  | grids + 1 => (range.onGrid? power).or (range.search (power - 1) grids)

/-- The decimal that is written for a finite number that is not zero. Eighteen grids suffice, as
seventeen digits tell all doubles apart. -/
def shortest (number : Binary64) : Option Decimal :=
  let range := number.interval
  range.search range.topPower 18

/-! ### Text -/

/-- A decimal written out without an exponent. -/
def Decimal.positional (decimal : Decimal) : String :=
  let digits := Nat.toDigits 10 decimal.digits
  let places := (-decimal.power).toNat
  if places = 0 then String.ofList (digits ++ List.replicate decimal.power.toNat '0')
  else
    let padded := List.replicate (places + 1 - digits.length) '0' ++ digits
    let whole := padded.length - places
    String.ofList (padded.take whole ++ '.' :: padded.drop whole)

/-- The text of a number: its sign and its shortest decimal. -/
def text (number : Binary64) : String :=
  if number.isNaN then "NaN"
  else
    let sign := if number.negative then "-" else ""
    if number.isInfinite then sign ++ "inf"
    else if number.isZero then sign ++ "0"
    else sign ++ (number.shortest.map Decimal.positional).getD ""

end WithClause.Binary64
