/-
**The nearest double to an exact quotient.**

An operation on numbers is computed exactly as a quotient of two naturals and rounded once: to the
nearest multiple of the power of two that leaves 53 bits (fewer below the normal range), a half to
the even neighbour, and to infinity past the largest finite number.
-/

import WithClause.Binary64

namespace WithClause

/-- A quotient of naturals, not reduced. -/
structure Ratio where
  num : Nat
  /-- What it is divided by; not zero in any quotient built here. -/
  den : Nat

namespace Ratio

/-- The quotient `factor * base ^ power`. -/
def scaled (factor base : Nat) (power : Int) : Ratio :=
  if 0 ≤ power then ⟨factor * Nat.pow base power.toNat, 1⟩
  else ⟨factor, Nat.pow base (-power).toNat⟩

def mul (first second : Ratio) : Ratio := ⟨first.num * second.num, first.den * second.den⟩

def div (first second : Ratio) : Ratio := ⟨first.num * second.den, first.den * second.num⟩

/-- The nearest natural; a half goes to the even neighbour. -/
def round (ratio : Ratio) : Nat :=
  let quotient := ratio.num / ratio.den
  let twice := 2 * (ratio.num % ratio.den)
  if twice < ratio.den ∨ (twice = ratio.den ∧ quotient % 2 = 0) then quotient else quotient + 1

end Ratio

namespace Binary64

/-- The size of a finite number, without its sign. -/
def size (number : Binary64) : Ratio := .scaled number.significand 2 number.scale

/-- The power of two whose multiples are the doubles around a quotient that is not zero: the
quotient is between `2 ^ 52` and `2 ^ 53` of them, or the power is the least there is. -/
def unitPower (ratio : Ratio) : Int :=
  let power : Int := (ratio.num.log2 : Int) - ratio.den.log2 - 52
  let filled := ratio.mul (.scaled 1 2 (-power))
  max (-1074) (if filled.num < exponentBit * filled.den then power - 1 else power)

/-- The double nearest to a quotient with a sign. -/
def ofRatio (negative : Bool) (ratio : Ratio) : Binary64 :=
  if ratio.num = 0 then ofMagnitude negative 0
  else
    let power := unitPower ratio
    let count := (ratio.mul (.scaled 1 2 (-power))).round
    ofMagnitude negative (min infinityMagnitude ((power + 1074).toNat * exponentBit + count))

def ofNat (natural : Nat) : Binary64 := ofRatio false ⟨natural, 1⟩

/-- The rounded product of two finite numbers. -/
def mul (first second : Binary64) : Binary64 :=
  ofRatio (first.negative != second.negative) (first.size.mul second.size)

/-- The rounded quotient of two finite numbers, the second not zero. -/
def div (first second : Binary64) : Binary64 :=
  ofRatio (first.negative != second.negative) (first.size.div second.size)

def neg (number : Binary64) : Binary64 := ofMagnitude (!number.negative) number.magnitude

end Binary64

end WithClause
