/-
**Double precision numbers by their bits.**

A number is its 64 bits: a sign, an eleven-bit exponent field and a 52-bit fraction. A finite
number is `significand * 2 ^ scale` with its sign, exactly. Nothing here computes in floating
point.

* `agrees`: the comparison of numbers, in which a NaN agrees with nothing and the two zeros agree;
* `agrees_self_iff`: it holds of a number and itself unless the number is a NaN.
-/

namespace WithClause

/-- A double precision number, given by its bits. -/
structure Binary64 where
  /-- Sign, exponent field and fraction, from the highest bit down. -/
  bits : UInt64
deriving DecidableEq, Inhabited

namespace Binary64

/-- The place value of the sign. -/
def signBit : Nat := 0x8000000000000000

/-- The place value of the lowest bit of the exponent field, and of the bit that is not written in
front of most fractions. -/
def exponentBit : Nat := 0x10000000000000

def negative (number : Binary64) : Bool := decide (signBit ≤ number.bits.toNat)

/-- The eleven bits below the sign. -/
def exponentField (number : Binary64) : Nat := number.bits.toNat / exponentBit % 2048

/-- The lowest 52 bits. -/
def fraction (number : Binary64) : Nat := number.bits.toNat % exponentBit

/-- The bits without the sign. -/
def magnitude (number : Binary64) : Nat := number.bits.toNat % signBit

/-- No number: a full exponent field with a fraction. -/
def isNaN (number : Binary64) : Bool := number.exponentField == 2047 && number.fraction != 0

/-- Beyond all finite numbers, on either side. -/
def isInfinite (number : Binary64) : Bool := number.exponentField == 2047 && number.fraction == 0

/-- Zero of either sign. -/
def isZero (number : Binary64) : Bool := number.magnitude == 0

/-- The integer factor of a finite number. -/
def significand (number : Binary64) : Nat :=
  if number.exponentField = 0 then number.fraction else exponentBit + number.fraction

/-- The power of two by which the integer factor of a finite number is scaled. -/
def scale (number : Binary64) : Int :=
  if number.exponentField = 0 then -1074 else (number.exponentField : Int) - 1075

/-- Puts a sign before the 63 lower bits. -/
def ofMagnitude (negative : Bool) (magnitude : Nat) : Binary64 :=
  ⟨UInt64.ofNat (magnitude + if negative then signBit else 0)⟩

/-- The 63 lower bits of infinity; every finite magnitude is below them. -/
def infinityMagnitude : Nat := 2047 * exponentBit

def infinity (negative : Bool) : Binary64 := ofMagnitude negative infinityMagnitude

def nan (negative : Bool) : Binary64 := ofMagnitude negative (infinityMagnitude + exponentBit / 2)

/-- Equality of the numbers meant: never of a NaN, always of two zeros. -/
def agrees (first second : Binary64) : Bool :=
  !first.isNaN && !second.isNaN && (first == second || (first.isZero && second.isZero))

theorem agrees_self_iff (number : Binary64) :
    number.agrees number = true ↔ number.isNaN = false := by
  simp [agrees]

end Binary64

end WithClause
