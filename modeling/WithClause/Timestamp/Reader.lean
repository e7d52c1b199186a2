/-
**Reading a timestamp.**

The reader takes more than `iso` writes: blanks before and after each number, one digit where two
are written, a fraction of any length, of which nine digits count. A year without a sign has at
most four digits. The second 60 is the leap second after second 59, in any minute.
-/

import WithClause.Text.Scan
import WithClause.Timestamp

namespace WithClause.Timestamp

/-- One or two digits, after blanks. -/
def scanPart : Scan Nat := do
  Scan.skipBlanks
  let digits ← Scan.digitsUpTo 2
  return Text.digitsValue digits

/-- A year, after blanks: up to four digits, or a sign and any number of digits. -/
def scanYear : Scan Int := do
  Scan.skipBlanks
  let sign ← Scan.optional (Scan.satisfy fun letter => letter == '+' || letter == '-')
  match sign with
  | none =>
    let digits ← Scan.digitsUpTo 4
    return Text.digitsValue digits
  | some sign =>
    let digits ← Scan.takeWhile1 Char.isDigit
    return if sign == '-' then -(Text.digitsValue digits : Int) else Text.digitsValue digits

/-- A separator, after blanks. -/
def scanMark (mark : Char) : Scan Unit := do
  Scan.skipBlanks
  Scan.letter mark

/-- A point and a fraction in nanoseconds; digits after the ninth are passed over. -/
def scanFraction : Scan Nat := do
  Scan.letter '.'
  let digits ← Scan.digitsUpTo 9
  Scan.skipWhile Char.isDigit
  return Text.digitsValue (digits ++ List.replicate (9 - digits.length) '0')

/-- The time of a second that is shown: second 60 is a leap second. -/
def timeOfShown? (hour minute shown nano : Nat) : Option TimeOfDay :=
  if shown = 60 then TimeOfDay.of? hour minute 59 (1000000000 + nano)
  else if nano < 1000000000 then TimeOfDay.of? hour minute shown nano
  else none

/-- A timestamp with blanks around it. -/
def scan : Scan Timestamp := do
  let year ← scanYear
  scanMark '-'
  let month ← scanPart
  scanMark '-'
  let day ← scanPart
  scanMark 'T'
  let hour ← scanPart
  scanMark ':'
  let minute ← scanPart
  scanMark ':'
  let second ← scanPart
  let fraction ← Scan.optional scanFraction
  Scan.skipBlanks
  let date ← Scan.demand (CalendarDay.of? year month day)
  let time ← Scan.demand (timeOfShown? hour minute second (fraction.getD 0))
  return ⟨date, time⟩

/-- The timestamp that a text shows, if it shows one. -/
def ofText? (text : String) : Option Timestamp := Scan.whole scan text

end WithClause.Timestamp
