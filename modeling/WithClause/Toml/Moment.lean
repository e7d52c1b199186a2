/-
**TOML dates and times.**

A moment is a date, a time of day, or a date and a time with or without an offset; each number has
a fixed count of digits. Its normal form has a `T` between date and time, a fraction without zeros
at its end and of at most nine digits, and a large `Z`.
-/

import WithClause.Timestamp
import WithClause.Text.Scan

namespace WithClause.Toml

/-- A number of a fixed count of digits, between bounds. -/
def fixedNumber (count least greatest : Nat) : Scan Nat := do
  let digits ← Scan.exactly count Char.isDigit
  let value := Text.digitsValue digits
  Scan.require (least ≤ value && value ≤ greatest)
  return value

/-- A date, in normal form. -/
def date : Scan (List Char) := do
  let year ← fixedNumber 4 0 9999
  Scan.letter '-'
  let month ← fixedNumber 2 1 12
  Scan.letter '-'
  let day ← fixedNumber 2 1 31
  Scan.require (day ≤ daysInMonth year month)
  return Text.padded 4 year ++ '-' :: Text.padded 2 month ++ '-' :: Text.padded 2 day

/-- Nine digits after the point at most, without the zeros at their end. -/
def fractionForm (digits : List Char) : List Char :=
  let kept := ((digits.take 9).reverse.dropWhile (· == '0')).reverse
  if kept.isEmpty then [] else '.' :: kept

/-- A time of day, in normal form. -/
def time : Scan (List Char) := do
  let hour ← fixedNumber 2 0 23
  Scan.letter ':'
  let minute ← fixedNumber 2 0 59
  Scan.letter ':'
  let second ← fixedNumber 2 0 60
  let fraction ← Scan.optional (do Scan.letter '.'; Scan.takeWhile1 Char.isDigit)
  return Text.padded 2 hour ++ ':' :: Text.padded 2 minute ++ ':' :: Text.padded 2 second ++
    fractionForm (fraction.getD [])

/-- An offset, in normal form; minus nothing is plus nothing. -/
def offset : Scan (List Char) :=
  Scan.orElse
    (do
      let _ ← Scan.satisfy fun letter => letter == 'Z' || letter == 'z'
      return ['Z'])
    (do
      let sign ← Scan.satisfy fun letter => letter == '+' || letter == '-'
      let hour ← fixedNumber 2 0 23
      Scan.letter ':'
      let minute ← fixedNumber 2 0 59
      let shown := if hour = 0 ∧ minute = 0 then '+' else sign
      return shown :: Text.padded 2 hour ++ ':' :: Text.padded 2 minute)

/-- What follows a date: a mark, a time and perhaps an offset. -/
def timeAfterDate : Scan (List Char) := do
  let _ ← Scan.satisfy fun letter => letter == 'T' || letter == 't' || letter == ' '
  let clock ← time
  let zone ← Scan.optional offset
  return 'T' :: clock ++ zone.getD []

/-- A date, a time or both, in normal form. -/
def moment : Scan String := do
  let letters ← Scan.orElse
    (do
      let day ← date
      let clock ← Scan.optional timeAfterDate
      return day ++ clock.getD [])
    time
  return String.ofList letters

end WithClause.Toml
