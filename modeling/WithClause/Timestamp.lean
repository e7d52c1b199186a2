/-
**Dates with a time of day, without a zone.**

A timestamp is a day of the Gregorian calendar (continued backwards, with a year zero) and a time
of day to the nanosecond. The times are those that are made from an hour, a minute, a second and
nanoseconds, counted from the start of 1970 or read from a text: among these a leap second is the
second 59 with a billion nanoseconds or more. Both parts carry the proof that they exist, so no
timestamp has a 30 February.

* `iso`: the text with a `T`, a fraction of three, six or nine digits where there is one, and a
  sign before years of other than four digits;
* `toTheSecond`: the text with a space and without a fraction;
* `ofEpoch?`: the timestamp some seconds after the start of 1970.
-/

import WithClause.Text.Digits

namespace WithClause

/-- Whether a year has a 29 February. -/
def isLeapYear (year : Int) : Bool := year % 4 == 0 && (year % 100 != 0 || year % 400 == 0)

/-- The number of days of a month; zero for what is no month. -/
def daysInMonth (year : Int) (month : Nat) : Nat :=
  match month with
  | 1 | 3 | 5 | 7 | 8 | 10 | 12 => 31
  | 4 | 6 | 9 | 11 => 30
  | 2 => if isLeapYear year then 29 else 28
  | _ => 0

/-- A day of the calendar. -/
structure CalendarDay where
  /-- The year; zero is the year before one. -/
  year : Int
  month : Nat
  day : Nat
  inRange : -262143 ≤ year ∧ year ≤ 262142
  exists_day : 1 ≤ day ∧ day ≤ daysInMonth year month
deriving DecidableEq

/-- A time of day that its numbers or a text can make. A time whose nanoseconds are changed to a
billion or more after another second than 59 is none: its text would show the next second. -/
structure TimeOfDay where
  hour : Nat
  minute : Nat
  /-- The second; a leap second counts as 59. -/
  second : Nat
  /-- The nanoseconds; a billion or more within a leap second. -/
  nano : Nat
  onClock : hour < 24 ∧ minute < 60 ∧ second < 60
  /-- No other second than 59 is made with a leap second behind it. -/
  inSecond : nano < 1000000000 ∨ (second = 59 ∧ nano < 2000000000)
deriving DecidableEq

/-- A day with a time of day. -/
structure Timestamp where
  date : CalendarDay
  time : TimeOfDay
deriving DecidableEq

namespace CalendarDay

/-- The day of a year, month and day of the month, if there is one. -/
def of? (year : Int) (month day : Nat) : Option CalendarDay :=
  if inRange : -262143 ≤ year ∧ year ≤ 262142 then
    if exists_day : 1 ≤ day ∧ day ≤ daysInMonth year month then
      some ⟨year, month, day, inRange, exists_day⟩
    else none
  else none

/-- The day a number of days after 1 January 1970. Years are counted from March, so that the
leap day is the last day of a year, in eras of 400 years. -/
def ofEpochDay? (days : Int) : Option CalendarDay :=
  let shifted := days + 719468
  let era := shifted / 146097
  let dayOfEra := (shifted % 146097).toNat
  let yearOfEra := (dayOfEra - dayOfEra / 1460 + dayOfEra / 36524 - dayOfEra / 146096) / 365
  let dayOfYear := dayOfEra - (365 * yearOfEra + yearOfEra / 4 - yearOfEra / 100)
  let monthFromMarch := (5 * dayOfYear + 2) / 153
  let day := dayOfYear - (153 * monthFromMarch + 2) / 5 + 1
  let month := if monthFromMarch < 10 then monthFromMarch + 3 else monthFromMarch - 9
  of? (era * 400 + yearOfEra + if month ≤ 2 then 1 else 0) month day

/-- The year: four digits, or a sign and at least four digits where these do not suffice. -/
def yearLetters (year : Int) : List Char :=
  if 0 ≤ year ∧ year ≤ 9999 then Text.padded 4 year.natAbs
  else (if year < 0 then '-' else '+') :: Text.padded 4 year.natAbs

/-- Year, month and day with hyphens. -/
def letters (date : CalendarDay) : List Char :=
  yearLetters date.year ++ '-' :: Text.padded 2 date.month ++ '-' :: Text.padded 2 date.day

end CalendarDay

namespace TimeOfDay

/-- The time of an hour, a minute, a second and nanoseconds, if the clock shows it. -/
def of? (hour minute second nano : Nat) : Option TimeOfDay :=
  if onClock : hour < 24 ∧ minute < 60 ∧ second < 60 then
    if inSecond : nano < 1000000000 ∨ (second = 59 ∧ nano < 2000000000) then
      some ⟨hour, minute, second, nano, onClock, inSecond⟩
    else none
  else none

/-- The second that is shown, which is 60 within a leap second. -/
def shownSecond (time : TimeOfDay) : Nat := time.second + time.nano / 1000000000

/-- Hour, minute and second with colons. -/
def letters (time : TimeOfDay) : List Char :=
  Text.padded 2 time.hour ++ ':' :: Text.padded 2 time.minute ++
    ':' :: Text.padded 2 time.shownSecond

/-- The fraction of a second: nothing, or a point and as many groups of three digits as it takes. -/
def fractionLetters (time : TimeOfDay) : List Char :=
  let fraction := time.nano % 1000000000
  if fraction = 0 then []
  else if fraction % 1000000 = 0 then '.' :: Text.padded 3 (fraction / 1000000)
  else if fraction % 1000 = 0 then '.' :: Text.padded 6 (fraction / 1000)
  else '.' :: Text.padded 9 fraction

end TimeOfDay

namespace Timestamp

/-- The timestamp of its seven numbers, if it exists. -/
def of? (year : Int) (month day hour minute second nano : Nat) : Option Timestamp := do
  let date ← CalendarDay.of? year month day
  let time ← TimeOfDay.of? hour minute second nano
  return ⟨date, time⟩

/-- The timestamp a number of seconds after the start of 1970, and nanoseconds after that. -/
def ofEpoch? (seconds : Int) (nano : Nat) : Option Timestamp := do
  let ofDay := (seconds % 86400).toNat
  let date ← CalendarDay.ofEpochDay? (seconds / 86400)
  let time ← TimeOfDay.of? (ofDay / 3600) (ofDay / 60 % 60) (ofDay % 60) nano
  return ⟨date, time⟩

def isoLetters (stamp : Timestamp) : List Char :=
  stamp.date.letters ++ 'T' :: stamp.time.letters ++ stamp.time.fractionLetters

/-- Date and time with a `T` between them, and the fraction of the second. -/
def iso (stamp : Timestamp) : String := String.ofList stamp.isoLetters

/-- Date and time with a space between them, to the second. -/
def toTheSecond (stamp : Timestamp) : String :=
  String.ofList (stamp.date.letters ++ ' ' :: stamp.time.letters)

end Timestamp

end WithClause
