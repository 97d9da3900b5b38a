/-
**Calendar text of an instant.**

An instant is a number of seconds since 1 January 1970, Universal Time.  Days are counted in the
proleptic Gregorian calendar, in cycles of 400 years that begin on 1 March, so that the leap day ends
its year.

Main definitions:

* `ComputedFields.CivilDate.ofDays` — the date a number of days after 1 January 1970;
* `ComputedFields.Instant` — seconds since that day;
* `ComputedFields.Instant.dateText`, `ComputedFields.Instant.dateTimeText` — date, and date with
  time of day, as SQL writes them.
-/

set_option relaxedAutoImplicit false
set_option autoImplicit false

namespace ComputedFields

/-- A day of the Gregorian calendar. -/
structure CivilDate where
  year : Int
  month : Int
  day : Int
  deriving DecidableEq, Repr

/-- The date that lies `days` days after 1 January 1970. -/
def CivilDate.ofDays (days : Int) : CivilDate :=
  let shifted := days + 719468
  let cycle := shifted / 146097
  let dayOfCycle := shifted % 146097
  let yearOfCycle :=
    (dayOfCycle - dayOfCycle / 1460 + dayOfCycle / 36524 - dayOfCycle / 146096) / 365
  let dayOfYear := dayOfCycle - (365 * yearOfCycle + yearOfCycle / 4 - yearOfCycle / 100)
  let marchMonth := (5 * dayOfYear + 2) / 153
  let month := if marchMonth < 10 then marchMonth + 3 else marchMonth - 9
  { year := yearOfCycle + cycle * 400 + if month ≤ 2 then 1 else 0
    month := month
    day := dayOfYear - (153 * marchMonth + 2) / 5 + 1 }

/-- A natural number with leading zeros up to a width. -/
def padded (width n : Nat) : String :=
  let digits := Nat.toDigits 10 n
  String.ofList (List.replicate (width - digits.length) '0' ++ digits)

/-- A year has four digits, and a sign when four digits do not hold it. -/
def yearText (year : Int) : String :=
  if year < 0 then "-" ++ padded 4 year.natAbs
  else if year ≤ 9999 then padded 4 year.natAbs
  else "+" ++ padded 4 year.natAbs

/-- An instant: seconds since the beginning of 1 January 1970, Universal Time. -/
structure Instant where
  seconds : Int
  deriving DecidableEq, Repr

namespace Instant

/-- The date as `YYYY-MM-DD`. -/
def dateText (t : Instant) : String :=
  let date := CivilDate.ofDays (t.seconds / 86400)
  yearText date.year ++ "-" ++ padded 2 date.month.natAbs ++ "-" ++ padded 2 date.day.natAbs

/-- The time of day as `HH:MM:SS`. -/
def timeText (t : Instant) : String :=
  let second := t.seconds % 86400
  padded 2 (second / 3600).natAbs ++ ":" ++ padded 2 (second / 60 % 60).natAbs ++ ":" ++
    padded 2 (second % 60).natAbs

/-- Date and time of day, with a space between them. -/
def dateTimeText (t : Instant) : String := t.dateText ++ " " ++ t.timeText

end Instant

end ComputedFields
