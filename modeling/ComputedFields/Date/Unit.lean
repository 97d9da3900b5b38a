/-
**Units of time.**

Date functions count in units.  A short name is written in its own case (`m` is a minute, `M` a
month), a long one in any, in the singular or the plural.

Main definitions:

* `ComputedFields.DateUnit` — the units, read from text by `ComputedFields.DateUnit.ofText?`;
* `ComputedFields.DateUnit.seconds?` — the length of a unit that has a fixed one;
* `ComputedFields.DatePart` — the parts of a date that functions extract.
-/

import ComputedFields.Text.Blank

set_option relaxedAutoImplicit false
set_option autoImplicit false

namespace ComputedFields

/-- A unit of time. -/
inductive DateUnit where
  | millisecond
  | second
  | minute
  | hour
  | day
  | week
  | month
  | quarter
  | year
  deriving DecidableEq, Repr

namespace DateUnit

/-- The unit of a short name. -/
def ofShort? : String → Option DateUnit
  | "ms" => some .millisecond
  | "s" => some .second
  | "m" => some .minute
  | "h" => some .hour
  | "d" => some .day
  | "w" => some .week
  | "M" => some .month
  | "Q" => some .quarter
  | "y" => some .year
  | _ => none

/-- The unit of a long name in the singular. -/
def ofLong? : String → Option DateUnit
  | "millisecond" => some .millisecond
  | "second" => some .second
  | "minute" => some .minute
  | "hour" => some .hour
  | "day" => some .day
  | "week" => some .week
  | "month" => some .month
  | "quarter" => some .quarter
  | "year" => some .year
  | _ => none

/-- The name in lower case and without the `s` at its end. -/
def singular (name : String) : String :=
  String.ofList ((name.toList.map Char.toLower).reverse.dropWhile (· = 's')).reverse

/-- The unit that a text names, with blanks around it or not. -/
def ofText? (text : String) : Option DateUnit :=
  let name := Text.trim text
  (ofShort? name).or (ofLong? (singular name))

/-- The seconds of a unit of fixed length, as a decimal. -/
def seconds? : DateUnit → Option String
  | .millisecond => some "0.001"
  | .second => some "1.0"
  | .minute => some "60.0"
  | .hour => some "3600.0"
  | .day => some "86400.0"
  | .week => some "604800.0"
  | .month | .quarter | .year => none

end DateUnit

/-- A part of a date. -/
inductive DatePart where
  | year
  | month
  | week
  | day
  | dayOfWeek
  | hour
  | minute
  | second
  deriving DecidableEq, Repr

end ComputedFields
