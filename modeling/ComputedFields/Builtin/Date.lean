/-
**Functions on dates and times.**

Main definitions:

* `ComputedFields.Target.timestamp` — a value as a point in time;
* `ComputedFields.Target.datePart`, `ComputedFields.Target.formatDate` — a part of a date, and a date
  after a template;
* `ComputedFields.DateFunction.difference` — the time between two dates;
* `ComputedFields.DateFunction.apply` — a call in SQL.
-/

import ComputedFields.Builtin.Call
import ComputedFields.Date.Template
import ComputedFields.Function
import ComputedFields.Schema.Field

set_option relaxedAutoImplicit false
set_option autoImplicit false

namespace ComputedFields

open Sql (Expr)

/-! ### Points in time -/

namespace Target

/-- The value as a point in time: a text is read as one. -/
def timestamp (f : Fragment) : Expr :=
  match f.type with
  | .string => .cast f.expr "timestamptz"
  | _ => f.expr

/-- The value as a time of day in the time zone of the target. -/
def localTime (t : Target) (f : Fragment) : String :=
  "(" ++ (timestamp f).render ++ " AT TIME ZONE " ++ Sql.literal t.timezone ++ ")"

/-- A part of a date by its specification, as a whole number. -/
def strftimeInt (spec : String) (value : Expr) : Expr :=
  .cast (.call "STRFTIME" [.text spec, value]) "INTEGER"

/-- A part of a date, as a whole number.  Only one of the databases knows time zones. -/
def datePart (t : Target) (part : DatePart) (f : Fragment) : Expr :=
  match t.dialect with
  | .postgres =>
      let name := match part with
        | .year => "YEAR"
        | .month => "MONTH"
        | .week => "WEEK"
        | .day => "DAY"
        | .dayOfWeek => "DOW"
        | .hour => "HOUR"
        | .minute => "MINUTE"
        | .second => "SECOND"
      .verbatim ("CAST(EXTRACT(" ++ name ++ " FROM " ++ t.localTime f ++ ") AS integer)")
  | .sqlite =>
      let spec := match part with
        | .year => "%Y"
        | .month => "%m"
        | .week => "%W"
        | .day => "%d"
        | .dayOfWeek => "%w"
        | .hour => "%H"
        | .minute => "%M"
        | .second => "%S"
      strftimeInt spec f.expr

/-- A token that no specification covers. -/
def computedToken (value : Expr) : DateToken → Expr
  | .shortYear => .call "SUBSTR" [.call "STRFTIME" [.text "%Y", value], .number "3"]
  | .milliseconds => .call "SUBSTR" [.call "STRFTIME" [.text "%f", value], .number "4"]
  | .month => .cast (strftimeInt "%m" value) "TEXT"
  | .day => .cast (strftimeInt "%d" value) "TEXT"
  | .hour => .cast (strftimeInt "%H" value) "TEXT"
  | _ => .case [(.binary (strftimeInt "%H" value) .lt (.number "12"), .text "AM")] (some (.text "PM"))

/-- A part of a formatted date. -/
def formatPart (value : Expr) : FormatPart → Expr
  | .spec text => .call "STRFTIME" [.text (String.ofList text), value]
  | .computed token => computedToken value token

/-- Parts of a text, joined. -/
def joinParts : List Expr → Expr
  | [] => .text ""
  | [part] => part
  | parts => .chain .concat parts

/-- A date after a template. -/
def formatDate (t : Target) (f : Fragment) (template : String) : Expr :=
  match t.dialect with
  | .postgres =>
      .call "TO_CHAR" [.verbatim (t.localTime f), t.stringLiteral (toCharPattern template)]
  | .sqlite => joinParts ((formatParts template).map (formatPart f.expr))

end Target

/-! ### Units in SQL -/

namespace DateUnit

/-- The interval of a unit. -/
def interval : DateUnit → String
  | .millisecond => "1 millisecond"
  | .second => "1 second"
  | .minute => "1 minute"
  | .hour => "1 hour"
  | .day => "1 day"
  | .week => "1 week"
  | .month => "1 month"
  | .quarter => "3 months"
  | .year => "1 year"

/-- The name of a unit to which a date is cut off. -/
def truncation : DateUnit → String
  | .millisecond => "milliseconds"
  | .second => "second"
  | .minute => "minute"
  | .hour => "hour"
  | .day => "day"
  | .week => "week"
  | .month => "month"
  | .quarter => "quarter"
  | .year => "year"

/-- The specification of what two dates in the same unit have in common. -/
def commonSpec : DateUnit → String
  | .millisecond => "%Y-%m-%d %H:%M:%f"
  | .second => "%Y-%m-%d %H:%M:%S"
  | .minute => "%Y-%m-%d %H:%M"
  | .hour => "%Y-%m-%d %H"
  | .day => "%Y-%m-%d"
  | .week => "%Y-%W"
  | .month | .quarter => "%Y-%m"
  | .year => "%Y"

/-- The unit of a date modifier, and how many of it make one unit. -/
def modifier : DateUnit → String × String
  | .millisecond => ("seconds", "0.001")
  | .second => ("seconds", "1")
  | .minute => ("minutes", "1")
  | .hour => ("hours", "1")
  | .day => ("days", "1")
  | .week => ("days", "7")
  | .month => ("months", "1")
  | .quarter => ("months", "3")
  | .year => ("years", "1")

end DateUnit

namespace DateFunction

/-! ### Differences -/

/-- The time between two dates, in a unit. -/
def differenceIn (d : Dialect) (unit : DateUnit) (l r : Fragment) : String :=
  match d with
  | .postgres =>
      let a := (Target.timestamp l).render
      let b := (Target.timestamp r).render
      match unit.seconds? with
      | some seconds => "(EXTRACT(EPOCH FROM (" ++ a ++ " - " ++ b ++ ")) / " ++ seconds ++ ")"
      | none =>
          let age := "AGE(" ++ a ++ ", " ++ b ++ ")"
          let months :=
            "(EXTRACT(YEAR FROM " ++ age ++ ") * 12 + EXTRACT(MONTH FROM " ++ age ++ "))"
          match unit with
          | .quarter => "TRUNC(" ++ months ++ " / 3)"
          | .year => "EXTRACT(YEAR FROM " ++ age ++ ")"
          | _ => months
  | .sqlite =>
      match unit.seconds? with
      | some seconds =>
          "((JULIANDAY(" ++ l.sql ++ ") - JULIANDAY(" ++ r.sql ++ ")) * 86400.0 / " ++ seconds ++ ")"
      | none =>
          let part (spec : String) (f : Fragment) := (Target.strftimeInt spec f.expr).render
          let years := "(" ++ part "%Y" l ++ " - " ++ part "%Y" r ++ ")"
          let months := "(" ++ years ++ " * 12 + " ++ part "%m" l ++ " - " ++ part "%m" r ++ ")"
          match unit with
          | .quarter => "(" ++ months ++ " / 3)"
          | .year => years
          | _ => months

/-- The time between the first two arguments, in the unit that the third one names; in days without
one. -/
def difference (t : Target) (args : List Fragment) : Except CompileError Fragment := do
  let c : Call := ⟨datetimeDiff.signature.name, args⟩
  let unit ← c.unit? 2
  let l ← c.arg 0
  let r ← c.arg 1
  .ok (.number (.verbatim (differenceIn t.dialect (unit.getD .day) l r)))

/-! ### Working days -/

/-- The date that lies so many working days after another. -/
def workdayAfter (d : Dialect) (start : Fragment) (days : String) : String :=
  match d with
  | .postgres =>
      let first := "(" ++ (Target.timestamp start).render ++ ")::date"
      "CASE WHEN " ++ days ++ " <= 0 THEN " ++ first ++
        " ELSE (SELECT MAX(w.d)::date FROM (SELECT g.d FROM generate_series(" ++ first ++ " + 1, " ++
        first ++ " + " ++ days ++ " * 2 + 7, INTERVAL '1 day') AS g(d) WHERE " ++
        "EXTRACT(ISODOW FROM g.d) < 6 ORDER BY g.d LIMIT " ++ days ++ ") AS w) END"
  | .sqlite =>
      "(WITH RECURSIVE w(d, n) AS (SELECT DATE(" ++ start.sql ++
        "), 0 UNION ALL SELECT DATE(d, '+1 day'), n + CASE WHEN STRFTIME('%w', DATE(d, '+1 day')) " ++
        "NOT IN ('0', '6') THEN 1 ELSE 0 END FROM w WHERE n < " ++ days ++ ") SELECT MAX(d) FROM w)"

/-- The number of working days from one date to another. -/
def workdaysBetween (d : Dialect) (first last : Fragment) : String :=
  match d with
  | .postgres =>
      "(SELECT COUNT(*) FROM generate_series((" ++ (Target.timestamp first).render ++ ")::date, (" ++
        (Target.timestamp last).render ++
        ")::date, INTERVAL '1 day') AS g(d) WHERE EXTRACT(ISODOW FROM g.d) < 6)"
  | .sqlite =>
      "(WITH RECURSIVE w(d) AS (SELECT DATE(" ++ first.sql ++
        ") UNION ALL SELECT DATE(d, '+1 day') FROM w WHERE d < DATE(" ++ last.sql ++
        ")) SELECT COUNT(*) FROM w WHERE STRFTIME('%w', d) NOT IN ('0', '6'))"

/-! ### Comparisons -/

/-- A date cut off to a unit, or the whole date. -/
def comparable (d : Dialect) (unit : Option DateUnit) (f : Fragment) : Expr :=
  match d, unit with
  | .postgres, none => Target.timestamp f
  | .postgres, some u => .call "DATE_TRUNC" [.text u.truncation, Target.timestamp f]
  | .sqlite, none => .call "DATETIME" [f.expr]
  | .sqlite, some .quarter =>
      .verbatim ("(STRFTIME('%Y', " ++ f.sql ++ ") || '-' || ((" ++
        (Target.strftimeInt "%m" f.expr).render ++ " + 2) / 3))")
  | .sqlite, some u => .call "STRFTIME" [.text u.commonSpec, f.expr]

/-- Two dates compared in the unit that the third argument names. -/
def compared (t : Target) (c : Call) (op : Sql.Op) : Except CompileError Fragment := do
  let l ← c.arg 0
  let r ← c.arg 1
  let unit ← c.unit? 2
  .ok (.boolean (.binary (comparable t.dialect unit l) op (comparable t.dialect unit r)))

/-! ### Calls -/

/-- A date so many units after another. -/
def later (d : Dialect) (unit : DateUnit) (start : Fragment) (count : Expr) : String :=
  match d with
  | .postgres =>
      "(" ++ (Target.timestamp start).render ++ " + " ++ count.render ++ " * INTERVAL '" ++
        unit.interval ++ "')"
  | .sqlite =>
      "DATETIME(" ++ start.sql ++ ", CAST((" ++ count.render ++ ") * " ++ unit.modifier.2 ++
        " AS TEXT) || ' " ++ unit.modifier.1 ++ "')"

/-- A part of the date that is the only argument. -/
def partOf (t : Target) (c : Call) (part : DatePart) : Except CompileError Fragment := do
  let value ← c.arg 0
  .ok (.number (t.datePart part value))

/-- The day of the week, from zero for the first day. -/
def weekdayOf (t : Target) (c : Call) : Except CompileError Fragment := do
  let value ← c.arg 0
  let start ← c.literal? 1
  let day := t.datePart .dayOfWeek value
  .ok (.number (if start.any fun s => s.map Char.toLower = "monday" then
      .binary (.binary day .add (.number "6")) .mod (.number "7")
    else day))

/-- A text read as a date, after a template if there is one. -/
def parsed (t : Target) (c : Call) : Except CompileError Fragment :=
  match t.dialect with
  | .postgres => do
      let template ← c.literal? 1
      let text ← c.text t 0
      .ok (.dateTime (match template with
        | some s => .call "TO_TIMESTAMP" [text, t.stringLiteral (toCharPattern s)]
        | none => .cast text "timestamptz"))
  | .sqlite => do
      let text ← c.text t 0
      .ok (.dateTime (.call "DATETIME" [text]))

/-- A call in SQL. -/
def apply (t : Target) (f : DateFunction) (args : List Fragment) :
    Except CompileError Fragment :=
  let c : Call := ⟨f.signature.name, args⟩
  match f with
  | .today => .ok t.currentDay
  | .now => .ok t.currentTime
  | .year => partOf t c .year
  | .month => partOf t c .month
  | .weekNum => partOf t c .week
  | .weekday => weekdayOf t c
  | .day => partOf t c .day
  | .hour => partOf t c .hour
  | .minute => partOf t c .minute
  | .second => partOf t c .second
  | .fromNow => do
      let date ← c.arg 0
      difference t ([t.currentTime, date] ++ args[1]?.toList)
  | .toNow => do
      let date ← c.arg 0
      difference t ([date, t.currentTime] ++ args[1]?.toList)
  | .datetimeDiff => difference t args
  | .workday => do
      let start ← c.arg 0
      let days ← c.integer t 1
      .ok (.dateTime (.verbatim (workdayAfter t.dialect start days.render)))
  | .workdayDiff => do
      let first ← c.arg 0
      let last ← c.arg 1
      .ok (.number (.verbatim (workdaysBetween t.dialect first last)))
  | .isSame => compared t c .eq
  | .isAfter => compared t c .gt
  | .isBefore => compared t c .lt
  | .dateAdd => do
      let unit ← c.unit? 2
      match unit with
      | none => .error (c.wrongType 2)
      | some u => do
          let start ← c.arg 0
          let count ← c.numeric t 1
          .ok (.dateTime (.verbatim (later t.dialect u start count)))
  | .datestr => do
      let value ← c.arg 0
      .ok (.string (t.formatDate value "YYYY-MM-DD"))
  | .timestr => do
      let value ← c.arg 0
      .ok (.string (t.formatDate value "HH:mm:ss"))
  | .datetimeFormat => do
      let template ← c.literal? 1
      let value ← c.arg 0
      .ok (.string (t.formatDate value (template.getD "YYYY-MM-DD HH:mm")))
  | .datetimeParse => parsed t c
  | .createdTime => .ok (.dateTime (t.column SystemField.createdTime.column))
  | .lastModifiedTime => .ok (.dateTime (t.column SystemField.lastModifiedTime.column))

end DateFunction

end ComputedFields
