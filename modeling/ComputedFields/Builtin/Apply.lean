/-
**Calls of all functions.**

A function compiles if the database has what it needs, and for a generated column only if its value
depends on nothing but the record: subqueries, time zones and formats are left to queries.

Main definitions:

* `ComputedFields.Function.supported` — the functions that compile for a target;
* `ComputedFields.Function.apply` — a call in SQL.
-/

import ComputedFields.Builtin.Array
import ComputedFields.Builtin.Date
import ComputedFields.Builtin.Logical
import ComputedFields.Builtin.Numeric
import ComputedFields.Builtin.Text

set_option relaxedAutoImplicit false
set_option autoImplicit false

namespace ComputedFields

/-- A call in SQL of a function on the record itself. -/
def SystemFunction.apply (t : Target) (f : SystemFunction) (args : List Fragment) :
    Except CompileError Fragment :=
  let c : Call := ⟨f.signature.name, args⟩
  match f with
  | .recordId => .ok (.string (t.column Sql.recordId))
  | .autoNumber => .ok (.number (t.column SystemField.autoNumber.column))
  | .textAll => do
      let value ← c.arg 0
      ArrayFunction.apply t .arrayJoin [value]

namespace Function

/-- A call in SQL. -/
def apply (t : Target) (f : Function) (args : List Fragment) : Except CompileError Fragment :=
  match f with
  | .numeric g => g.apply t args
  | .text g => g.apply t args
  | .logical g => g.apply t args
  | .date g => g.apply t args
  | .array g => g.apply t args
  | .system g => g.apply t args

/-- The function compiles for a generated column of the database. -/
def generates (d : Dialect) : Function → Bool
  | .numeric .sqrt | .numeric .power => d = .postgres
  | .text .regexpReplace => d = .postgres
  | .date f =>
      match f with
      | .workday | .workdayDiff | .datetimeFormat | .datestr | .timestr | .datetimeParse => false
      | .year | .month | .weekNum | .weekday | .day | .hour | .minute | .second | .fromNow
      | .toNow | .datetimeDiff | .isSame | .isAfter | .isBefore | .dateAdd => d = .sqlite
      | .today | .now | .createdTime | .lastModifiedTime => true
  | .array .countAll => true
  | .array _ => false
  | .system .textAll => false
  | .numeric _ | .text _ | .logical _ | .system _ => true

/-- The function compiles for the database, in a query or for a generated column. -/
def supported (d : Dialect) (mode : Mode) (f : Function) : Bool :=
  match mode with
  | .generated => f.generates d
  | .select => d = .postgres || f ≠ .text .regexpReplace

end Function

namespace Callee

/-- A call in SQL; an unknown callee has none. -/
def apply (t : Target) (callee : Callee) (args : List Fragment) : Except CompileError Fragment :=
  match callee with
  | .known f => f.apply t args
  | .unknown spelling => .error (.unsupportedFunction spelling)

/-- The callee compiles for the database, in a query or for a generated column. -/
def supported (d : Dialect) (mode : Mode) : Callee → Bool
  | .known f => f.supported d mode
  | .unknown _ => false

end Callee

end ComputedFields
