/-
**Rollups.**

A rollup condenses the values of many records to one.  Its expression names one of a closed list of
functions.  Over a link that leads to at most one record there is nothing to aggregate, and the
function reads that one value instead.

Main definitions:

* `ComputedFields.RollupFunction` — the functions, read off an expression by
  `ComputedFields.RollupFunction.parse`;
* `ComputedFields.Aggregate` — what is condensed;
* `ComputedFields.Aggregate.overRows`, `ComputedFields.Aggregate.overOne` — the value over many
  records and over at most one;
* `ComputedFields.RollupFunction.orIdentity` — the value over no record.
-/

import ComputedFields.Dialect.Basic
import ComputedFields.Error

set_option relaxedAutoImplicit false
set_option autoImplicit false

namespace ComputedFields

/-! ### Functions -/

/-- The function of a rollup. -/
inductive RollupFunction where
  | sum
  | average
  | count
  | countAll
  | countA
  | max
  | min
  | and
  | or
  | xor
  | arrayJoin
  | concatenate
  | arrayUnique
  | arrayCompact
  deriving DecidableEq, Repr

namespace RollupFunction

/-- The name of an expression's function: what stands before the first parenthesis, without blanks
around it and in lower case. -/
def nameOf (expression : String) : String :=
  (Text.trim (String.ofList (expression.toList.takeWhile (· ≠ '(')))).map Char.toLower

/-- The function of a name. -/
def ofName? : String → Option RollupFunction
  | "sum" => some .sum
  | "average" => some .average
  | "avg" => some .average
  | "count" => some .count
  | "countall" => some .countAll
  | "counta" => some .countA
  | "max" => some .max
  | "min" => some .min
  | "and" => some .and
  | "or" => some .or
  | "xor" => some .xor
  | "array_join" => some .arrayJoin
  | "concatenate" => some .concatenate
  | "array_unique" => some .arrayUnique
  | "array_compact" => some .arrayCompact
  | _ => none

/-- The function that an expression such as `sum(values)` names. -/
def parse (expression : String) : Except CompileError RollupFunction :=
  match ofName? (nameOf expression) with
  | some f => .ok f
  | none => .error (.unsupportedRollup (nameOf expression))

/-- The function works on numbers. -/
def isNumeric : RollupFunction → Bool
  | .sum | .average | .count => true
  | _ => false

/-- The function makes a JSON array. -/
def isArray : RollupFunction → Bool
  | .arrayUnique | .arrayCompact => true
  | _ => false

/-- The value of a rollup over no record takes the place of a missing one. -/
def orIdentity (f : RollupFunction) (d : Dialect) (x : String) (type : StorageType) : String :=
  match f with
  | .sum | .average | .count | .countAll | .countA => "COALESCE(" ++ x ++ ", 0)"
  | .max | .min => "COALESCE(" ++ x ++ ", " ++ d.typedNull type ++ ")"
  | _ => x

end RollupFunction

/-! ### Aggregates -/

/-- What a rollup condenses: a value of each record, the id of the record, an order of the records, a
condition on them, and whether the value is itself a JSON array. -/
structure Aggregate where
  value : String
  rowId : String
  order : Option String := none
  filter : Option String := none
  multi : Bool := false

namespace Aggregate

/-- The records that count: those of the filter that also meet the extra condition. -/
def filterClause (a : Aggregate) (extra : Option String) : String :=
  let conditions := extra.toList ++ (a.filter.map fun f => "(" ++ f ++ ")").toList
  if conditions.isEmpty then ""
  else " FILTER (WHERE " ++ " AND ".intercalate conditions ++ ")"

/-- The value of a record that meets the filter. -/
def filteredValue (a : Aggregate) : String :=
  match a.filter with
  | some f => "CASE WHEN " ++ f ++ " THEN " ++ a.value ++ " END"
  | none => a.value

/-- The text of a value, without quotes when it is a JSON string. -/
def bareText (d : Dialect) (x : String) : String :=
  match d with
  | .postgres => "(to_jsonb(" ++ x ++ ") #>> '\x7b\x7d')"
  | .sqlite => d.textCast x

/-- A rollup over many records. -/
def overRows (d : Dialect) (f : RollupFunction) (a : Aggregate) : String :=
  let v := a.value
  let all := a.filterClause none
  let flag := "CASE WHEN " ++ v ++ " THEN 1 ELSE 0 END"
  match f with
  | .sum => "SUM(" ++ v ++ ")" ++ all
  | .average => "AVG(" ++ v ++ ")" ++ all
  | .count => "COUNT(" ++ v ++ ")" ++ all
  | .countA => "COUNT(NULLIF(" ++ bareText d v ++ ", ''))" ++ all
  | .countAll =>
      if a.multi then "SUM(" ++ d.arrayLength v ++ ")" ++ all else "COUNT(" ++ a.rowId ++ ")" ++ all
  | .max => "MAX(" ++ v ++ ")" ++ all
  | .min => "MIN(" ++ v ++ ")" ++ all
  | .and =>
      match d with
      | .postgres => "BOOL_AND((" ++ v ++ ")::boolean)" ++ all
      | .sqlite => "MIN(" ++ flag ++ ")" ++ all
  | .or =>
      match d with
      | .postgres => "BOOL_OR((" ++ v ++ ")::boolean)" ++ all
      | .sqlite => "MAX(" ++ flag ++ ")" ++ all
  | .xor =>
      match d with
      | .postgres =>
          "(COUNT(*)" ++ a.filterClause (some ("(" ++ v ++ ")::boolean")) ++ " % 2 = 1)"
      | .sqlite => "(SUM(" ++ flag ++ ")" ++ all ++ " % 2 = 1)"
  | .arrayJoin => d.stringAggregate (d.textCast v) ", " a.order a.filter
  | .concatenate => d.stringAggregate (d.textCast v) "" a.order a.filter
  | .arrayUnique =>
      let present := a.filterClause (some (v ++ " IS NOT NULL"))
      match d with
      | .postgres =>
          "(SELECT jsonb_agg(e.v ORDER BY e.i) FROM (SELECT jsonb_agg(" ++ v ++
            Dialect.orderClause a.order ++ ")" ++ present ++
            " AS a) AS agg, jsonb_array_elements(agg.a) WITH ORDINALITY AS e(v, i) " ++
            "WHERE NOT EXISTS (SELECT 1 FROM jsonb_array_elements(agg.a) WITH ORDINALITY " ++
            "AS p(v, i) WHERE p.v = e.v AND p.i < e.i))"
      | .sqlite => "NULLIF(json_group_array(DISTINCT " ++ v ++ ")" ++ present ++ ", '[]')"
  | .arrayCompact =>
      let present := a.filterClause (some (v ++ " IS NOT NULL AND " ++ bareText d v ++ " <> ''"))
      match d with
      | .postgres => "jsonb_agg(" ++ v ++ Dialect.orderClause a.order ++ ")" ++ present
      | .sqlite => "NULLIF(json_group_array(" ++ v ++ ")" ++ present ++ ", '[]')"

/-- A rollup over at most one record. -/
def overOne (d : Dialect) (f : RollupFunction) (a : Aggregate) : String :=
  let v := a.filteredValue
  let counted (x : String) := "CASE WHEN " ++ x ++ " IS NULL THEN 0 ELSE 1 END"
  match f with
  | .sum => "COALESCE(" ++ v ++ ", 0)"
  | .average | .max | .min => v
  | .countAll =>
      if a.multi then "COALESCE(" ++ d.arrayLength v ++ ", 0)"
      else if a.filter.isNone then counted a.rowId
      else counted v
  | .count | .countA => counted v
  | .and | .or | .xor =>
      match d with
      | .postgres => "COALESCE((" ++ v ++ ")::boolean, FALSE)"
      | .sqlite => "COALESCE(" ++ v ++ ", 0)"
  | .arrayJoin | .concatenate => d.textCast v
  | .arrayUnique | .arrayCompact =>
      let build := match d with
        | .postgres => "jsonb_build_array("
        | .sqlite => "json_array("
      "CASE WHEN " ++ v ++ " IS NULL THEN NULL ELSE " ++ build ++ v ++ ") END"

end Aggregate

end ComputedFields
