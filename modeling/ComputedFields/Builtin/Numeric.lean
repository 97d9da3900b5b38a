/-
**Functions from numbers to a number.**

Main definitions:

* `ComputedFields.Target.scaleFactor` — the power of ten of a precision;
* `ComputedFields.signed` — a magnitude with the sign of a value;
* `ComputedFields.NumericFunction.apply` — a call in SQL.
-/

import ComputedFields.Builtin.Call
import ComputedFields.Decimal.Layout
import ComputedFields.Decimal.Power
import ComputedFields.Function

set_option relaxedAutoImplicit false
set_option autoImplicit false

namespace ComputedFields

open Sql (Expr)

/-- Ten to the power of a precision, computed beforehand when the precision is a literal. -/
def Target.scaleFactor (t : Target) (precision : Option Fragment) : Expr :=
  match precision with
  | none => .number "1.0"
  | some p =>
      match p.expr.intLiteral? with
      | some n => .number (Decimal.factor.render (Decimal.tenToThe n.toInt32))
      | none => t.computedPower (.number "10.0") p

/-- The magnitude with the sign of the value. -/
def signed (value magnitude : Expr) : Expr :=
  .case [(.binary value .lt (.number "0"), .unary .neg magnitude)] (some magnitude)

namespace NumericFunction

/-- A value rounded away from zero or towards it, at a precision. -/
def roundedAt (round : Expr → Expr) (value factor : Expr) : Expr :=
  signed value
    (.binary (round (.binary (.call "ABS" [value]) .mul factor)) .div factor)

/-- A value rounded to a multiple of the significance, or to a whole number. -/
def roundedTo (round : Expr → Expr) (value : Expr) (significance : Option Expr) : Expr :=
  match significance with
  | none => round value
  | some s => .binary (round (.binary value .div s)) .mul s

/-- The even number that is next to the value, away from zero. -/
def evenAbove (t : Target) (value : Expr) : Expr :=
  signed value
    (.binary (t.ceil (.binary (.call "ABS" [value]) .div (.number "2.0"))) .mul (.number "2"))

/-- The odd number that is next to the value, away from zero. -/
def oddAbove (t : Target) (value : Expr) : Expr :=
  let half := Expr.binary (.binary (.call "ABS" [value]) .add (.number "1")) .div (.number "2.0")
  signed value (.binary (.binary (t.ceil half) .mul (.number "2")) .sub (.number "1"))

/-- How often the approximation of a square root is refined. -/
def rootSteps : Nat := 64

/-- A square root, by successive approximation where the database has none. -/
def squareRoot (d : Dialect) (value : Expr) : Expr :=
  match d with
  | .postgres => .call "SQRT" [value]
  | .sqlite =>
      let v := value.render
      .verbatim ("CASE WHEN " ++ v ++ " IS NULL OR " ++ v ++ " < 0 THEN NULL WHEN " ++ v ++
        " = 0 THEN 0.0 ELSE (WITH RECURSIVE s(i, x) AS (SELECT 0, CAST(" ++ v ++
        " AS REAL) UNION ALL SELECT i + 1, (x + CAST(" ++ v ++
        " AS REAL) / x) / 2.0 FROM s WHERE i < " ++ toString rootSteps ++
        ") SELECT x FROM s ORDER BY i DESC LIMIT 1) END")

/-- The greatest or the least of several values. -/
def extremum (d : Dialect) (greatest : Bool) (values : List Expr) : Expr :=
  match d, greatest with
  | .postgres, true => .call "GREATEST" values
  | .postgres, false => .call "LEAST" values
  | .sqlite, true => .call "MAX" values
  | .sqlite, false => .call "MIN" values

/-- A value rounded to a number of decimals. -/
def rounded (d : Dialect) (value precision : Expr) : Expr :=
  match d with
  | .postgres => .call "ROUND" [.cast value "numeric", precision]
  | .sqlite => .call "ROUND" [value, precision]

/-- A logarithm. -/
def logarithm (d : Dialect) (base value : Expr) : Expr :=
  match d with
  | .postgres => .call "LOG" [.cast base "numeric", .cast value "numeric"]
  | .sqlite => .call "LOG" [base, value]

/-- A call in SQL. -/
def apply (t : Target) (f : NumericFunction) (args : List Fragment) :
    Except CompileError Fragment :=
  let c : Call := ⟨f.signature.name, args⟩
  let numbers := args.map t.numeric
  match f with
  | .sum => .ok (.number (.chain .add numbers))
  | .average =>
      .ok (.number (.binary (.chain .add numbers) .div (.number (toString args.length ++ ".0"))))
  | .max | .min =>
      match numbers with
      | [only] => .ok (.number only)
      | values => .ok (.number (extremum t.dialect (f = .max) values))
  | .round => do
      let value ← c.numeric t 0
      .ok (.number (rounded t.dialect value (c.integerOr t 1 (.number "0"))))
  | .roundUp => do
      let value ← c.numeric t 0
      .ok (.number (roundedAt t.ceil value (t.scaleFactor args[1]?)))
  | .roundDown => do
      let value ← c.numeric t 0
      .ok (.number (roundedAt t.floor value (t.scaleFactor args[1]?)))
  | .ceiling => do
      let value ← c.numeric t 0
      .ok (.number (roundedTo t.ceil value (args[1]?.map t.numeric)))
  | .floor => do
      let value ← c.numeric t 0
      .ok (.number (roundedTo t.floor value (args[1]?.map t.numeric)))
  | .even => do
      let value ← c.numeric t 0
      .ok (.number (evenAbove t value))
  | .odd => do
      let value ← c.numeric t 0
      .ok (.number (oddAbove t value))
  | .int => do
      let value ← c.numeric t 0
      .ok (.number (t.floor value))
  | .abs => do
      let value ← c.numeric t 0
      .ok (.number (.call "ABS" [value]))
  | .sqrt => do
      let value ← c.numeric t 0
      .ok (.number (squareRoot t.dialect value))
  | .power => do
      let base ← c.numeric t 0
      let exponent ← c.arg 1
      let value ← t.power base exponent
      .ok (.number value)
  | .exp => do
      let value ← c.numeric t 0
      .ok (.number (.call "EXP" [value]))
  | .log => do
      let value ← c.numeric t 0
      let base := (args[1]?.map t.numeric).getD (.number "10")
      .ok (.number (logarithm t.dialect base value))
  | .mod => do
      let l ← c.arg 0
      let r ← c.arg 1
      .ok (t.modulo l r)
  | .value => do
      let text ← c.text t 0
      .ok (.number (.verbatim (t.dialect.coerceNumeric text.render)))

end NumericFunction

end ComputedFields
