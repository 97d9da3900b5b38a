/-
**Compiled parts of a formula.**

Every part of a formula compiles to a SQL expression together with what is known of its value: its
type, and whether it is a JSON array.

Main definitions:

* `ComputedFields.ValueType` — types of values;
* `ComputedFields.Fragment` — an expression with the type of its value.
-/

import ComputedFields.Schema.Value
import ComputedFields.Sql.Expr

set_option relaxedAutoImplicit false
set_option autoImplicit false

namespace ComputedFields

/-- The type of a value, as far as it is known. -/
inductive ValueType where
  | string
  | number
  | boolean
  | dateTime
  | unknown
  deriving DecidableEq, Inhabited, Repr

/-- The type of values of a kind. -/
def ValueType.ofKind : ValueKind → ValueType
  | .string => .string
  | .number => .number
  | .boolean => .boolean
  | .dateTime => .dateTime

/-- A compiled part of a formula. -/
structure Fragment where
  expr : Sql.Expr
  type : ValueType
  /-- The value is a JSON array. -/
  isArray : Bool := false
  deriving Inhabited

namespace Fragment

/-- A text. -/
def string (e : Sql.Expr) : Fragment := ⟨e, .string, false⟩

/-- A number. -/
def number (e : Sql.Expr) : Fragment := ⟨e, .number, false⟩

/-- A condition. -/
def boolean (e : Sql.Expr) : Fragment := ⟨e, .boolean, false⟩

/-- A date, with or without a time of day. -/
def dateTime (e : Sql.Expr) : Fragment := ⟨e, .dateTime, false⟩

/-- A missing value. -/
def null : Fragment := ⟨.null, .unknown, false⟩

/-- An array of values of a type. -/
def array (e : Sql.Expr) (type : ValueType) : Fragment := ⟨e, type, true⟩

/-- The SQL of a part. -/
def sql (f : Fragment) : String := f.expr.render

/-- The empty text. -/
def isBlank (f : Fragment) : Bool := f.expr.isBlank

end Fragment

end ComputedFields
