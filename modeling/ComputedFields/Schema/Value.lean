/-
**Values of fields.**

What a field holds is described twice: by the kind of its values, as formulas see them, and by the
type of the column that stores them, which decides how a missing value is typed.

Main definitions:

* `ComputedFields.ValueKind`, `ComputedFields.StorageType` — kinds of values and of columns;
* `ComputedFields.NumberFormat` — how a number is shown as text.
-/

set_option relaxedAutoImplicit false
set_option autoImplicit false

namespace ComputedFields

/-- The kind of a value. -/
inductive ValueKind where
  | string
  | number
  | boolean
  | dateTime
  deriving DecidableEq, Repr

/-- The type of a column. -/
inductive StorageType where
  | text
  | integer
  | real
  | boolean
  | dateTime
  | json
  deriving DecidableEq, Repr

/-- The type of a column that stores single values of a kind. -/
def StorageType.ofKind : ValueKind → StorageType
  | .string => .text
  | .number => .real
  | .boolean => .boolean
  | .dateTime => .dateTime

/-- How a number is shown as text: with so many decimals, as a percentage, as an amount of money, or
as a whole number of stars. -/
inductive NumberFormat where
  | decimal (precision : Nat)
  | percent (precision : Nat)
  | currency (symbol : String) (precision : Nat)
  | rating
  deriving DecidableEq, Repr

end ComputedFields
