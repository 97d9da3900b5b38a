/-
**Filters.**

A field may read only those records of another table that meet a filter: a tree of conditions, each
about one field of the record.  A condition compares with a literal or with the value of another
field.

Main definitions:

* `ComputedFields.Condition`, `ComputedFields.Filter` — conditions, and trees of them;
* `ComputedFields.Filter.conditions` — the conditions from left to right;
* `ComputedFields.Filter.fieldIds`, `ComputedFields.Filter.valueFieldIds` — the fields that are
  compared, and those they are compared with;
* `ComputedFields.Filter.equalityPairs?` — the pairs of fields, when the filter asks for nothing but
  their equality.
-/

import ComputedFields.Json.Value
import ComputedFields.Keyed

set_option relaxedAutoImplicit false
set_option autoImplicit false

namespace ComputedFields

/-- What a condition asks of a value. -/
inductive Comparison where
  | is
  | isNot
  | isGreater
  | isGreaterEqual
  | isLess
  | isLessEqual
  | contains
  | doesNotContain
  | isEmpty
  | isNotEmpty
  deriving DecidableEq, Repr

/-- What a value is compared with. -/
inductive Operand where
  | literal (value : Json)
  | field (id : String)
  | absent

/-- A condition on a field. -/
structure Condition where
  field : String
  op : Comparison
  operand : Operand

/-- The field that a condition compares with. -/
def Condition.valueField? (c : Condition) : Option String :=
  match c.operand with
  | .field id => some id
  | _ => none

/-- A tree of conditions. -/
inductive Filter where
  | condition (c : Condition)
  | all (children : List Filter)
  | any (children : List Filter)

namespace Filter

instance : Inhabited Filter := ⟨.all []⟩

mutual

/-- The conditions of a filter, from left to right. -/
def conditions : Filter → List Condition
  | .condition c => [c]
  | .all children | .any children => conditionsOfAll children

/-- The conditions of filters. -/
def conditionsOfAll : List Filter → List Condition
  | [] => []
  | f :: rest => f.conditions ++ conditionsOfAll rest

end

/-- The fields that the conditions are about, each once. -/
def fieldIds (f : Filter) : List String := unionNew [] (f.conditions.map Condition.field)

/-- The fields that the conditions compare with, each once. -/
def valueFieldIds (f : Filter) : List String :=
  unionNew [] (f.conditions.filterMap Condition.valueField?)

mutual

/-- The pairs of fields that a filter asks to be equal, unless it asks for anything else. -/
def equalities? : Filter → Option (List (String × String))
  | .condition ⟨field, .is, .field other⟩ => some [(field, other)]
  | .condition _ => none
  | .all children => equalitiesOfAll? children
  | .any _ => none

/-- The pairs of fields that filters ask to be equal, unless they ask for anything else. -/
def equalitiesOfAll? : List Filter → Option (List (String × String))
  | [] => some []
  | f :: rest =>
      match f.equalities?, equalitiesOfAll? rest with
      | some pairs, some others => some (pairs ++ others)
      | _, _ => none

end

/-- The pairs of fields that a filter asks to be equal, when there is one and it asks for nothing
else. -/
def equalityPairs? (f : Filter) : Option (List (String × String)) :=
  f.equalities?.filter fun pairs => !pairs.isEmpty

end Filter

end ComputedFields
