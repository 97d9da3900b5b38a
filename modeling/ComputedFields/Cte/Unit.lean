/-
**Units of computation.**

A field whose value comes from another table is carried by a common table expression.  A link shares
its expression with the lookups and rollups that go through it; a field with a filter of its own
choice, an order or a limit has one to itself.

Main definitions:

* `ComputedFields.CteUnit` — what one common table expression computes;
* `ComputedFields.CteUnit.of?` — the unit that carries a field;
* `ComputedFields.Table.linkMembers` — the fields that share the unit of a link;
* `ComputedFields.RowChoice`, `ComputedFields.Field.rowChoice?` — the rows that a field reads when it
  has a unit to itself.
-/

import ComputedFields.Schema.Table

set_option relaxedAutoImplicit false
set_option autoImplicit false

namespace ComputedFields

/-- What one common table expression computes. -/
inductive CteUnit where
  /-- A link with the lookups and rollups that go through it. -/
  | link (table field : String)
  /-- A single field. -/
  | conditional (table field : String)
  deriving DecidableEq, Repr

namespace CteUnit

/-- The table of the records that the unit is about. -/
def table : CteUnit → String
  | .link table _ | .conditional table _ => table

/-- The field that the unit is named after. -/
def field : CteUnit → String
  | .link _ field | .conditional _ field => field

/-- The name of the common table expression. -/
def name : CteUnit → String
  | .link _ field => "CTE_" ++ field
  | .conditional _ field => "CTE_CONDITIONAL_" ++ field

end CteUnit

/-- The rows have an order or a limit of their own. -/
def Related.isOrdered (related : Related) : Bool := related.sort.isSome || related.limit.isSome

/-- The unit that carries a field; none for a field that is stored or a formula. -/
def CteUnit.of? (table : Table) (field : Field) : Option CteUnit :=
  match field.kind with
  | .link _ => some (.link table.id field.id)
  | .lookup linkField related | .rollup linkField related _ =>
      if related.isOrdered then some (.conditional table.id field.id)
      else some (.link table.id linkField)
  | .conditionalLookup .. | .conditionalRollup .. => some (.conditional table.id field.id)
  | .column | .formula .. | .system _ => none

/-- The field goes through the link and shares its unit. -/
def Field.isMemberOf (linkField : String) (field : Field) : Bool :=
  match field.kind with
  | .lookup l related | .rollup l related _ => l = linkField && !related.isOrdered
  | _ => false

/-- The lookups and rollups that share the unit of a link. -/
def Table.linkMembers (table : Table) (linkField : String) : List Field :=
  table.fields.filter (Field.isMemberOf linkField)

/-- The rows that a field reads: those that a link leads to if there is one, and that meet the filter.
The filter compares with fields of the host record, or with fields of the row itself. -/
structure RowChoice where
  linkField : Option String
  related : Related
  hostValues : Bool

/-- The rows that a field reads. -/
def Field.rowChoice? (field : Field) : Option RowChoice :=
  match field.kind with
  | .lookup linkField related | .rollup linkField related _ => some ⟨some linkField, related, false⟩
  | .conditionalLookup linkField related | .conditionalRollup linkField related _ =>
      some ⟨linkField, related, true⟩
  | .column | .link _ | .formula .. | .system _ => none

end ComputedFields
