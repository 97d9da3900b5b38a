/-
**Formulas that a generated column can hold.**

A generated column may depend on the columns of its record only: a formula can be stored in one if
all its functions can, and if no field that it reaches, through formula fields too, comes from another
table or names a user.

Main definitions:

* `ComputedFields.Formula.generatesWith` — the check of a formula, given that of its fields;
* `ComputedFields.Table.fieldGenerates`, `ComputedFields.Table.generates` — the check of a field and of
  a formula of a table.
-/

import ComputedFields.Builtin.Apply
import ComputedFields.Schema.Table

set_option relaxedAutoImplicit false
set_option autoImplicit false

namespace ComputedFields

mutual

/-- A generated column can hold the formula, if it can hold the fields for which `field` holds. -/
def Formula.generatesWith (d : Dialect) (field : String → Bool) : Formula → Bool
  | .bool _ | .number _ | .text _ | .null => true
  | .field id => field id
  | .call callee args =>
      callee.supported d .generated && callee.accepts args.length &&
        Formula.allGenerateWith d field args
  | .binary left _ right =>
      Formula.generatesWith d field left && Formula.generatesWith d field right
  | .unary _ operand => Formula.generatesWith d field operand
  | .chain _ operands => Formula.allGenerateWith d field operands

/-- A generated column can hold each of the formulas. -/
def Formula.allGenerateWith (d : Dialect) (field : String → Bool) : List Formula → Bool
  | [] => true
  | f :: rest => Formula.generatesWith d field f && Formula.allGenerateWith d field rest

end

namespace Table

/-- A generated column can hold a field, inside the formula fields of the path.  The first number
bounds the depth of the expansion. -/
def fieldGeneratesFrom (table : Table) (d : Dialect) : Nat → List String → String → Bool
  | 0, _, _ => false
  | depth + 1, path, id =>
      match table.field? id with
      | none => false
      | some field =>
          match field.kind with
          | .column => true
          | .system s => !s.isUser
          | .formula source _ =>
              if id ∈ path then false
              else
                match source.formula with
                | .error _ => false
                | .ok f => f.generatesWith d (table.fieldGeneratesFrom d depth (id :: path))
          | _ => false

/-- A generated column can hold a field of the table. -/
def fieldGenerates (table : Table) (d : Dialect) (id : String) : Bool :=
  table.fieldGeneratesFrom d (table.fields.length + 1) [] id

/-- A generated column can hold a formula over the table; an empty tree is none. -/
def generates (table : Table) (d : Dialect) (root : Option Formula) : Bool :=
  match root with
  | some f => f.generatesWith d (table.fieldGenerates d)
  | none => false

end Table

end ComputedFields
