/-
**Compiling the formulas of a table.**

A formula refers to the fields of its table.  A formula field is expanded in place.  Any other field
is read as it is selected in the scope of the formula, else from the common table expression that
carries it, else from its column.  Formula fields that refer to each other in a circle do not compile.

Main definitions:

* `ComputedFields.Context` — the table, the target and the scope of a formula;
* `ComputedFields.Context.plain` — a field that is no formula;
* `ComputedFields.Context.expand` — any field, given the formula fields that are being expanded;
* `ComputedFields.Context.compile`, `ComputedFields.Context.compileField` — a formula, and the value
  of a field.
-/

import ComputedFields.Compile.Walk
import ComputedFields.Schema.Table
import ComputedFields.State

set_option relaxedAutoImplicit false
set_option autoImplicit false

namespace ComputedFields

open Sql (Expr)

/-- What the fields of a formula mean. -/
structure Context where
  table : Table
  target : Target
  scope : Scope := .detached

namespace Context

/-! ### Fields that are no formulas -/

/-- The scope that a formula sees: none in a generated column. -/
def visible (ctx : Context) : Scope :=
  match ctx.target.mode with
  | .select => ctx.scope
  | .generated => .detached

/-- The stored value of a field: as it is selected, else as it is carried, else its column. -/
def stored (ctx : Context) (field : Field) : Expr :=
  match ctx.visible.selection? field.id with
  | some sql => .verbatim sql
  | none =>
      match ctx.visible.cteName? field.id with
      | some cte => .column (some cte) field.column
      | none =>
          let column := ctx.target.column field.column
          if field.kind.isUser then
            .verbatim (ctx.target.dialect.userLookup column.render ctx.target.userTable)
          else column

/-- A stored value as formulas see it: links and users by their titles, arrays as arrays of texts. -/
def typed (ctx : Context) (field : Field) (value : Expr) : Fragment :=
  if field.kind.isLink then
    .string (.verbatim (ctx.target.dialect.linkTitle value.render field.multi))
  else if field.kind.isUser then
    .string (.verbatim (ctx.target.dialect.linkTitle value.render false))
  else if field.multi then .array value .string
  else ⟨value, .ofKind field.value, false⟩

/-- A field that is no formula. -/
def plain (ctx : Context) (field : Field) : Compiled :=
  ⟨ctx.typed field (ctx.stored field), [field.id]⟩

/-! ### Formula fields -/

/-- The value of a formula field: a type that is not known is that of the field. -/
def asField (field : Field) (c : Compiled) : Compiled :=
  if c.fragment.type = .unknown then
    { c with fragment := { c.fragment with type := .ofKind field.value } }
  else c

/-- The circle that is closed by `id` at the end of the path. -/
def circle (path : List String) (id : String) : List String := path.dropWhile (· ≠ id) ++ [id]

/-- The value of a field, inside the formula fields of the path.  The first number bounds the depth of
the expansion. -/
def expand (ctx : Context) : Nat → List String → String → Except CompileError Compiled
  | 0, path, id => .error (.circularReference (circle path id))
  | depth + 1, path, id =>
      match ctx.table.field? id with
      | none => .error (.fieldNotFound id)
      | some field =>
          match field.kind with
          | .formula source _ =>
              if id ∈ path then .error (.circularReference (circle path id))
              else
                match source.formula with
                | .error e => .error (.parse e)
                | .ok f => do
                    let c ← f.compileWith ctx.target (ctx.expand depth (path ++ [id]))
                    .ok (asField field c)
          | _ => .ok (ctx.plain field)

/-- A depth that no expansion exceeds: no field is expanded inside itself. -/
def depth (ctx : Context) : Nat := ctx.table.fields.length + 1

/-! ### Compilation -/

/-- Compiles the value of a field. -/
def compileField (ctx : Context) (id : String) : Except CompileError Compiled :=
  ctx.expand ctx.depth [] id

/-- Compiles a formula. -/
def compile (ctx : Context) (f : Formula) : Except CompileError Compiled :=
  f.compileWith ctx.target ctx.compileField

/-- Compiles a tree that may be empty. -/
def compileTree (ctx : Context) (root : Option Formula) : Except CompileError Compiled :=
  match root with
  | some f => ctx.compile f
  | none => .error (.parse .emptyInput)

end Context

end ComputedFields
