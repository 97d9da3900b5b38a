/-
**Reading fields inside a common table expression.**

The body of a common table expression reads fields of a foreign record, and sometimes of the host
record.  A field that is carried by another expression is read from there, if that one exists already;
else its value is missing.  Every such read is recorded, since the expressions read on the foreign
side have to be joined.

Main definitions:

* `ComputedFields.BodyContext` — the catalog, the options, and the expressions that exist;
* `ComputedFields.Side`, `ComputedFields.Row` — the records that a body sees;
* `ComputedFields.NestedRead`, `ComputedFields.BodyM` — the record of reads, and computations that keep
  it;
* `ComputedFields.BodyContext.nested`, `ComputedFields.BodyContext.value`,
  `ComputedFields.BodyContext.filterSql` — a field that is carried elsewhere, any field, and a filter.
-/

import ComputedFields.Compile.Basic
import ComputedFields.Cte.Leaves
import ComputedFields.Cte.Rows
import ComputedFields.Cte.Unit
import ComputedFields.Filter.Compile
import ComputedFields.QueryOptions

set_option relaxedAutoImplicit false
set_option autoImplicit false

namespace ComputedFields

open Sql

/-! ### Context and rows -/

/-- What the body of a common table expression is built from. -/
structure BodyContext where
  catalog : Catalog
  options : QueryOptions
  /-- The database that filters are written for. -/
  filterDialect : Dialect
  /-- The names of the expressions that exist. -/
  built : List String := []

/-- The database that bodies are written for. -/
def BodyContext.dialect (ctx : BodyContext) : Dialect := ctx.options.dialect

/-- The two records that a body sees. -/
inductive Side where
  /-- A record of the foreign table; what it reads elsewhere is joined to it. -/
  | foreign
  /-- The record that the expression is about; what it reads elsewhere comes from a subquery. -/
  | host
  deriving DecidableEq, Repr

/-- The alias of a record. -/
def Side.rowAlias : Side → String
  | .foreign => Alias.foreign
  | .host => Alias.host

/-- A record of a table. -/
structure Row where
  side : Side
  table : Table

/-- A column of a record. -/
def Row.column (row : Row) (field : Field) : String := qualified row.side.rowAlias field.column

/-- A field of a record, read from the expression that carries it. -/
def Row.fromCte (row : Row) (cte : String) (field : Field) : String :=
  match row.side with
  | .foreign => qualified cte field.column
  | .host =>
      "(SELECT " ++ qualified cte field.column ++ " FROM " ++ ident cte ++ " WHERE " ++
        qualified cte mainRecordId ++ " = " ++ qualified row.side.rowAlias recordId ++ ")"

/-! ### Recorded reads -/

/-- A read of a field that is carried elsewhere, and the expression it was found in. -/
structure NestedRead where
  row : Row
  field : Field
  cte : Option String

/-- Computations that record their reads and may fail; the reads are kept even then. -/
abbrev BodyM := ExceptT CompileError (StateM (List NestedRead))

/-- The answer of a computation, and the reads that are recorded after it. -/
def BodyM.answer {α : Type} (x : BodyM α) (reads : List NestedRead) :
    Except CompileError α × List NestedRead :=
  x.run reads

/-- The expressions that have to be joined to the foreign record, each once. -/
def NestedRead.joins (reads : List NestedRead) : List String :=
  unionNew [] (reads.filterMap fun r => if r.row.side = .foreign then r.cte else none)

/-- The joins of the expressions that the foreign record reads. -/
def NestedRead.joinClause (reads : List NestedRead) : String :=
  String.join ((NestedRead.joins reads).map (Query.joinClause Alias.foreign))

/-! ### Fields -/

namespace BodyContext

/-- The expression that carries a field, if it exists. -/
def cteOf? (ctx : BodyContext) (table : Table) (field : Field) : Option String :=
  ((CteUnit.of? table field).map CteUnit.name).filter (· ∈ ctx.built)

/-- A field that is carried elsewhere; nothing when it does not exist there yet. -/
def nested (ctx : BodyContext) (row : Row) (field : Field) : BodyM (Option String) := do
  let cte := ctx.cteOf? row.table field
  modify (· ++ [⟨row, field, cte⟩])
  pure (cte.map fun name => row.fromCte name field)

/-- Selects the carried fields among the given ones. -/
def selectCarried (ctx : BodyContext) (row : Row) (scope : Scope) : List Field → BodyM Scope
  | [] => pure scope
  | leaf :: rest =>
      if leaf.isVirtual then do
        let sql ← ctx.nested row leaf
        ctx.selectCarried row
          (scope.setSelection leaf.id (sql.getD (ctx.dialect.typedNull leaf.storage))) rest
      else ctx.selectCarried row scope rest

/-- The value of a formula field; it is missing when the formula refers to a missing field. -/
def formulaValue (ctx : BodyContext) (row : Row) (field : Field) : BodyM String := do
  let scope ← ctx.selectCarried row .detached (row.table.leafFields field.id)
  let formulas : Context := ⟨row.table, ctx.options.target row.side.rowAlias, scope⟩
  match formulas.compileField field.id with
  | .ok c => pure c.sql
  | .error (.fieldNotFound _) => pure (ctx.dialect.typedNull field.storage)
  | .error e => throw e

/-- The value of a field; nothing when the field does not exist, or not yet. -/
def value (ctx : BodyContext) (row : Row) (id : String) : BodyM (Option (String × Field)) :=
  match row.table.field? id with
  | none => pure none
  | some field =>
      match field.kind with
      | .column => pure (some (row.column field, field))
      | .system s =>
          let sql := if s.isUser then ctx.dialect.userLookup (row.column field) ctx.options.userTable
            else row.column field
          pure (some (sql, field))
      | .formula .. => do
          let sql ← ctx.formulaValue row field
          pure (some (sql, field))
      | _ => do
          let sql ← ctx.nested row field
          pure (sql.map fun s => (s, field))

/-! ### Filters -/

/-- The values of several fields. -/
def values (ctx : BodyContext) (row : Row) :
    List String → BodyM (List (String × Option (String × Field)))
  | [] => pure []
  | id :: rest => do
      let first ← ctx.value row id
      let others ← ctx.values row rest
      pure ((id, first) :: others)

/-- The condition of a filter on the foreign record.  The values it compares with are those of the
other row. -/
def filterSql (ctx : BodyContext) (foreign other : Row) (filter : Filter) : BodyM String := do
  let left ← ctx.values foreign filter.fieldIds
  let right ← ctx.values other filter.valueFieldIds
  let fields := left.filterMap fun v => v.2.map Prod.snd
  let entries := (left ++ right).foldl
    (fun entries v => Entries.insert entries v.1 ((v.2.map Prod.fst).getD "NULL")) []
  match filter.compile ctx.filterDialect fields entries with
  | .ok sql => pure sql
  | .error e => throw e

/-- The condition of a filter, if there is one. -/
def filterSql? (ctx : BodyContext) (foreign other : Row) (filter : Option Filter) :
    BodyM (Option String) :=
  match filter with
  | none => pure none
  | some f => do
      let sql ← ctx.filterSql foreign other f
      pure (some sql)

end BodyContext

/-! ### Bodies -/

/-- The body of a common table expression, and the fields it carries. -/
structure Body where
  sql : String
  fields : List String
  deriving DecidableEq, Repr

/-- Columns under the names of the fields they hold. -/
def namedColumns (columns : List String) (fields : List Field) : String :=
  String.join (List.zipWith (fun sql (f : Field) => ", " ++ sql ++ " AS " ++ ident f.column) columns
    fields)

/-- The beginning of every body: the id of the host record and a column for each field. -/
def bodyHead (host : Table) (columns : List String) (fields : List Field) : String :=
  "SELECT " ++ hostId ++ " AS " ++ ident mainRecordId ++ namedColumns columns fields ++ " FROM " ++
    aliased host.name Alias.host

/-- The body in which every field is missing. -/
def BodyContext.degraded (ctx : BodyContext) (host : Table) (fields : List Field) : Body :=
  ⟨bodyHead host (fields.map fun f => ctx.dialect.typedNull f.storage) fields,
    fields.map Field.id⟩

end ComputedFields
