/-
**Queries of records.**

The query of a projection selects one column for each of its fields.  Fields that are carried by a
common table expression are selected from there; a field that none carries is missing.  Formulas are
compiled last, since they read the selections of the other fields.

Main definitions:

* `ComputedFields.BuildContext.plainSelection` — the selection of a field that is no formula;
* `ComputedFields.BuildContext.select` — selects the fields of a projection;
* `ComputedFields.BuildContext.record` — the query of a projection.
-/

import ComputedFields.Cte.Build

set_option relaxedAutoImplicit false
set_option autoImplicit false

namespace ComputedFields

open Sql

/-! ### Selections -/

/-- The fields of a projection. -/
def Table.project (table : Table) : List String → Except CompileError (List Field)
  | [] => .ok []
  | id :: rest =>
      match table.field? id with
      | none => .error (.fieldNotFound id)
      | some field => do
          let others ← table.project rest
          .ok (field :: others)

namespace BuildContext

/-- The selection of a field that is no formula. -/
def plainSelection (ctx : BuildContext) (state : QueryState) (field : Field) : String :=
  let d := ctx.options.dialect
  let column := qualified ctx.options.rowAlias field.column
  if field.kind.isUser then d.userLookup column ctx.options.userTable
  else if field.isVirtual then
    match state.cteName? field.id with
    | some cte => qualified cte field.column
    | none => d.typedNull field.storage
  else column

/-- The state with the selections of fields that are no formulas. -/
def selectPlain (ctx : BuildContext) (state : QueryState) (fields : List Field) : QueryState :=
  fields.foldl (fun state field => state.setSelection field.id (ctx.plainSelection state field)) state

/-- The selections of formula fields, compiled in the given state. -/
def formulaSelections (ctx : BuildContext) (table : Table) (state : QueryState) :
    List Field → Except CompileError (List (String × String))
  | [] => .ok []
  | field :: rest => do
      let formulas : Context := ⟨table, ctx.options.target ctx.options.rowAlias, state.scope⟩
      let c ← formulas.compileField field.id
      let others ← ctx.formulaSelections table state rest
      .ok ((field.id, c.sql) :: others)

/-- The query with a column for each field that is selected. -/
def selectColumns (state : QueryState) (fields : List Field) (query : Query) : Query :=
  fields.foldl
    (fun query field =>
      match state.selection? field.id with
      | some sql => query.select sql field.column
      | none => query)
    query

/-- Selects the fields of a projection.  When a formula does not compile, the selections of the other
fields are kept. -/
def select (ctx : BuildContext) (table : Table) (projection : List String) : BuildM Unit := do
  match table.project projection with
  | .error e => throw e
  | .ok fields => do
      let b ← get
      let state := ctx.selectPlain b.state (fields.filter fun f => !f.kind.isFormula)
      set { b with state }
      match ctx.formulaSelections table state (fields.filter fun f => f.kind.isFormula) with
      | .error e => throw e
      | .ok selections =>
          let state := selections.foldl (fun state s => state.setSelection s.1 s.2) state
          set { b with state, query := selectColumns state fields b.query }

/-! ### Record queries -/

/-- A step on a construction: what it answers, and what has been built after it. -/
def step {α : Type} (action : BuildM α) (b : Build) : Except CompileError α × Build := action.run b

/-- The query of a projection of a table, and its state. -/
def record (ctx : BuildContext) (table : Table) (projection : List String) :
    Except CompileError (Query × QueryState) :=
  let action : BuildM Unit := do
    ctx.addCtes table projection
    ctx.select table projection
  match step action { query := .ofTable table.name ctx.options.rowAlias } with
  | (.ok _, b) => .ok (b.query, b.state)
  | (.error e, _) => .error e

/-- The query of all fields of a table. -/
def recordAll (ctx : BuildContext) (table : Table) : Except CompileError (Query × QueryState) :=
  ctx.record table table.fieldIds

end BuildContext

end ComputedFields
