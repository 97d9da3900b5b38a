/-
**Building a query with its common table expressions.**

The units of a plan are built one after the other.  The expressions of the main table are joined to
the query, and the fields they carry are registered.  A unit that cannot be built because its table or
field is missing is left out.  What has been built stays, even when a later unit fails.

Main definitions:

* `ComputedFields.CteUnit.trace`, `ComputedFields.CteUnit.body?` — the body of a unit, with and without
  the reads that were made for it;
* `ComputedFields.Build`, `ComputedFields.BuildM` — a query under construction, and its steps;
* `ComputedFields.BuildContext.addUnit`, `ComputedFields.BuildContext.addCtes` — adds a unit, and all
  that a projection needs.
-/

import ComputedFields.Cte.ConditionalBody
import ComputedFields.Cte.Plan

set_option relaxedAutoImplicit false
set_option autoImplicit false

namespace ComputedFields

open Sql

/-! ### Bodies of units -/

/-- The body of a unit, with its reads recorded. -/
def CteUnit.bodyM (ctx : BodyContext) (unit : CteUnit) (host : Table) (field : Field) : BodyM Body :=
  match unit with
  | .link .. => ctx.linkBody host field
  | .conditional .. => ctx.conditionalBody host field

/-- The body of a unit with the reads that were made for it, also when it could not be finished;
nothing when its table or field is missing. -/
def CteUnit.trace (ctx : BodyContext) (unit : CteUnit) :
    Except CompileError (Option Body) × List NestedRead :=
  match ctx.catalog.table? unit.table with
  | none => (.ok none, [])
  | some host =>
      match host.field? unit.field with
      | none => (.ok none, [])
      | some field =>
          let made := (unit.bodyM ctx host field).answer []
          (made.1.map some, made.2)

/-- The body of a unit; nothing when its table or field is missing. -/
def CteUnit.body? (ctx : BodyContext) (unit : CteUnit) : Except CompileError (Option Body) :=
  (unit.trace ctx).1

/-! ### Steps -/

/-- A query under construction: the expressions that exist, the query, and its state. -/
structure Build where
  built : List String := []
  query : Query
  state : QueryState := {}

/-- A step of a construction: it may fail, and what has been built is kept even then. -/
abbrev BuildM := ExceptT CompileError (StateM Build)

namespace Build

/-- Adds a common table expression. -/
def push (b : Build) (name body : String) : Build :=
  { b with built := insertNew b.built name, query := b.query.pushCte name body }

/-- Joins a common table expression to the main table. -/
def join (b : Build) (name : String) : Build := { b with query := b.query.joinCte name }

end Build

/-- Registers the fields that a common table expression carries. -/
def registerAll (cte : String) : List String → BuildM Unit
  | [] => pure ()
  | field :: rest => do
      let b ← get
      match b.state.registerCte field cte with
      | .error e => throw e
      | .ok state => do
          set { b with state }
          registerAll cte rest

/-- What a query is built from. -/
structure BuildContext where
  catalog : Catalog
  options : QueryOptions
  /-- The database that filters are written for. -/
  filterDialect : Dialect

namespace BuildContext

/-- What bodies are built from, when so many expressions exist. -/
def bodyContext (ctx : BuildContext) (built : List String) : BodyContext :=
  ⟨ctx.catalog, ctx.options, ctx.filterDialect, built⟩

/-- Adds a unit, unless one of its name exists; units of the main table are joined and registered. -/
def addUnit (ctx : BuildContext) (main : String) (unit : CteUnit) : BuildM Unit := do
  let b ← get
  if unit.name ∈ b.built then pure ()
  else
    match unit.body? (ctx.bodyContext b.built) with
    | .error e => throw e
    | .ok none => pure ()
    | .ok (some body) => do
        set (b.push unit.name body.sql)
        if unit.table = main then do
          modify fun b => b.join unit.name
          registerAll unit.name body.fields
        else pure ()

/-- Adds units in order. -/
def addUnits (ctx : BuildContext) (main : String) : List CteUnit → BuildM Unit
  | [] => pure ()
  | unit :: rest => do
      ctx.addUnit main unit
      ctx.addUnits main rest

/-- Adds the common table expressions that a projection of a table needs. -/
def addCtes (ctx : BuildContext) (table : Table) (projection : List String) : BuildM Unit :=
  ctx.addUnits table.id (ctx.catalog.plan table projection).order

end BuildContext

end ComputedFields
