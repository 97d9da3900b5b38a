/-
**The body of a single field.**

A field with a unit to itself reads the rows that meet its filter.  When the filter asks for nothing
but equal fields, the foreign rows are aggregated once for all values of those fields and the groups
are joined to the host records; else every host record reads its rows in a subquery.

Main definitions:

* `ComputedFields.Condensation` — how rows become the value of the field;
* `ComputedFields.groupedBody`, `ComputedFields.subqueryBody` — the two forms of the body;
* `ComputedFields.BodyContext.conditionalBody` — the body.
-/

import ComputedFields.Cte.LinkBody

set_option relaxedAutoImplicit false
set_option autoImplicit false

namespace ComputedFields

open Sql

/-! ### Condensing rows -/

/-- How rows become the value of a field. -/
structure Condensation where
  rollup : Option RollupFunction
  targetMulti : Bool
  targetJson : Bool
  storage : StorageType

namespace Condensation

/-- Arrays are taken apart before the rows are condensed, where they cannot be flattened after. -/
def flattens (c : Condensation) (d : Dialect) : Bool :=
  c.rollup.isNone && c.targetMulti && !d.ordersAggregates

/-- The condensed value of rows. -/
def aggregate (c : Condensation) (d : Dialect) (rows : Rows) : String :=
  let order := if d.ordersAggregates then some (qualified Alias.rows "o") else none
  let value := rows.outerValue d c.targetJson
  match c.rollup with
  | some f =>
      let input : Aggregate :=
        { value, rowId := qualified Alias.rows "r", order, multi := c.targetMulti }
      input.overRows d f
  | none =>
      let values := d.jsonAggregate value order none
      if c.targetMulti && !rows.flatten then d.flattenArray values else values

/-- The value over no row takes the place of a missing one. -/
def orIdentity (c : Condensation) (d : Dialect) (x : String) : String :=
  match c.rollup with
  | some f => f.orIdentity d x c.storage
  | none => x

end Condensation

/-! ### Forms of the body -/

/-- The body that joins groups of rows: the rows are condensed once for each combination of keys. -/
def groupedBody (d : Dialect) (host : Table) (field : Field) (c : Condensation) (rows : Rows)
    (hostKeys : List String) : Body :=
  let keys := ", ".intercalate
    ((List.range hostKeys.length).map fun i => qualified Alias.rows (keyColumn i))
  let groups := "SELECT " ++ keys ++ ", " ++ c.aggregate d rows ++ " AS \"v\" FROM " ++
    rows.asTable ++ " GROUP BY " ++ keys
  let conditions := hostKeys.mapIdx fun i key =>
    qualified Alias.groups (keyColumn i) ++ " = " ++ key
  ⟨bodyHead host [c.orIdentity d (qualified Alias.groups "v")] [field] ++ " LEFT JOIN (" ++ groups ++
      ") AS " ++ ident Alias.groups ++ " ON " ++ " AND ".intercalate conditions,
    [field.id]⟩

/-- The body that condenses the rows of each host record in a subquery. -/
def subqueryBody (d : Dialect) (host : Table) (field : Field) (c : Condensation) (rows : Rows) :
    Body :=
  ⟨bodyHead host [rows.subquery (c.orIdentity d (c.aggregate d rows))] [field], [field.id]⟩

/-! ### The body -/

/-- The rollup of a field that has one. -/
def Field.rollup? (field : Field) : Except CompileError (Option RollupFunction) :=
  match field.kind with
  | .rollup _ _ expression | .conditionalRollup _ _ expression =>
      match RollupFunction.parse expression with
      | .ok f => .ok (some f)
      | .error e => .error e
  | _ => .ok none

/-- The link that narrows the rows of a field: nothing when it names none, or one that is missing. -/
def RowChoice.link? (choice : RowChoice) (host : Table) : Option (Option Link) :=
  match choice.linkField with
  | none => some none
  | some id =>
      match (host.field? id).map Field.kind with
      | some (.link l) => some (some l)
      | _ => none

/-- The pairs of equal fields that rows can be grouped by: only without link, order and limit, and if
the filter compares with the host record. -/
def RowChoice.groupPairs? (choice : RowChoice) : Option (List (String × String)) :=
  if choice.linkField.isNone && choice.related.sort.isNone && choice.related.limit.isNone &&
      choice.hostValues then
    choice.related.filter.bind Filter.equalityPairs?
  else none

namespace BodyContext

/-- The values of paired fields on both records; nothing when one of them is missing. -/
def keyPairs (ctx : BodyContext) (foreign host : Row) :
    List (String × String) → BodyM (Option (List (String × String)))
  | [] => pure (some [])
  | (foreignKey, hostKey) :: rest => do
      let left ← ctx.value foreign foreignKey
      let right ← ctx.value host hostKey
      match left, right with
      | some l, some r => do
          let others ← ctx.keyPairs foreign host rest
          pure (others.map fun pairs => (l.1, r.1) :: pairs)
      | _, _ => pure none

/-- The order of the rows of a field: by its own field, else that of the link, else as they were
entered. -/
def rowOrder (ctx : BodyContext) (row : Row) (sort : Option SortKey) (link : Option Link) :
    BodyM String := do
  let default := (link.map Link.order).getD (foreignId ++ " ASC")
  match sort with
  | none => pure default
  | some key => do
      let read ← ctx.value row key.field
      let direction := if key.descending then "DESC" else "ASC"
      pure ((read.map fun v =>
        v.1 ++ " " ++ direction ++ " NULLS FIRST, " ++ foreignId ++ " ASC").getD default)

/-- The rows of a field whose value and order are known, in the form that its filter allows. -/
def condensedBody (ctx : BodyContext) (host foreign : Table) (field : Field) (choice : RowChoice)
    (link : Option Link) (c : Condensation) (value order : String) : BodyM Body := do
  let row : Row := ⟨.foreign, foreign⟩
  let hostRow : Row := ⟨.host, host⟩
  let d := ctx.dialect
  let rows (source : String) : Rows :=
    { value, source, order, flatten := c.flattens d, numbered := d.ordersAggregates }
  match choice.groupPairs? with
  | some pairs => do
      let keys ← ctx.keyPairs row hostRow pairs
      match keys with
      | none => pure (ctx.degraded host [field])
      | some keys => do
          let reads ← get
          let source := aliased foreign.name Alias.foreign ++ NestedRead.joinClause reads
          pure (groupedBody d host field c { rows source with keys := keys.map Prod.fst }
            (keys.map Prod.snd))
  | none => do
      let filter ← ctx.filterSql? row (if choice.hostValues then hostRow else row)
        choice.related.filter
      let reads ← get
      let linked := link.map fun l => l.correlated foreign
      let source := (linked.map Prod.fst).getD (aliased foreign.name Alias.foreign)
      let conditions := (linked.map Prod.snd).toList ++
        (filter.map fun f => "(" ++ f ++ ")").toList
      pure (subqueryBody d host field c
        { rows (source ++ NestedRead.joinClause reads) with
          conditions, limit := choice.related.limit })

/-- The body of a field of the host table that has a unit to itself. -/
def conditionalBody (ctx : BodyContext) (host : Table) (field : Field) : BodyM Body :=
  match field.rowChoice? with
  | none => throw (.notConditional field.id)
  | some choice =>
      match field.rollup? with
      | .error e => throw e
      | .ok rollup =>
          match ctx.catalog.table? choice.related.foreignTable, choice.link? host with
          | some foreign, some link => do
              let row : Row := ⟨.foreign, foreign⟩
              let read ← ctx.value row choice.related.target
              match read with
              | none => pure (ctx.degraded host [field])
              | some (sql, target) => do
                  let value := match rollup with
                    | some f => f.input ctx.dialect (some target) sql
                    | none => sql
                  let order ← ctx.rowOrder row choice.related.sort link
                  let c : Condensation :=
                    ⟨rollup, target.multi, target.storage = .json, field.storage⟩
                  ctx.condensedBody host foreign field choice link c value order
          | _, _ => pure (ctx.degraded host [field])

end BodyContext

end ComputedFields
