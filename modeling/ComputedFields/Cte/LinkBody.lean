/-
**The body of a link.**

A link and the lookups and rollups that go through it share one expression.  A link to at most one
record joins that record.  A link to several groups the joined rows by host record, or, where the
database cannot order inside an aggregate, reads the rows in one subquery for each column.

Main definitions:

* `ComputedFields.Link.hostJoins`, `ComputedFields.Link.correlated` — the linked rows, joined to the
  host record or tied to it by a condition;
* `ComputedFields.Link.order` — the order of the linked rows;
* `ComputedFields.Member` — a lookup or rollup with what it reads;
* `ComputedFields.BodyContext.linkBody` — the body.
-/

import ComputedFields.Cte.Read
import ComputedFields.Rollup

set_option relaxedAutoImplicit false
set_option autoImplicit false

namespace ComputedFields

open Sql

/-! ### Linked rows -/

namespace Link

/-- The joins from the host record to the linked rows. -/
def hostJoins (link : Link) (foreign : Table) : String :=
  let table := aliased foreign.name Alias.foreign
  match link.keyLocation with
  | .junction junction selfKey foreignKey =>
      " LEFT JOIN " ++ aliased junction Alias.junction ++ " ON " ++
        qualified Alias.junction selfKey ++ " = " ++ hostId ++ " LEFT JOIN " ++ table ++ " ON " ++
        foreignId ++ " = " ++ qualified Alias.junction foreignKey
  | .host column =>
      " LEFT JOIN " ++ table ++ " ON " ++ foreignId ++ " = " ++ qualified Alias.host column
  | .foreign column =>
      " LEFT JOIN " ++ table ++ " ON " ++ qualified Alias.foreign column ++ " = " ++ hostId

/-- The linked rows without the host record, and the condition that ties them to it. -/
def correlated (link : Link) (foreign : Table) : String × String :=
  let table := aliased foreign.name Alias.foreign
  match link.keyLocation with
  | .junction junction selfKey foreignKey =>
      (table ++ " JOIN " ++ aliased junction Alias.junction ++ " ON " ++
          qualified Alias.junction foreignKey ++ " = " ++ foreignId,
        qualified Alias.junction selfKey ++ " = " ++ hostId)
  | .host column => (table, foreignId ++ " = " ++ qualified Alias.host column)
  | .foreign column => (table, qualified Alias.foreign column ++ " = " ++ hostId)

/-- The order of the linked rows: by the order column if there is one, then as they were entered. -/
def order (link : Link) : String :=
  let after (position : String) := position ++ " ASC NULLS FIRST, " ++ foreignId ++ " ASC"
  match link.orderColumn, link.junction with
  | some column, some _ => after (qualified Alias.junction column)
  | some column, none => after (qualified Alias.foreign column)
  | none, some _ => after (qualified Alias.junction recordId)
  | none, none => foreignId ++ " ASC"

end Link

/-- The text that names a linked record. -/
def titleText (d : Dialect) (field : Field) (sql : String) : String :=
  if field.kind.isLink then d.linkTitle sql field.multi
  else if field.kind.isUser then d.linkTitle sql false
  else
    match field.format, field.value with
    | some format, .number =>
        if field.multi then d.formatNumberArray sql format else d.formatNumber sql format
    | _, _ => if field.storage = .text then sql else d.textCast sql

/-! ### Members -/

/-- A lookup or rollup of a link, with what it reads.  Without a target its value is missing. -/
structure Member where
  field : Field
  value : String
  target : Option Field
  filter : Option String
  rollup : Option RollupFunction

namespace Member

/-- The target is an array. -/
def targetMulti (m : Member) : Bool := m.target.any Field.multi

/-- The target is JSON. -/
def targetJson (m : Member) : Bool := m.target.any fun t => t.storage = .json

/-- The column of the member: missing without a target, else made from what it reads. -/
def column (d : Dialect) (make : Member → String) (m : Member) : String :=
  if m.target.isNone then d.typedNull m.field.storage else make m

end Member

/-- What a rollup reads: a numeric one reads a value that is no number as far as it looks like one. -/
def RollupFunction.input (d : Dialect) (f : RollupFunction) (target : Option Field)
    (value : String) : String :=
  if f.isNumeric && target.any (fun t => t.value ≠ .number && !t.multi) then d.coerceNumeric value
  else value

namespace BodyContext

/-- The member with a target and a filter. -/
def memberOf (ctx : BodyContext) (row : Row) (field : Field) (related : Related)
    (rollup : Option RollupFunction) : BodyM Member := do
  let read ← ctx.value row related.target
  let filter ← ctx.filterSql? row row related.filter
  pure
    { field
      value := (read.map Prod.fst).getD (ctx.dialect.typedNull field.storage)
      target := read.map Prod.snd
      filter
      rollup }

/-- The member of a lookup or rollup. -/
def member? (ctx : BodyContext) (row : Row) (field : Field) : BodyM (Option Member) :=
  match field.kind with
  | .lookup _ related => do
      let m ← ctx.memberOf row field related none
      pure (some m)
  | .rollup _ related expression =>
      match RollupFunction.parse expression with
      | .error e => throw e
      | .ok f => do
          let m ← ctx.memberOf row field related (some f)
          pure (some m)
  | _ => pure none

/-- The members of the given fields, in order. -/
def members (ctx : BodyContext) (row : Row) : List Field → BodyM (List Member)
  | [] => pure []
  | field :: rest => do
      let first ← ctx.member? row field
      let others ← ctx.members row rest
      pure (first.toList ++ others)

end BodyContext

/-! ### Columns -/

/-- The column of a member of a link to at most one record. -/
def Member.single (d : Dialect) (m : Member) : String :=
  let input : Aggregate :=
    { value := m.value, rowId := foreignId, filter := m.filter, multi := m.targetMulti }
  match m.rollup with
  | some f => input.overOne d f
  | none => input.filteredValue

/-- The column of a member whose rows are grouped by host record. -/
def Member.grouped (d : Dialect) (order : String) (m : Member) : String :=
  match m.rollup with
  | some f =>
      let input : Aggregate :=
        { value := f.input d m.target m.value, rowId := foreignId, order := some order
          filter := m.filter, multi := m.targetMulti }
      f.orIdentity d (input.overRows d f) m.field.storage
  | none =>
      let values := d.jsonAggregate m.value (some order) m.filter
      if m.targetMulti then d.flattenArray values else values

/-- The rows of a link, read in a subquery of their own. -/
def linkedRows (source correlation order value : String) (filter : Option String) : Rows :=
  { value, source, order
    conditions := correlation :: (filter.map fun f => "(" ++ f ++ ")").toList }

/-- The column of a member that reads its rows in a subquery. -/
def Member.correlated (d : Dialect) (rowsOf : String → Option String → Rows) (m : Member) : String :=
  match m.rollup with
  | some f =>
      let rows := rowsOf (f.input d m.target m.value) m.filter
      let input : Aggregate :=
        { value := rows.outerValue d m.targetJson, rowId := qualified Alias.rows "r"
          multi := m.targetMulti }
      rows.subquery (f.orIdentity d (input.overRows d f) m.field.storage)
  | none =>
      let rows := { rowsOf m.value m.filter with flatten := m.targetMulti }
      rows.subquery (d.jsonAggregate (rows.outerValue d m.targetJson) none none)

/-! ### The body -/

/-- The columns and joins of a link, given the object that stands for a linked record. -/
def Link.body (link : Link) (d : Dialect) (host foreign : Table) (joins object : String)
    (members : List Member) (fields : List Field) : String :=
  if !link.relationship.isMulti then
    let columns := ("CASE WHEN " ++ foreignId ++ " IS NULL THEN NULL ELSE " ++ object ++ " END") ::
      members.map (Member.column d (Member.single d))
    bodyHead host columns fields ++ link.hostJoins foreign ++ joins
  else if d.ordersAggregates then
    let linked := foreignId ++ " IS NOT NULL"
    let columns := d.jsonAggregate object (some link.order) (some linked) ::
      members.map (Member.column d (Member.grouped d link.order))
    bodyHead host columns fields ++ link.hostJoins foreign ++ joins ++ " GROUP BY " ++ hostId
  else
    let (source, correlation) := link.correlated foreign
    let rowsOf := linkedRows (source ++ joins) correlation link.order
    let objects := rowsOf object none
    let columns := objects.subquery (d.jsonAggregate (objects.outerValue d true) none none) ::
      members.map (Member.column d (Member.correlated d rowsOf))
    bodyHead host columns fields

/-- The body of a link of the host table. -/
def BodyContext.linkBody (ctx : BodyContext) (host : Table) (field : Field) : BodyM Body :=
  match field.kind with
  | .link link =>
      let carried := field :: host.linkMembers field.id
      match ctx.catalog.table? link.foreignTable with
      | none => pure (ctx.degraded host carried)
      | some foreign => do
          let row : Row := ⟨.foreign, foreign⟩
          let read ← ctx.value row link.titleField
          let title := match read with
            | some (sql, titleField) => titleText ctx.dialect titleField sql
            | none => ctx.dialect.typedNull .text
          let members ← ctx.members row (host.linkMembers field.id)
          let reads ← get
          let object := ctx.dialect.linkObject foreignId title
          pure ⟨link.body ctx.dialect host foreign (NestedRead.joinClause reads) object members carried,
            carried.map Field.id⟩
  | _ => throw (.notALink field.id)

end ComputedFields
