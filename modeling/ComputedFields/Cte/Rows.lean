/-
**Rows of another table.**

Where an aggregate cannot order its values, or only some of the rows count, the rows come from a
subquery that orders and limits them.

Main definitions:

* `ComputedFields.Alias` — the aliases inside a common table expression;
* `ComputedFields.Rows` — ordered rows with a value each;
* `ComputedFields.Rows.select`, `ComputedFields.Rows.subquery` — the rows, and an aggregate over them.
-/

import ComputedFields.Dialect.Basic
import ComputedFields.Sql.Query

set_option relaxedAutoImplicit false
set_option autoImplicit false

namespace ComputedFields

open Sql

/-! ### Aliases -/

namespace Alias

/-- The record that a common table expression is about. -/
def host : String := "m"

/-- The record of the foreign table. -/
def foreign : String := "f"

/-- The row of a junction table. -/
def junction : String := "j"

/-- The rows of a subquery. -/
def rows : String := "s"

/-- An element of an array. -/
def element : String := "e"

/-- The groups of rows with the same keys. -/
def groups : String := "g"

end Alias

/-- The id of the host record. -/
def hostId : String := qualified Alias.host recordId

/-- The id of the foreign record. -/
def foreignId : String := qualified Alias.foreign recordId

/-- A table under an alias. -/
def aliased (table rowAlias : String) : String := ident table ++ " AS " ++ ident rowAlias

/-- The column of a key, by its number. -/
def keyColumn (index : Nat) : String := "k" ++ toString index

/-! ### Rows -/

/-- Ordered rows of the foreign table, each with a value. -/
structure Rows where
  value : String
  /-- The table and what is joined to it. -/
  source : String
  conditions : List String := []
  order : String
  limit : Option Nat := none
  /-- An array makes one row for each of its elements. -/
  flatten : Bool := false
  /-- The rows carry their position. -/
  numbered : Bool := false
  /-- Further columns, by which rows can be grouped. -/
  keys : List String := []

namespace Rows

/-- The columns of the keys, from a number on. -/
def keyColumns : Nat → List String → String
  | _, [] => ""
  | index, key :: rest =>
      ", " ++ key ++ " AS " ++ ident (keyColumn index) ++ keyColumns (index + 1) rest

/-- The value and the id of each row; an element of an array has a type too. -/
def valueColumns (r : Rows) : String :=
  if r.flatten then
    qualified Alias.element "value" ++ " AS \"v\", " ++ qualified Alias.element "type" ++
      " AS \"t\", " ++ foreignId ++ " AS \"r\""
  else r.value ++ " AS \"v\", " ++ foreignId ++ " AS \"r\""

/-- The position of each row. -/
def numberColumn (r : Rows) : String :=
  if r.numbered then ", ROW_NUMBER() OVER (ORDER BY " ++ r.order ++ ") AS \"o\"" else ""

/-- The table and what is joined to it, with the elements of the arrays if they make rows. -/
def fromClause (r : Rows) : String :=
  " FROM " ++ r.source ++
    if r.flatten then ", json_each(" ++ r.value ++ ") AS " ++ ident Alias.element else ""

/-- The conditions on the rows. -/
def whereClause (r : Rows) : String :=
  if r.conditions.isEmpty then "" else " WHERE " ++ " AND ".intercalate r.conditions

/-- The order of the rows. -/
def orderClause (r : Rows) : String :=
  " ORDER BY " ++ r.order ++ if r.flatten then ", " ++ qualified Alias.element "key" else ""

/-- The limit on the rows. -/
def limitClause (r : Rows) : String :=
  match r.limit with
  | some n => " LIMIT " ++ toString n
  | none => ""

/-- The query of the rows. -/
def select (r : Rows) : String :=
  "SELECT " ++ r.valueColumns ++ r.numberColumn ++ keyColumns 0 r.keys ++ r.fromClause ++
    r.whereClause ++ r.orderClause ++ r.limitClause

/-- The rows as a table. -/
def asTable (r : Rows) : String := "(" ++ r.select ++ ") AS " ++ ident Alias.rows

/-- An aggregate over the rows. -/
def subquery (r : Rows) (aggregate : String) : String :=
  "(SELECT " ++ aggregate ++ " FROM " ++ r.asTable ++ ")"

/-- The value of a row outside the subquery, where JSON has to be marked as such again. -/
def outerValue (r : Rows) (d : Dialect) (json : Bool) : String :=
  let v := qualified Alias.rows "v"
  if r.flatten then
    "CASE WHEN " ++ qualified Alias.rows "t" ++ " IN ('object', 'array') THEN " ++ d.jsonValue v ++
      " ELSE " ++ v ++ " END"
  else if json then d.jsonValue v
  else v

end Rows

end ComputedFields
