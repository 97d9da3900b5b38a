/-
**Queries.**

A query selects columns of one table.  Values that have to be looked up elsewhere come from common
table expressions: each is named once, and some are joined to the table by the id of its record.

Main definitions:

* `ComputedFields.Sql.Cte` — a common table expression;
* `ComputedFields.Sql.Query` — a query, with `pushCte`, `joinCte` and `select` to extend it;
* `ComputedFields.Sql.Query.render` — its text.
-/

import ComputedFields.Sql.Quote
import ComputedFields.Keyed

set_option relaxedAutoImplicit false
set_option autoImplicit false

namespace ComputedFields.Sql

/-- The column of a table that holds the id of a record. -/
def recordId : String := "__id"

/-- The column of a common table expression that holds the id of the record it is about. -/
def mainRecordId : String := "main_record_id"

/-- A common table expression. -/
structure Cte where
  name : String
  body : String
  deriving DecidableEq, Repr

/-- The definition of a common table expression. -/
def Cte.render (cte : Cte) : String := ident cte.name ++ " AS (" ++ cte.body ++ ")"

/-- The table that a query reads, and the alias of its rows. -/
structure Source where
  table : String
  rowAlias : String
  deriving DecidableEq, Repr

/-- A selected column: what it holds and how it is called. -/
structure Selected where
  sql : String
  name : String
  deriving DecidableEq, Repr

/-- A selected column in a query. -/
def Selected.render (column : Selected) : String := column.sql ++ " AS " ++ ident column.name

/-- A query. -/
structure Query where
  ctes : List Cte := []
  columns : List Selected := []
  source : Option Source := none
  joined : List String := []
  deriving DecidableEq, Repr

namespace Query

/-- The query of all columns of a table. -/
def ofTable (table rowAlias : String) : Query := { source := some ⟨table, rowAlias⟩ }

/-- The names of the common table expressions. -/
def cteNames (q : Query) : List String := q.ctes.map Cte.name

/-- A common table expression has the name. -/
def hasCte (q : Query) (name : String) : Bool := name ∈ q.cteNames

/-- Adds a common table expression, unless one has the name. -/
def pushCte (q : Query) (name body : String) : Query :=
  if q.hasCte name then q else { q with ctes := q.ctes ++ [⟨name, body⟩] }

/-- An expression with a new name comes last. -/
theorem ctes_pushCte {q : Query} {name body : String} (h : name ∉ q.cteNames) :
    (q.pushCte name body).ctes = q.ctes ++ [⟨name, body⟩] := by
  unfold pushCte hasCte
  rw [if_neg (by simpa using h)]

@[simp] theorem joined_pushCte (q : Query) (name body : String) :
    (q.pushCte name body).joined = q.joined := by
  unfold pushCte
  split <;> rfl

@[simp] theorem columns_pushCte (q : Query) (name body : String) :
    (q.pushCte name body).columns = q.columns := by
  unfold pushCte
  split <;> rfl

@[simp] theorem source_pushCte (q : Query) (name body : String) :
    (q.pushCte name body).source = q.source := by
  unfold pushCte
  split <;> rfl

/-- Joins a common table expression, unless it is joined. -/
def joinCte (q : Query) (name : String) : Query := { q with joined := insertNew q.joined name }

/-- Selects one more column. -/
def select (q : Query) (sql name : String) : Query :=
  { q with columns := q.columns ++ [⟨sql, name⟩] }

/-- The join of a common table expression to the rows of the source. -/
def joinClause (rowAlias cte : String) : String :=
  " LEFT JOIN " ++ ident cte ++ " ON " ++ qualified cte mainRecordId ++ " = " ++
    qualified rowAlias recordId

/-- The common table expressions in front of a query. -/
def withClause (ctes : List Cte) : String :=
  if ctes.isEmpty then "" else "WITH " ++ ", ".intercalate (ctes.map Cte.render) ++ " "

/-- The list of columns; without any, all are selected. -/
def columnList (columns : List Selected) : String :=
  if columns.isEmpty then "*" else ", ".intercalate (columns.map Selected.render)

/-- The source of a query, with what is joined to it. -/
def fromClause (source : Source) (joined : List String) : String :=
  " FROM " ++ ident source.table ++ " AS " ++ ident source.rowAlias ++
    String.join (joined.map (joinClause source.rowAlias))

/-- The text of a query. -/
def render (q : Query) : String :=
  withClause q.ctes ++ "SELECT " ++ columnList q.columns ++
    match q.source with
    | some source => fromClause source q.joined
    | none => ""

end Query

end ComputedFields.Sql
