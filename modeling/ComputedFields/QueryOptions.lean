/-
**Options of a query.**

Main definitions:

* `ComputedFields.QueryOptions` — the database, the alias of the main table, the time zone and the
  table of users;
* `ComputedFields.QueryOptions.target` — what a formula is compiled for inside the query.
-/

import ComputedFields.Target.Basic

set_option relaxedAutoImplicit false
set_option autoImplicit false

namespace ComputedFields

/-- Options of a query. -/
structure QueryOptions where
  dialect : Dialect := .postgres
  /-- The alias of the main table. -/
  rowAlias : String := "t"
  timezone : String := "UTC"
  userTable : String := "users"
  now : Instant

/-- What a formula about the records with an alias is compiled for. -/
def QueryOptions.target (options : QueryOptions) (rowAlias : String) : Target :=
  { dialect := options.dialect
    mode := .select
    timezone := options.timezone
    rowAlias := some rowAlias
    userTable := options.userTable
    now := options.now }

end ComputedFields
