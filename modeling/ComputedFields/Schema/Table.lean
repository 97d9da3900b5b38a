/-
**Tables and catalogs.**

A table holds its fields in the order in which their ids were first entered, and an index from names
to ids.  A catalog holds tables in the same way, and an index from field ids to the table that last
brought such a field.

Main definitions:

* `ComputedFields.Table` — a table, with `push`, `field?` and `fieldByName?`;
* `ComputedFields.Catalog` — a catalog, with `add`, `table?` and `field?`.
-/

import ComputedFields.Schema.Field

set_option relaxedAutoImplicit false
set_option autoImplicit false

namespace ComputedFields

/-! ### Tables -/

/-- A table. -/
structure Table where
  id : String
  /-- The name of the table in the database. -/
  name : String
  fields : List Field := []
  /-- Field ids under the names they were entered with. -/
  names : Entries String := []
  /-- No two fields have the same id. -/
  distinct : (fields.map Field.id).Nodup := by exact List.nodup_nil

namespace Table

/-- Enters a field, in the place of the one with its id if there is one. -/
def push (table : Table) (field : Field) : Table :=
  { table with
    fields := Keyed.insert Field.id field table.fields
    names := table.names.insert field.name field.id
    distinct := Keyed.nodup_insert Field.id field table.distinct }

/-- The table with the given fields, entered in order. -/
def ofFields (id name : String) (fields : List Field) : Table :=
  fields.foldl push { id, name }

/-- The field with an id. -/
def field? (table : Table) (id : String) : Option Field := Keyed.get? Field.id id table.fields

/-- The field that was entered last under a name. -/
def fieldByName? (table : Table) (name : String) : Option Field :=
  (table.names.get? name).bind table.field?

/-- The ids of the fields. -/
def fieldIds (table : Table) : List String := table.fields.map Field.id

theorem id_of_field? {table : Table} {id : String} {field : Field}
    (h : table.field? id = some field) : field.id = id :=
  Keyed.key_of_get? h

theorem mem_of_field? {table : Table} {id : String} {field : Field}
    (h : table.field? id = some field) : field ∈ table.fields :=
  Keyed.mem_of_get? h

theorem field?_of_mem {table : Table} {field : Field} (h : field ∈ table.fields) :
    table.field? field.id = some field :=
  Keyed.get?_of_mem table.distinct h

/-- A table has one field of each id. -/
theorem eq_of_id_eq {table : Table} {field other : Field} (h : field ∈ table.fields)
    (hother : other ∈ table.fields) (heq : field.id = other.id) : field = other := by
  have hget := field?_of_mem h
  rw [heq, field?_of_mem hother] at hget
  exact (Option.some.inj hget).symm

end Table

/-! ### Catalogs -/

/-- The tables of a database. -/
structure Catalog where
  tables : List Table := []
  /-- The ids of the tables that brought a field id last. -/
  owners : Entries String := []
  /-- No two tables have the same id. -/
  distinct : (tables.map Table.id).Nodup := by exact List.nodup_nil

namespace Catalog

/-- Enters a table, in the place of the one with its id if there is one. -/
def add (catalog : Catalog) (table : Table) : Catalog :=
  { tables := Keyed.insert Table.id table catalog.tables
    owners := table.fieldIds.foldl (fun owners id => owners.insert id table.id) catalog.owners
    distinct := Keyed.nodup_insert Table.id table catalog.distinct }

/-- The catalog with the given tables, entered in order. -/
def ofTables (tables : List Table) : Catalog := tables.foldl add {}

/-- The table with an id. -/
def table? (catalog : Catalog) (id : String) : Option Table :=
  Keyed.get? Table.id id catalog.tables

theorem mem_of_table? {catalog : Catalog} {id : String} {table : Table}
    (h : catalog.table? id = some table) : table ∈ catalog.tables :=
  Keyed.mem_of_get? h

theorem table?_of_mem {catalog : Catalog} {table : Table} (h : table ∈ catalog.tables) :
    catalog.table? table.id = some table :=
  Keyed.get?_of_mem catalog.distinct h

/-- A field together with the table that owns its id. -/
def field? (catalog : Catalog) (id : String) : Option (Table × Field) := do
  let owner ← catalog.owners.get? id
  let table ← catalog.table? owner
  let field ← table.field? id
  some (table, field)

end Catalog

end ComputedFields
