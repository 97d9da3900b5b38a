/-
**Fields.**

A field of a table is a column, or computed: from other fields of the record by a formula, or from
records of another table.  Links lead to such records; lookups and rollups read a field of the linked
records; their conditional variants read the records that meet a filter, whether or not they are
linked.

Main definitions:

* `ComputedFields.Link` — how the records of two tables are linked, and
  `ComputedFields.Link.keyLocation`, where the keys are;
* `ComputedFields.Related` — which records a field reads, and what of them;
* `ComputedFields.FormulaSource` — a formula as text or as a tree;
* `ComputedFields.SystemField` — values that the database keeps of every record;
* `ComputedFields.FieldKind`, `ComputedFields.Field` — fields.
-/

import ComputedFields.Filter.Basic
import ComputedFields.Formula.Parse
import ComputedFields.Schema.Value
import ComputedFields.Sql.Query

set_option relaxedAutoImplicit false
set_option autoImplicit false

namespace ComputedFields

/-! ### Links -/

/-- How many records of one table are linked to how many of the other. -/
inductive Relationship where
  | manyToOne
  | oneToMany
  | oneToOne
  | manyToMany
  deriving DecidableEq, Repr

/-- A record may be linked to several others. -/
def Relationship.isMulti : Relationship → Bool
  | .oneToMany | .manyToMany => true
  | .manyToOne | .oneToOne => false

/-- A link to the records of another table. -/
structure Link where
  relationship : Relationship
  foreignTable : String
  /-- The field that names a linked record. -/
  titleField : String
  selfKey : String := Sql.recordId
  foreignKey : String := Sql.recordId
  junction : Option String := none
  orderColumn : Option String := none
  /-- The link field of the other table that leads back. -/
  symmetricField : Option String := none
  deriving DecidableEq, Repr

/-- Where the keys of a link are. -/
inductive KeyLocation where
  /-- In a table of their own, which holds the ids of both records. -/
  | junction (table selfKey foreignKey : String)
  /-- In a column of the host record, which holds the id of the foreign one. -/
  | host (column : String)
  /-- In a column of the foreign record, which holds the id of the host. -/
  | foreign (column : String)
  deriving DecidableEq, Repr

/-- Where the keys of the link are: in its junction table if it has one, else on the side whose key is
not the id of the record. -/
def Link.keyLocation (link : Link) : KeyLocation :=
  match link.junction with
  | some table => .junction table link.selfKey link.foreignKey
  | none => if link.selfKey = Sql.recordId then .host link.foreignKey else .foreign link.selfKey

/-! ### Related records -/

/-- An order of records by a field. -/
structure SortKey where
  field : String
  descending : Bool := false
  deriving DecidableEq, Repr

/-- Which records of another table a field reads, and which of their fields. -/
structure Related where
  foreignTable : String
  /-- The field that is read. -/
  target : String
  filter : Option Filter := none
  sort : Option SortKey := none
  limit : Option Nat := none

/-! ### Formulas -/

/-- A formula field holds the text of its formula, or a tree that was read already and may be empty. -/
inductive FormulaSource where
  | text (expression : String)
  | tree (root : Option Formula)

/-- The formula of a source. -/
def FormulaSource.formula : FormulaSource → Except ParseError Formula
  | .text expression => Formula.parse expression
  | .tree (some f) => .ok f
  | .tree none => .error .emptyInput

/-- The fields that a source refers to; one without a formula refers to none. -/
def FormulaSource.references (source : FormulaSource) : List String :=
  match source.formula with
  | .ok f => f.references
  | .error _ => []

/-! ### System fields -/

/-- Values that the database keeps of every record. -/
inductive SystemField where
  | createdTime
  | lastModifiedTime
  | autoNumber
  | recordId
  | createdBy
  | lastModifiedBy
  deriving DecidableEq, Repr

namespace SystemField

/-- The column of a system field. -/
def column : SystemField → String
  | .createdTime => "__created_time"
  | .lastModifiedTime => "__last_modified_time"
  | .autoNumber => "__auto_number"
  | .recordId => Sql.recordId
  | .createdBy => "__created_by"
  | .lastModifiedBy => "__last_modified_by"

/-- The kind of its values. -/
def value : SystemField → ValueKind
  | .createdTime | .lastModifiedTime => .dateTime
  | .autoNumber => .number
  | .recordId | .createdBy | .lastModifiedBy => .string

/-- The type of its column. -/
def storage : SystemField → StorageType
  | .createdTime | .lastModifiedTime => .dateTime
  | .autoNumber => .integer
  | .recordId => .text
  | .createdBy | .lastModifiedBy => .json

/-- The value is a user. -/
def isUser : SystemField → Bool
  | .createdBy | .lastModifiedBy => true
  | _ => false

end SystemField

/-! ### Fields -/

/-- The kind of a field. -/
inductive FieldKind where
  | column
  | link (l : Link)
  | lookup (linkField : String) (related : Related)
  | rollup (linkField : String) (related : Related) (expression : String)
  | conditionalLookup (linkField : Option String) (related : Related)
  | conditionalRollup (linkField : Option String) (related : Related) (expression : String)
  /-- A formula; a persisted one is stored in a generated column. -/
  | formula (source : FormulaSource) (persisted : Bool)
  | system (s : SystemField)

namespace FieldKind

/-- The value comes from another table. -/
def isVirtual : FieldKind → Bool
  | .link _ | .lookup .. | .rollup .. | .conditionalLookup .. | .conditionalRollup .. => true
  | .column | .formula .. | .system _ => false

/-- The value comes from a formula. -/
def isFormula : FieldKind → Bool
  | .formula .. => true
  | _ => false

/-- The value is a link. -/
def isLink : FieldKind → Bool
  | .link _ => true
  | _ => false

/-- The value is a user. -/
def isUser : FieldKind → Bool
  | .system s => s.isUser
  | _ => false

theorem isUser_of_isVirtual {kind : FieldKind} (h : kind.isVirtual = true) : kind.isUser = false := by
  cases kind with
  | system s => cases h
  | _ => rfl

theorem isFormula_of_isVirtual {kind : FieldKind} (h : kind.isVirtual = true) :
    kind.isFormula = false := by
  cases kind with
  | formula source persisted => cases h
  | _ => rfl

end FieldKind

/-- A field of a table. -/
structure Field where
  id : String
  name : String
  /-- The column that holds the values, in the table or in a common table expression. -/
  column : String
  value : ValueKind
  storage : StorageType
  /-- The value is an array. -/
  multi : Bool
  format : Option NumberFormat
  kind : FieldKind

namespace Field

/-- A field with single values, named by its id. -/
def single (id column : String) (value : ValueKind) (kind : FieldKind) : Field :=
  { id, name := id, column, value, storage := .ofKind value, multi := false, format := none, kind }

/-- The field with JSON arrays in the place of single values. -/
def withArrays (field : Field) : Field := { field with storage := .json, multi := true }

/-- A link is stored as JSON. -/
def ofLink (id column : String) (link : Link) : Field :=
  { single id column .string (.link link) with
    storage := .json, multi := link.relationship.isMulti }

/-- A lookup of one linked record, or of several. -/
def ofLookup (id column : String) (value : ValueKind) (multi : Bool) (linkField : String)
    (related : Related) : Field :=
  let field := single id column value (.lookup linkField related)
  if multi then field.withArrays else field

/-- A conditional lookup always reads an array. -/
def ofConditionalLookup (id column : String) (value : ValueKind) (linkField : Option String)
    (related : Related) : Field :=
  (single id column value (.conditionalLookup linkField related)).withArrays

/-- A system field has a column of its own. -/
def ofSystem (id : String) (s : SystemField) : Field :=
  { single id s.column s.value (.system s) with storage := s.storage }

/-- The value comes from another table. -/
def isVirtual (field : Field) : Bool := field.kind.isVirtual

/-- The fields that a formula field refers to; none for other fields. -/
def references (field : Field) : List String :=
  match field.kind with
  | .formula source _ => source.references
  | _ => []

/-- Only formulas refer to fields. -/
theorem references_of_isFormula {field : Field} (h : field.kind.isFormula = false) :
    field.references = [] := by
  unfold references
  split
  · next hkind =>
      rw [hkind] at h
      cases h
  · rfl

end Field

end ComputedFields
