/-
**Filters in SQL.**

A filter becomes a condition on rows.  The value of every field it mentions is given as SQL; a link
is compared by its title.

Main definitions:

* `ComputedFields.Condition.compile` — the SQL of a condition;
* `ComputedFields.Filter.compile` — the SQL of a filter.
-/

import ComputedFields.Dialect.Basic
import ComputedFields.Error
import ComputedFields.Schema.Field

set_option relaxedAutoImplicit false
set_option autoImplicit false

namespace ComputedFields

/-! ### Operands -/

/-- A JSON value in SQL: arrays and objects as the text of their JSON. -/
def Json.toSql : Json → String
  | .null => "NULL"
  | .bool true => "TRUE"
  | .bool false => "FALSE"
  | .whole n => (Json.whole n).render
  | .fraction x => (Json.fraction x).render
  | .text s => Sql.literal s
  | .array items => Sql.literal (Json.array items).render
  | .object members => Sql.literal (Json.object members).render

/-- The operator that finds a text in another, whatever its case. -/
def Dialect.like : Dialect → String
  | .postgres => "ILIKE"
  | .sqlite => "LIKE"

/-- The SQL of a field that a filter mentions. -/
def fieldSql (values : Entries String) (id : String) : Except CompileError String :=
  match values.get? id with
  | some sql => .ok sql
  | none => .error (.fieldNotFound id)

/-- The SQL of what a condition compares with; nothing for null. -/
def Operand.compile (values : Entries String) : Operand → Except CompileError (Option String)
  | .literal .null | .absent => .ok none
  | .literal value => .ok (some value.toSql)
  | .field id => do
      let sql ← fieldSql values id
      .ok (some sql)

/-! ### Conditions -/

namespace Condition

/-- The pattern of texts that contain the operand. -/
def pattern (operand : Operand) (right : Option String) : String :=
  match operand, right with
  | .literal (.text s), _ => Sql.literal ("%" ++ s ++ "%")
  | _, some r => "'%' || " ++ r ++ " || '%'"
  | _, none => "'%'"

/-- A comparison with an operator; with nothing to compare with, no row meets it. -/
def compared (left symbol : String) (right : Option String) : String :=
  match right with
  | some r => "(" ++ left ++ " " ++ symbol ++ " " ++ r ++ ")"
  | none => "FALSE"

/-- The SQL of a condition, given its sides.  The value of a link is not its title, which is the left
side. -/
def sql (d : Dialect) (c : Condition) (isLink : Bool) (value left : String)
    (right : Option String) : String :=
  let found := "(" ++ d.textCast left ++ " " ++ d.like ++ " " ++ pattern c.operand right ++ ")"
  match c.op with
  | .is =>
      match right with
      | some r => "(" ++ left ++ " = " ++ r ++ ")"
      | none => "(" ++ left ++ " IS NULL)"
  | .isNot =>
      match right with
      | some r => "(" ++ left ++ " IS NULL OR " ++ left ++ " <> " ++ r ++ ")"
      | none => "(" ++ left ++ " IS NOT NULL)"
  | .isGreater => compared left ">" right
  | .isGreaterEqual => compared left ">=" right
  | .isLess => compared left "<" right
  | .isLessEqual => compared left "<=" right
  | .contains => found
  | .doesNotContain => "(" ++ left ++ " IS NULL OR NOT " ++ found ++ ")"
  | .isEmpty =>
      if isLink then "(NOT " ++ d.linkExists value ++ ")"
      else "(" ++ left ++ " IS NULL OR " ++ d.textCast left ++ " = '')"
  | .isNotEmpty =>
      if isLink then d.linkExists value
      else "(" ++ left ++ " IS NOT NULL AND " ++ d.textCast left ++ " <> '')"

/-- The SQL of a condition. -/
def compile (d : Dialect) (fields : List Field) (values : Entries String) (c : Condition) :
    Except CompileError String := do
  let value ← fieldSql values c.field
  let field := Keyed.get? Field.id c.field fields
  let isLink := field.any fun f => f.kind.isLink
  let left := if isLink then d.linkTitle value (field.any Field.multi) else value
  let right ← c.operand.compile values
  .ok (c.sql d isLink value left right)

end Condition

/-! ### Filters -/

namespace Filter

/-- Conditions joined by a word; without any, every row meets them. -/
def joined (word : String) (parts : List String) : String :=
  if parts.isEmpty then "TRUE" else "(" ++ (" " ++ word ++ " ").intercalate parts ++ ")"

mutual

/-- The SQL of a filter.  The fields tell which values are links, the entries give the values. -/
def compile (d : Dialect) (fields : List Field) (values : Entries String) :
    Filter → Except CompileError String
  | .condition c => c.compile d fields values
  | .all children => do
      let parts ← compileAll d fields values children
      .ok (joined "AND" parts)
  | .any children => do
      let parts ← compileAll d fields values children
      .ok (joined "OR" parts)

/-- The SQL of filters. -/
def compileAll (d : Dialect) (fields : List Field) (values : Entries String) :
    List Filter → Except CompileError (List String)
  | [] => .ok []
  | f :: rest => do
      let first ← f.compile d fields values
      let others ← compileAll d fields values rest
      .ok (first :: others)

end

end Filter

end ComputedFields
