/-
**SQL expressions.**

Formulas compile to a small tree of SQL.  Its text puts every operator in parentheses, so the order
of evaluation never depends on the precedence of a database.  Parts that are given as text already
stand in the tree verbatim.

Main definitions:

* `ComputedFields.Sql.Op` — binary operators;
* `ComputedFields.Sql.Expr` — expressions;
* `ComputedFields.Sql.Expr.render` — their text;
* `ComputedFields.Sql.Expr.append` — adds an operand to a chain;
* `ComputedFields.Sql.Expr.textLiteral?`, `ComputedFields.Sql.Expr.intLiteral?` — the value of a
  literal.
-/

import ComputedFields.Sql.Quote
import ComputedFields.Text.Integer

set_option relaxedAutoImplicit false
set_option autoImplicit false

namespace ComputedFields.Sql

/-! ### Operators -/

/-- Operators with two operands. -/
inductive Op where
  | add
  | sub
  | mul
  | div
  | mod
  | eq
  | ne
  | lt
  | le
  | gt
  | ge
  | and
  | or
  | concat
  deriving DecidableEq, Repr

/-- The symbol of an operator in SQL. -/
def Op.symbol : Op → String
  | .add => "+"
  | .sub => "-"
  | .mul => "*"
  | .div => "/"
  | .mod => "%"
  | .eq => "="
  | .ne => "<>"
  | .lt => "<"
  | .le => "<="
  | .gt => ">"
  | .ge => ">="
  | .and => "AND"
  | .or => "OR"
  | .concat => "||"

/-- Operators with one operand. -/
inductive UnaryOp where
  | not
  | neg
  deriving DecidableEq, Repr

/-- What stands before the operand of an operator. -/
def UnaryOp.lead : UnaryOp → String
  | .not => "NOT "
  | .neg => "-"

/-! ### Expressions -/

/-- An expression. -/
inductive Expr where
  | bool (value : Bool)
  | number (spelling : String)
  | text (value : String)
  /-- A string that is pinned to a type. -/
  | typedText (value type : String)
  | null
  | column (rowAlias : Option String) (name : String)
  | call (name : String) (args : List Expr)
  /-- A function that is called without parentheses. -/
  | keyword (name : String)
  | binary (left : Expr) (op : Op) (right : Expr)
  | chain (op : Op) (operands : List Expr)
  | unary (op : UnaryOp) (operand : Expr)
  | cast (operand : Expr) (type : String)
  | case (branches : List (Expr × Expr)) (otherwise : Option Expr)
  /-- Text that is SQL already. -/
  | verbatim (sql : String)
  deriving Inhabited

namespace Expr

mutual

/-- The text of an expression. -/
def render : Expr → String
  | .bool true => "TRUE"
  | .bool false => "FALSE"
  | .number spelling => spelling
  | .text value => literal value
  | .typedText value type => literal value ++ "::" ++ type
  | .null => "NULL"
  | .column (some rowAlias) name => qualified rowAlias name
  | .column none name => ident name
  | .call name args => name ++ "(" ++ ", ".intercalate (renderAll args) ++ ")"
  | .keyword name => name
  | .binary left op right => "(" ++ left.render ++ " " ++ op.symbol ++ " " ++ right.render ++ ")"
  | .chain op operands =>
      "(" ++ (" " ++ op.symbol ++ " ").intercalate (renderAll operands) ++ ")"
  | .unary op operand => "(" ++ op.lead ++ operand.render ++ ")"
  | .cast operand type => "CAST(" ++ operand.render ++ " AS " ++ type ++ ")"
  | .case branches otherwise =>
      "CASE" ++ renderBranches branches ++ renderOtherwise otherwise ++ " END"
  | .verbatim sql => sql

/-- The texts of expressions. -/
def renderAll : List Expr → List String
  | [] => []
  | e :: rest => e.render :: renderAll rest

/-- The branches of a choice. -/
def renderBranches : List (Expr × Expr) → String
  | [] => ""
  | (condition, result) :: rest =>
      " WHEN " ++ condition.render ++ " THEN " ++ result.render ++ renderBranches rest

/-- What a choice gives when no branch applies. -/
def renderOtherwise : Option Expr → String
  | none => ""
  | some e => " ELSE " ++ e.render

end

/-- A whole number. -/
def int (value : Int) : Expr := .number (toString value)

/-- Adds an operand with an operator, to the end of the chain if there is one of that operator. -/
def append (left : Expr) (op : Op) (right : Expr) : Expr :=
  match left with
  | .chain op' operands =>
      if op' = op then .chain op (operands ++ [right]) else .chain op [left, right]
  | _ => .chain op [left, right]

/-! ### Literals -/

/-- The value of a string, whether or not it is pinned to a type. -/
def textLiteral? : Expr → Option String
  | .text value | .typedText value _ => some value
  | _ => none

/-- The empty string. -/
def isBlank (e : Expr) : Bool := e.textLiteral? = some ""

/-- The value of a whole number of 64 bits, under any number of minus signs. -/
def intLiteral? : Expr → Option Int64
  | .number spelling => Text.readInt64? spelling
  | .unary .neg operand => operand.intLiteral?.map fun n => -n
  | _ => none

end Expr

end ComputedFields.Sql
