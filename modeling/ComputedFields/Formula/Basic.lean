/-
**Formulas.**

A formula is a tree of literals, field references, calls and operators.  Long sums and
concatenations are common, so a chain of one operator may also be a single node with all its
operands.  A number keeps the spelling it has in the source.

Main definitions:

* `ComputedFields.BinaryOp`, `ComputedFields.UnaryOp` — the operators;
* `ComputedFields.Formula` — the tree;
* `ComputedFields.Formula.render` — its text, with every operator in parentheses;
* `ComputedFields.Formula.references` — the fields it refers to, by first mention.
-/

import ComputedFields.Function
import ComputedFields.Keyed
import ComputedFields.Text.Quoted

set_option relaxedAutoImplicit false
set_option autoImplicit false

namespace ComputedFields

/-! ### Operators -/

/-- Operators with two operands. -/
inductive BinaryOp where
  | add
  | sub
  | mul
  | div
  | mod
  | concat
  | eq
  | ne
  | lt
  | le
  | gt
  | ge
  | and
  | or
  deriving DecidableEq, Repr

/-- The symbol of an operator in a formula. -/
def BinaryOp.symbol : BinaryOp → String
  | .add => "+"
  | .sub => "-"
  | .mul => "*"
  | .div => "/"
  | .mod => "%"
  | .concat => "&"
  | .eq => "="
  | .ne => "!="
  | .lt => "<"
  | .le => "<="
  | .gt => ">"
  | .ge => ">="
  | .and => "&&"
  | .or => "||"

/-- Operators with one operand. -/
inductive UnaryOp where
  | not
  | neg
  deriving DecidableEq, Repr

/-- The symbol of an operator in a formula. -/
def UnaryOp.symbol : UnaryOp → String
  | .not => "!"
  | .neg => "-"

/-! ### The tree -/

/-- A formula. -/
inductive Formula where
  | bool (value : Bool)
  | number (spelling : String)
  | text (value : String)
  | null
  | field (id : String)
  | call (callee : Callee) (args : List Formula)
  | binary (left : Formula) (op : BinaryOp) (right : Formula)
  | unary (op : UnaryOp) (operand : Formula)
  | chain (op : BinaryOp) (operands : List Formula)
  deriving Inhabited

namespace Formula

/-- Operands joined by one operator: two of them make a binary node, more make a chain. -/
def join (op : BinaryOp) : List Formula → Formula
  | [left, right] => .binary left op right
  | operands => .chain op operands

/-! ### Text -/

mutual

/-- The text of a formula, with every operator in parentheses. -/
def render : Formula → String
  | .bool true => "TRUE"
  | .bool false => "FALSE"
  | .number spelling => spelling
  | .text value => Text.quoted value
  | .null => "NULL"
  | .field id => "\x7b" ++ id ++ "\x7d"
  | .call callee args => callee.name ++ "(" ++ ", ".intercalate (renderAll args) ++ ")"
  | .binary left op right => "(" ++ left.render ++ " " ++ op.symbol ++ " " ++ right.render ++ ")"
  | .unary op operand => "(" ++ op.symbol ++ operand.render ++ ")"
  | .chain op operands =>
      "(" ++ (" " ++ op.symbol ++ " ").intercalate (renderAll operands) ++ ")"

/-- The texts of formulas. -/
def renderAll : List Formula → List String
  | [] => []
  | f :: rest => f.render :: renderAll rest

end

/-! ### References -/

mutual

/-- Adds to `known` the fields that a formula refers to. -/
def addReferences (known : List String) : Formula → List String
  | .bool _ | .number _ | .text _ | .null => known
  | .field id => insertNew known id
  | .call _ args => addAllReferences known args
  | .binary left _ right => addReferences (addReferences known left) right
  | .unary _ operand => addReferences known operand
  | .chain _ operands => addAllReferences known operands

/-- Adds to `known` the fields that formulas refer to. -/
def addAllReferences (known : List String) : List Formula → List String
  | [] => known
  | f :: rest => addAllReferences (addReferences known f) rest

end

/-- The fields that a formula refers to, from left to right, each at its first mention. -/
def references (f : Formula) : List String := f.addReferences []

end Formula

end ComputedFields
