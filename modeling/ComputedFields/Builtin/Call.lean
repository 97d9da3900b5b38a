/-
**Calls with compiled arguments.**

A function sees its arguments compiled.  Some functions need the text of an argument when they are
compiled, as a unit or a template; then the argument has to be a literal, and an empty one counts as
absent.

Main definitions:

* `ComputedFields.Call` — a call;
* `ComputedFields.Call.arg`, `ComputedFields.Call.numeric`, `ComputedFields.Call.text`,
  `ComputedFields.Call.integer` — an argument, and its value as a number, a text or a whole number;
* `ComputedFields.Call.literal?`, `ComputedFields.Call.unit?` — a literal argument.
-/

import ComputedFields.Date.Unit
import ComputedFields.Error
import ComputedFields.Target.Operator

set_option relaxedAutoImplicit false
set_option autoImplicit false

namespace ComputedFields

open Sql (Expr)

/-- A call of a function with compiled arguments. -/
structure Call where
  name : String
  args : List Fragment

namespace Call

/-- The argument at a place, counted from zero. -/
def arg (c : Call) (index : Nat) : Except CompileError Fragment :=
  match c.args[index]? with
  | some f => .ok f
  | none => .error (.argumentCount c.name c.args.length)

/-- An argument as a number. -/
def numeric (t : Target) (c : Call) (index : Nat) : Except CompileError Expr := do
  let f ← c.arg index
  .ok (t.numeric f)

/-- An argument as a text. -/
def text (t : Target) (c : Call) (index : Nat) : Except CompileError Expr := do
  let f ← c.arg index
  .ok (t.text f)

/-- An argument as a whole number. -/
def integer (t : Target) (c : Call) (index : Nat) : Except CompileError Expr := do
  let f ← c.arg index
  .ok (t.integer f)

/-- An optional argument as a whole number. -/
def integerOr (t : Target) (c : Call) (index : Nat) (default : Expr) : Expr :=
  match c.args[index]? with
  | some f => t.integer f
  | none => default

/-- The argument does not have the type that the function needs. -/
def wrongType (c : Call) (index : Nat) : CompileError := .argumentType c.name index

/-- The text of a literal argument; nothing when it is absent or empty. -/
def literal? (c : Call) (index : Nat) : Except CompileError (Option String) :=
  match c.args[index]? with
  | none => .ok none
  | some f =>
      if f.isBlank then .ok none
      else
        match f.expr.textLiteral? with
        | some value => .ok (some value)
        | none => .error (c.wrongType index)

/-- The unit that a literal argument names; nothing when it is absent or empty. -/
def unit? (c : Call) (index : Nat) : Except CompileError (Option DateUnit) := do
  let text ← c.literal? index
  match text with
  | none => .ok none
  | some name =>
      match DateUnit.ofText? name with
      | some unit => .ok (some unit)
      | none => .error (c.wrongType index)

end Call

end ComputedFields
