/-
**Operators.**

`+` adds numbers and joins texts: as soon as one side is a text or a date, it joins.  A text that is
compared with a number is read as a number.

Main definitions:

* `ComputedFields.Target.concat` — texts joined, a missing one counting as empty;
* `ComputedFields.Target.compare` — comparisons;
* `ComputedFields.Target.binary`, `ComputedFields.Target.unary` — the operators of formulas.
-/

import ComputedFields.Formula.Basic
import ComputedFields.Target.Basic

set_option relaxedAutoImplicit false
set_option autoImplicit false

namespace ComputedFields.Target

open Sql (Expr)

/-- Two values joined as texts.  A left side that is a chain of texts already is continued. -/
def concat (t : Target) (l r : Fragment) : Fragment :=
  let left : Expr :=
    match l.expr, l.type with
    | .chain .concat operands, .string => .chain .concat operands
    | _, _ => t.concatOperand l
  .string (left.append .concat (t.concatOperand r))

/-- Two values compared. -/
def compare (t : Target) (op : Sql.Op) (l r : Fragment) : Fragment :=
  .boolean <|
    match l.type, r.type with
    | .string, .number => .binary (t.numeric l) op r.expr
    | .number, .string => .binary l.expr op (t.numeric r)
    | _, _ => .binary l.expr op r.expr

/-- The remainder of a division. -/
def modulo (t : Target) (l r : Fragment) : Fragment :=
  let x := t.numeric l
  let y := t.numeric r
  .number <|
    match t.dialect with
    | .postgres => .call "MOD" [.cast x "numeric", .cast y "numeric"]
    | .sqlite =>
        .verbatim ("(" ++ x.render ++ " - " ++ y.render ++ " * CAST(CAST(" ++ x.render ++
          " AS REAL) / " ++ y.render ++ " AS INTEGER))")

/-- The type in which a quotient is taken, so that whole numbers keep their fraction. -/
def quotientType (t : Target) : String :=
  match t.dialect with
  | .postgres => "double precision"
  | .sqlite => "REAL"

/-- The value is joined, not added, by `+`. -/
def isTextual (f : Fragment) : Bool :=
  match f.type with
  | .string | .dateTime => true
  | _ => false

/-- A binary operator of a formula. -/
def binary (t : Target) (l : Fragment) (op : BinaryOp) (r : Fragment) : Fragment :=
  match op with
  | .add =>
      if isTextual l || isTextual r then t.concat l r
      else .number ((t.numeric l).append .add (t.numeric r))
  | .concat => t.concat l r
  | .sub => .number (.binary (t.numeric l) .sub (t.numeric r))
  | .mul => .number (.binary (t.numeric l) .mul (t.numeric r))
  | .div => .number (.binary (.cast (t.numeric l) t.quotientType) .div (t.numeric r))
  | .mod => t.modulo l r
  | .eq => t.compare .eq l r
  | .ne => t.compare .ne l r
  | .lt => t.compare .lt l r
  | .le => t.compare .le l r
  | .gt => t.compare .gt l r
  | .ge => t.compare .ge l r
  | .and => .boolean (.binary (truthy l) .and (truthy r))
  | .or => .boolean (.binary (truthy l) .or (truthy r))

/-- A unary operator of a formula. -/
def unary (t : Target) (op : UnaryOp) (f : Fragment) : Fragment :=
  match op with
  | .not => .boolean (.unary .not (truthy f))
  | .neg => .number (.unary .neg (t.numeric f))

end ComputedFields.Target
