/-
**Compilation errors.**

An error names its cause.  Something that cannot be resolved inside a common table expression is no
error: its value is missing there.  One failure is no report but a breakdown: a number that the compiler
computes leaves the range of 64 bits.

Main definitions:

* `ComputedFields.CompileError` — the causes, with `ComputedFields.CompileError.message`.
-/

import ComputedFields.Formula.Parse

set_option relaxedAutoImplicit false
set_option autoImplicit false

namespace ComputedFields

/-- Why something does not compile. -/
inductive CompileError where
  | fieldNotFound (id : String)
  | unsupportedFunction (name : String)
  | unsupportedOperator (symbol : String)
  /-- Formula fields that refer to each other in a circle; the last one is the first one again. -/
  | circularReference (path : List String)
  | unsupportedRollup (name : String)
  | argumentCount (name : String) (count : Nat)
  | argumentType (name : String) (index : Nat)
  | cteConflict (field existing requested : String)
  | parse (error : ParseError)
  | notALink (id : String)
  | notConditional (id : String)
  /-- The absolute value of an exponent does not fit 64 bits, and there is no room for a product of so
  many factors; the compiler breaks off. -/
  | overflow
  deriving DecidableEq, Repr

/-- The message of an error. -/
def CompileError.message : CompileError → String
  | .fieldNotFound id => "Field not found: " ++ id
  | .unsupportedFunction name => "Unsupported function: " ++ name
  | .unsupportedOperator symbol => "Unsupported operator: " ++ symbol
  | .circularReference path => "Circular reference detected: " ++ " -> ".intercalate path
  | .unsupportedRollup name => "Unsupported rollup function: " ++ name
  | .argumentCount name count =>
      "Function " ++ name ++ " called with an incorrect number of arguments (got " ++
        toString count ++ ")"
  | .argumentType name index =>
      "Function " ++ name ++ ": argument " ++ toString index ++ " is the wrong type"
  | .cteConflict field existing requested =>
      "Field " ++ field ++ " is already mapped to CTE " ++ existing ++ ", refusing to remap to " ++
        requested
  | .parse error => "Formula parse error: " ++ error.message
  | .notALink id => id ++ " is not a link field"
  | .notConditional id => id ++ " has no conditional options"
  | .overflow => "capacity overflow"

end ComputedFields
