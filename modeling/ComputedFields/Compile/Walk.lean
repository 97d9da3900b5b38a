/-
**Compiling a formula, given its fields.**

A formula compiles from the leaves up.  How a field is read is left open: it may come from a column,
from another formula, or from what was compiled before.  So the compiler works in any monad in which
compilation can fail.

Main definitions:

* `ComputedFields.Compiled` — a compiled formula and the fields it reads;
* `ComputedFields.Formula.compileWith` — the compiler.
-/

import ComputedFields.Builtin.Apply

set_option relaxedAutoImplicit false
set_option autoImplicit false

namespace ComputedFields

/-- A compiled formula, with the fields that it reads in the order of their first mention. -/
structure Compiled where
  fragment : Fragment
  reads : List String := []
  deriving Inhabited

namespace Compiled

/-- The SQL of a compiled formula. -/
def sql (c : Compiled) : String := c.fragment.sql

/-- The fields that compiled parts read, in order. -/
def readsOfAll (parts : List Compiled) : List String :=
  parts.foldl (fun reads c => unionNew reads c.reads) []

/-- A unary operator on a compiled part. -/
def unary (t : Target) (op : UnaryOp) (c : Compiled) : Compiled :=
  ⟨t.unary op c.fragment, c.reads⟩

/-- A binary operator on compiled parts. -/
def binary (t : Target) (op : BinaryOp) (l r : Compiled) : Compiled :=
  ⟨t.binary l.fragment op r.fragment, unionNew l.reads r.reads⟩

end Compiled

variable {m : Type → Type} [Monad m] [MonadExceptOf CompileError m]

mutual

/-- Compiles a formula whose fields are read by `read`. -/
def Formula.compileWith (t : Target) (read : String → m Compiled) : Formula → m Compiled
  | .bool value => pure ⟨.boolean (.bool value), []⟩
  | .number spelling => pure ⟨.number (.number spelling), []⟩
  | .text value => pure ⟨.string (t.stringLiteral value), []⟩
  | .null => pure ⟨.null, []⟩
  | .field id => read id
  | .unary op operand => do
      let c ← Formula.compileWith t read operand
      pure (c.unary t op)
  | .binary left op right => do
      let l ← Formula.compileWith t read left
      let r ← Formula.compileWith t read right
      pure (l.binary t op r)
  | .chain op operands => do
      let parts ← Formula.compileAllWith t read operands
      match parts with
      | [] => throw (.unsupportedOperator op.symbol)
      | first :: others => pure (others.foldl (Compiled.binary t op) first)
  | .call (.unknown name) _ => throw (.unsupportedFunction name)
  | .call (.known f) args =>
      if !f.accepts args.length then throw (.argumentCount f.name args.length)
      else if !f.supported t.dialect t.mode then throw (.unsupportedFunction f.name)
      else do
        let parts ← Formula.compileAllWith t read args
        let fragment ← MonadExcept.ofExcept (f.apply t (parts.map Compiled.fragment))
        pure ⟨fragment, Compiled.readsOfAll parts⟩

/-- Compiles formulas from left to right. -/
def Formula.compileAllWith (t : Target) (read : String → m Compiled) :
    List Formula → m (List Compiled)
  | [] => pure []
  | f :: rest => do
      let first ← Formula.compileWith t read f
      let others ← Formula.compileAllWith t read rest
      pure (first :: others)

end

end ComputedFields
