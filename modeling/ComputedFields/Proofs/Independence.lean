/-
**What compiled SQL does not depend on.**

A target says more than every formula asks.  A generated column has no alias, sees no scope and knows no
time zone; a query takes the present from the database and not from the target.  So two targets for
generated columns may differ in alias and time zone, two targets for queries in the time they take for
the present, and no formula tells them apart.

The alias, the scope and the present are looked at in one place each, where the mode is looked at first.
The time zone is different: the functions that read a part of a date or write it after a template use it
whatever the mode.  That they use it in queries only is due to the check of what a generated column can
hold, which refuses those functions for the one database that knows time zones.

Main definitions:

* `ComputedFields.Target.Interchangeable` — targets that differ in what their mode does not look at;
* `ComputedFields.Context.Interchangeable` — the same for contexts, with their scopes.

Main results:

* `ComputedFields.Function.apply_congr` — **a supported function does not tell them apart**;
* `ComputedFields.Formula.compileWith_interchangeable` — nor does a formula, in whatever monad it
  compiles;
* `ComputedFields.Context.compileTree_independent` — **a generated column depends on neither scope,
  alias nor time zone, and a query not on the time that the target takes for the present**.
-/

import ComputedFields.Compile.Basic

set_option relaxedAutoImplicit false
set_option autoImplicit false

namespace ComputedFields

open Sql (Expr)

/-! ### Targets -/

/-- The targets differ in nothing that a formula of their mode may look at. -/
inductive Target.Interchangeable : Target → Target → Prop where
  | generated {d : Dialect} {users : String} {now : Instant} (zone zone' : String)
      (row row' : Option String) :
      Interchangeable ⟨d, .generated, zone, row, users, now⟩ ⟨d, .generated, zone', row', users, now⟩
  | select {d : Dialect} {zone users : String} {row : Option String} (now now' : Instant) :
      Interchangeable ⟨d, .select, zone, row, users, now⟩ ⟨d, .select, zone, row, users, now'⟩

namespace Target.Interchangeable

variable {t t' : Target}

theorem dialect (h : t.Interchangeable t') : t.dialect = t'.dialect := by cases h <;> rfl

theorem mode (h : t.Interchangeable t') : t.mode = t'.mode := by cases h <;> rfl

theorem userTable (h : t.Interchangeable t') : t.userTable = t'.userTable := by cases h <;> rfl

/-- A column of a generated column has no alias. -/
theorem column (h : t.Interchangeable t') (name : String) : t.column name = t'.column name := by
  cases h <;> rfl

theorem stringLiteral (h : t.Interchangeable t') (s : String) :
    t.stringLiteral s = t'.stringLiteral s := by
  cases h <;> rfl

theorem unary (h : t.Interchangeable t') (op : UnaryOp) : t.unary op = t'.unary op := by
  cases h <;> rfl

theorem binary (h : t.Interchangeable t') (l : Fragment) (op : BinaryOp) (r : Fragment) :
    t.binary l op r = t'.binary l op r := by
  cases h <;> rfl

end Target.Interchangeable

/-! ### Functions -/

section functions

variable {t t' : Target} (h : t.Interchangeable t') (args : List Fragment)

include h

/-- A function on dates that is supported does not look at the time zone of a generated column: where
there are time zones, those that would are refused. -/
theorem DateFunction.apply_congr {f : DateFunction}
    (hsupported : Function.supported t.dialect t.mode (.date f) = true) :
    f.apply t args = f.apply t' args := by
  cases h with
  | @generated d =>
      cases d with
      | postgres =>
          -- what is left compares no dates and takes none apart
          cases f with
          | today | now | createdTime | lastModifiedTime => rfl
          | _ => cases hsupported
      | sqlite =>
          -- parts of dates are taken without a time zone, and templates are refused here too
          cases f with
          | datestr | timestr | datetimeFormat => cases hsupported
          | _ => rfl
  | @select d => cases d <;> cases f <;> rfl

/-- **A supported function does not tell the targets apart.** -/
theorem Function.apply_congr {f : Function} (hsupported : f.supported t.dialect t.mode = true) :
    f.apply t args = f.apply t' args := by
  cases f with
  | date g => exact DateFunction.apply_congr h args hsupported
  | system g => cases h <;> cases g <;> rfl
  | numeric g | text g | logical g | array g => cases h <;> rfl

end functions

/-! ### Formulas -/

namespace Formula

variable {m : Type → Type} [Monad m] [MonadExceptOf CompileError m] {t t' : Target}

mutual

/-- A formula does not tell the targets apart, whatever its fields are. -/
theorem compileWith_interchangeable (h : t.Interchangeable t') (read : String → m Compiled) :
    ∀ f : Formula, f.compileWith t read = f.compileWith t' read
  | .bool _ | .number _ | .null | .field _ | .call (.unknown _) _ => by simp only [compileWith]
  | .text value => by simp only [compileWith, h.stringLiteral]
  | .unary op operand => by
      simp only [compileWith, compileWith_interchangeable h read operand, Compiled.unary, h.unary]
  | .binary left op right => by
      simp only [compileWith, compileWith_interchangeable h read left,
        compileWith_interchangeable h read right, Compiled.binary, h.binary]
  | .chain op operands => by
      have hbinary : Compiled.binary t op = Compiled.binary t' op := by
        funext l r
        simp only [Compiled.binary, h.binary]
      simp only [compileWith, compileAllWith_interchangeable h read operands, hbinary]
  | .call (.known f) args => by
      have hsame : f.supported t'.dialect t'.mode = f.supported t.dialect t.mode := by
        rw [h.dialect, h.mode]
      simp only [compileWith, compileAllWith_interchangeable h read args, hsame]
      cases hsupported : f.supported t.dialect t.mode with
      | false => rfl
      | true => simp only [Function.apply_congr h _ hsupported]

/-- Formulas do not tell the targets apart. -/
theorem compileAllWith_interchangeable (h : t.Interchangeable t') (read : String → m Compiled) :
    ∀ fs : List Formula, compileAllWith t read fs = compileAllWith t' read fs
  | [] => by simp only [compileAllWith]
  | f :: rest => by
      simp only [compileAllWith, compileWith_interchangeable h read f,
        compileAllWith_interchangeable h read rest]

end

end Formula

/-! ### Fields -/

/-- The contexts differ in nothing that a formula may look at: a query sees its scope. -/
structure Context.Interchangeable (ctx ctx' : Context) : Prop where
  table : ctx.table = ctx'.table
  target : ctx.target.Interchangeable ctx'.target
  scope : ctx.target.mode = .select → ctx.scope = ctx'.scope

namespace Context.Interchangeable

variable {ctx ctx' : Context} (h : ctx.Interchangeable ctx')

include h

theorem visible : ctx.visible = ctx'.visible := by
  unfold Context.visible
  rw [← h.target.mode]
  cases hmode : ctx.target.mode with
  | generated => rfl
  | select => exact h.scope hmode

theorem stored (field : Field) : ctx.stored field = ctx'.stored field := by
  unfold Context.stored
  rw [h.visible, h.target.column, h.target.dialect, h.target.userTable]

theorem plain (field : Field) : ctx.plain field = ctx'.plain field := by
  unfold Context.plain Context.typed
  rw [h.stored, h.target.dialect]

/-- A field expands to the same, at whatever depth. -/
theorem expand (depth : Nat) (path : List String) : ctx.expand depth path = ctx'.expand depth path := by
  induction depth generalizing path with
  | zero =>
      funext id
      rfl
  | succ depth ih =>
      funext id
      simp only [Context.expand, h.table, h.plain, ih,
        Formula.compileWith_interchangeable h.target]

theorem compileTree (root : Option Formula) : ctx.compileTree root = ctx'.compileTree root := by
  have hfield : ctx.compileField = ctx'.compileField := by
    funext id
    unfold Context.compileField Context.depth
    rw [h.expand, h.table]
  cases root with
  | none => rfl
  | some f =>
      unfold Context.compileTree Context.compile
      rw [hfield]
      exact Formula.compileWith_interchangeable h.target _ f

end Context.Interchangeable

/-- **Generated columns are context free.**  Whatever a tree compiles to in a generated column, or the
error it fails with, does not depend on scope, alias and time zone; and in a query it does not depend on
the time that the target takes for the present. -/
theorem Context.compileTree_independent (table : Table) (root : Option Formula) (d : Dialect)
    (users : String) :
    (∀ now scope scope' row row' zone zone',
      compileTree ⟨table, ⟨d, .generated, zone, row, users, now⟩, scope⟩ root =
        compileTree ⟨table, ⟨d, .generated, zone', row', users, now⟩, scope'⟩ root) ∧
      ∀ scope row zone now now',
        compileTree ⟨table, ⟨d, .select, zone, row, users, now⟩, scope⟩ root =
          compileTree ⟨table, ⟨d, .select, zone, row, users, now'⟩, scope⟩ root := by
  constructor
  · intro now scope scope' row row' zone zone'
    have hsame : Interchangeable ⟨table, ⟨d, .generated, zone, row, users, now⟩, scope⟩
        ⟨table, ⟨d, .generated, zone', row', users, now⟩, scope'⟩ :=
      ⟨rfl, .generated zone zone' row row', nofun⟩
    exact hsame.compileTree root
  · intro scope row zone now now'
    have hsame : Interchangeable ⟨table, ⟨d, .select, zone, row, users, now⟩, scope⟩
        ⟨table, ⟨d, .select, zone, row, users, now'⟩, scope⟩ :=
      ⟨rfl, .select now now', fun _ => rfl⟩
    exact hsame.compileTree root

end ComputedFields
