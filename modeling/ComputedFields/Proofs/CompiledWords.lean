/-
**The words of compiled functions.**

Every operator and every function puts its arguments into templates whose quotations are closed and
whose parentheses are balanced.  In the templates of operators, and of the functions that compile for a
generated column, no word is the keyword of a query.  So what they make of tidy arguments is tidy
again, and so is what the other functions make, where queries are allowed.  There is one exception: a
rounding function takes the power of ten of its precision, and where the database has no powers and the
precision is no literal, that power is a recursive query.

The words of Postgres stand in the templates for Postgres only.  So a vocabulary need not allow them where
formulas are compiled for SQLite.

Main definitions:

* `ComputedFields.Yields` — what a computation returns, if it does;
* `ComputedFields.Sql.Vocabulary.Speaks` — a vocabulary allows what is written for a database;
* `ComputedFields.Function.LiteralPrecision` — the call is not one of the exception;
* `ComputedFields.Function.Flat` — the call makes no query.

Main results:

* `ComputedFields.Target.tidy_binary`, `ComputedFields.Target.tidy_unary` — operators keep texts tidy;
* `ComputedFields.Function.apply_tidy` — **so do functions**, if they make no query or queries are
  allowed.
-/

import ComputedFields.Builtin.Apply
import ComputedFields.Proofs.SqlText

set_option relaxedAutoImplicit false
set_option autoImplicit false

namespace ComputedFields

open Sql (Expr Vocabulary)

/-! ### Results of a computation -/

/-- What the computation returns satisfies `P`. -/
def Yields {α : Type} (P : α → Prop) (x : Except CompileError α) : Prop := ∀ a, x = .ok a → P a

namespace Yields

variable {α β : Type} {P : α → Prop} {Q : β → Prop}

theorem ok {a : α} (h : P a) : Yields P (.ok a) := by
  intro b hb
  cases hb
  exact h

theorem error (e : CompileError) : Yields P (.error e) := nofun

theorem bind {x : Except CompileError α} {g : α → Except CompileError β} (hx : Yields P x)
    (hg : ∀ a, P a → Yields Q (g a)) : Yields Q (x >>= g) := by
  cases x with
  | error e => exact .error e
  | ok a => exact hg a (hx a rfl)

/-- Nothing needs to be known about the first result. -/
theorem bind_any {x : Except CompileError α} {g : α → Except CompileError β}
    (hg : ∀ a, Yields Q (g a)) : Yields Q (x >>= g) := by
  cases x with
  | error e => exact .error e
  | ok a => exact hg a

end Yields

/-! ### Words of a database -/

/-- The vocabulary allows what is written for the database, but for the keyword of a query. -/
class Sql.Vocabulary.Speaks (V : Vocabulary) (d : Dialect) : Prop where
  postgres : d = .postgres → V.Postgres

instance {V : Vocabulary} [V.Postgres] (d : Dialect) : V.Speaks d := ⟨fun _ => inferInstance⟩

instance {V : Vocabulary} : V.Speaks .sqlite := ⟨nofun⟩

instance {V : Vocabulary} [h : V.Speaks .postgres] : V.Postgres := h.postgres rfl

/-! ### Fragments of the dialects -/

section

variable {V : Vocabulary} {t : Target} {x : String}

namespace Dialect

theorem tidy_textCast (d : Dialect) [V.Speaks d] (hx : Sql.Tidy V x) : Sql.Tidy V (d.textCast x) := by
  cases d with
  | postgres => exact .postgresWrap (by decide) hx
  | sqlite => exact .wrap (by decide) hx

theorem tidy_numberText (d : Dialect) [V.Speaks d] (hx : Sql.Tidy V x) :
    Sql.Tidy V (d.numberText x) := by
  cases d with
  | postgres => exact tidy_textCast .postgres hx
  | sqlite =>
      exact .template [.text _, .hole, .text _, .hole, .text _, .hole, .text _, .hole, .text _]
        [x, x, x, x] (by decide) (by simpa using hx)

theorem tidy_coerceNumeric (d : Dialect) [V.Speaks d] (hx : Sql.Tidy V x) :
    Sql.Tidy V (d.coerceNumeric x) := by
  cases d with
  | postgres =>
      exact .postgres [.text _, .hole, .text _, .hole, .text _, .hole, .text _]
        [x, Sql.literal numericPattern, x] (by decide) (by simp [hx, Sql.Tidy.literal])
  | sqlite =>
      have htext : Sql.Tidy V ("TRIM(CAST(" ++ x ++ " AS TEXT))") :=
        .wrap (by decide) hx
      have hunsigned : ∀ text, Sql.Tidy V text → Sql.Tidy V ("(CASE WHEN SUBSTR(" ++ text ++
          ", 1, 1) IN ('-', '+') THEN SUBSTR(" ++ text ++ ", 2) ELSE " ++ text ++ " END)") :=
        fun text h => .template [.text _, .hole, .text _, .hole, .text _, .hole, .text _]
          [text, text, text] (by decide) (by simpa using h)
      exact .template [.text _, .hole, .text _, .hole, .text _, .hole, .text _, .hole, .text _,
        .hole, .text _, .hole, .text _] [x, x, _, _, _, _] (by decide)
        (by simp [hx, hunsigned _ htext, htext])

theorem tidy_flattenArray (d : Dialect) [V.Speaks d] (hV : V.Queries) (hx : Sql.Tidy V x) :
    Sql.Tidy V (d.flattenArray x) := by
  cases d with
  | postgres => exact .postgresQuery hV [.text _, .hole, .text _] [_] (by decide) (by simpa using hx)
  | sqlite =>
      exact .query hV [.text _, .text _, .hole, .text _, .text _] [_] (by decide) (by simpa using hx)

theorem sealed_flattenArray (d : Dialect) (hx : Sql.Sealed x) : Sql.Sealed (d.flattenArray x) :=
  (tidy_flattenArray d (fun _ => trivial) hx.tidy_every).toSealed

theorem tidy_linkTitle (d : Dialect) [V.Speaks d] (hV : V.Queries) (multi : Bool)
    (hx : Sql.Tidy V x) : Sql.Tidy V (d.linkTitle x multi) := by
  cases d <;> cases multi
  · exact .wrap (by decide) hx
  · exact .postgresQuery hV [.text _, .text _, .hole, .text _] [x] (by decide) (by simpa using hx)
  · exact .wrap (by decide) hx
  · exact .query hV [.text _, .hole, .text _] [x] (by decide) (by simpa using hx)

theorem sealed_linkTitle (d : Dialect) (multi : Bool) (hx : Sql.Sealed x) :
    Sql.Sealed (d.linkTitle x multi) :=
  (tidy_linkTitle d (fun _ => trivial) multi hx.tidy_every).toSealed

theorem tidy_userLookup (d : Dialect) [V.Speaks d] (hV : V.Queries) (userTable : String)
    (hx : Sql.Tidy V x) : Sql.Tidy V (d.userLookup x userTable) := by
  have hbuild : ∀ build, Sql.Tidy V build → Sql.Tidy V ("(SELECT " ++ build ++ "('id', " ++
      Sql.qualified "u" "id" ++ ", 'title', " ++ Sql.qualified "u" "name" ++ ") FROM " ++
      Sql.ident userTable ++ " AS " ++ Sql.ident "u" ++ " WHERE " ++ Sql.qualified "u" "id" ++
      " = " ++ x ++ ")") :=
    fun build h => .query hV
      [.text _, .hole, .text _, .hole, .text _, .hole, .text _, .hole, .text _, .hole, .text _,
        .hole, .text _, .hole, .text _]
      [build, _, _, _, _, _, x] (by decide) (by simp [h, hx])
  cases d with
  | postgres => exact hbuild _ (.postgresConst (by decide))
  | sqlite => exact hbuild _ (.const (by decide))

theorem sealed_userLookup (d : Dialect) (userTable : String) (hx : Sql.Sealed x) :
    Sql.Sealed (d.userLookup x userTable) :=
  (tidy_userLookup d (fun _ => trivial) userTable hx.tidy_every).toSealed

end Dialect

/-! ### Columns, strings, times and conversions -/

namespace Target

variable {f l r : Fragment} {e e' : Expr}

theorem tidy_column (t : Target) (name : String) : (t.column name).Tidy V := by
  unfold column
  split <;> exact .column _ _

theorem tidy_stringLiteral (t : Target) [V.Speaks t.dialect] (value : String) :
    (t.stringLiteral value).Tidy V := by
  unfold stringLiteral
  split
  · next hd _ => exact .typedText value (Vocabulary.Speaks.postgres hd) (.const (by decide))
  · exact .text value

theorem tidy_currentTime (t : Target) [V.Speaks t.dialect] : t.currentTime.expr.Tidy V := by
  unfold currentTime
  cases t.mode <;> cases hd : t.dialect
  · have hV : V.Postgres := Vocabulary.Speaks.postgres hd
    exact .typedText _ hV (.postgresConst (by decide))
  · exact .text _
  · exact .call (.const (by decide)) (by simp)
  · exact .call (.const (by decide)) (by simpa using .text "now")

theorem tidy_currentDay (t : Target) [V.Speaks t.dialect] : t.currentDay.expr.Tidy V := by
  unfold currentDay
  cases t.mode <;> cases hd : t.dialect
  · exact .typedText _ (Vocabulary.Speaks.postgres hd) (.const (by decide))
  · exact .text _
  · exact .keyword (.const (by decide))
  · exact .call (.const (by decide)) (by simpa using .text "now")

theorem tidy_text (t : Target) [V.Speaks t.dialect] (h : f.expr.Tidy V) : (t.text f).Tidy V := by
  unfold text
  split
  · exact .verbatim (Dialect.tidy_textCast _ h.render)
  · split
    · exact h
    · exact .verbatim (Dialect.tidy_numberText _ h.render)
    all_goals exact .verbatim (Dialect.tidy_textCast _ h.render)

theorem tidy_numeric (t : Target) [V.Speaks t.dialect] (h : f.expr.Tidy V) : (t.numeric f).Tidy V := by
  unfold numeric
  split
  · exact .verbatim (Dialect.tidy_coerceNumeric _ h.render)
  · exact h

theorem tidy_truthy (h : f.expr.Tidy V) : (truthy f).Tidy V := by
  have hpresent : Expr.Tidy V (.verbatim ("(" ++ f.sql ++ " IS NOT NULL)")) :=
    .verbatim (.wrap (by decide) h.render)
  unfold truthy
  split
  · exact h
  · exact .verbatim (.wrap (by decide) h.render)
  · split
    · exact hpresent
    · exact .verbatim (.wrap (by decide) h.render)
  all_goals exact hpresent

theorem tidy_integerType (t : Target) : Sql.Tidy V t.integerType := by
  unfold integerType
  split <;> exact .const (by decide)

theorem tidy_integer (t : Target) [V.Speaks t.dialect] (h : f.expr.Tidy V) :
    (t.integer f).Tidy V := by
  unfold integer
  split
  · exact h
  · exact .cast (tidy_numeric t h) t.tidy_integerType

theorem tidy_concatOperand (t : Target) [V.Speaks t.dialect] (h : f.expr.Tidy V) :
    (t.concatOperand f).Tidy V :=
  .call (.const (by decide)) (by simpa using ⟨tidy_text t h, tidy_stringLiteral t ""⟩)

/-! ### Rounding and positions -/

theorem tidy_ceil (t : Target) (h : e.Tidy V) : (t.ceil e).Tidy V := by
  unfold ceil
  cases t.dialect with
  | postgres => exact .call (.const (by decide)) (by simpa using h)
  | sqlite =>
      have hcut : Expr.Tidy V (.cast e "INTEGER") := .cast h (.const (by decide))
      exact .binary .add hcut (.binary .gt h hcut)

theorem tidy_floor (t : Target) (h : e.Tidy V) : (t.floor e).Tidy V := by
  unfold floor
  cases t.dialect with
  | postgres => exact .call (.const (by decide)) (by simpa using h)
  | sqlite =>
      have hcut : Expr.Tidy V (.cast e "INTEGER") := .cast h (.const (by decide))
      exact .binary .sub hcut (.binary .lt h hcut)

theorem tidy_position (t : Target) [V.Speaks t.dialect] (h : e.Tidy V) (h' : e'.Tidy V) :
    (t.position e e').Tidy V := by
  unfold position
  cases hd : t.dialect with
  | postgres =>
      have hV : V.Postgres := Vocabulary.Speaks.postgres hd
      exact .call (.postgresConst (by decide)) (by simpa using ⟨h, h'⟩)
  | sqlite => exact .call (.const (by decide)) (by simpa using ⟨h, h'⟩)

/-! ### Operators -/

theorem tidy_append (op : Sql.Op) (h : e.Tidy V) (h' : e'.Tidy V) : (e.append op e').Tidy V := by
  unfold Expr.append
  split
  · next op' operands =>
      split
      · cases h with
        | chain _ hoperands =>
            refine .chain op fun operand hoperand => ?_
            rcases List.mem_append.1 hoperand with hoperand | hoperand
            · exact hoperands operand hoperand
            · exact List.mem_singleton.1 hoperand ▸ h'
      · exact .chain op (by simpa using ⟨h, h'⟩)
  · exact .chain op (by simpa using ⟨h, h'⟩)

theorem tidy_concat (t : Target) [V.Speaks t.dialect] (hl : l.expr.Tidy V) (hr : r.expr.Tidy V) :
    (t.concat l r).expr.Tidy V := by
  refine tidy_append .concat ?_ (tidy_concatOperand t hr)
  split
  · next operands hoperands _ => exact hoperands ▸ hl
  · exact tidy_concatOperand t hl

theorem tidy_compare (t : Target) [V.Speaks t.dialect] (op : Sql.Op) (hl : l.expr.Tidy V)
    (hr : r.expr.Tidy V) : (t.compare op l r).expr.Tidy V := by
  unfold compare
  split
  · exact .binary op (tidy_numeric t hl) hr
  · exact .binary op hl (tidy_numeric t hr)
  · exact .binary op hl hr

theorem tidy_modulo (t : Target) [V.Speaks t.dialect] (hl : l.expr.Tidy V) (hr : r.expr.Tidy V) :
    (t.modulo l r).expr.Tidy V := by
  have hx := tidy_numeric t hl
  have hy := tidy_numeric t hr
  unfold modulo
  cases hd : t.dialect with
  | postgres =>
      have hV : V.Postgres := Vocabulary.Speaks.postgres hd
      have htype : Sql.Tidy V "numeric" := .postgresConst (by decide)
      exact .call (.const (by decide)) (by simpa using ⟨.cast hx htype, .cast hy htype⟩)
  | sqlite =>
      exact .verbatim (.template [.text _, .hole, .text _, .hole, .text _, .hole, .text _, .hole,
        .text _] [_, _, _, _] (by decide) (by simp [hx.render, hy.render]))

/-- **Operators keep texts tidy.** -/
theorem tidy_binary (t : Target) [V.Speaks t.dialect] (op : BinaryOp) (hl : l.expr.Tidy V)
    (hr : r.expr.Tidy V) : (t.binary l op r).expr.Tidy V := by
  have hx := tidy_numeric t hl
  have hy := tidy_numeric t hr
  cases op with
  | add =>
      simp only [binary]
      split
      · exact tidy_concat t hl hr
      · exact tidy_append .add hx hy
  | concat => exact tidy_concat t hl hr
  | sub => exact .binary .sub hx hy
  | mul => exact .binary .mul hx hy
  | div =>
      have hquotient : Sql.Tidy V t.quotientType := by
        unfold quotientType
        split
        · next hd =>
            have hV : V.Postgres := Vocabulary.Speaks.postgres hd
            exact .postgresConst (by decide)
        · exact .const (by decide)
      exact .binary .div (.cast hx hquotient) hy
  | mod => exact tidy_modulo t hl hr
  | and => exact .binary .and (tidy_truthy hl) (tidy_truthy hr)
  | or => exact .binary .or (tidy_truthy hl) (tidy_truthy hr)
  | _ => exact tidy_compare t _ hl hr

theorem tidy_unary (t : Target) [V.Speaks t.dialect] (op : UnaryOp) (h : f.expr.Tidy V) :
    (t.unary op f).expr.Tidy V := by
  cases op with
  | not => exact .unary .not (tidy_truthy h)
  | neg => exact .unary .neg (tidy_numeric t h)

end Target

/-! ### Arguments of a call -/

namespace Call

variable [V.Speaks t.dialect] {name : String} {args : List Fragment} {index : Nat}

theorem arg_of_forall {P : Fragment → Prop} (hargs : ∀ a ∈ args, P a) :
    Yields P (arg ⟨name, args⟩ index) := by
  unfold arg
  split
  · next f hf => exact .ok (hargs f (List.mem_of_getElem? hf))
  · exact .error _

theorem arg_tidy (hargs : ∀ a ∈ args, a.expr.Tidy V) :
    Yields (fun f : Fragment => f.expr.Tidy V) (arg ⟨name, args⟩ index) :=
  arg_of_forall hargs

theorem numeric_tidy (hargs : ∀ a ∈ args, a.expr.Tidy V) :
    Yields (Expr.Tidy V) (numeric t ⟨name, args⟩ index) :=
  (arg_tidy hargs).bind fun _ hf => .ok (Target.tidy_numeric t hf)

theorem text_tidy (hargs : ∀ a ∈ args, a.expr.Tidy V) :
    Yields (Expr.Tidy V) (text t ⟨name, args⟩ index) :=
  (arg_tidy hargs).bind fun _ hf => .ok (Target.tidy_text t hf)

theorem integer_tidy (hargs : ∀ a ∈ args, a.expr.Tidy V) :
    Yields (Expr.Tidy V) (integer t ⟨name, args⟩ index) :=
  (arg_tidy hargs).bind fun _ hf => .ok (Target.tidy_integer t hf)

theorem integerOr_tidy (hargs : ∀ a ∈ args, a.expr.Tidy V) {default : Expr}
    (hdefault : default.Tidy V) : (integerOr t ⟨name, args⟩ index default).Tidy V := by
  unfold integerOr
  split
  · next f hf => exact Target.tidy_integer t (hargs f (List.mem_of_getElem? hf))
  · exact hdefault

end Call

/-- What holds of all arguments holds of an optional one. -/
theorem forall_mem_getElem? {α : Type} {P : α → Prop} {xs : List α} (h : ∀ x ∈ xs, P x)
    (index : Nat) : ∀ x ∈ xs[index]?, P x :=
  fun x hx => h x (List.mem_of_getElem? hx)

/-! ### Numbers -/

namespace Decimal

theorem isNumeral_of_mem_toDigits (n : Nat) {digits : List Char}
    (h : ∀ c ∈ digits, c ∈ Nat.toDigits 10 n) : Sql.isNumeral (String.ofList digits) = true := by
  rw [Sql.isNumeral_ofList, List.all_eq_true]
  exact fun c hc => Sql.isNumeralChar_of_mem_toDigits (h c hc)

theorem isNumeral_digitText (n : Nat) : Sql.isNumeral (digitText n) = true :=
  isNumeral_of_mem_toDigits n fun _ hc => hc

theorem isNumeral_zeros (count : Nat) : Sql.isNumeral (zeros count) = true := by
  rw [zeros, Sql.isNumeral_ofList, List.all_eq_true]
  intro c hc
  rw [List.eq_of_mem_replicate hc]
  decide

theorem isNumeral_positional (s : Scientific) : Sql.isNumeral s.positional = true := by
  unfold Scientific.positional
  split
  · rw [Sql.isNumeral_append, Sql.isNumeral_append, isNumeral_digitText, isNumeral_zeros]
    decide
  split
  · rw [Sql.isNumeral_append, Sql.isNumeral_append,
      isNumeral_of_mem_toDigits s.digits fun _ => List.mem_of_mem_take,
      isNumeral_of_mem_toDigits s.digits fun _ => List.mem_of_mem_drop]
    decide
  · rw [Sql.isNumeral_append, Sql.isNumeral_append, isNumeral_digitText, isNumeral_zeros]
    decide

theorem isNumeral_exponential (signed : Bool) (s : Scientific) :
    Sql.isNumeral (s.exponential signed) = true := by
  have htail : Sql.isNumeral (if ((Nat.toDigits 10 s.digits).drop 1).isEmpty then ""
      else "." ++ String.ofList ((Nat.toDigits 10 s.digits).drop 1)) = true := by
    split
    · decide
    · rw [Sql.isNumeral_append, isNumeral_of_mem_toDigits s.digits fun _ => List.mem_of_mem_drop]
      decide
  have hsign : Sql.isNumeral (if s.leading < 0 then "-" else if signed then "+" else "") = true := by
    split
    · decide
    · cases signed <;> decide
  unfold Scientific.exponential
  simp only [Sql.isNumeral_append]
  rw [isNumeral_of_mem_toDigits s.digits fun _ => List.mem_of_mem_take, htail, hsign,
    isNumeral_digitText]
  decide

theorem Layout.isNumeral_renderDecimal (layout : Layout) (s : Scientific) :
    Sql.isNumeral (layout.renderDecimal s) = true := by
  unfold renderDecimal
  split
  · exact isNumeral_positional s
  · exact isNumeral_exponential _ s

theorem Layout.isNumeral_render (layout : Layout) (x : Float) :
    Sql.isNumeral (layout.render x) = true := by
  have hsigned : ∀ magnitude, Sql.isNumeral magnitude = true →
      Sql.isNumeral ((if 2 * x.toBits.toNat < UInt64.size then "" else "-") ++ magnitude) = true := by
    intro magnitude hmagnitude
    rw [Sql.isNumeral_append, hmagnitude]
    split <;> decide
  by_cases hinf : x.abs.isInf = true
  · simp only [render, hinf, if_true]
    exact hsigned "inf" (by decide)
  by_cases hzero : (x.abs == 0) = true
  · simp only [render, hinf, hzero, if_true]
    exact hsigned "0.0" (by decide)
  · simp only [render, hinf, hzero]
    exact hsigned _ (layout.isNumeral_renderDecimal _)

end Decimal

theorem tidy_number (spelling : String) (h : Sql.isNumeral spelling = true) :
    (Expr.number spelling).Tidy V :=
  .number (.numeral h)

/-- The call is no rounding by a precision that the database has to raise ten to. -/
def Function.LiteralPrecision (d : Dialect) (f : Function) (args : List Fragment) : Prop :=
  d = .sqlite → f = .numeric .roundUp ∨ f = .numeric .roundDown →
    ∀ p ∈ args[1]?, p.expr.intLiteral? ≠ none

/-- The call makes no query: the function compiles for a generated column, and does not round by a
precision that is no literal. -/
structure Function.Flat (d : Dialect) (f : Function) (args : List Fragment) : Prop where
  generates : f.generates d = true
  precision : f.LiteralPrecision d args

namespace Target

theorem tidy_iteratedPower {base exponent : String} (hV : V.Queries) (hbase : Sql.Tidy V base)
    (hexponent : Sql.Tidy V exponent) : Sql.Tidy V (iteratedPower base exponent) :=
  .query hV [.text _, .hole, .text _, .hole, .text _, .hole, .text _] [_, _, _] (by decide)
    (by simp [hbase, hexponent])

theorem tidy_unrolledPower {base : Expr} (hbase : base.Tidy V) (exponent : Int) :
    (unrolledPower base exponent).Tidy V := by
  have hone : Expr.Tidy V (.number "1.0") := tidy_number "1.0" (by decide)
  have hproduct : Expr.Tidy V (.chain .mul (List.replicate exponent.natAbs base)) :=
    .chain .mul fun e he => List.eq_of_mem_replicate he ▸ hbase
  unfold unrolledPower
  dsimp only
  split
  · exact hone
  · split
    · exact .binary .div hone hproduct
    · exact hproduct

/-- A power that is computed is a recursive query only where the database has no powers. -/
theorem tidy_computedPower [V.Speaks t.dialect] {base : Expr} {exponent : Fragment}
    (hbase : base.Tidy V) (hexponent : exponent.expr.Tidy V) (h : V.Queries ∨ t.dialect = .postgres) :
    (t.computedPower base exponent).Tidy V := by
  have hnumeric := tidy_numeric t hexponent
  unfold computedPower
  cases hd : t.dialect with
  | postgres => exact .call (.const (by decide)) (by simpa using ⟨hbase, hnumeric⟩)
  | sqlite =>
      have hV : V.Queries := h.resolve_right (by simp [hd])
      have hcast : Expr.Tidy V (.cast (t.numeric exponent) "INTEGER") :=
        .cast hnumeric (.const (by decide))
      exact .verbatim (tidy_iteratedPower hV hbase.render hcast.render)

theorem power_tidy [V.Speaks t.dialect] {base : Expr} {exponent : Fragment} (hbase : base.Tidy V)
    (hexponent : exponent.expr.Tidy V) (h : V.Queries ∨ t.dialect = .postgres) :
    Yields (Expr.Tidy V) (t.power base exponent) := by
  rcases t.power_cases base exponent with ⟨-, -, hpower⟩ | ⟨-, hpower | ⟨n, hpower⟩⟩
  · exact hpower ▸ .error _
  · exact hpower ▸ .ok (tidy_computedPower hbase hexponent h)
  · exact hpower ▸ .ok (tidy_unrolledPower hbase _)

theorem hasSelect_iteratedPower (base exponent : String) :
    Sql.hasSelect (iteratedPower base exponent) = true := by
  have hlead : Sql.hasSelect
      "(WITH RECURSIVE p(i, acc) AS (SELECT 0, 1.0 UNION ALL SELECT i + 1, acc * (" = true := by
    decide
  unfold iteratedPower
  simp only [String.append_assoc]
  rw [Sql.hasSelect_append (by decide) (.inl (by decide)), hlead, Bool.true_or]

/-- The factor of a precision is a recursive query only where the precision is no literal and the
database has no powers. -/
theorem tidy_scaleFactor [V.Speaks t.dialect] {precision : Option Fragment}
    (hprecision : ∀ p ∈ precision, p.expr.Tidy V)
    (h : V.Queries ∨
      (t.dialect = .sqlite → ∀ p ∈ precision, p.expr.intLiteral? ≠ none)) :
    (t.scaleFactor precision).Tidy V := by
  cases precision with
  | none => exact tidy_number "1.0" (by decide)
  | some p =>
      simp only [scaleFactor]
      split
      · exact tidy_number _ (Decimal.Layout.isNumeral_render _ _)
      · next hliteral =>
          refine tidy_computedPower (tidy_number "10.0" (by decide)) (hprecision p rfl) ?_
          rcases h with hV | hscale
          · exact .inl hV
          · cases hd : t.dialect with
            | postgres => exact .inr rfl
            | sqlite => exact absurd hliteral (hscale hd p rfl)

end Target

/-! ### Functions from numbers to a number -/

theorem tidy_signed {value magnitude : Expr} (hvalue : value.Tidy V)
    (hmagnitude : magnitude.Tidy V) : (signed value magnitude).Tidy V :=
  .case (by simpa using .binary .lt hvalue (tidy_number "0" (by decide)))
    (by simpa using .unary .neg hmagnitude) (by simpa using hmagnitude)

theorem tidy_numbers [V.Speaks t.dialect] {args : List Fragment} (hargs : ∀ a ∈ args, a.expr.Tidy V) :
    ∀ e ∈ args.map t.numeric, e.Tidy V :=
  List.forall_mem_map.2 fun a ha => Target.tidy_numeric t (hargs a ha)

namespace NumericFunction

variable {value : Expr} {args : List Fragment}

theorem tidy_abs (h : value.Tidy V) : (Expr.call "ABS" [value]).Tidy V :=
  .call (.const (by decide)) (by simpa using h)

theorem tidy_roundedAt {round : Expr → Expr} (hround : ∀ e, e.Tidy V → (round e).Tidy V)
    {factor : Expr} (hvalue : value.Tidy V) (hfactor : factor.Tidy V) :
    (roundedAt round value factor).Tidy V :=
  tidy_signed hvalue
    (.binary .div (hround _ (.binary .mul (tidy_abs hvalue) hfactor)) hfactor)

theorem hasSelect_roundedAt {round : Expr → Expr} (hround : ∀ e, e.Tidy V → (round e).Tidy V)
    {factor : Expr} (hvalue : value.Tidy V) (hfactor : factor.Tidy V)
    (h : Sql.hasSelect factor.render = true) :
    Sql.hasSelect (roundedAt round value factor).render = true := by
  have hrounded := hround _ (.binary .mul (tidy_abs hvalue) hfactor)
  exact Expr.hasSelect_case
    (by simpa using .binary .lt hvalue (tidy_number "0" (by decide)))
    (by simpa using .unary .neg (.binary .div hrounded hfactor)) (.binary .div hrounded hfactor)
    (Expr.hasSelect_binary .div hrounded hfactor h)

theorem tidy_roundedTo {round : Expr → Expr} (hround : ∀ e, e.Tidy V → (round e).Tidy V)
    {significance : Option Expr} (hvalue : value.Tidy V) (h : ∀ s ∈ significance, s.Tidy V) :
    (roundedTo round value significance).Tidy V := by
  cases significance with
  | none => exact hround _ hvalue
  | some s => exact .binary .mul (hround _ (.binary .div hvalue (h s rfl))) (h s rfl)

theorem tidy_evenAbove (hvalue : value.Tidy V) : (evenAbove t value).Tidy V :=
  tidy_signed hvalue
    (.binary .mul
      (Target.tidy_ceil t (.binary .div (tidy_abs hvalue) (tidy_number "2.0" (by decide))))
      (tidy_number "2" (by decide)))

theorem tidy_oddAbove (hvalue : value.Tidy V) : (oddAbove t value).Tidy V := by
  have hone : Expr.Tidy V (.number "1") := tidy_number "1" (by decide)
  have hhalf : Expr.Tidy V
      (.binary (.binary (.call "ABS" [value]) .add (.number "1")) .div (.number "2.0")) :=
    .binary .div (.binary .add (tidy_abs hvalue) hone) (tidy_number "2.0" (by decide))
  exact tidy_signed hvalue
    (.binary .sub (.binary .mul (Target.tidy_ceil t hhalf) (tidy_number "2" (by decide))) hone)

theorem tidy_extremum (d : Dialect) [V.Speaks d] (greatest : Bool) {values : List Expr}
    (h : ∀ e ∈ values, e.Tidy V) : (extremum d greatest values).Tidy V := by
  cases d with
  | postgres => cases greatest <;> exact .call (.postgresConst (by decide)) h
  | sqlite => cases greatest <;> exact .call (.const (by decide)) h

theorem tidy_rounded (d : Dialect) [V.Speaks d] {precision : Expr} (hvalue : value.Tidy V)
    (hprecision : precision.Tidy V) : (rounded d value precision).Tidy V := by
  cases d with
  | postgres =>
      have hcast : Expr.Tidy V (.cast value "numeric") := .cast hvalue (.postgresConst (by decide))
      exact .call (.const (by decide)) (by simpa using ⟨hcast, hprecision⟩)
  | sqlite => exact .call (.const (by decide)) (by simpa using ⟨hvalue, hprecision⟩)

theorem tidy_logarithm (d : Dialect) [V.Speaks d] {base : Expr} (hbase : base.Tidy V)
    (hvalue : value.Tidy V) : (logarithm d base value).Tidy V := by
  cases d with
  | postgres =>
      have htype : Sql.Tidy V "numeric" := .postgresConst (by decide)
      exact .call (.const (by decide))
        (by simpa using ⟨.cast hbase htype, .cast hvalue htype⟩)
  | sqlite => exact .call (.const (by decide)) (by simpa using ⟨hbase, hvalue⟩)

/-- A square root is a recursive query where the database has none. -/
theorem tidy_squareRoot (d : Dialect) (hvalue : value.Tidy V)
    (h : V.Queries ∨ d = .postgres) : (squareRoot d value).Tidy V := by
  cases d with
  | postgres => exact .call (.const (by decide)) (by simpa using hvalue)
  | sqlite =>
      have hsteps : Sql.Tidy V rootSteps.repr := .numeral (by decide)
      exact .verbatim (.query (h.resolve_right (by simp)) [.text _, .hole, .text _, .hole, .text _,
        .hole, .text _, .hole, .text _, .hole, .text _, .hole, .text _] [_, _, _, _, _, _]
        (by decide) (by simp [hvalue.render, hsteps]))

theorem apply_tidy [V.Speaks t.dialect] {f : NumericFunction}
    (h : V.Queries ∨ Function.Flat t.dialect (.numeric f) args)
    (hargs : ∀ a ∈ args, a.expr.Tidy V) :
    Yields (fun r : Fragment => r.expr.Tidy V) (f.apply t args) := by
  have hscale := h.imp_right Function.Flat.precision
  have hgenerates := h.imp_right Function.Flat.generates
  have hnumbers := tidy_numbers (t := t) hargs
  have hsecond : ∀ e ∈ args[1]?.map t.numeric, e.Tidy V := by
    intro e he
    obtain ⟨a, ha, rfl⟩ := Option.map_eq_some_iff.1 he
    exact Target.tidy_numeric t (forall_mem_getElem? hargs 1 a ha)
  cases f with
  | sum => exact .ok (.chain .add hnumbers)
  | average =>
      refine .ok (.binary .div (.chain .add hnumbers) (tidy_number _ ?_))
      rw [Sql.isNumeral_append, show toString args.length = Decimal.digitText args.length from rfl,
        Decimal.isNumeral_digitText]
      decide
  | max | min =>
      unfold apply
      simp only
      split
      · next only honly => exact .ok (hnumbers only (by simp [honly]))
      · exact .ok (tidy_extremum _ _ hnumbers)
  | round =>
      exact (Call.numeric_tidy hargs).bind fun value hvalue =>
        .ok (tidy_rounded _ hvalue (Call.integerOr_tidy hargs (tidy_number "0" (by decide))))
  | roundUp =>
      exact (Call.numeric_tidy hargs).bind fun value hvalue =>
        .ok (tidy_roundedAt (fun _ => Target.tidy_ceil t) hvalue
          (Target.tidy_scaleFactor (forall_mem_getElem? hargs 1)
            (hscale.imp_right fun h hd => h hd (.inl rfl))))
  | roundDown =>
      exact (Call.numeric_tidy hargs).bind fun value hvalue =>
        .ok (tidy_roundedAt (fun _ => Target.tidy_floor t) hvalue
          (Target.tidy_scaleFactor (forall_mem_getElem? hargs 1)
            (hscale.imp_right fun h hd => h hd (.inr rfl))))
  | ceiling =>
      exact (Call.numeric_tidy hargs).bind fun value hvalue =>
        .ok (tidy_roundedTo (fun _ => Target.tidy_ceil t) hvalue hsecond)
  | floor =>
      exact (Call.numeric_tidy hargs).bind fun value hvalue =>
        .ok (tidy_roundedTo (fun _ => Target.tidy_floor t) hvalue hsecond)
  | even => exact (Call.numeric_tidy hargs).bind fun value hvalue => .ok (tidy_evenAbove hvalue)
  | odd => exact (Call.numeric_tidy hargs).bind fun value hvalue => .ok (tidy_oddAbove hvalue)
  | int => exact (Call.numeric_tidy hargs).bind fun value hvalue => .ok (Target.tidy_floor t hvalue)
  | abs => exact (Call.numeric_tidy hargs).bind fun value hvalue => .ok (tidy_abs hvalue)
  | sqrt =>
      exact (Call.numeric_tidy hargs).bind fun value hvalue =>
        .ok (tidy_squareRoot _ hvalue (hgenerates.imp_right of_decide_eq_true))
  | power =>
      exact (Call.numeric_tidy hargs).bind fun base hbase =>
        (Call.arg_tidy hargs).bind fun exponent hexponent =>
        (Target.power_tidy hbase hexponent (hgenerates.imp_right of_decide_eq_true)).bind fun _ hvalue =>
          .ok hvalue
  | exp =>
      exact (Call.numeric_tidy hargs).bind fun value hvalue =>
        .ok (.call (.const (by decide)) (by simpa using hvalue))
  | log =>
      refine (Call.numeric_tidy hargs).bind fun value hvalue =>
        .ok (tidy_logarithm _ ?_ hvalue)
      cases hbase : args[1]?.map t.numeric with
      | none => exact tidy_number "10" (by decide)
      | some base => exact hsecond base hbase
  | mod =>
      exact (Call.arg_tidy hargs).bind fun l hl =>
        (Call.arg_tidy hargs).bind fun r hr => .ok (Target.tidy_modulo t hl hr)
  | value =>
      exact (Call.text_tidy hargs).bind fun text htext =>
        .ok (.verbatim (Dialect.tidy_coerceNumeric _ htext.render))

end NumericFunction

/-! ### Functions on text -/

namespace TextFunction

variable {value : Expr} {args : List Fragment}

theorem tidy_found [V.Speaks t.dialect] {needle haystack : Expr} {start : Option Expr} (hneedle : needle.Tidy V)
    (hhaystack : haystack.Tidy V) (hstart : ∀ s ∈ start, s.Tidy V) :
    (found t needle haystack start).Tidy V := by
  cases start with
  | none => exact Target.tidy_position t hhaystack hneedle
  | some s =>
      have hs := hstart s rfl
      have hzero : Expr.Tidy V (.number "0") := tidy_number "0" (by decide)
      have htail : Expr.Tidy V (.call "SUBSTR" [haystack, s]) :=
        .call (.const (by decide)) (by simpa using ⟨hhaystack, hs⟩)
      have hplace := Target.tidy_position t htail hneedle
      exact .case (by simpa using .binary .eq hplace hzero) (by simpa using hzero)
        (by simpa using .binary .sub (.binary .add hplace hs) (tidy_number "1" (by decide)))

theorem tidy_leftPart (d : Dialect) [V.Speaks d] {count : Expr} (hvalue : value.Tidy V)
    (hcount : count.Tidy V) : (leftPart d value count).Tidy V := by
  cases d with
  | postgres => exact .call (.postgresConst (by decide)) (by simpa using ⟨hvalue, hcount⟩)
  | sqlite =>
      exact .call (.const (by decide))
        (by simpa using ⟨hvalue, tidy_number "1" (by decide), hcount⟩)

theorem tidy_rightPart [V.Speaks t.dialect] {count : Expr} (hvalue : value.Tidy V) (hcount : count.Tidy V) :
    (rightPart t value count).Tidy V := by
  have htail : Expr.Tidy V (.call "SUBSTR" [value, .unary .neg count]) :=
    .call (.const (by decide)) (by simpa using ⟨hvalue, .unary .neg hcount⟩)
  unfold rightPart
  split
  · next hd =>
      have hV : V.Postgres := Vocabulary.Speaks.postgres hd
      exact .call (.postgresConst (by decide)) (by simpa using ⟨hvalue, hcount⟩)
  · split
    · exact htail
    · exact .case (by simpa using .binary .le hcount (tidy_number "0" (by decide)))
        (by simpa using Target.tidy_stringLiteral t "") (by simpa using htail)

theorem tidy_overlaid (d : Dialect) [V.Speaks d] {start count replacement : Expr}
    (hvalue : value.Tidy V) (hstart : start.Tidy V) (hcount : count.Tidy V)
    (hreplacement : replacement.Tidy V) : (overlaid d value start count replacement).Tidy V := by
  cases d with
  | postgres =>
      exact .verbatim (.postgres [.text _, .hole, .text _, .hole, .text _, .hole, .text _, .hole,
        .text _] [_, _, _, _] (by decide)
        (by simpa using ⟨hvalue.render, hreplacement.render, hstart.render, hcount.render⟩))
  | sqlite =>
      have hone : Expr.Tidy V (.number "1") := tidy_number "1" (by decide)
      have hname : Sql.Tidy V "SUBSTR" := .const (by decide)
      have hleft : Expr.Tidy V (.call "SUBSTR" [value, .number "1", .binary start .sub (.number "1")]) :=
        .call hname (by simpa using ⟨hvalue, hone, .binary .sub hstart hone⟩)
      have hright : Expr.Tidy V (.call "SUBSTR" [value, .binary start .add count]) :=
        .call hname (by simpa using ⟨hvalue, .binary .add hstart hcount⟩)
      exact .chain .concat (by simpa using ⟨hleft, hreplacement, hright⟩)

theorem tidy_repeated (d : Dialect) [V.Speaks d] {count : Expr} (hvalue : value.Tidy V)
    (hcount : count.Tidy V) : (repeated d value count).Tidy V := by
  cases d with
  | postgres => exact .call (.postgresConst (by decide)) (by simpa using ⟨hvalue, hcount⟩)
  | sqlite =>
      exact .verbatim (.template [.text _, .hole, .text _, .hole, .text _, .hole, .text _] [_, _, _]
        (by decide) (by simp [hvalue.render, hcount.render]))

theorem tidy_urlEncoded [V.Speaks t.dialect] (hvalue : value.Tidy V) : (urlEncoded t value).Tidy V := by
  unfold urlEncoded
  induction urlEscapes generalizing value with
  | nil => exact hvalue
  | cons entry rest ih =>
      exact ih (.call (.const (by decide))
        (by simpa using ⟨hvalue, Target.tidy_stringLiteral t _, Target.tidy_stringLiteral t _⟩))

theorem tidy_foldl_concat [V.Speaks t.dialect] {first : Fragment} (hfirst : first.expr.Tidy V)
    (hargs : ∀ a ∈ args, a.expr.Tidy V) : (args.foldl t.concat first).expr.Tidy V := by
  induction args generalizing first with
  | nil => exact hfirst
  | cons arg rest ih =>
      rw [List.forall_mem_cons] at hargs
      exact ih (Target.tidy_concat t hfirst hargs.1) hargs.2

theorem apply_tidy [V.Speaks t.dialect] {f : TextFunction} (hargs : ∀ a ∈ args, a.expr.Tidy V) :
    Yields (fun r : Fragment => r.expr.Tidy V) (f.apply t args) := by
  have hthird : ∀ e ∈ args[2]?.map t.integer, e.Tidy V := by
    intro e he
    obtain ⟨a, ha, rfl⟩ := Option.map_eq_some_iff.1 he
    exact Target.tidy_integer t (forall_mem_getElem? hargs 2 a ha)
  have hone : Expr.Tidy V (.number "1") := tidy_number "1" (by decide)
  have hlower : ∀ e : Expr, e.Tidy V → (Expr.call "LOWER" [e]).Tidy V :=
    fun e he => .call (.const (by decide)) (by simpa using he)
  cases f with
  | concatenate =>
      exact (Call.arg_tidy hargs).bind fun first hfirst =>
        .ok (tidy_foldl_concat (Target.tidy_concatOperand t hfirst)
          fun a ha => hargs a (List.mem_of_mem_drop ha))
  | find =>
      exact (Call.text_tidy hargs).bind fun needle hneedle =>
        (Call.text_tidy hargs).bind fun haystack hhaystack => .ok (tidy_found hneedle hhaystack hthird)
  | search =>
      exact (Call.text_tidy hargs).bind fun needle hneedle =>
        (Call.text_tidy hargs).bind fun haystack hhaystack =>
          .ok (tidy_found (hlower _ hneedle) (hlower _ hhaystack) hthird)
  | mid =>
      exact (Call.text_tidy hargs).bind fun value hvalue =>
        (Call.integer_tidy hargs).bind fun start hstart =>
          (Call.integer_tidy hargs).bind fun count hcount =>
            .ok (.call (.const (by decide)) (by simpa using ⟨hvalue, hstart, hcount⟩))
  | left =>
      exact (Call.text_tidy hargs).bind fun value hvalue =>
        .ok (tidy_leftPart _ hvalue (Call.integerOr_tidy hargs hone))
  | right =>
      exact (Call.text_tidy hargs).bind fun value hvalue =>
        .ok (tidy_rightPart hvalue (Call.integerOr_tidy hargs hone))
  | replace =>
      exact (Call.text_tidy hargs).bind fun value hvalue =>
        (Call.integer_tidy hargs).bind fun start hstart =>
          (Call.integer_tidy hargs).bind fun count hcount =>
            (Call.text_tidy hargs).bind fun replacement hreplacement =>
              .ok (tidy_overlaid _ hvalue hstart hcount hreplacement)
  | regexpReplace =>
      unfold apply
      simp only
      split
      · exact .error _
      · exact (Call.text_tidy hargs).bind fun value hvalue =>
          (Call.text_tidy hargs).bind fun pattern hpattern =>
            (Call.text_tidy hargs).bind fun replacement hreplacement =>
              .ok (.call (.const (by decide)) (by
                simpa using ⟨hvalue, hpattern, hreplacement, Target.tidy_stringLiteral t "g"⟩))
  | substitute =>
      exact (Call.text_tidy hargs).bind fun value hvalue =>
        (Call.text_tidy hargs).bind fun old hold =>
          (Call.text_tidy hargs).bind fun new hnew =>
            .ok (.call (.const (by decide)) (by simpa using ⟨hvalue, hold, hnew⟩))
  | lower => exact (Call.text_tidy hargs).bind fun value hvalue => .ok (hlower value hvalue)
  | upper =>
      exact (Call.text_tidy hargs).bind fun value hvalue =>
        .ok (.call (.const (by decide)) (by simpa using hvalue))
  | rept =>
      exact (Call.text_tidy hargs).bind fun value hvalue =>
        (Call.integer_tidy hargs).bind fun count hcount => .ok (tidy_repeated _ hvalue hcount)
  | trim =>
      exact (Call.text_tidy hargs).bind fun value hvalue =>
        .ok (.call (.const (by decide)) (by simpa using hvalue))
  | len =>
      exact (Call.text_tidy hargs).bind fun value hvalue =>
        .ok (.call (.const (by decide)) (by simpa using hvalue))
  | t =>
      refine (Call.arg_tidy hargs).bind fun value hvalue => .ok ?_
      split
      · exact hvalue
      · exact Target.tidy_stringLiteral t ""
  | encodeUrlComponent =>
      exact (Call.text_tidy hargs).bind fun value hvalue => .ok (tidy_urlEncoded hvalue)

end TextFunction

/-! ### Conditions and choices -/

theorem Target.tidy_unifyTo (t : Target) [V.Speaks t.dialect] (type : ValueType) {f : Fragment}
    (h : f.expr.Tidy V) : (t.unifyTo type f).expr.Tidy V := by
  cases type with
  | string =>
      simp only [unifyTo]
      split
      · exact h
      · exact tidy_text t h
  | unknown => exact h
  | _ =>
      simp only [unifyTo]
      split
      · exact .null
      · exact h

theorem tidy_choice {branches : List (Expr × Expr)} {otherwise : Option Expr}
    (hconditions : ∀ branch ∈ branches, branch.1.Tidy V)
    (hresults : ∀ branch ∈ branches, branch.2.Tidy V) (hotherwise : ∀ e ∈ otherwise, e.Tidy V) :
    (choice branches otherwise).Tidy V := by
  unfold choice
  split
  · next inner last =>
      cases hotherwise _ rfl with
      | case hinner hinner' hlast =>
          exact .case (List.forall_mem_append.2 ⟨hconditions, hinner⟩)
            (List.forall_mem_append.2 ⟨hresults, hinner'⟩) hlast
  · exact .case hconditions hresults hotherwise

namespace LogicalFunction

variable {args : List Fragment}

theorem tidy_chooseIf [V.Speaks t.dialect] {condition result : Fragment} {otherwise : Option Fragment}
    (hcondition : condition.expr.Tidy V) (hresult : result.expr.Tidy V)
    (hotherwise : ∀ f ∈ otherwise, f.expr.Tidy V) :
    (chooseIf t condition result otherwise).expr.Tidy V := by
  refine tidy_choice (by simpa using Target.tidy_truthy hcondition)
    (by simpa using Target.tidy_unifyTo t _ hresult) fun e he => ?_
  obtain ⟨f, hf, rfl⟩ := Option.map_eq_some_iff.1 he
  exact Target.tidy_unifyTo t _ (hotherwise f hf)

/-- Pairs are made of arguments. -/
theorem mem_of_mem_pairUp (args : List Fragment) :
    (∀ pair ∈ (pairUp args).1, pair.1 ∈ args ∧ pair.2 ∈ args) ∧
      ∀ last ∈ (pairUp args).2, last ∈ args := by
  fun_induction pairUp args with
  | case1 => simp
  | case2 last => simp
  | case3 pattern result rest ih => grind

theorem tidy_chooseEqual [V.Speaks t.dialect] {subject : Fragment} (hsubject : subject.expr.Tidy V)
    (hargs : ∀ a ∈ args, a.expr.Tidy V) : (chooseEqual t subject args).expr.Tidy V := by
  obtain ⟨hpairs, hlast⟩ := mem_of_mem_pairUp args
  refine tidy_choice (List.forall_mem_map.2 fun pair hpair => ?_)
    (List.forall_mem_map.2 fun pair hpair => ?_) fun e he => ?_
  · exact Target.tidy_compare t .eq hsubject (hargs _ (hpairs pair hpair).1)
  · exact Target.tidy_unifyTo t _ (hargs _ (hpairs pair hpair).2)
  · obtain ⟨f, hf, rfl⟩ := Option.map_eq_some_iff.1 he
    exact Target.tidy_unifyTo t _ (hargs f (hlast f hf))

theorem apply_tidy [V.Speaks t.dialect] {f : LogicalFunction} (hargs : ∀ a ∈ args, a.expr.Tidy V) :
    Yields (fun r : Fragment => r.expr.Tidy V) (f.apply t args) := by
  have hconditions : ∀ e ∈ args.map Target.truthy, e.Tidy V :=
    List.forall_mem_map.2 fun a ha => Target.tidy_truthy (hargs a ha)
  have hone : Expr.Tidy V (.number "1") := tidy_number "1" (by decide)
  cases f with
  | ifElse =>
      exact (Call.arg_tidy hargs).bind fun condition hcondition =>
        (Call.arg_tidy hargs).bind fun result hresult =>
          .ok (tidy_chooseIf hcondition hresult (forall_mem_getElem? hargs 2))
  | switch =>
      exact (Call.arg_tidy hargs).bind fun subject hsubject =>
        .ok (tidy_chooseEqual hsubject fun a ha => hargs a (List.mem_of_mem_drop ha))
  | and => exact .ok (.chain .and hconditions)
  | or => exact .ok (.chain .or hconditions)
  | xor =>
      refine .ok (.binary .eq (.binary .mod (.chain .add (List.forall_mem_map.2 fun a ha => ?_))
        (tidy_number "2" (by decide))) hone)
      exact .case (by simpa using Target.tidy_truthy (hargs a ha)) (by simpa using hone)
        (by simpa using tidy_number "0" (by decide))
  | not =>
      exact (Call.arg_tidy hargs).bind fun value hvalue =>
        .ok (.unary .not (Target.tidy_truthy hvalue))
  | blank => exact .ok (Target.tidy_stringLiteral t "")
  | error =>
      exact (Call.text_tidy hargs).bind fun message hmessage =>
        .ok (.chain .concat (by simpa using ⟨Target.tidy_stringLiteral t _, hmessage⟩))
  | isError =>
      exact (Call.text_tidy hargs).bind fun value hvalue =>
        .ok (.verbatim (.wrap (by decide) hvalue.render))

end LogicalFunction

/-! ### Functions on dates and times -/

namespace Target

variable {f : Fragment} {e : Expr}

theorem tidy_strftimeInt (spec : String) (h : e.Tidy V) : (strftimeInt spec e).Tidy V :=
  .cast (.call (.const (by decide)) (by simpa using ⟨.text spec, h⟩))
    (.const (by decide))

theorem tidy_timestamp [V.Postgres] (h : f.expr.Tidy V) : (timestamp f).Tidy V := by
  unfold timestamp
  split
  · exact .cast h (.postgresConst (by decide))
  · exact h

theorem tidy_localTime (t : Target) [V.Postgres] (h : f.expr.Tidy V) : Sql.Tidy V (t.localTime f) :=
  .postgres [.text _, .hole, .text _, .hole, .text _] [_, _] (by decide)
    (by simpa using ⟨(tidy_timestamp h).render, .literal t.timezone⟩)

theorem tidy_datePart (t : Target) [V.Speaks t.dialect] (part : DatePart) (h : f.expr.Tidy V) :
    (t.datePart part f).Tidy V := by
  unfold datePart
  cases hd : t.dialect with
  | postgres =>
      have hV : V.Postgres := Vocabulary.Speaks.postgres hd
      have hlocal := tidy_localTime t h
      have hextract : ∀ name, Sql.Tidy V name → Sql.Tidy V
          ("CAST(EXTRACT(" ++ name ++ " FROM " ++ t.localTime f ++ ") AS integer)") :=
        fun name hname => .postgres [.text _, .hole, .text _, .hole, .text _] [name, _] (by decide)
          (by simpa using ⟨hname, hlocal⟩)
      exact .verbatim (hextract _ (by cases part <;> exact .const (by decide)))
  | sqlite => exact tidy_strftimeInt _ h

/-! ### Formatted dates -/

theorem tidy_formatPart (part : FormatPart) (h : e.Tidy V) : (formatPart e part).Tidy V := by
  have hspec : ∀ spec, Expr.Tidy V (.call "STRFTIME" [.text spec, e]) :=
    fun spec => .call (.const (by decide)) (by simpa using ⟨.text spec, h⟩)
  have hshort : ∀ spec place, Sql.isNumeral place = true →
      Expr.Tidy V (.call "SUBSTR" [.call "STRFTIME" [.text spec, e], .number place]) :=
    fun spec place hplace => .call (.const (by decide))
      (by simpa using ⟨hspec spec, tidy_number place hplace⟩)
  have hplain : ∀ spec, Expr.Tidy V (.cast (strftimeInt spec e) "TEXT") :=
    fun spec => .cast (tidy_strftimeInt spec h) (.const (by decide))
  cases part with
  | spec text => exact hspec _
  | computed token =>
      cases token with
      | shortYear => exact hshort "%Y" "3" (by decide)
      | milliseconds => exact hshort "%f" "4" (by decide)
      | month => exact hplain "%m"
      | day => exact hplain "%d"
      | hour => exact hplain "%H"
      | _ =>
          exact .case
            (by simpa using .binary .lt (tidy_strftimeInt "%H" h) (tidy_number "12" (by decide)))
            (by simpa using .text "AM") (by simpa using .text "PM")

theorem tidy_joinParts {parts : List Expr} (h : ∀ e ∈ parts, e.Tidy V) :
    (joinParts parts).Tidy V := by
  unfold joinParts
  split
  · exact .text ""
  · next part => exact h part (List.mem_singleton_self part)
  · exact .chain .concat h

theorem tidy_formatDate (t : Target) [V.Speaks t.dialect] (template : String) (h : f.expr.Tidy V) :
    (t.formatDate f template).Tidy V := by
  unfold formatDate
  split
  · next hd =>
      have hV : V.Postgres := Vocabulary.Speaks.postgres hd
      exact .call (.postgresConst (by decide))
        (by simpa using ⟨.verbatim (tidy_localTime t h), tidy_stringLiteral t _⟩)
  · exact tidy_joinParts (List.forall_mem_map.2 fun part _ => tidy_formatPart part h)

end Target

namespace DateFunction

variable {args : List Fragment} {f l r : Fragment}

theorem tidy_differenceIn (d : Dialect) [V.Speaks d] (unit : DateUnit) (hl : l.expr.Tidy V)
    (hr : r.expr.Tidy V) : Sql.Tidy V (differenceIn d unit l r) := by
  cases d with
  | postgres =>
      have ha := (Target.tidy_timestamp hl).render
      have hb := (Target.tidy_timestamp hr).render
      have hspan : ∀ seconds, Sql.isNumeral seconds = true →
          Sql.Tidy V ("(EXTRACT(EPOCH FROM (" ++ (Target.timestamp l).render ++ " - " ++
            (Target.timestamp r).render ++ ")) / " ++ seconds ++ ")") :=
        fun seconds hseconds => .postgres [.text _, .hole, .text _, .hole, .text _, .hole, .text _]
          [_, _, seconds]
          (by decide) (by simpa using ⟨ha, hb, .numeral hseconds⟩)
      have hage : Sql.Tidy V ("AGE(" ++ (Target.timestamp l).render ++ ", " ++
          (Target.timestamp r).render ++ ")") :=
        .postgres [.text _, .hole, .text _, .hole, .text _] [_, _] (by decide)
          (by simpa using ⟨ha, hb⟩)
      have hmonths : Sql.Tidy V ("(EXTRACT(YEAR FROM " ++ _ ++ ") * 12 + EXTRACT(MONTH FROM " ++ _ ++
          "))") :=
        .postgres [.text _, .hole, .text _, .hole, .text _] [_, _] (by decide)
          (by simpa using ⟨hage, hage⟩)
      cases unit with
      | month => exact hmonths
      | quarter => exact .postgresWrap (by decide) hmonths
      | year => exact .postgresWrap (by decide) hage
      | _ => exact hspan _ (by decide)
  | sqlite =>
      have hspan : ∀ seconds, Sql.isNumeral seconds = true → Sql.Tidy V ("((JULIANDAY(" ++ l.sql ++
          ") - JULIANDAY(" ++ r.sql ++ ")) * 86400.0 / " ++ seconds ++ ")") :=
        fun seconds hseconds => .template [.text _, .hole, .text _, .hole, .text _, .hole, .text _]
          [l.sql, r.sql, seconds] (by decide)
          (by simpa using ⟨hl.render, hr.render, .numeral hseconds⟩)
      have hleft := fun spec => (Target.tidy_strftimeInt spec hl).render
      have hright := fun spec => (Target.tidy_strftimeInt spec hr).render
      have hyears : Sql.Tidy V ("(" ++ (Target.strftimeInt "%Y" l.expr).render ++ " - " ++
          (Target.strftimeInt "%Y" r.expr).render ++ ")") :=
        .template [.text _, .hole, .text _, .hole, .text _] [_, _] (by decide)
          (by simpa using ⟨hleft "%Y", hright "%Y"⟩)
      have hmonths : Sql.Tidy V ("(" ++ _ ++ " * 12 + " ++ _ ++ " - " ++ _ ++ ")") :=
        .template [.text _, .hole, .text _, .hole, .text _, .hole, .text _] [_, _, _] (by decide)
          (by simpa using ⟨hyears, hleft "%m", hright "%m"⟩)
      cases unit with
      | month => exact hmonths
      | quarter => exact .wrap (by decide) hmonths
      | year => exact hyears
      | _ => exact hspan _ (by decide)

theorem difference_tidy [V.Speaks t.dialect] (hargs : ∀ a ∈ args, a.expr.Tidy V) :
    Yields (fun r : Fragment => r.expr.Tidy V) (difference t args) :=
  .bind_any fun _ => (Call.arg_tidy hargs).bind fun _ hl =>
    (Call.arg_tidy hargs).bind fun _ hr => .ok (.verbatim (tidy_differenceIn _ _ hl hr))

theorem tidy_comparable (d : Dialect) [V.Speaks d] (unit : Option DateUnit) (h : f.expr.Tidy V) :
    (comparable d unit f).Tidy V := by
  have hspec : ∀ spec, Expr.Tidy V (.call "STRFTIME" [.text spec, f.expr]) :=
    fun spec => .call (.const (by decide)) (by simpa using ⟨.text spec, h⟩)
  cases d with
  | postgres =>
      have htime := Target.tidy_timestamp h
      cases unit with
      | none => exact htime
      | some u =>
          exact .call (.postgresConst (by decide)) (by simpa using ⟨.text u.truncation, htime⟩)
  | sqlite =>
      cases unit with
      | none => exact .call (.const (by decide)) (by simpa using h)
      | some u =>
          cases u with
          | quarter =>
              exact .verbatim (.template [.text _, .hole, .text _, .hole, .text _] [_, _]
                (by decide) (by simpa using ⟨h.render, (Target.tidy_strftimeInt "%m" h).render⟩))
          | _ => exact hspec _

theorem compared_tidy [V.Speaks t.dialect] {name : String} (op : Sql.Op) (hargs : ∀ a ∈ args, a.expr.Tidy V) :
    Yields (fun r : Fragment => r.expr.Tidy V) (compared t ⟨name, args⟩ op) :=
  (Call.arg_tidy hargs).bind fun _ hl => (Call.arg_tidy hargs).bind fun _ hr =>
    .bind_any fun unit => .ok (.binary op (tidy_comparable _ unit hl) (tidy_comparable _ unit hr))

theorem tidy_later (d : Dialect) [V.Speaks d] (unit : DateUnit) {count : Expr}
    (hstart : f.expr.Tidy V) (hcount : count.Tidy V) : Sql.Tidy V (later d unit f count) := by
  -- the unit stands inside a quotation, so it belongs to the template and fills no hole of it
  cases d with
  | postgres =>
      have htime := (Target.tidy_timestamp hstart).render
      cases unit <;>
        exact .postgres [.text _, .hole, .text _, .hole, .text _, .text _, .text _] [_, _]
          (by decide) (by simpa using ⟨htime, hcount.render⟩)
  | sqlite =>
      have hfactor : Sql.Tidy V unit.modifier.2 := .numeral (by cases unit <;> decide)
      have hstart : Sql.Tidy V f.sql := hstart.render
      cases unit <;>
        exact .template [.text _, .hole, .text _, .hole, .text _, .hole, .text _, .text _, .text _]
          [_, _, _] (by decide) (by simpa using ⟨hstart, hcount.render, hfactor⟩)

theorem partOf_tidy [V.Speaks t.dialect] {name : String} (part : DatePart) (hargs : ∀ a ∈ args, a.expr.Tidy V) :
    Yields (fun r : Fragment => r.expr.Tidy V) (partOf t ⟨name, args⟩ part) :=
  (Call.arg_tidy hargs).bind fun _ hvalue => .ok (Target.tidy_datePart t part hvalue)

theorem weekdayOf_tidy [V.Speaks t.dialect] {name : String} (hargs : ∀ a ∈ args, a.expr.Tidy V) :
    Yields (fun r : Fragment => r.expr.Tidy V) (weekdayOf t ⟨name, args⟩) := by
  refine (Call.arg_tidy hargs).bind fun value hvalue => .bind_any fun start => .ok ?_
  have hday := Target.tidy_datePart t .dayOfWeek hvalue
  simp only [Fragment.number]
  split
  · exact .binary .mod (.binary .add hday (tidy_number "6" (by decide)))
      (tidy_number "7" (by decide))
  · exact hday

theorem parsed_tidy [V.Speaks t.dialect] {name : String} (hargs : ∀ a ∈ args, a.expr.Tidy V) :
    Yields (fun r : Fragment => r.expr.Tidy V) (parsed t ⟨name, args⟩) := by
  unfold parsed
  split
  · next hd =>
      have hV : V.Postgres := Vocabulary.Speaks.postgres hd
      refine .bind_any fun template => (Call.text_tidy hargs).bind fun text htext => .ok ?_
      cases template with
      | none => exact .cast htext (.postgresConst (by decide))
      | some s =>
          exact .call (.postgresConst (by decide))
            (by simpa using ⟨htext, Target.tidy_stringLiteral t _⟩)
  · exact (Call.text_tidy hargs).bind fun text htext =>
      .ok (.call (.const (by decide)) (by simpa using htext))

theorem tidy_workdayAfter (d : Dialect) [V.Speaks d] (hV : V.Queries) {start : Fragment}
    {days : String} (hstart : start.expr.Tidy V) (hdays : Sql.Tidy V days) :
    Sql.Tidy V (workdayAfter d start days) := by
  cases d with
  | postgres =>
      have hfirst : Sql.Tidy V ("(" ++ (Target.timestamp start).render ++ ")::date") :=
        .postgresWrap (by decide) (Target.tidy_timestamp hstart).render
      exact .postgresQuery hV [.text _, .hole, .text _, .hole, .text _, .hole, .text _, .hole, .text _,
        .hole, .text _, .text _, .hole, .text _] [_, _, _, _, _, _] (by decide)
        (by simp [hdays, hfirst])
  | sqlite =>
      exact .query hV [.text _, .hole, .text _, .text _, .hole, .text _] [_, _] (by decide)
        (by simpa using ⟨hstart.render, hdays⟩)

theorem tidy_workdaysBetween (d : Dialect) [V.Speaks d] (hV : V.Queries) (hl : l.expr.Tidy V)
    (hr : r.expr.Tidy V) : Sql.Tidy V (workdaysBetween d l r) := by
  cases d with
  | postgres =>
      exact .postgresQuery hV [.text _, .hole, .text _, .hole, .text _] [_, _] (by decide)
        (by simpa using ⟨(Target.tidy_timestamp hl).render, (Target.tidy_timestamp hr).render⟩)
  | sqlite =>
      exact .query hV [.text _, .hole, .text _, .hole, .text _] [_, _] (by decide)
        (by simpa using ⟨hl.render, hr.render⟩)

theorem apply_tidy [V.Speaks t.dialect] {f : DateFunction}
    (h : V.Queries ∨ Function.generates t.dialect (.date f) = true)
    (hargs : ∀ a ∈ args, a.expr.Tidy V) :
    Yields (fun r : Fragment => r.expr.Tidy V) (f.apply t args) := by
  have hnow := Target.tidy_currentTime (V := V) t
  have hunit : ∀ f ∈ args[1]?.toList, f.expr.Tidy V :=
    fun f hf => forall_mem_getElem? hargs 1 f (Option.mem_toList.1 hf)
  cases f with
  | today => exact .ok (Target.tidy_currentDay t)
  | now => exact .ok hnow
  | createdTime => exact .ok (Target.tidy_column t _)
  | lastModifiedTime => exact .ok (Target.tidy_column t _)
  | year => exact partOf_tidy .year hargs
  | month => exact partOf_tidy .month hargs
  | weekNum => exact partOf_tidy .week hargs
  | weekday => exact weekdayOf_tidy hargs
  | day => exact partOf_tidy .day hargs
  | hour => exact partOf_tidy .hour hargs
  | minute => exact partOf_tidy .minute hargs
  | second => exact partOf_tidy .second hargs
  | fromNow =>
      refine (Call.arg_tidy hargs).bind fun date hdate =>
        difference_tidy (List.forall_mem_append.2 ⟨?_, hunit⟩)
      simpa using ⟨hnow, hdate⟩
  | toNow =>
      refine (Call.arg_tidy hargs).bind fun date hdate =>
        difference_tidy (List.forall_mem_append.2 ⟨?_, hunit⟩)
      simpa using ⟨hdate, hnow⟩
  | datetimeDiff => exact difference_tidy hargs
  | workday =>
      have hV : V.Queries := h.resolve_right (by simp [Function.generates])
      exact (Call.arg_tidy hargs).bind fun start hstart =>
        (Call.integer_tidy hargs).bind fun days hdays =>
          .ok (.verbatim (tidy_workdayAfter _ hV hstart hdays.render))
  | workdayDiff =>
      have hV : V.Queries := h.resolve_right (by simp [Function.generates])
      exact (Call.arg_tidy hargs).bind fun first hfirst =>
        (Call.arg_tidy hargs).bind fun last hlast =>
          .ok (.verbatim (tidy_workdaysBetween _ hV hfirst hlast))
  | isSame => exact compared_tidy .eq hargs
  | isAfter => exact compared_tidy .gt hargs
  | isBefore => exact compared_tidy .lt hargs
  | dateAdd =>
      refine .bind_any fun unit => ?_
      cases unit with
      | none => exact .error _
      | some u =>
          exact (Call.arg_tidy hargs).bind fun start hstart =>
            (Call.numeric_tidy hargs).bind fun count hcount =>
              .ok (.verbatim (tidy_later _ u hstart hcount))
  | datestr | timestr =>
      exact (Call.arg_tidy hargs).bind fun value hvalue =>
        .ok (Target.tidy_formatDate t _ hvalue)
  | datetimeFormat =>
      exact .bind_any fun template => (Call.arg_tidy hargs).bind fun value hvalue =>
        .ok (Target.tidy_formatDate t _ hvalue)
  | datetimeParse => exact parsed_tidy hargs

end DateFunction

/-! ### Functions on multi-valued fields -/

theorem Target.tidy_singleton (t : Target) [V.Speaks t.dialect] {f : Fragment} (h : f.expr.Tidy V) :
    (t.singleton f).Tidy V := by
  have hvalue : Sql.Tidy V f.sql := h.render
  have hmissing : Sql.Tidy V (f.sql ++ " IS NULL") :=
    .template [.hole, .text _] [_] (by decide) (by simpa using hvalue)
  refine .case (by simpa using .verbatim hmissing) (by simpa using .null) ?_
  cases hd : t.dialect with
  | postgres =>
      have hV : V.Postgres := Vocabulary.Speaks.postgres hd
      simpa using .call (.postgresConst (by decide)) (by simpa using h)
  | sqlite => simpa using .call (.const (by decide)) (by simpa using h)

namespace ArrayFunction

variable {args : List Fragment} {f : Fragment} {x separator : String}

theorem tidy_present (hx : Sql.Tidy V x) : Sql.Tidy V (present x) :=
  .wrap (by decide) hx

theorem tidy_size (d : Dialect) [V.Speaks d] (h : f.expr.Tidy V) : Sql.Tidy V (size d f) := by
  unfold size
  split
  · have hlength : Sql.Tidy V (d.arrayLength f.sql) := by
      cases d with
      | postgres => exact .postgresWrap (by decide) h.render
      | sqlite => exact .wrap (by decide) h.render
    exact .wrap (by decide) hlength
  · exact tidy_present h.render

theorem tidy_filledCount (t : Target) [V.Speaks t.dialect] (hV : V.Queries) (h : f.expr.Tidy V) :
    Sql.Tidy V (filledCount t f) := by
  have hf : Sql.Tidy V f.sql := h.render
  unfold filledCount
  split
  · split
    · next hd =>
        have hpostgres : V.Postgres := Vocabulary.Speaks.postgres hd
        exact .postgresQuery hV [.text _, .hole, .text _] [_] (by decide) (by simpa using hf)
    · exact .query hV [.text _, .hole, .text _] [_] (by decide) (by simpa using hf)
  · exact .template [.text _, .hole, .text _, .hole, .text _] [_, _] (by decide)
      (by simpa using ⟨hf, (Target.tidy_text t h).render⟩)

theorem tidy_numberCount (t : Target) [V.Speaks t.dialect] (hV : V.Queries) (h : f.expr.Tidy V) :
    Sql.Tidy V (numberCount t f) := by
  have hf : Sql.Tidy V f.sql := h.render
  unfold numberCount
  split
  · split
    · next hd =>
        have hpostgres : V.Postgres := Vocabulary.Speaks.postgres hd
        exact .postgresQuery hV [.text _, .hole, .text _] [_] (by decide) (by simpa using hf)
    · exact .query hV [.text _, .hole, .text _] [_] (by decide) (by simpa using hf)
  · split
    · exact tidy_present hf
    · exact tidy_present (Target.tidy_numeric t h).render
    · exact .const (by decide)

theorem tidy_joinedText (d : Dialect) [V.Speaks d] (hV : V.Queries) (hx : Sql.Tidy V x)
    (hseparator : Sql.Tidy V separator) : Sql.Tidy V (joinedText d x separator) := by
  cases d with
  | postgres =>
      exact .postgresQuery hV [.text _, .hole, .text _, .hole, .text _] [_, _] (by decide)
        (by simpa using ⟨hseparator, hx⟩)
  | sqlite =>
      exact .query hV [.text _, .hole, .text _, .hole, .text _] [_, _] (by decide)
        (by simpa using ⟨hseparator, hx⟩)

theorem tidy_element : Sql.Tidy V element := .const (by decide)

theorem tidy_unique (d : Dialect) [V.Speaks d] (hV : V.Queries) (hx : Sql.Tidy V x) :
    Sql.Tidy V (unique d x) := by
  cases d with
  | postgres =>
      exact .postgresQuery hV [.text _, .hole, .text _, .hole, .text _] [_, _] (by decide)
        (by simpa using hx)
  | sqlite =>
      exact .query hV [.text _, .hole, .text _, .hole, .text _, .hole, .text _] [_, _, _]
        (by decide) (by simp [hx, tidy_element])

theorem tidy_compact (d : Dialect) [V.Speaks d] (hV : V.Queries) (hx : Sql.Tidy V x) :
    Sql.Tidy V (compact d x) := by
  cases d with
  | postgres => exact .postgresQuery hV [.text _, .hole, .text _] [_] (by decide) (by simpa using hx)
  | sqlite =>
      exact .query hV [.text _, .hole, .text _, .hole, .text _] [_, _] (by decide)
        (by simp [hx, tidy_element])

theorem join_tidy [V.Speaks t.dialect] {name : String} (hV : V.Queries)
    (hargs : ∀ a ∈ args, a.expr.Tidy V) :
    Yields (fun r : Fragment => r.expr.Tidy V) (join t ⟨name, args⟩) := by
  have hseparator : ((args[1]?.map t.text).getD (t.stringLiteral ", ")).Tidy V := by
    cases hsecond : args[1]? with
    | none => exact Target.tidy_stringLiteral t ", "
    | some s => exact Target.tidy_text t (forall_mem_getElem? hargs 1 s hsecond)
  refine (Call.arg_tidy hargs).bind fun value hvalue => .ok ?_
  simp only [Fragment.string]
  split
  · exact .verbatim (tidy_joinedText _ hV hvalue.render hseparator.render)
  · exact Target.tidy_text t hvalue

theorem remade_tidy [V.Speaks t.dialect] {name : String} {make : String → String}
    (hmake : ∀ x, Sql.Tidy V x → Sql.Tidy V (make x)) (hargs : ∀ a ∈ args, a.expr.Tidy V) :
    Yields (fun r : Fragment => r.expr.Tidy V) (remade t ⟨name, args⟩ make) := by
  refine (Call.arg_tidy hargs).bind fun value hvalue => .ok ?_
  simp only [Fragment.array]
  split
  · exact .verbatim (hmake _ hvalue.render)
  · exact Target.tidy_singleton t hvalue

theorem apply_tidy [V.Speaks t.dialect] {f : ArrayFunction}
    (h : V.Queries ∨ Function.generates t.dialect (.array f) = true)
    (hargs : ∀ a ∈ args, a.expr.Tidy V) :
    Yields (fun r : Fragment => r.expr.Tidy V) (f.apply t args) := by
  cases f with
  | countAll =>
      exact (Call.arg_tidy hargs).bind fun value hvalue => .ok (.verbatim (tidy_size _ hvalue))
  | countA =>
      have hV : V.Queries := h.resolve_right (by simp [Function.generates])
      exact .ok (.chain .add (List.forall_mem_map.2 fun a ha =>
        .verbatim (tidy_filledCount t hV (hargs a ha))))
  | count =>
      have hV : V.Queries := h.resolve_right (by simp [Function.generates])
      exact .ok (.chain .add (List.forall_mem_map.2 fun a ha =>
        .verbatim (tidy_numberCount t hV (hargs a ha))))
  | arrayJoin => exact join_tidy (h.resolve_right (by simp [Function.generates])) hargs
  | arrayUnique =>
      have hV : V.Queries := h.resolve_right (by simp [Function.generates])
      exact remade_tidy (fun _ => tidy_unique _ hV) hargs
  | arrayFlatten =>
      have hV : V.Queries := h.resolve_right (by simp [Function.generates])
      exact remade_tidy (fun _ => Dialect.tidy_flattenArray _ hV) hargs
  | arrayCompact =>
      have hV : V.Queries := h.resolve_right (by simp [Function.generates])
      exact remade_tidy (fun _ => tidy_compact _ hV) hargs

end ArrayFunction

/-! ### All functions -/

theorem SystemFunction.apply_tidy [V.Speaks t.dialect] {f : SystemFunction} {args : List Fragment}
    (h : V.Queries ∨ Function.generates t.dialect (.system f) = true)
    (hargs : ∀ a ∈ args, a.expr.Tidy V) :
    Yields (fun r : Fragment => r.expr.Tidy V) (f.apply t args) := by
  cases f with
  | recordId => exact .ok (Target.tidy_column t _)
  | autoNumber => exact .ok (Target.tidy_column t _)
  | textAll =>
      have hV : V.Queries := h.resolve_right (by simp [Function.generates])
      exact (Call.arg_tidy hargs).bind fun value hvalue =>
        ArrayFunction.apply_tidy (.inl hV) (by simpa using hvalue)

/-- **Functions keep texts tidy**, if they make no query or queries are allowed. -/
theorem Function.apply_tidy [V.Speaks t.dialect] {f : Function} {args : List Fragment}
    (h : V.Queries ∨ f.Flat t.dialect args) (hargs : ∀ a ∈ args, a.expr.Tidy V) :
    Yields (fun r : Fragment => r.expr.Tidy V) (f.apply t args) := by
  have hgenerates := h.imp_right Flat.generates
  cases f with
  | numeric f => exact NumericFunction.apply_tidy h hargs
  | text f => exact TextFunction.apply_tidy hargs
  | logical f => exact LogicalFunction.apply_tidy hargs
  | date f => exact DateFunction.apply_tidy hgenerates hargs
  | array f => exact ArrayFunction.apply_tidy hgenerates hargs
  | system f => exact SystemFunction.apply_tidy hgenerates hargs

end

end ComputedFields
