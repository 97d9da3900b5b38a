/-
**What a formula is compiled for.**

The same formula compiles differently for each database, and differently for a generated column than
for the columns of a query.  A generated column may not depend on anything but its record: columns
stand without alias and the time is fixed.

Main definitions:

* `ComputedFields.Mode`, `ComputedFields.Target` — what a formula is compiled for;
* `ComputedFields.Target.column`, `ComputedFields.Target.stringLiteral`, `ComputedFields.Target.currentTime`,
  `ComputedFields.Target.currentDay` — columns, strings and times;
* `ComputedFields.Target.text`, `ComputedFields.Target.numeric`, `ComputedFields.Target.truthy`,
  `ComputedFields.Target.integer` — the value of a part as a text, a number, a condition or a whole
  number;
* `ComputedFields.Target.ceil`, `ComputedFields.Target.floor`, `ComputedFields.Target.power`,
  `ComputedFields.Target.position` — operations that not every database has.

Main results:

* `ComputedFields.Target.power_cases`, `ComputedFields.Target.power_eq_error_iff` — what a power is, and
  when there is none.
-/

import ComputedFields.Calendar
import ComputedFields.Dialect.Basic
import ComputedFields.Error
import ComputedFields.Fragment

set_option relaxedAutoImplicit false
set_option autoImplicit false

namespace ComputedFields

/-- Where compiled SQL stands. -/
inductive Mode where
  /-- In the definition of a generated column. -/
  | generated
  /-- In the columns of a query. -/
  | select
  deriving DecidableEq, Repr

/-- What a formula is compiled for. -/
structure Target where
  dialect : Dialect := .postgres
  mode : Mode := .select
  /-- The time zone of hours and days. -/
  timezone : String := "UTC"
  /-- The alias of the record in a query. -/
  rowAlias : Option String := none
  /-- The table of users. -/
  userTable : String := "users"
  /-- The time that a generated column takes for the present. -/
  now : Instant

namespace Target

open Sql (Expr)

/-! ### Columns, strings and times -/

/-- A column of the record. -/
def column (t : Target) (name : String) : Expr :=
  match t.mode with
  | .generated => .column none name
  | .select => .column t.rowAlias name

/-- A string. -/
def stringLiteral (t : Target) (value : String) : Expr :=
  match t.dialect, t.mode with
  | .postgres, .generated => .typedText value "text"
  | _, _ => .text value

/-- The present time. -/
def currentTime (t : Target) : Fragment :=
  .dateTime <|
    match t.mode, t.dialect with
    | .select, .postgres => .call "NOW" []
    | .select, .sqlite => .call "DATETIME" [.text "now"]
    | .generated, .postgres => .typedText (t.now.dateTimeText ++ "+00") "timestamptz"
    | .generated, .sqlite => .text t.now.dateTimeText

/-- The present day. -/
def currentDay (t : Target) : Fragment :=
  .dateTime <|
    match t.mode, t.dialect with
    | .select, .postgres => .keyword "CURRENT_DATE"
    | .select, .sqlite => .call "DATE" [.text "now"]
    | .generated, .postgres => .typedText t.now.dateText "date"
    | .generated, .sqlite => .text t.now.dateText

/-! ### Conversions -/

/-- The value as a text. -/
def text (t : Target) (f : Fragment) : Expr :=
  if f.isArray then .verbatim (t.dialect.textCast f.sql)
  else
    match f.type with
    | .string => f.expr
    | .number => .verbatim (t.dialect.numberText f.sql)
    | .boolean | .dateTime | .unknown => .verbatim (t.dialect.textCast f.sql)

/-- The value as a number; a text that reads as none is missing. -/
def numeric (t : Target) (f : Fragment) : Expr :=
  match f.type with
  | .string => .verbatim (t.dialect.coerceNumeric f.sql)
  | _ => f.expr

/-- The value as a condition: numbers other than zero, texts that are not empty, and all else that is
not missing. -/
def truthy (f : Fragment) : Expr :=
  match f.type with
  | .boolean => f.expr
  | .number => .verbatim ("(COALESCE(" ++ f.sql ++ ", 0) <> 0)")
  | .string =>
      if f.isArray then .verbatim ("(" ++ f.sql ++ " IS NOT NULL)")
      else .verbatim ("(COALESCE(" ++ f.sql ++ ", '') <> '')")
  | .dateTime | .unknown => .verbatim ("(" ++ f.sql ++ " IS NOT NULL)")

/-- The type of whole numbers. -/
def integerType (t : Target) : String :=
  match t.dialect with
  | .postgres => "integer"
  | .sqlite => "INTEGER"

/-- The value as a whole number. -/
def integer (t : Target) (f : Fragment) : Expr :=
  if f.expr.intLiteral?.isSome then f.expr else .cast (t.numeric f) t.integerType

/-- The value as a text that is never missing. -/
def concatOperand (t : Target) (f : Fragment) : Expr :=
  .call "COALESCE" [t.text f, t.stringLiteral ""]

/-! ### Rounding, powers and positions -/

/-- The least whole number that is not less. -/
def ceil (t : Target) (x : Expr) : Expr :=
  match t.dialect with
  | .postgres => .call "CEIL" [x]
  | .sqlite =>
      let truncated := Expr.cast x "INTEGER"
      .binary truncated .add (.binary x .gt truncated)

/-- The greatest whole number that is not greater. -/
def floor (t : Target) (x : Expr) : Expr :=
  match t.dialect with
  | .postgres => .call "FLOOR" [x]
  | .sqlite =>
      let truncated := Expr.cast x "INTEGER"
      .binary truncated .sub (.binary x .lt truncated)

/-- The largest exponent that is written out as a product. -/
def maxUnrolled : Nat := 32

/-- A power whose exponent is a whole number, as a product of so many factors. -/
def unrolledPower (base : Expr) (exponent : Int) : Expr :=
  let product := Expr.chain .mul (List.replicate exponent.natAbs base)
  if exponent = 0 then .number "1.0"
  else if exponent < 0 then .binary (.number "1.0") .div product
  else product

/-- A power by repeated multiplication; a fraction in the exponent is cut off. -/
def iteratedPower (base exponent : String) : String :=
  "(WITH RECURSIVE p(i, acc) AS (SELECT 0, 1.0 UNION ALL SELECT i + 1, acc * (" ++ base ++
    ") FROM p WHERE i < ABS(" ++ exponent ++ ")) SELECT CASE WHEN " ++ exponent ++
    " < 0 THEN 1.0 / acc ELSE acc END FROM p ORDER BY i DESC LIMIT 1)"

/-- The absolute value of a number of 64 bits; that of the least one does not fit. -/
def abs64 (n : Int64) : Except CompileError Int64 :=
  if n = Int64.minValue then .error .overflow else .ok n.abs

/-- A power that the database computes. -/
def computedPower (t : Target) (base : Expr) (exponent : Fragment) : Expr :=
  match t.dialect with
  | .postgres => .call "POWER" [base, t.numeric exponent]
  | .sqlite =>
      .verbatim (iteratedPower base.render (Expr.cast (t.numeric exponent) "INTEGER").render)

/-- A power.  Where the database has none, a small literal exponent is written out; the size of a literal
is its absolute value, which has to fit. -/
def power (t : Target) (base : Expr) (exponent : Fragment) : Except CompileError Expr :=
  match t.dialect, exponent.expr.intLiteral? with
  | .sqlite, some n => do
      let size ← abs64 n
      if size.toInt ≤ maxUnrolled then .ok (unrolledPower base n.toInt)
      else .ok (t.computedPower base exponent)
  | _, _ => .ok (t.computedPower base exponent)

/-- **What a power is**: the compiler breaks off at the least exponent, and else the power is computed or
written out. -/
theorem power_cases (t : Target) (base : Expr) (exponent : Fragment) :
    (t.dialect = .sqlite ∧ exponent.expr.intLiteral? = some Int64.minValue ∧
        t.power base exponent = .error .overflow) ∨
      (¬ (t.dialect = .sqlite ∧ exponent.expr.intLiteral? = some Int64.minValue) ∧
        (t.power base exponent = .ok (t.computedPower base exponent) ∨
          ∃ n : Int64, t.power base exponent = .ok (unrolledPower base n.toInt))) := by
  unfold power
  cases t.dialect with
  | postgres => exact .inr ⟨by simp, .inl rfl⟩
  | sqlite =>
      cases exponent.expr.intLiteral? with
      | none => exact .inr ⟨by simp, .inl rfl⟩
      | some n =>
          by_cases hleast : n = Int64.minValue
          · exact .inl ⟨rfl, congrArg some hleast, by simp only [abs64, hleast, if_true]; rfl⟩
          · have habs : abs64 n = .ok n.abs := if_neg hleast
            refine .inr ⟨by simpa using hleast, ?_⟩
            simp only [habs, bind, Except.bind]
            split
            · exact .inr ⟨n, rfl⟩
            · exact .inl rfl

/-- A power fails at the least exponent only, where the database has no powers. -/
theorem power_eq_error_iff {t : Target} {base : Expr} {exponent : Fragment} {e : CompileError} :
    t.power base exponent = .error e ↔
      e = .overflow ∧ t.dialect = .sqlite ∧ exponent.expr.intLiteral? = some Int64.minValue := by
  rcases t.power_cases base exponent with ⟨hd, hleast, hpower⟩ | ⟨hleast, hpower | ⟨n, hpower⟩⟩
  · rw [hpower]
    exact ⟨fun h => ⟨(Except.error.inj h).symm, hd, hleast⟩, fun h => h.1 ▸ rfl⟩
  · rw [hpower]
    exact ⟨nofun, fun h => absurd h.2 hleast⟩
  · rw [hpower]
    exact ⟨nofun, fun h => absurd h.2 hleast⟩

/-- The place of a text in another, counted from one; zero when it is not there. -/
def position (t : Target) (haystack needle : Expr) : Expr :=
  match t.dialect with
  | .postgres => .call "STRPOS" [haystack, needle]
  | .sqlite => .call "INSTR" [haystack, needle]

end Target

end ComputedFields
