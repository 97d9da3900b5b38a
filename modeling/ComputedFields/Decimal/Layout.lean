/-
**Decimal text of floating-point numbers.**

The digits are those of `ComputedFields.Decimal.Binary.shortest`; a layout decides where positional
notation ends and how an exponent is written.  Two layouts are in use: one for the factors of
rounding functions, one for the numbers in filters.

Main definitions:

* `ComputedFields.Decimal.Layout` — the decisions of a layout;
* `ComputedFields.Decimal.Layout.render` — the text of a number;
* `ComputedFields.Decimal.factor`, `ComputedFields.Decimal.operand` — the two layouts.
-/

import ComputedFields.Decimal.Shortest

set_option relaxedAutoImplicit false
set_option autoImplicit false

namespace ComputedFields.Decimal

/-- How numbers are laid out: the least exponent in positional notation, and whether a positive
exponent carries its sign. -/
structure Layout where
  leastPositional : Int
  signsExponent : Bool

/-- Factors are positional from `0.0001` on, and an exponent is written bare: `1e16`. -/
def factor : Layout := ⟨-4, false⟩

/-- Operands are positional from `0.00001` on, and a positive exponent is signed: `1e+16`. -/
def operand : Layout := ⟨-5, true⟩

/-- So many zeros. -/
def zeros (count : Nat) : String := String.ofList (List.replicate count '0')

/-- The decimal digits of a natural number. -/
def digitText (n : Nat) : String := String.ofList (Nat.toDigits 10 n)

namespace Scientific

/-- The exponent of the leading digit. -/
def leading (s : Scientific) : Int := s.power + (Nat.toDigits 10 s.digits).length - 1

/-- Positional notation, with at least one digit on either side of the point. -/
def positional (s : Scientific) : String :=
  let digits := Nat.toDigits 10 s.digits
  let whole := (digits.length + s.power).toNat
  if 0 ≤ s.power then digitText s.digits ++ zeros s.power.toNat ++ ".0"
  else if 0 ≤ s.leading then
    String.ofList (digits.take whole) ++ "." ++ String.ofList (digits.drop whole)
  else "0." ++ zeros (-s.leading - 1).toNat ++ digitText s.digits

/-- Exponent notation, with a point after the leading digit when others follow. -/
def exponential (signed : Bool) (s : Scientific) : String :=
  let digits := Nat.toDigits 10 s.digits
  let tail := digits.drop 1
  let fraction := if tail.isEmpty then "" else "." ++ String.ofList tail
  let sign := if s.leading < 0 then "-" else if signed then "+" else ""
  String.ofList (digits.take 1) ++ fraction ++ "e" ++ sign ++ digitText s.leading.natAbs

end Scientific

/-- The text of a decimal: positional where the layout says so and below `10^16`. -/
def Layout.renderDecimal (layout : Layout) (s : Scientific) : String :=
  if layout.leastPositional ≤ s.leading ∧ s.leading < 16 then s.positional
  else s.exponential layout.signsExponent

/-- The text of a floating-point number. -/
def Layout.render (layout : Layout) (x : Float) : String :=
  let sign := if 2 * x.toBits.toNat < UInt64.size then "" else "-"
  let magnitude := x.abs
  if magnitude.isInf then sign ++ "inf"
  else if magnitude == 0 then sign ++ "0.0"
  else sign ++ layout.renderDecimal (Binary.ofFloat magnitude).shortest

end ComputedFields.Decimal
