/-
**Powers of ten in floating point.**

A rounding function with a literal precision multiplies by a power of ten that is computed
beforehand.  The power is built by repeated squaring, rounding at every step, and a negative power is
the reciprocal of the positive one; the precision counts modulo `2^32`.

Main definitions:

* `ComputedFields.Decimal.powFrom` — repeated squaring;
* `ComputedFields.Decimal.tenToThe` — a power of ten for a 32-bit precision.
-/

set_option relaxedAutoImplicit false
set_option autoImplicit false

namespace ComputedFields.Decimal

/-- Multiplies `result` by `base` to the power `exponent`, whose binary digits number at most the
first argument. -/
def powFrom : Nat → Float → Nat → Float → Float
  | 0, _, _, result => result
  | bits + 1, base, exponent, result =>
      let result := if exponent % 2 = 1 then result * base else result
      if exponent / 2 = 0 then result else powFrom bits (base * base) (exponent / 2) result

/-- Ten to a power of 32 bits. -/
def tenToThe (power : Int32) : Float :=
  let magnitude := powFrom 32 10.0 power.toInt.natAbs 1.0
  if power.toInt < 0 then 1.0 / magnitude else magnitude

end ComputedFields.Decimal
