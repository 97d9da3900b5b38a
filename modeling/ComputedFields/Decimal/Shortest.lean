/-
**The shortest decimal that reads back.**

A binary fraction `m · 2^q` is written with as few digits as let it be recovered.  The reals that
round to it form an interval; the decimals on the grid `10^p` come closer together as `p` decreases,
and the first grid with a point in the interval gives the digits.  Of two such points the nearer
one is taken, on a tie the even one.

Main definitions:

* `ComputedFields.Decimal.Binary` — a positive binary fraction and the width of its interval;
* `ComputedFields.Decimal.Binary.onGrid?` — the point of a grid that reads back, if there is one;
* `ComputedFields.Decimal.Binary.shortest` — digits and power of ten of the shortest decimal;
* `ComputedFields.Decimal.Binary.ofFloat` — the fraction that a positive floating-point number is.
-/

set_option relaxedAutoImplicit false
set_option autoImplicit false

namespace ComputedFields.Decimal

/-- The positive binary fraction `mantissa · 2^exponent`.  Below a power of two the next smaller
floating-point number is half as far away, and the fraction is `narrow`. -/
structure Binary where
  mantissa : Nat
  exponent : Int
  narrow : Bool

/-- A decimal `digits · 10^power`. -/
structure Scientific where
  digits : Nat
  power : Int
  deriving DecidableEq, Repr

/-- `base` to a power that may be negative, as numerator and denominator. -/
def ratioPow (base : Nat) (power : Int) : Nat × Nat :=
  if 0 ≤ power then (base.pow power.toNat, 1) else (1, base.pow (-power).toNat)

namespace Binary

/-- The multiple of `10^power` nearest to the fraction, if it rounds to the fraction.  All lengths
are counted in quarters of the last binary place. -/
def onGrid? (b : Binary) (power : Int) : Option Scientific :=
  let (binaryNum, binaryDen) := ratioPow 2 (b.exponent - 2)
  let (gridNum, gridDen) := ratioPow 10 power
  let unit := binaryNum * gridDen
  let grid := binaryDen * gridNum
  let value := 4 * b.mantissa * unit
  let low := (4 * b.mantissa - if b.narrow then 1 else 2) * unit
  let high := (4 * b.mantissa + 2) * unit
  let inside (n : Nat) : Bool :=
    if b.mantissa % 2 = 0 then low ≤ n * grid && n * grid ≤ high
    else low < n * grid && n * grid < high
  let below := value / grid
  let toBelow := value - below * grid
  let toAbove := (below + 1) * grid - value
  let nearer := if toBelow < toAbove ∨ (toBelow = toAbove ∧ below % 2 = 0) then below else below + 1
  let other := if nearer = below then below + 1 else below
  if inside nearer then some ⟨nearer, power⟩
  else if inside other then some ⟨other, power⟩
  else none

/-- The first grid with a point that reads back, from `10^power` downwards through `steps` grids. -/
def searchGrids (b : Binary) : Nat → Int → Scientific
  | 0, power => ⟨0, power⟩
  | steps + 1, power =>
      match b.onGrid? power with
      | some found => found
      | none => searchGrids b steps (power - 1)

/-- A power of ten that exceeds the fraction. -/
def startPower (b : Binary) : Int :=
  (b.mantissa.log2 + b.exponent + 1) * 30103 / 100000 + 1

/-- The shortest decimal that reads back.  Seventeen digits always do, so twenty grids suffice. -/
def shortest (b : Binary) : Scientific := b.searchGrids 20 b.startPower

/-- The weight of the leading bit that a normal floating-point number does not store. -/
def leadingBit : Nat := 0x10000000000000

/-- The fraction that a positive, finite floating-point number is. -/
def ofFloat (x : Float) : Binary :=
  let bits := x.toBits.toNat
  let biased : Nat := bits / leadingBit % 0x800
  let fraction : Nat := bits % leadingBit
  if biased = 0 then ⟨fraction, -1074, false⟩
  else ⟨fraction + leadingBit, (biased : Int) - 1075, fraction = 0 && biased ≠ 1⟩

end Binary

end ComputedFields.Decimal
