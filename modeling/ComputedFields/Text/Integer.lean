/-
**Integers of 64 bits, read from text.**

A number of a formula keeps its spelling.  Where a whole number is asked for (a length, a precision,
an exponent), the spelling is read as an optional sign followed by decimal digits; a value outside
the range of signed 64-bit integers is no integer.

Main definitions:

* `ComputedFields.Text.digitsValue` — the number that a run of digits denotes;
* `ComputedFields.Text.readInt64?` — the integer that a text denotes.
-/

set_option relaxedAutoImplicit false
set_option autoImplicit false

namespace ComputedFields.Text

/-- The number that a run of decimal digits denotes. -/
def digitsValue (digits : List Char) : Nat :=
  digits.foldl (fun value digit => 10 * value + (digit.toNat - '0'.toNat)) 0

/-- The number that a non-empty run of decimal digits denotes. -/
def readNat? (digits : List Char) : Option Nat :=
  if digits ≠ [] ∧ digits.all Char.isDigit then some (digitsValue digits) else none

/-- The value as a signed 64-bit integer, when it is in range. -/
def int64? (value : Int) : Option Int64 :=
  if Int64.minValue.toInt ≤ value ∧ value ≤ Int64.maxValue.toInt then some (Int64.ofInt value)
  else none

/-- The signed 64-bit integer that a text denotes: an optional sign, then decimal digits. -/
def readInt64? (s : String) : Option Int64 :=
  match s.toList with
  | '-' :: digits => (readNat? digits).bind fun value => int64? (-value)
  | '+' :: digits => (readNat? digits).bind fun value => int64? value
  | digits => (readNat? digits).bind fun value => int64? value

/-- A value in range is kept as it is. -/
theorem toInt_of_int64? {value : Int} {word : Int64} (h : int64? value = some word) :
    word.toInt = value := by
  unfold int64? at h
  split at h
  · next hrange =>
      cases h
      have hlower : -9223372036854775808 ≤ value := hrange.1
      have hupper : value ≤ 9223372036854775807 := hrange.2
      exact Int64.toInt_ofInt_of_le (by omega) (by omega)
  · exact absurd h (by simp)

end ComputedFields.Text
