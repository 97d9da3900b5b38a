/-
**Character classes given by ranges of code points.**

A class of characters that a standard fixes by a table is held as a list of closed ranges, in
increasing order.  This module says when a character belongs to such a list; the tables are
`ComputedFields.Text.Alphabetic` and `ComputedFields.Text.Escaped`.

Main definitions:

* `ComputedFields.Text.inRanges` — membership in a list of closed ranges.
-/

set_option relaxedAutoImplicit false
set_option autoImplicit false

namespace ComputedFields.Text

/-- The character lies in one of the closed ranges of code points. -/
def inRanges (ranges : List (Nat × Nat)) (c : Char) : Bool :=
  ranges.any fun range => range.1 ≤ c.toNat && c.toNat ≤ range.2

@[simp] theorem inRanges_nil (c : Char) : inRanges [] c = false := rfl

@[simp] theorem inRanges_cons (low high : Nat) (ranges : List (Nat × Nat)) (c : Char) :
    inRanges ((low, high) :: ranges) c = (decide (low ≤ c.toNat) && decide (c.toNat ≤ high) ||
      inRanges ranges c) := rfl

end ComputedFields.Text
