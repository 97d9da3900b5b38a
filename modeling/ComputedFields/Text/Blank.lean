/-
**Blanks around and between words.**

Two sets of blank characters matter.  Between the tokens of a formula only the five ASCII blanks may
stand; around a field reference, a date unit or the name of a rollup every character with the Unicode
property White_Space is trimmed.

Main definitions:

* `ComputedFields.Text.isSeparator` — a blank between tokens;
* `ComputedFields.Text.isSpace` — the property White_Space;
* `ComputedFields.Text.trim` — a text without the spaces at its two ends.
-/

import ComputedFields.Text.Range

set_option relaxedAutoImplicit false
set_option autoImplicit false

namespace ComputedFields.Text

/-- A blank between tokens: space, tab, line feed, form feed or carriage return. -/
def isSeparator (c : Char) : Bool :=
  c = ' ' || c = '\t' || c = '\n' || c = '\x0c' || c = '\r'

/-- The code points with the property White_Space. -/
def spaceRanges : List (Nat × Nat) :=
  [(0x9, 0xd), (0x20, 0x20), (0x85, 0x85), (0xa0, 0xa0), (0x1680, 0x1680), (0x2000, 0x200a),
   (0x2028, 0x2029), (0x202f, 0x202f), (0x205f, 0x205f), (0x3000, 0x3000)]

/-- The character has the property White_Space. -/
def isSpace (c : Char) : Bool := inRanges spaceRanges c

/-- The characters without the spaces at either end. -/
def trimChars (cs : List Char) : List Char :=
  ((cs.dropWhile isSpace).reverse.dropWhile isSpace).reverse

/-- The text without the spaces at its two ends. -/
def trim (s : String) : String := String.ofList (trimChars s.toList)

end ComputedFields.Text
