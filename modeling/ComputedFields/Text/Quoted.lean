/-
**Quoted text inside a printed formula.**

A string literal is printed between double quotes.  The quote, the backslash and the four controls
with a letter of their own take a backslash, the remaining characters of
`ComputedFields.Text.isEscaped` are written by their code point in hexadecimal, and every other
character stands for itself; a single quote is no exception.

Main definitions:

* `ComputedFields.Text.spell` — the spelling of one character;
* `ComputedFields.Text.quoted` — the text between its quotes.
-/

import ComputedFields.Text.Escaped

set_option relaxedAutoImplicit false
set_option autoImplicit false

namespace ComputedFields.Text

/-- The spelling of a character by its code point. -/
def codePoint (c : Char) : List Char :=
  ['\\', 'u', '\x7b'] ++ Nat.toDigits 16 c.toNat ++ ['\x7d']

/-- The spelling of a character between double quotes. -/
def spell (c : Char) : List Char :=
  if c = '\x00' then ['\\', '0']
  else if c = '\t' then ['\\', 't']
  else if c = '\r' then ['\\', 'r']
  else if c = '\n' then ['\\', 'n']
  else if c = '"' then ['\\', '"']
  else if c = '\\' then ['\\', '\\']
  else if isEscaped c then codePoint c
  else [c]

/-- The text between double quotes. -/
def quoted (s : String) : String :=
  String.ofList ('"' :: s.toList.flatMap spell ++ ['"'])

end ComputedFields.Text
