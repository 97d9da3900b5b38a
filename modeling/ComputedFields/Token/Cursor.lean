/-
**A cursor over the bytes of a source.**

Reading token by token, a caller may also look at single bytes.  The cursor therefore stands at a
byte, which may lie inside a character; there no token begins.  A failed read leaves the cursor where
the fault was noticed: behind the first byte of an unexpected character, or at the end of the source
when a string or a field reference is not closed.

Main definitions:

* `ComputedFields.Cursor` — a place in a source;
* `ComputedFields.Cursor.next` — reads a token;
* `ComputedFields.Cursor.peekByte?`, `ComputedFields.Cursor.takeByte`, `ComputedFields.Cursor.take` —
  looking at a byte, and moving on if the byte, or the token, is the expected one.
-/

import ComputedFields.Token.Scan

set_option relaxedAutoImplicit false
set_option autoImplicit false

namespace ComputedFields

/-- A place in a source: the characters from there on, its byte, and how many bytes of the first
character lie before it. -/
structure Cursor where
  rest : List Char
  offset : Nat
  inside : Nat

namespace Cursor

/-- The beginning of a source. -/
def start (source : String) : Cursor := ⟨source.toList, 0, 0⟩

/-- The end of the source is reached. -/
def atEnd (c : Cursor) : Bool := c.rest.isEmpty

/-- The byte at the cursor. -/
def peekByte? (c : Cursor) : Option UInt8 :=
  c.rest.head?.bind fun char => (String.utf8EncodeChar char)[c.inside]?

/-- One byte further on. -/
def skipByte (c : Cursor) : Cursor :=
  match c.rest with
  | [] => c
  | char :: rest =>
      if c.inside + 1 < char.utf8Size then { c with offset := c.offset + 1, inside := c.inside + 1 }
      else ⟨rest, c.offset + 1, 0⟩

/-- Moves past the byte if it stands at the cursor. -/
def takeByte (c : Cursor) (byte : UInt8) : Bool × Cursor :=
  if c.peekByte? = some byte then (true, c.skipByte) else (false, c)

/-- Behind the blanks at the cursor. -/
def skipBlanks (c : Cursor) : Cursor :=
  if c.inside ≠ 0 then c
  else
    ⟨c.rest.dropWhile Text.isSeparator,
      c.offset + byteSize (c.rest.takeWhile Text.isSeparator), 0⟩

/-- Where a fault leaves the cursor. -/
def afterFault (c : Cursor) : LexFault → Cursor
  | .unexpectedCharacter => c.skipByte
  | .unterminatedString | .unterminatedFieldRef => ⟨[], c.offset + byteSize c.rest, 0⟩

/-- Reads the next token, `none` at the end of the source. -/
def next (c : Cursor) : Except LexError (Option Token) × Cursor :=
  let c := c.skipBlanks
  match c.rest with
  | [] => (.ok none, c)
  | char :: rest =>
      let read := if c.inside = 0 then lexeme char rest else .error .unexpectedCharacter
      match read with
      | .error fault => (.error (fault.at c.offset), c.afterFault fault)
      | .ok l => (.ok (some ⟨l.kind, c.offset, l.text⟩), ⟨l.rest, c.offset + byteSize l.text, 0⟩)

/-- Moves past the next token if it is of the kind. -/
def take (c : Cursor) (kind : TokenKind) : Except LexError Bool × Cursor :=
  match c.next with
  | (.error fault, _) => (.error fault, c)
  | (.ok none, _) => (.ok false, c)
  | (.ok (some token), after) => if token.kind = kind then (.ok true, after) else (.ok false, c)

end Cursor

end ComputedFields
