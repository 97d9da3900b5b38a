/-
**The tokens of a formula.**

A token is a kind, the byte at which it starts in the UTF-8 source, and its text.  Strings and field
references keep their delimiters in the text; their contents are what lies between.

Main definitions:

* `ComputedFields.TokenKind` — the kinds, and their names in messages;
* `ComputedFields.Token` — a token with its place in the source;
* `ComputedFields.LexError` — why a source cannot be cut into tokens.
-/

set_option relaxedAutoImplicit false
set_option autoImplicit false

namespace ComputedFields

/-- The kinds of tokens. -/
inductive TokenKind where
  | parenLeft
  | parenRight
  | comma
  | plus
  | minus
  | asterisk
  | slash
  | percent
  | ampersand
  | equals
  | notEquals
  | less
  | greater
  | lessEqual
  | greaterEqual
  | and
  | or
  | bang
  | number
  | identifier
  | fieldRef
  | true
  | false
  | null
  | singleQuoted
  | doubleQuoted
  deriving DecidableEq, Repr

/-- The name of a kind in messages. -/
def TokenKind.name : TokenKind → String
  | .parenLeft => "ParenLeft"
  | .parenRight => "ParenRight"
  | .comma => "Comma"
  | .plus => "Plus"
  | .minus => "Minus"
  | .asterisk => "Asterisk"
  | .slash => "ForwardSlash"
  | .percent => "Percent"
  | .ampersand => "Ampersand"
  | .equals => "Equals"
  | .notEquals => "NotEquals"
  | .less => "LT"
  | .greater => "GT"
  | .lessEqual => "LTE"
  | .greaterEqual => "GTE"
  | .and => "And"
  | .or => "Or"
  | .bang => "Bang"
  | .number => "Number"
  | .identifier => "Identifier"
  | .fieldRef => "FieldRef"
  | .true => "True"
  | .false => "False"
  | .null => "Null"
  | .singleQuoted => "StringSingleQuote"
  | .doubleQuoted => "StringDoubleQuote"

/-- Strings and field references stand between delimiters. -/
def TokenKind.isDelimited : TokenKind → Bool
  | .singleQuoted | .doubleQuoted | .fieldRef => Bool.true
  | _ => Bool.false

/-- The number of bytes that a text takes in UTF-8. -/
def byteSize : List Char → Nat
  | [] => 0
  | c :: text => c.utf8Size + byteSize text

@[simp] theorem byteSize_nil : byteSize [] = 0 := rfl

@[simp] theorem byteSize_cons (c : Char) (text : List Char) :
    byteSize (c :: text) = c.utf8Size + byteSize text := rfl

@[simp] theorem byteSize_append (a b : List Char) :
    byteSize (a ++ b) = byteSize a + byteSize b := by
  induction a with
  | nil => simp
  | cons c a ih => simp [ih, Nat.add_assoc]

/-- A token of a source. -/
structure Token where
  kind : TokenKind
  /-- The byte at which the token starts. -/
  start : Nat
  text : List Char
  deriving DecidableEq, Repr

namespace Token

/-- The byte after the token. -/
def stop (t : Token) : Nat := t.start + byteSize t.text

/-- The text without delimiters.  Escapes stay in place. -/
def contents (t : Token) : List Char :=
  if t.kind.isDelimited then t.text.tail.dropLast else t.text

/-- A token in messages: its kind and the bytes it covers. -/
def describe (t : Token) : String :=
  "Token \x7b ty: " ++ t.kind.name ++ ", start: " ++ toString t.start ++ ", end: " ++
    toString t.stop ++ " \x7d"

end Token

/-- Why no token can be read at a byte of the source. -/
inductive LexError where
  | unterminatedString (start : Nat)
  | unterminatedFieldRef (start : Nat)
  | unexpectedCharacter (start : Nat)
  deriving DecidableEq, Repr

namespace LexError

/-- The byte at which the fault starts. -/
def start : LexError → Nat
  | .unterminatedString start | .unterminatedFieldRef start | .unexpectedCharacter start => start

/-- The message of a fault. -/
def message : LexError → String
  | .unterminatedString start => "Unterminated string literal starting at " ++ toString start
  | .unterminatedFieldRef start => "Unterminated field reference starting at " ++ toString start
  | .unexpectedCharacter start => "Unexpected character at " ++ toString start

end LexError

end ComputedFields
