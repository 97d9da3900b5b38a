/-
**JSON values and their text.**

A filter may compare a field with any JSON value.  Its text is compact: no blanks, the members of an
object in the order of their keys, control characters escaped and all others as they are.

Main definitions:

* `ComputedFields.Json` — JSON values, with whole numbers and binary fractions apart;
* `ComputedFields.Json.render` — the compact text.
-/

import ComputedFields.Decimal.Layout

set_option relaxedAutoImplicit false
set_option autoImplicit false

namespace ComputedFields

/-- A JSON value. -/
inductive Json where
  | null
  | bool (value : Bool)
  | whole (value : Int)
  | fraction (value : Float)
  | text (value : String)
  | array (items : List Json)
  | object (members : List (String × Json))
  deriving Inhabited

namespace Json

/-- The spelling of a character inside a JSON string. -/
def spell (c : Char) : List Char :=
  if c = '"' then ['\\', '"']
  else if c = '\\' then ['\\', '\\']
  else if c = '\x08' then ['\\', 'b']
  else if c = '\t' then ['\\', 't']
  else if c = '\n' then ['\\', 'n']
  else if c = '\x0c' then ['\\', 'f']
  else if c = '\r' then ['\\', 'r']
  else if c.toNat < 0x20 then
    let digits := Nat.toDigits 16 c.toNat
    ['\\', 'u'] ++ List.replicate (4 - digits.length) '0' ++ digits
  else [c]

/-- The text of a JSON string. -/
def string (s : String) : String :=
  String.ofList ('"' :: s.toList.flatMap spell ++ ['"'])

/-- The members of an object by increasing key. -/
def sorted (members : List (String × String)) : List (String × String) :=
  members.mergeSort fun a b => a.1 ≤ b.1

mutual

/-- The compact text of a JSON value. -/
def render : Json → String
  | .null => "null"
  | .bool true => "true"
  | .bool false => "false"
  | .whole n => toString n
  | .fraction x => Decimal.operand.render x
  | .text s => string s
  | .array items => "[" ++ ",".intercalate (renderItems items) ++ "]"
  | .object members =>
      "\x7b" ++ ",".intercalate ((sorted (renderMembers members)).map fun m =>
        string m.1 ++ ":" ++ m.2) ++ "\x7d"

/-- The texts of the items of an array. -/
def renderItems : List Json → List String
  | [] => []
  | item :: rest => item.render :: renderItems rest

/-- The keys of an object, each with the text of its value. -/
def renderMembers : List (String × Json) → List (String × String)
  | [] => []
  | (key, value) :: rest => (key, value.render) :: renderMembers rest

end

end Json

end ComputedFields
