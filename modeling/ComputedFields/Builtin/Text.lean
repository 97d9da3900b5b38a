/-
**Functions on text.**

Main definitions:

* `ComputedFields.urlEscapes` — the characters that are encoded in a URL component;
* `ComputedFields.TextFunction.apply` — a call in SQL.
-/

import ComputedFields.Builtin.Call
import ComputedFields.Function

set_option relaxedAutoImplicit false
set_option autoImplicit false

namespace ComputedFields

open Sql (Expr)

/-- The characters that are encoded in a URL component, with their codes.  The percent sign comes
first, since the codes contain it. -/
def urlEscapes : List (String × String) :=
  [("%", "%25"), (" ", "%20"), ("\"", "%22"), ("#", "%23"), ("$", "%24"), ("&", "%26"),
   ("+", "%2B"), (",", "%2C"), ("/", "%2F"), (":", "%3A"), (";", "%3B"), ("<", "%3C"),
   ("=", "%3D"), (">", "%3E"), ("?", "%3F"), ("@", "%40"), ("[", "%5B"), ("]", "%5D")]

namespace TextFunction

/-- The place of a text in another, from a start on. -/
def found (t : Target) (needle haystack : Expr) (start : Option Expr) : Expr :=
  match start with
  | none => t.position haystack needle
  | some s =>
      let place := t.position (.call "SUBSTR" [haystack, s]) needle
      .case [(.binary place .eq (.number "0"), .number "0")]
        (some (.binary (.binary place .add s) .sub (.number "1")))

/-- The first characters of a text. -/
def leftPart (d : Dialect) (value count : Expr) : Expr :=
  match d with
  | .postgres => .call "LEFT" [value, count]
  | .sqlite => .call "SUBSTR" [value, .number "1", count]

/-- The last characters of a text; none when the count is not positive. -/
def rightPart (t : Target) (value count : Expr) : Expr :=
  match t.dialect with
  | .postgres => .call "RIGHT" [value, count]
  | .sqlite =>
      let tail := Expr.call "SUBSTR" [value, .unary .neg count]
      if count.intLiteral?.any (0 < ·) then tail
      else .case [(.binary count .le (.number "0"), t.stringLiteral "")] (some tail)

/-- A text with some of its characters replaced. -/
def overlaid (d : Dialect) (value start count replacement : Expr) : Expr :=
  match d with
  | .postgres =>
      .verbatim ("OVERLAY(" ++ value.render ++ " PLACING " ++ replacement.render ++ " FROM " ++
        start.render ++ " FOR " ++ count.render ++ ")")
  | .sqlite =>
      .chain .concat
        [.call "SUBSTR" [value, .number "1", .binary start .sub (.number "1")], replacement,
         .call "SUBSTR" [value, .binary start .add count]]

/-- A text several times over. -/
def repeated (d : Dialect) (value count : Expr) : Expr :=
  match d with
  | .postgres => .call "REPEAT" [value, count]
  | .sqlite =>
      .verbatim ("REPLACE(SUBSTR(QUOTE(ZEROBLOB((" ++ count.render ++ " + 1) / 2)), 3, " ++
        count.render ++ "), '0', " ++ value.render ++ ")")

/-- A text with all characters of the table replaced by their codes, one after the other. -/
def urlEncoded (t : Target) (value : Expr) : Expr :=
  urlEscapes.foldl
    (fun acc entry => .call "REPLACE" [acc, t.stringLiteral entry.1, t.stringLiteral entry.2])
    value

/-- A call in SQL. -/
def apply (t : Target) (f : TextFunction) (args : List Fragment) :
    Except CompileError Fragment :=
  let c : Call := ⟨f.signature.name, args⟩
  match f with
  | .concatenate => do
      let first ← c.arg 0
      .ok ((args.drop 1).foldl t.concat (.string (t.concatOperand first)))
  | .find => do
      let needle ← c.text t 0
      let haystack ← c.text t 1
      .ok (.number (found t needle haystack (args[2]?.map t.integer)))
  | .search => do
      let needle ← c.text t 0
      let haystack ← c.text t 1
      .ok (.number (found t (.call "LOWER" [needle]) (.call "LOWER" [haystack])
        (args[2]?.map t.integer)))
  | .mid => do
      let value ← c.text t 0
      let start ← c.integer t 1
      let count ← c.integer t 2
      .ok (.string (.call "SUBSTR" [value, start, count]))
  | .left => do
      let value ← c.text t 0
      .ok (.string (leftPart t.dialect value (c.integerOr t 1 (.number "1"))))
  | .right => do
      let value ← c.text t 0
      .ok (.string (rightPart t value (c.integerOr t 1 (.number "1"))))
  | .replace => do
      let value ← c.text t 0
      let start ← c.integer t 1
      let count ← c.integer t 2
      let replacement ← c.text t 3
      .ok (.string (overlaid t.dialect value start count replacement))
  | .regexpReplace =>
      match t.dialect with
      | .sqlite => .error (.unsupportedFunction c.name)
      | .postgres => do
          let value ← c.text t 0
          let pattern ← c.text t 1
          let replacement ← c.text t 2
          .ok (.string (.call "REGEXP_REPLACE" [value, pattern, replacement, t.stringLiteral "g"]))
  | .substitute => do
      let value ← c.text t 0
      let old ← c.text t 1
      let new ← c.text t 2
      .ok (.string (.call "REPLACE" [value, old, new]))
  | .lower => do
      let value ← c.text t 0
      .ok (.string (.call "LOWER" [value]))
  | .upper => do
      let value ← c.text t 0
      .ok (.string (.call "UPPER" [value]))
  | .rept => do
      let value ← c.text t 0
      let count ← c.integer t 1
      .ok (.string (repeated t.dialect value count))
  | .trim => do
      let value ← c.text t 0
      .ok (.string (.call "TRIM" [value]))
  | .len => do
      let value ← c.text t 0
      .ok (.number (.call "LENGTH" [value]))
  | .t => do
      let value ← c.arg 0
      .ok (if value.type = .string ∧ value.isArray = false then value
        else .string (t.stringLiteral ""))
  | .encodeUrlComponent => do
      let value ← c.text t 0
      .ok (.string (urlEncoded t value))

end TextFunction

end ComputedFields
