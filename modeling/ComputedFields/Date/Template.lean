/-
**Templates of dates.**

A date is written after a template such as `YYYY-MM-DD HH:mm`: certain runs of letters stand for parts
of the date, everything else for itself.  A template is cut from left to right, and where several
tokens match, the first one of the list counts.

Main definitions:

* `ComputedFields.DateToken` — the tokens;
* `ComputedFields.Piece`, `ComputedFields.pieces` — the pieces of a template;
* `ComputedFields.toCharPattern` — the template as a pattern in which literal text is quoted;
* `ComputedFields.FormatPart`, `ComputedFields.formatParts` — the template as a list of parts, of which
  some are specifications and some have to be computed.
-/

import ComputedFields.Text.Alphabetic

set_option relaxedAutoImplicit false
set_option autoImplicit false

namespace ComputedFields

/-! ### Pieces of a template -/

/-- A token of a template. -/
inductive DateToken where
  | year
  | shortYear
  | milliseconds
  | paddedMonth
  | paddedDay
  | paddedHour
  | minute
  | second
  | month
  | day
  | hour
  | halfDay
  deriving DecidableEq, Repr

namespace DateToken

/-- The letters of a token. -/
def spelling : DateToken → String
  | .year => "YYYY"
  | .shortYear => "YY"
  | .milliseconds => "SSS"
  | .paddedMonth => "MM"
  | .paddedDay => "DD"
  | .paddedHour => "HH"
  | .minute => "mm"
  | .second => "ss"
  | .month => "M"
  | .day => "D"
  | .hour => "H"
  | .halfDay => "A"

/-- The tokens, those that count first in front. -/
def all : List DateToken :=
  [.year, .shortYear, .milliseconds, .paddedMonth, .paddedDay, .paddedHour, .minute, .second,
   .month, .day, .hour, .halfDay]

/-- The token at the beginning of a text. -/
def at? (text : List Char) : Option DateToken :=
  all.find? fun token => token.spelling.toList.isPrefixOf text

end DateToken

/-- A piece of a template. -/
inductive Piece where
  | literal (text : List Char)
  | token (t : DateToken)
  deriving DecidableEq, Repr

/-- Puts a character in front of the pieces, into the literal that stands there if there is one. -/
def Piece.prepend (c : Char) : List Piece → List Piece
  | .literal text :: rest => .literal (c :: text) :: rest
  | rest => .literal [c] :: rest

/-- The pieces of a template, after so many characters that belong to a token already. -/
def piecesAfter : Nat → List Char → List Piece
  | _, [] => []
  | 0, c :: rest =>
      match DateToken.at? (c :: rest) with
      | some t => .token t :: piecesAfter (t.spelling.length - 1) rest
      | none => Piece.prepend c (piecesAfter 0 rest)
  | skip + 1, _ :: rest => piecesAfter skip rest

/-- The pieces of a template. -/
def pieces (template : String) : List Piece := piecesAfter 0 template.toList

/-! ### Patterns with quoted text -/

/-- A token in a pattern. -/
def DateToken.toChar : DateToken → String
  | .year => "YYYY"
  | .shortYear => "YY"
  | .milliseconds => "MS"
  | .paddedMonth => "MM"
  | .paddedDay => "DD"
  | .paddedHour => "HH24"
  | .minute => "MI"
  | .second => "SS"
  | .month => "FMMM"
  | .day => "FMDD"
  | .hour => "FMHH24"
  | .halfDay => "AM"

/-- Text inside quotes, where a quote follows a backslash. -/
def escapeQuotes : List Char → List Char
  | [] => []
  | c :: rest => if c = '"' then '\\' :: c :: escapeQuotes rest else c :: escapeQuotes rest

/-- A piece in a pattern.  Text with letters is quoted, since they could be read as tokens. -/
def Piece.toChar : Piece → String
  | .token t => t.toChar
  | .literal text =>
      if text.any Text.isAlphabetic then String.ofList ('"' :: (escapeQuotes text ++ ['"']))
      else String.ofList text

/-- The pattern of a template. -/
def toCharPattern (template : String) : String :=
  String.join ((pieces template).map Piece.toChar)

/-! ### Specifications -/

/-- A part of a formatted date: a specification, or a token that no specification covers. -/
inductive FormatPart where
  | spec (text : List Char)
  | computed (t : DateToken)
  deriving DecidableEq, Repr

/-- The specification of a token. -/
def DateToken.spec? : DateToken → Option String
  | .year => some "%Y"
  | .paddedMonth => some "%m"
  | .paddedDay => some "%d"
  | .paddedHour => some "%H"
  | .minute => some "%M"
  | .second => some "%S"
  | .shortYear | .milliseconds | .month | .day | .hour | .halfDay => none

/-- Text in a specification, where a percent sign is written twice. -/
def escapePercent : List Char → List Char
  | [] => []
  | c :: rest => if c = '%' then c :: c :: escapePercent rest else c :: escapePercent rest

/-- The part of a piece. -/
def FormatPart.ofPiece : Piece → FormatPart
  | .literal text => .spec (escapePercent text)
  | .token t =>
      match t.spec? with
      | some s => .spec s.toList
      | none => .computed t

/-- Puts a part in front of others; two specifications make one. -/
def FormatPart.prepend (part : FormatPart) (rest : List FormatPart) : List FormatPart :=
  match part, rest with
  | .spec a, .spec b :: rest => .spec (a ++ b) :: rest
  | _, _ => part :: rest

/-- The parts of a template. -/
def formatParts (template : String) : List FormatPart :=
  (pieces template).foldr (fun piece rest => (FormatPart.ofPiece piece).prepend rest) []

end ComputedFields
