/-
**Quoting in SQL.**

An identifier stands between double quotes and a string between single quotes.  A quote of the same
kind inside is written twice, so nothing can end the quoting early.

Main definitions:

* `ComputedFields.Sql.double` — writes every mark of a text twice;
* `ComputedFields.Sql.ident`, `ComputedFields.Sql.literal` — identifiers and strings;
* `ComputedFields.Sql.qualified` — a column of a row.
-/

set_option relaxedAutoImplicit false
set_option autoImplicit false

namespace ComputedFields.Sql

/-- The text with every `mark` written twice. -/
def double (mark : Char) : List Char → List Char
  | [] => []
  | c :: rest => if c = mark then c :: c :: double mark rest else c :: double mark rest

@[simp] theorem double_nil (mark : Char) : double mark [] = [] := rfl

/-- A text between marks. -/
def quote (mark : Char) (text : String) : String :=
  String.ofList (mark :: (double mark text.toList ++ [mark]))

/-- An identifier. -/
def ident (name : String) : String := quote '"' name

/-- A string. -/
def literal (value : String) : String := quote '\'' value

/-- A column of the row with the given alias. -/
def qualified (rowAlias column : String) : String := ident rowAlias ++ "." ++ ident column

end ComputedFields.Sql
