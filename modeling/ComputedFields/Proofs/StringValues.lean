/-
**Strings keep their characters from the formula to the database.**

A string passes through two ways of quoting.  A formula writes it between quotes of either kind, with a
backslash before each backslash and before each quote of that kind; SQL writes it between single quotes
and doubles those inside.  The scanner looks for the end of the string with no regard to what its
characters mean, the reader removes the backslashes afterwards, and SQL is read by a rule of its own.
Whatever the characters are, all three take the string apart where it was put together.

What a formula writes between quotes is a row of pieces, one for each character: a character that
neither ends the string nor escapes, or any character behind a backslash.  The two lemmas on pieces hold
for every way of choosing them.

Main definitions:

* `ComputedFields.QuotedPiece`, `ComputedFields.SpelledBy` — what may stand for a character between
  quotes;
* `ComputedFields.Quote`, `ComputedFields.Quote.write` — the quotes of a formula, and a string between
  them;
* `ComputedFields.Sql.readLiteral?` — the string that SQL reads at the head of a text.

Main results:

* `ComputedFields.splitString_flatMap`, `ComputedFields.unescape_flatMap` — the end of a string is
  found, and its characters are those that were written;
* `ComputedFields.Sql.readLiteral?_literal` — SQL reads back a literal, and stops behind it;
* `ComputedFields.Quote.write_survives` — **a string survives scanning, reading, compiling and SQL**.
-/

import ComputedFields.Compile.Basic

set_option relaxedAutoImplicit false
set_option autoImplicit false

namespace ComputedFields

/-! ### Pieces of a string -/

/-- What may stand for one character between quotes. -/
inductive QuotedPiece (quote : Char) : List Char → Prop where
  | plain {c : Char} : c ≠ quote → c ≠ '\\' → QuotedPiece quote [c]
  | escaped (c : Char) : QuotedPiece quote ['\\', c]

/-- The character is spelled by a piece that stands for it. -/
structure SpelledBy (quote : Char) (spell : Char → List Char) (c : Char) : Prop where
  piece : QuotedPiece quote (spell c)
  value : unescape (spell c) = [c]

section pieces

variable {quote : Char} {piece : List Char} {spell : Char → List Char} {text : List Char}

/-- The search for the end of a string steps over a piece. -/
theorem QuotedPiece.splitString_append (h : QuotedPiece quote piece) (source : List Char) :
    splitString quote (piece ++ source) =
      (splitString quote source).map fun split => (piece ++ split.1, split.2) := by
  cases h with
  | plain hquote hescape => simp [splitString, hquote, hescape]
  | escaped c => simp [splitString]

theorem QuotedPiece.unescape_append (h : QuotedPiece quote piece) (source : List Char) :
    unescape (piece ++ source) = unescape piece ++ unescape source := by
  cases h with
  | plain hquote hescape => simp [unescape, hescape]
  | escaped c => simp [unescape]

/-- **A string ends at the quote behind its pieces**, and no earlier. -/
theorem splitString_flatMap (hquote : quote ≠ '\\') (h : ∀ c ∈ text, QuotedPiece quote (spell c))
    (rest : List Char) :
    splitString quote (text.flatMap spell ++ quote :: rest) =
      some (text.flatMap spell ++ [quote], rest) := by
  induction text with
  | nil => simp [splitString, hquote]
  | cons c text ih =>
      rw [List.forall_mem_cons] at h
      rw [List.flatMap_cons, List.append_assoc, h.1.splitString_append, ih h.2]
      simp

/-- **The reader finds the characters that the pieces stand for.** -/
theorem unescape_flatMap (h : ∀ c ∈ text, SpelledBy quote spell c) :
    unescape (text.flatMap spell) = text := by
  induction text with
  | nil => rfl
  | cons c text ih =>
      rw [List.forall_mem_cons] at h
      rw [List.flatMap_cons, h.1.piece.unescape_append, h.1.value, ih h.2]
      rfl

end pieces

/-! ### Strings of a formula -/

/-- The quotes between which a formula writes a string. -/
inductive Quote where
  | single
  | double
  deriving DecidableEq, Repr

namespace Quote

/-- The quote itself. -/
def mark : Quote → Char
  | .single => '\''
  | .double => '"'

/-- The kind of a string between these quotes. -/
def kind : Quote → TokenKind
  | .single => .singleQuoted
  | .double => .doubleQuoted

/-- A character between the quotes: a backslash comes before a backslash, and before the quote. -/
def spell (q : Quote) (c : Char) : List Char :=
  if c = '\\' ∨ c = q.mark then ['\\', c] else [c]

/-- A string as a formula writes it. -/
def write (q : Quote) (s : String) : String :=
  String.ofList (q.mark :: (s.toList.flatMap q.spell ++ [q.mark]))

theorem mark_ne_backslash (q : Quote) : q.mark ≠ '\\' := by cases q <;> decide

theorem isDelimited_kind (q : Quote) : q.kind.isDelimited = true := by cases q <;> rfl

theorem isSeparator_mark (q : Quote) : Text.isSeparator q.mark = false := by cases q <;> decide

theorem toList_write (q : Quote) (s : String) :
    (q.write s).toList = q.mark :: (s.toList.flatMap q.spell ++ [q.mark]) := String.toList_ofList

/-- A character stands for itself, with or without a backslash: the letters that a backslash changes
take none. -/
theorem spelledBy_spell (q : Quote) (c : Char) : SpelledBy q.mark q.spell c := by
  unfold spell
  constructor
  · split
    · exact .escaped c
    · next h => exact .plain (fun hc => h (.inr hc)) (fun hc => h (.inl hc))
  · split
    · next h =>
        have hn : c ≠ 'n' ∧ c ≠ 't' := by
          rcases h with rfl | rfl
          · decide
          · cases q <;> decide
        simp [unescape, hn]
    · next h =>
        have hc : c ≠ '\\' := fun hc => h (.inl hc)
        simp [unescape, hc]

/-- The lexeme at a quote is the string up to the next one that is not escaped. -/
theorem lexeme_mark (q : Quote) (source : List Char) :
    lexeme q.mark source = stringLexeme q.kind q.mark source := by
  cases q <;> rfl

/-- What is written is one lexeme, whatever follows it. -/
theorem lexeme_write (q : Quote) (s : String) (rest : List Char) :
    lexeme q.mark (s.toList.flatMap q.spell ++ q.mark :: rest) =
      .ok ⟨q.kind, (q.write s).toList, rest⟩ := by
  rw [lexeme_mark, stringLexeme, splitString_flatMap q.mark_ne_backslash
    fun c _ => (q.spelledBy_spell c).piece, toList_write]

/-- The string as a token at the beginning of a source. -/
def token (q : Quote) (s : String) : Token := ⟨q.kind, 0, (q.write s).toList⟩

/-- A written string is a single token. -/
theorem scan_write (q : Quote) (s : String) : scan (q.write s).toList = ⟨[q.token s], none⟩ := by
  have hlexeme := q.lexeme_write s []
  unfold scan token
  rw [toList_write, List.length_cons, scanFrom]
  simp only [q.isSeparator_mark, Bool.false_eq_true, if_false, hlexeme]
  rw [List.length_append, List.length_singleton, scanFrom, toList_write]

theorem unescape_contents (q : Quote) (s : String) : unescape (q.token s).contents = s.toList := by
  unfold Token.contents token
  rw [if_pos q.isDelimited_kind, toList_write, List.tail_cons, List.dropLast_concat]
  exact unescape_flatMap fun c _ => q.spelledBy_spell c

/-- A token that is a string is read as an operand. -/
theorem operand_token (q : Quote) (s : String) (fault : Option LexError) (depth : Nat)
    (rest : List Token) :
    Parser.operand fault (depth + 1) (q.token s :: rest) =
      .ok (.text (String.ofList (unescape (q.token s).contents)), rest) := by
  unfold Parser.operand
  cases q <;> rfl

theorem parse_write (q : Quote) (s : String) : Formula.parse (q.write s) = .ok (.text s) := by
  unfold Formula.parse Parser.formula
  rw [scan_write]
  show Parser.expression none 6 0 [q.token s] >>= _ = _
  rw [Parser.expression, operand_token, unescape_contents, String.ofList_toList]
  rfl

end Quote

/-! ### Strings in SQL -/

namespace Sql

/-- The string up to the quote that ends it, and what follows that quote.  A quote that is written twice
stands for one and does not end the string. -/
def readQuoted? : List Char → Option (List Char × List Char)
  | [] => none
  | '\'' :: '\'' :: rest => (readQuoted? rest).map fun read => ('\'' :: read.1, read.2)
  | c :: rest =>
      if c = '\'' then some ([], rest)
      else (readQuoted? rest).map fun read => (c :: read.1, read.2)

/-- The string whose literal stands at the head of a text, and what follows the literal. -/
def readLiteral? : List Char → Option (List Char × List Char)
  | '\'' :: rest => readQuoted? rest
  | _ => none

/-- Doubled quotes are read as single ones, up to a quote that is not doubled. -/
theorem readQuoted?_double (text : List Char) {rest : List Char} (h : rest.head? ≠ some '\'') :
    readQuoted? (double '\'' text ++ '\'' :: rest) = some (text, rest) := by
  induction text with
  | nil =>
      cases rest with
      | nil => rfl
      | cons c rest =>
          have hc : c ≠ '\'' := by simpa using h
          simp [readQuoted?, hc]
  | cons c text ih =>
      by_cases hc : c = '\''
      · simp [double, hc, readQuoted?, ih]
      · simp [double, hc, readQuoted?, ih]

/-- **SQL reads back a literal, and stops behind it**, unless another quote follows. -/
theorem readLiteral?_literal (s : String) {rest : List Char} (h : rest.head? ≠ some '\'') :
    readLiteral? ((literal s).toList ++ rest) = some (s.toList, rest) := by
  unfold literal quote
  rw [String.toList_ofList, List.cons_append, List.append_assoc]
  exact readQuoted?_double s.toList h

end Sql

/-! ### From the formula to the database -/

/-- What follows a string in SQL: a generated column of one database pins its type. -/
def Target.textPin (t : Target) : String :=
  if t.dialect = .postgres ∧ t.mode = .generated then "::text" else ""

theorem Target.render_stringLiteral (t : Target) (s : String) :
    (t.stringLiteral s).render = Sql.literal s ++ t.textPin := by
  unfold stringLiteral textPin
  cases t.dialect <;> cases t.mode <;> simp [Sql.Expr.render, String.append_assoc]

theorem Target.head?_textPin (t : Target) : t.textPin.toList.head? ≠ some '\'' := by
  unfold textPin
  split <;> decide

/-- **A string survives scanning, reading, compiling and SQL.**  Whatever its characters, written
between quotes of either kind it is one token, which is read as the string itself.  For every database,
in a query and in a generated column, it compiles to the literal of the string, with its type behind it
in a generated column of one database.  From that SQL the string is read back, up to where the literal
ends. -/
theorem Quote.write_survives (q : Quote) (s : String) :
    scan (q.write s).toList = ⟨[⟨q.kind, 0, (q.write s).toList⟩], none⟩ ∧
      Formula.parse (q.write s) = .ok (.text s) ∧
      ∀ ctx : Context, ∃ c, ctx.compile (.text s) = .ok c ∧
        c.sql = Sql.literal s ++ ctx.target.textPin ∧
        Sql.readLiteral? c.sql.toList = some (s.toList, ctx.target.textPin.toList) := by
  refine ⟨q.scan_write s, q.parse_write s, fun ctx => ?_⟩
  have hsql := ctx.target.render_stringLiteral s
  refine ⟨⟨.string (ctx.target.stringLiteral s), []⟩, rfl, hsql, ?_⟩
  show Sql.readLiteral? (ctx.target.stringLiteral s).render.toList = _
  rw [hsql, String.toList_append]
  exact Sql.readLiteral?_literal s ctx.target.head?_textPin

end ComputedFields
