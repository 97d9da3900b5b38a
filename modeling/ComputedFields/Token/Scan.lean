/-
**Cutting a source into tokens.**

At a character that is no blank, `ComputedFields.lexeme` reads one lexeme: the longest operator,
number or word, a string up to its closing quote, or a field reference up to its closing brace.  A
source is cut by skipping blanks and reading lexemes, until it ends or no lexeme can be read.

Main definitions:

* `ComputedFields.Lexeme`, `ComputedFields.lexeme` — the lexeme at the head of a source;
* `ComputedFields.Scan`, `ComputedFields.scan` — the tokens of a source, and the fault that stopped
  the scan, if any.

Main results:

* `ComputedFields.text_append_rest_of_lexeme` — a lexeme and what follows it make up the source;
* `ComputedFields.text_ne_nil_of_lexeme` — no lexeme is empty.
-/

import ComputedFields.Text.Blank
import ComputedFields.Token.Basic

set_option relaxedAutoImplicit false
set_option autoImplicit false

namespace ComputedFields

/-! ### Lexemes -/

/-- A lexeme and the characters after it. -/
structure Lexeme where
  kind : TokenKind
  text : List Char
  rest : List Char
  deriving DecidableEq, Repr

/-- Why no lexeme can be read. -/
inductive LexFault where
  | unterminatedString
  | unterminatedFieldRef
  | unexpectedCharacter
  deriving DecidableEq, Repr

/-- The fault at a byte of the source. -/
def LexFault.at : LexFault → Nat → LexError
  | .unterminatedString => .unterminatedString
  | .unterminatedFieldRef => .unterminatedFieldRef
  | .unexpectedCharacter => .unexpectedCharacter

/-- The first character of a word. -/
def isWordStart (c : Char) : Bool := c.isAlpha || c = '_'

/-- A character inside a word. -/
def isWordChar (c : Char) : Bool := c.isAlphanum || c = '_'

/-- Splits after the closing quote.  A backslash takes the character after it along. -/
def splitString (quote : Char) : List Char → Option (List Char × List Char)
  | [] => none
  | '\\' :: escaped :: rest =>
      (splitString quote rest).map fun split => ('\\' :: escaped :: split.1, split.2)
  | c :: rest =>
      if c = quote then some ([c], rest)
      else (splitString quote rest).map fun split => (c :: split.1, split.2)

/-- Splits after the first closing brace. -/
def splitBrace : List Char → Option (List Char × List Char)
  | [] => none
  | c :: rest =>
      if c = '\x7d' then some ([c], rest)
      else (splitBrace rest).map fun split => (c :: split.1, split.2)

/-- Splits a number: digits, and after a point more digits. -/
def splitNumber (source : List Char) : List Char × List Char :=
  let whole := source.takeWhile Char.isDigit
  match source.dropWhile Char.isDigit with
  | '.' :: rest => (whole ++ '.' :: rest.takeWhile Char.isDigit, rest.dropWhile Char.isDigit)
  | rest => (whole, rest)

/-- The words for truth values and null, in any case; every other word is a name. -/
def wordKind (word : List Char) : TokenKind :=
  let lower := word.map Char.toLower
  if lower = ['t', 'r', 'u', 'e'] then .true
  else if lower = ['f', 'a', 'l', 's', 'e'] then .false
  else if lower = ['n', 'u', 'l', 'l'] then .null
  else .identifier

/-- The operator at the head of a source, if one stands there: its kind and its text. -/
def operator? : List Char → Option (TokenKind × List Char)
  | '(' :: _ => some (.parenLeft, ['('])
  | ')' :: _ => some (.parenRight, [')'])
  | ',' :: _ => some (.comma, [','])
  | '/' :: _ => some (.slash, ['/'])
  | '*' :: _ => some (.asterisk, ['*'])
  | '%' :: _ => some (.percent, ['%'])
  | '+' :: _ => some (.plus, ['+'])
  | '-' :: _ => some (.minus, ['-'])
  | '&' :: '&' :: _ => some (.and, ['&', '&'])
  | '&' :: _ => some (.ampersand, ['&'])
  | '|' :: '|' :: _ => some (.or, ['|', '|'])
  | '=' :: '=' :: _ => some (.equals, ['=', '='])
  | '=' :: _ => some (.equals, ['='])
  | '!' :: '=' :: _ => some (.notEquals, ['!', '='])
  | '!' :: _ => some (.bang, ['!'])
  | '<' :: '>' :: _ => some (.notEquals, ['<', '>'])
  | '<' :: '=' :: _ => some (.lessEqual, ['<', '='])
  | '<' :: _ => some (.less, ['<'])
  | '>' :: '=' :: _ => some (.greaterEqual, ['>', '='])
  | '>' :: _ => some (.greater, ['>'])
  | _ => none

/-- The lexeme of a string whose opening quote has been read. -/
def stringLexeme (kind : TokenKind) (quote : Char) (rest : List Char) : Except LexFault Lexeme :=
  match splitString quote rest with
  | some split => .ok ⟨kind, quote :: split.1, split.2⟩
  | none => .error .unterminatedString

/-- The lexeme at the head of a source that starts with the character `c`. -/
def lexeme (c : Char) (rest : List Char) : Except LexFault Lexeme :=
  match operator? (c :: rest) with
  | some (kind, text) => .ok ⟨kind, text, (c :: rest).drop text.length⟩
  | none =>
      if c = '"' then stringLexeme .doubleQuoted c rest
      else if c = '\'' then stringLexeme .singleQuoted c rest
      else if c = '\x7b' then
        match splitBrace rest with
        | some split => .ok ⟨.fieldRef, c :: split.1, split.2⟩
        | none => .error .unterminatedFieldRef
      else if isWordStart c then
        let word := c :: rest.takeWhile isWordChar
        .ok ⟨wordKind word, word, rest.dropWhile isWordChar⟩
      else if c.isDigit || c = '.' then
        let split := splitNumber (c :: rest)
        .ok ⟨.number, split.1, split.2⟩
      else .error .unexpectedCharacter

/-! ### A lexeme is cut off the source -/

theorem append_of_splitString {quote : Char} {source : List Char} {split : List Char × List Char}
    (h : splitString quote source = some split) : split.1 ++ split.2 = source := by
  fun_induction splitString quote source generalizing split with
  | case1 => simp at h
  | case2 escaped rest ih =>
      obtain ⟨inner, hinner, rfl⟩ := Option.map_eq_some_iff.1 h
      simp [ih hinner]
  | case3 =>
      cases h
      rfl
  | case4 c rest _ _ ih =>
      obtain ⟨inner, hinner, rfl⟩ := Option.map_eq_some_iff.1 h
      simp [ih hinner]

theorem append_of_splitBrace {source : List Char} {split : List Char × List Char}
    (h : splitBrace source = some split) : split.1 ++ split.2 = source := by
  fun_induction splitBrace source generalizing split with
  | case1 => simp at h
  | case2 =>
      cases h
      rfl
  | case3 c rest _ ih =>
      obtain ⟨inner, hinner, rfl⟩ := Option.map_eq_some_iff.1 h
      simp [ih hinner]

theorem append_splitNumber (source : List Char) :
    (splitNumber source).1 ++ (splitNumber source).2 = source := by
  have hwhole := List.takeWhile_append_dropWhile (p := Char.isDigit) (l := source)
  simp only [splitNumber]
  split
  · next rest hrest =>
      rw [hrest] at hwhole
      simpa using hwhole
  · exact hwhole

/-- An operator is the beginning of the source, and not empty. -/
theorem operator?_eq_some {source : List Char} {kind : TokenKind} {text : List Char}
    (h : operator? source = some (kind, text)) :
    text ++ source.drop text.length = source ∧ text ≠ [] := by
  unfold operator? at h
  split at h <;> cases h <;> simp

/-- **A lexeme and the characters after it make up the source.** -/
theorem text_append_rest_of_lexeme {c : Char} {rest : List Char} {l : Lexeme}
    (h : lexeme c rest = .ok l) : l.text ++ l.rest = c :: rest := by
  unfold lexeme at h
  split at h
  · next kind text hop =>
      cases h
      exact (operator?_eq_some hop).1
  · split at h
    · unfold stringLexeme at h
      split at h <;> cases h
      simp [append_of_splitString (by assumption)]
    split at h
    · unfold stringLexeme at h
      split at h <;> cases h
      simp [append_of_splitString (by assumption)]
    split at h
    · split at h <;> cases h
      simp [append_of_splitBrace (by assumption)]
    split at h
    · cases h
      simp
    split at h
    · cases h
      exact append_splitNumber _
    · cases h

/-- **No lexeme is empty.** -/
theorem text_ne_nil_of_lexeme {c : Char} {rest : List Char} {l : Lexeme}
    (h : lexeme c rest = .ok l) : l.text ≠ [] := by
  unfold lexeme at h
  split at h
  · next kind text hop =>
      cases h
      exact (operator?_eq_some hop).2
  · split at h
    · unfold stringLexeme at h
      split at h <;> cases h
      simp
    split at h
    · unfold stringLexeme at h
      split at h <;> cases h
      simp
    split at h
    · split at h <;> cases h
      simp
    split at h
    · cases h
      simp
    split at h
    · next hnum =>
        cases h
        simp only [splitNumber]
        split
        · simp
        · next hrest =>
            have hdigit : c.isDigit = true := by
              rcases Bool.or_eq_true_iff.1 hnum with hdigit | hdot
              · exact hdigit
              · have hdot := of_decide_eq_true hdot
                subst hdot
                exact absurd rfl (hrest rest)
            simp [hdigit]
    · cases h

/-! ### Scanning -/

/-- The tokens of a source up to its end or to a fault. -/
structure Scan where
  tokens : List Token
  fault : Option LexError
  deriving DecidableEq, Repr

/-- Scans the characters that start at byte `offset`; the first argument bounds their number. -/
def scanFrom : Nat → Nat → List Char → Scan
  | 0, _, _ => ⟨[], none⟩
  | _ + 1, _, [] => ⟨[], none⟩
  | fuel + 1, offset, c :: rest =>
      if Text.isSeparator c then scanFrom fuel (offset + c.utf8Size) rest
      else
        match lexeme c rest with
        | .error fault => ⟨[], some (fault.at offset)⟩
        | .ok l =>
            let next := scanFrom fuel (offset + byteSize l.text) l.rest
            ⟨⟨l.kind, offset, l.text⟩ :: next.tokens, next.fault⟩

/-- The tokens of a source, and the fault that stopped the scan, if any. -/
def scan (source : List Char) : Scan := scanFrom (source.length + 1) 0 source

end ComputedFields
