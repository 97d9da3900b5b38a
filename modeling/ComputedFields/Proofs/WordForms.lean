/-
**The forms of words.**

The scanner does not make tokens of just anything.  The words of a scan have a form that depends on their
kind: a number is digits with at most one point, a name is a word other than the three that stand for
values, and a field reference ends at its first closing brace.

Main definitions:

* `ComputedFields.Lexes` — what a lexeme can be;
* `ComputedFields.IsNumber`, `ComputedFields.isName` — the forms of numbers and names;
* `ComputedFields.WellSpelled` — the form of a word of some kind.

Main results:

* `ComputedFields.lexes_of_lexeme` — a lexeme is one of these;
* `ComputedFields.wellSpelled_of_lexeme` — a lexeme has the form of its kind;
* `ComputedFields.wellSpelled_of_scan` — **the words of a scan have the form of their kind**.
-/

import ComputedFields.Formula.Parse
import ComputedFields.Proofs.Expansion
import ComputedFields.Proofs.StringValues

set_option relaxedAutoImplicit false
set_option autoImplicit false

namespace ComputedFields

/-! ### What a lexeme can be -/

/-- The lexeme at the head of a source: an operator, a string, a field reference, a word or a number. -/
inductive Lexes : Char → List Char → Lexeme → Prop where
  | operator {c : Char} {rest : List Char} {kind : TokenKind} {text : List Char} :
      operator? (c :: rest) = some (kind, text) →
      Lexes c rest ⟨kind, text, (c :: rest).drop text.length⟩
  | string {rest : List Char} {split : List Char × List Char} (q : Quote) :
      splitString q.mark rest = some split → Lexes q.mark rest ⟨q.kind, q.mark :: split.1, split.2⟩
  | field {rest : List Char} {split : List Char × List Char} :
      splitBrace rest = some split → Lexes '\x7b' rest ⟨.fieldRef, '\x7b' :: split.1, split.2⟩
  | word {c : Char} {rest : List Char} : isWordStart c = true →
      Lexes c rest ⟨wordKind (c :: rest.takeWhile isWordChar), c :: rest.takeWhile isWordChar,
        rest.dropWhile isWordChar⟩
  | number {c : Char} {rest : List Char} : isWordStart c = false → (c.isDigit || c = '.') = true →
      Lexes c rest ⟨.number, (splitNumber (c :: rest)).1, (splitNumber (c :: rest)).2⟩

theorem Lexes.of_stringLexeme (q : Quote) {rest : List Char} {l : Lexeme}
    (h : stringLexeme q.kind q.mark rest = .ok l) : Lexes q.mark rest l := by
  unfold stringLexeme at h
  split at h
  · next hsplit =>
      cases h
      exact .string q hsplit
  · cases h

/-- **A lexeme is an operator, a string, a field reference, a word or a number.** -/
theorem lexes_of_lexeme {c : Char} {rest : List Char} {l : Lexeme} (h : lexeme c rest = .ok l) :
    Lexes c rest l := by
  unfold lexeme at h
  split at h
  · next hop =>
      cases h
      exact .operator hop
  split at h
  · next hquote =>
      subst hquote
      exact .of_stringLexeme .double h
  split at h
  · next hquote =>
      subst hquote
      exact .of_stringLexeme .single h
  split at h
  · next hbrace =>
      subst hbrace
      split at h <;> cases h
      next hsplit => exact .field hsplit
  split at h
  · next hstart =>
      cases h
      exact .word hstart
  split at h
  · next hstart hnumber =>
      cases h
      exact .number (Bool.eq_false_iff.2 hstart) hnumber
  · cases h

/-! ### The forms of words -/

/-- The text is made of digits. -/
def IsDigits (text : List Char) : Prop := ∀ c ∈ text, c.isDigit = true

/-- A number: digits, or digits around a point.  There may be none on either side of it. -/
inductive IsNumber : List Char → Prop where
  | whole {digits : List Char} : IsDigits digits → IsNumber digits
  | point {digits fraction : List Char} :
      IsDigits digits → IsDigits fraction → IsNumber (digits ++ '.' :: fraction)

/-- A name: a word that does not stand for a value. -/
def isName (text : List Char) : Bool :=
  match text with
  | [] => false
  | c :: rest => isWordStart c && rest.all isWordChar && wordKind text = .identifier

/-- The text has the form of the words of a kind. -/
def WellSpelled : TokenKind → List Char → Prop
  | .number, text => text ≠ [] ∧ IsNumber text
  | .identifier, text => isName text = true
  | .fieldRef, text => ∃ id, text = '\x7b' :: (id ++ ['\x7d']) ∧ '\x7d' ∉ id
  | _, _ => True

theorem isDigits_takeWhile (text : List Char) : IsDigits (text.takeWhile Char.isDigit) :=
  fun c hc => List.all_eq_true.1 List.all_takeWhile c hc

theorem isNumber_splitNumber (source : List Char) : IsNumber (splitNumber source).1 := by
  unfold splitNumber
  split
  · exact .point (isDigits_takeWhile source) (isDigits_takeWhile _)
  · exact .whole (isDigits_takeWhile source)

/-- A field reference holds no closing brace but its last character. -/
theorem exists_of_splitBrace {source : List Char} {split : List Char × List Char}
    (h : splitBrace source = some split) : ∃ id, split.1 = id ++ ['\x7d'] ∧ '\x7d' ∉ id := by
  fun_induction splitBrace source generalizing split with
  | case1 => cases h
  | case2 =>
      cases h
      exact ⟨[], rfl, List.not_mem_nil⟩
  | case3 c rest hc ih =>
      obtain ⟨inner, hinner, rfl⟩ := Option.map_eq_some_iff.1 h
      obtain ⟨id, hid, hnot⟩ := ih hinner
      refine ⟨c :: id, by simp [hid], fun hmem => ?_⟩
      rcases List.mem_cons.1 hmem with heq | hmem
      · exact hc heq.symm
      · exact hnot hmem

/-- The kind of an operator asks nothing of its text. -/
theorem wellSpelled_of_operator? {source : List Char} {kind : TokenKind} {text : List Char}
    (h : operator? source = some (kind, text)) : WellSpelled kind text := by
  unfold operator? at h
  split at h <;> cases h <;> trivial

theorem wellSpelled_word {c : Char} {rest : List Char} (hstart : isWordStart c = true)
    (hrest : rest.all isWordChar = true) : WellSpelled (wordKind (c :: rest)) (c :: rest) := by
  have hname : wordKind (c :: rest) = .identifier → isName (c :: rest) = true := by
    intro hkind
    simp [isName, hstart, hrest, hkind]
  revert hname
  unfold wordKind
  dsimp only
  split
  · exact fun _ => trivial
  split
  · exact fun _ => trivial
  split
  · exact fun _ => trivial
  · exact fun hname => hname rfl

/-- **A lexeme has the form of its kind.** -/
theorem wellSpelled_of_lexeme {c : Char} {rest : List Char} {l : Lexeme} (h : lexeme c rest = .ok l) :
    WellSpelled l.kind l.text := by
  have hne := text_ne_nil_of_lexeme h
  cases lexes_of_lexeme h with
  | operator hop => exact wellSpelled_of_operator? hop
  | string q => cases q <;> trivial
  | field hsplit =>
      obtain ⟨id, hid, hnot⟩ := exists_of_splitBrace hsplit
      exact ⟨id, by rw [hid], hnot⟩
  | word hstart => exact wellSpelled_word hstart List.all_takeWhile
  | number => exact ⟨hne, isNumber_splitNumber _⟩

/-- The token has the form of its kind. -/
def Token.WellSpelled (token : Token) : Prop := ComputedFields.WellSpelled token.kind token.text

theorem wellSpelled_of_scanFrom {fuel offset : Nat} {source : List Char} :
    ∀ token ∈ (scanFrom fuel offset source).tokens, token.WellSpelled := by
  fun_induction scanFrom fuel offset source with
  | case1 => simp
  | case2 => simp
  | case3 fuel offset c rest _ ih => exact ih
  | case4 => simp
  | case5 fuel offset c rest _ l hl next ih =>
      rw [List.forall_mem_cons]
      exact ⟨wellSpelled_of_lexeme hl, ih⟩

/-- **The words of a scan have the form of their kind.** -/
theorem wellSpelled_of_scan (source : List Char) : ∀ token ∈ (scan source).tokens, token.WellSpelled :=
  wellSpelled_of_scanFrom

end ComputedFields
