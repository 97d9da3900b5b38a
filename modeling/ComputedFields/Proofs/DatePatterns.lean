/-
**Which date templates a pattern keeps.**

One of the databases formats a date after a pattern, in which the words of tokens stand for parts of the
date and text with letters stands between quotes.  The pattern has a rule by which it is read.  This module
reads the pattern of a template back by that rule and compares what is found with the pieces of the
template.

Not every template is kept.  Between quotes a backslash takes the next character along, but the pattern
puts a backslash before quotes only, so a backslash of the template is lost there.  Outside quotes a quote
opens a run, and text without letters is not quoted at all, so a quote in it swallows the tokens that
follow.  These two are the only losses.

That they are losses cannot be seen at the character that is lost, since what stands behind it may look
like it.  What decides is a count: every quote and every backslash that is read costs a backslash of the
pattern, and behind a loss there are too few of them.

Main definitions:

* `ComputedFields.DateSymbol`, `ComputedFields.templateSymbols` — what a template shows, place by place;
* `ComputedFields.readPattern` — what a pattern shows;
* `ComputedFields.Piece.Kept` — the pieces that a pattern keeps.

Main results:

* `ComputedFields.isChain_pieces` — which pieces can stand next to each other;
* `ComputedFields.countP_readPatternFrom` — what reading quotes and backslashes costs;
* `ComputedFields.readPattern_toCharPattern_iff` — **which templates a pattern keeps**.
-/

import Mathlib.Data.List.Chain
import ComputedFields.Builtin.Date

set_option relaxedAutoImplicit false
set_option autoImplicit false

namespace ComputedFields

/-! ### Symbols -/

/-- What a template shows at a place: a character as it is, or a part of the date. -/
inductive DateSymbol where
  | char (c : Char)
  | token (t : DateToken)
  deriving DecidableEq, Repr

/-- What a piece shows. -/
def Piece.symbols : Piece → List DateSymbol
  | .literal text => text.map .char
  | .token t => [.token t]

/-- What a template shows, from left to right. -/
def templateSymbols (template : String) : List DateSymbol := (pieces template).flatMap Piece.symbols

/-! ### Neighbouring pieces -/

/-- The second piece can stand behind the first: text goes as far as the next token, and two letters of a
year are no beginning of four. -/
def Piece.Precedes : Piece → Piece → Prop
  | .literal _, .literal _ => False
  | .token .shortYear, .token t => t ≠ .year ∧ t ≠ .shortYear
  | .token .shortYear, .literal text => text ≠ []
  | _, _ => True

/-- A token stands at the beginning of a text with all its letters. -/
theorem DateToken.prefix_of_at? {text : List Char} {t : DateToken} (h : DateToken.at? text = some t) :
    t.spelling.toList <+: text :=
  List.isPrefixOf_iff_prefix.1 (by simpa using List.find?_some h)

/-- Two letters of a year are not followed by two more. -/
theorem DateToken.at?_after_shortYear {rest : List Char} {t : DateToken}
    (h : DateToken.at? ('Y' :: 'Y' :: rest) = some .shortYear) (ht : DateToken.at? rest = some t) :
    t ≠ .year ∧ t ≠ .shortYear := by
  have hno : ∀ after, rest ≠ 'Y' :: 'Y' :: after := by
    rintro after rfl
    cases h
  constructor
  · rintro rfl
    obtain ⟨after, hafter⟩ := DateToken.prefix_of_at? ht
    exact hno ('Y' :: 'Y' :: after) hafter.symm
  · rintro rfl
    obtain ⟨after, hafter⟩ := DateToken.prefix_of_at? ht
    exact hno after hafter.symm

/-- The first piece of a text is the token at its beginning, or text that is not empty. -/
theorem head_piecesAfter {text : List Char} {piece : Piece} (h : piece ∈ (piecesAfter 0 text).head?) :
    (∃ t, piece = .token t ∧ DateToken.at? text = some t) ∨
      ∃ c rest, piece = .literal (c :: rest) := by
  cases text with
  | nil => cases h
  | cons c text =>
      rw [piecesAfter] at h
      split at h
      · next t ht =>
          cases h
          exact .inl ⟨t, rfl, ht⟩
      · unfold Piece.prepend at h
        split at h
        · cases h
          exact .inr ⟨_, _, rfl⟩
        · cases h
          exact .inr ⟨_, _, rfl⟩

theorem precedes_piecesAfter {c : Char} {rest : List Char} {t : DateToken} {piece : Piece}
    (h : DateToken.at? (c :: rest) = some t)
    (hpiece : piece ∈ (piecesAfter (t.spelling.length - 1) rest).head?) :
    Piece.Precedes (.token t) piece := by
  by_cases ht : t = .shortYear
  · subst ht
    obtain ⟨after, hafter⟩ := DateToken.prefix_of_at? h
    obtain ⟨rfl, rfl⟩ : 'Y' = c ∧ 'Y' :: after = rest := List.cons.inj hafter
    have hhead : piece ∈ (piecesAfter 0 after).head? := hpiece
    rcases head_piecesAfter hhead with ⟨t, rfl, ht⟩ | ⟨d, text, rfl⟩
    · exact DateToken.at?_after_shortYear h ht
    · exact List.cons_ne_nil d text
  · cases t <;> first | exact absurd rfl ht | cases piece <;> trivial

/-- What can stand behind a text does not depend on the text. -/
theorem Piece.Precedes.of_literal {piece : Piece} {text : List Char}
    (h : Piece.Precedes (.literal text) piece) (other : List Char) :
    Piece.Precedes (.literal other) piece := by
  cases piece with
  | literal => exact h
  | token => trivial

theorem isChain_prepend {ps : List Piece} (h : ps.IsChain Piece.Precedes) (c : Char) :
    (Piece.prepend c ps).IsChain Piece.Precedes := by
  unfold Piece.prepend
  split
  · rw [List.isChain_cons] at h ⊢
    exact ⟨fun piece hpiece => (h.1 piece hpiece).of_literal _, h.2⟩
  · next hps =>
      refine List.isChain_cons.2 ⟨fun piece hpiece => ?_, h⟩
      obtain ⟨rest, hrest⟩ := List.head?_eq_some_iff.1 hpiece
      cases piece with
      | literal text => exact absurd hrest (hps text rest)
      | token t => trivial

theorem isChain_piecesAfter (skip : Nat) (text : List Char) :
    (piecesAfter skip text).IsChain Piece.Precedes := by
  fun_induction piecesAfter skip text with
  | case1 => exact .nil
  | case2 c rest t ht ih => exact List.isChain_cons.2 ⟨fun _ => precedes_piecesAfter ht, ih⟩
  | case3 c rest _ ih => exact isChain_prepend ih c
  | case4 skip c rest ih => exact ih

/-- **Of two pieces next to each other one is a token, and no year is cut in two.** -/
theorem isChain_pieces (template : String) : (pieces template).IsChain Piece.Precedes :=
  isChain_piecesAfter 0 template.toList

/-! ### Reading patterns -/

/-- The token whose word stands at the beginning of a pattern.  Of two that match, the longer one comes
first. -/
def DateToken.inPattern? (text : List Char) : Option DateToken :=
  all.find? fun token => token.toChar.toList.isPrefixOf text

/-- Where a reader of patterns stands: outside quotes, with so many characters of a word still to come, or
between quotes. -/
inductive PatternPlace where
  | outside (skip : Nat)
  | inside

/-- What the rest of a pattern shows.  Outside quotes, a quote opens a run, a quote behind a backslash stands
for itself and the word of a token for the token; between them, a backslash takes the next character along
and a quote ends the run.  All other characters stand for themselves. -/
def readPatternFrom : PatternPlace → List Char → List DateSymbol
  | _, [] => []
  | .outside (skip + 1), _ :: rest => readPatternFrom (.outside skip) rest
  | .outside 0, '"' :: rest => readPatternFrom .inside rest
  | .outside 0, '\\' :: '"' :: rest => .char '"' :: readPatternFrom (.outside 0) rest
  | .outside 0, c :: rest =>
      match DateToken.inPattern? (c :: rest) with
      | some t => .token t :: readPatternFrom (.outside (t.toChar.length - 1)) rest
      | none => .char c :: readPatternFrom (.outside 0) rest
  | .inside, '"' :: rest => readPatternFrom (.outside 0) rest
  | .inside, '\\' :: c :: rest => .char c :: readPatternFrom .inside rest
  | .inside, c :: rest => .char c :: readPatternFrom .inside rest

/-- What a pattern shows. -/
def readPattern (pattern : String) : List DateSymbol := readPatternFrom (.outside 0) pattern.toList

/-! #### Pieces that are read as they are -/

/-- Every word of a pattern begins with a letter. -/
theorem DateToken.inPattern?_eq_none {c : Char} (h : Text.isAlphabetic c = false) (rest : List Char) :
    DateToken.inPattern? (c :: rest) = none := by
  refine List.find?_eq_none.2 fun t _ hbegins => ?_
  have hword : ∃ d after, t.toChar.toList = d :: after ∧ Text.isAlphabetic d = true := by
    cases t <;> exact ⟨_, _, rfl, by decide⟩
  obtain ⟨d, after, hchars, hd⟩ := hword
  obtain ⟨behind, hbehind⟩ := List.isPrefixOf_iff_prefix.1 hbegins
  rw [hchars, List.cons_append] at hbehind
  rw [(List.cons.inj hbehind).1, h] at hd
  cases hd

/-- The word of a token is found, unless two letters of a year stand before a third one. -/
theorem DateToken.inPattern?_append (t : DateToken) {rest : List Char}
    (h : t = .shortYear → ∀ after, rest ≠ 'Y' :: after) :
    DateToken.inPattern? (t.toChar.toList ++ rest) = some t := by
  cases t with
  | shortYear =>
      cases rest with
      | nil => rfl
      | cons c rest =>
          have hc : ('Y' == c) = false := beq_eq_false_iff_ne.2 fun heq => h rfl rest (by rw [heq])
          have hyear : year.toChar.toList.isPrefixOf (shortYear.toChar.toList ++ c :: rest) = false := by
            change ('Y' == 'Y' && ('Y' == 'Y' && ('Y' == c && _))) = false
            simp [hc]
          exact List.find?_cons_of_neg (by simp [hyear])
  | _ => rfl

theorem readPatternFrom_skip (word rest : List Char) :
    readPatternFrom (.outside word.length) (word ++ rest) = readPatternFrom (.outside 0) rest := by
  induction word with
  | nil => rfl
  | cons c word ih => exact ih

theorem readPatternFrom_token (t : DateToken) {rest : List Char}
    (h : t = .shortYear → ∀ after, rest ≠ 'Y' :: after) :
    readPatternFrom (.outside 0) (t.toChar.toList ++ rest) =
      .token t :: readPatternFrom (.outside 0) rest := by
  have hword : ∃ d after, t.toChar.toList = d :: after ∧ d ≠ '"' ∧ d ≠ '\\' ∧
      t.toChar.length - 1 = after.length := by
    cases t <;> exact ⟨_, _, rfl, by decide, by decide, rfl⟩
  obtain ⟨d, after, hchars, hquote, hescape, hlength⟩ := hword
  have hfound := DateToken.inPattern?_append t h
  rw [hchars, List.cons_append] at hfound ⊢
  rw [readPatternFrom, hfound]
  · simp only [hlength, readPatternFrom_skip]
  · exact hquote
  · exact fun _ heq _ => hescape heq

/-- Between quotes, text without backslashes is read as it is: each of its quotes follows a backslash. -/
theorem readPatternFrom_escapeQuotes {text : List Char} (h : '\\' ∉ text) (rest : List Char) :
    readPatternFrom .inside (escapeQuotes text ++ rest) =
      text.map .char ++ readPatternFrom .inside rest := by
  induction text with
  | nil => rfl
  | cons c text ih =>
      rw [List.mem_cons, not_or] at h
      by_cases hc : c = '"'
      · simp [escapeQuotes, hc, readPatternFrom, ih h.2]
      · simp [escapeQuotes, hc, readPatternFrom, Ne.symm h.1, ih h.2]

/-- Outside quotes, text without letters and quotes is read as it is.  Only a quote behind it could be
taken together with a backslash at its end. -/
theorem readPatternFrom_plain {text rest : List Char} (hletters : text.any Text.isAlphabetic = false)
    (hquote : '"' ∉ text) (hrest : ∀ after, rest ≠ '"' :: after) :
    readPatternFrom (.outside 0) (text ++ rest) = text.map .char ++ readPatternFrom (.outside 0) rest := by
  induction text with
  | nil => rfl
  | cons c text ih =>
      rw [List.mem_cons, not_or] at hquote
      rw [List.any_cons, Bool.or_eq_false_iff] at hletters
      have hnext : ∀ after, text ++ rest ≠ '"' :: after := by
        intro after heq
        cases text with
        | nil => exact hrest after heq
        | cons d text => exact hquote.2 (by simp [(List.cons.inj heq).1])
      rw [List.cons_append, readPatternFrom, DateToken.inPattern?_eq_none hletters.1]
      · simp only [ih hletters.2 hquote.2, List.map_cons, List.cons_append]
      · exact Ne.symm hquote.1
      · exact fun after _ => hnext after

/-- The characters of pieces in a pattern. -/
def patternChars (ps : List Piece) : List Char := ps.flatMap fun piece => piece.toChar.toList

theorem toList_toCharPattern (template : String) :
    (toCharPattern template).toList = patternChars (pieces template) := by
  rw [toCharPattern, String.toList_join, List.flatMap_map]
  rfl

theorem Piece.toList_toChar_literal (text : List Char) :
    (Piece.literal text).toChar.toList =
      if text.any Text.isAlphabetic then '"' :: (escapeQuotes text ++ ['"']) else text := by
  rw [Piece.toChar]
  split
  · exact String.toList_ofList
  · exact String.toList_ofList

/-- Behind a text there is no quote: what follows is the word of a token. -/
theorem patternChars_ne_quote {text : List Char} {ps : List Piece}
    (h : (Piece.literal text :: ps).IsChain Piece.Precedes) (after : List Char) :
    patternChars ps ≠ '"' :: after := by
  cases ps with
  | nil => exact (List.cons_ne_nil _ _).symm
  | cons piece ps =>
      cases piece with
      | literal other => exact (List.isChain_cons_cons.1 h).1.elim
      | token t =>
          intro heq
          cases t <;> exact absurd (List.cons.inj heq).1 (by decide)

/-- Behind two letters of a year there is no third one. -/
theorem patternChars_ne_year {ps : List Piece}
    (h : (Piece.token .shortYear :: ps).IsChain Piece.Precedes) (after : List Char) :
    patternChars ps ≠ 'Y' :: after := by
  intro heq
  cases ps with
  | nil => cases heq
  | cons piece ps =>
      have hprecedes := (List.isChain_cons_cons.1 h).1
      cases piece with
      | token t =>
          cases t with
          | year => exact hprecedes.1 rfl
          | shortYear => exact hprecedes.2 rfl
          | _ => exact absurd (List.cons.inj heq).1 (by decide)
      | literal text =>
          rw [patternChars, List.flatMap_cons, Piece.toList_toChar_literal] at heq
          cases text with
          | nil => exact hprecedes rfl
          | cons c text =>
              split at heq
              · exact absurd (List.cons.inj heq).1 (by decide)
              · next hletters =>
                  rw [(List.cons.inj heq).1] at hletters
                  exact hletters (by rw [List.any_cons]; rfl)

/-- The piece is read from a pattern as it is: a text with letters holds no backslash, and one without
them no quote. -/
def Piece.Kept : Piece → Prop
  | .literal text => if text.any Text.isAlphabetic then '\\' ∉ text else '"' ∉ text
  | .token _ => True

theorem readPatternFrom_piece {piece : Piece} {ps : List Piece} (hkept : piece.Kept)
    (h : (piece :: ps).IsChain Piece.Precedes) :
    readPatternFrom (.outside 0) (patternChars (piece :: ps)) =
      piece.symbols ++ readPatternFrom (.outside 0) (patternChars ps) := by
  rw [patternChars, List.flatMap_cons]
  cases piece with
  | token t =>
      refine readPatternFrom_token t fun ht => ?_
      subst ht
      exact patternChars_ne_year h
  | literal text =>
      rw [Piece.toList_toChar_literal]
      rw [Piece.Kept] at hkept
      split at hkept
      · next hletters =>
          rw [if_pos hletters, List.cons_append, List.append_assoc]
          exact readPatternFrom_escapeQuotes hkept _
      · next hletters =>
          rw [if_neg hletters]
          exact readPatternFrom_plain (by simpa using hletters) hkept (patternChars_ne_quote h)

/-! #### Quotes and backslashes are counted -/

/-- A quote or a backslash. -/
def DateSymbol.isMark : DateSymbol → Bool
  | .char c => c == '"' || c == '\\'
  | .token _ => false

theorem DateSymbol.isMark_char {c : Char} (h : c ≠ '"') :
    (DateSymbol.char c).isMark = (c == '\\') := by
  simp [DateSymbol.isMark, h]

/-- **Every quote and every backslash that is read costs a backslash of the pattern.** -/
theorem countP_readPatternFrom (place : PatternPlace) (text : List Char) :
    (readPatternFrom place text).countP DateSymbol.isMark ≤ text.count '\\' := by
  fun_induction readPatternFrom place text with
  | case1 => exact Nat.le_refl 0
  | case2 skip c rest ih => exact ih.trans List.count_le_count_cons
  | case3 rest ih => exact ih.trans List.count_le_count_cons
  | case4 rest ih => simpa [DateSymbol.isMark] using ih
  | case5 c rest _ _ t _ ih => exact ih.trans List.count_le_count_cons
  | case6 c rest hquote _ _ ih =>
      rw [List.countP_cons, List.count_cons, DateSymbol.isMark_char hquote]
      exact Nat.add_le_add_right ih _
  | case7 rest ih => exact ih.trans List.count_le_count_cons
  | case8 c rest ih =>
      -- the backslash pays for the character behind it, whatever that is
      have hc : (if (DateSymbol.char c).isMark then 1 else 0) ≤ 1 := by split <;> omega
      rw [List.countP_cons, List.count_cons_self, List.count_cons]
      omega
  | case9 c rest hquote _ ih =>
      rw [List.countP_cons, List.count_cons, DateSymbol.isMark_char hquote]
      exact Nat.add_le_add_right ih _

theorem countP_map_char (text : List Char) :
    (text.map DateSymbol.char).countP DateSymbol.isMark = text.count '"' + text.count '\\' := by
  induction text with
  | nil => rfl
  | cons c text ih =>
      rw [List.map_cons, List.countP_cons, ih]
      by_cases hc : c = '"'
      · subst hc
        rw [List.count_cons_self, List.count_cons_of_ne (by decide), if_pos (by rfl)]
        omega
      · rw [DateSymbol.isMark_char hc, List.count_cons_of_ne hc, List.count_cons]
        omega

/-- Between quotes there is one backslash for each quote and each backslash of a text. -/
theorem count_escapeQuotes (text : List Char) :
    (escapeQuotes text).count '\\' = (text.map DateSymbol.char).countP DateSymbol.isMark := by
  rw [countP_map_char]
  induction text with
  | nil => rfl
  | cons c text ih =>
      rw [escapeQuotes]
      by_cases hc : c = '"'
      · subst hc
        rw [if_pos rfl, List.count_cons_self, List.count_cons_of_ne (by decide), ih,
          List.count_cons_self, List.count_cons_of_ne (by decide)]
        omega
      · rw [if_neg hc, List.count_cons, ih, List.count_cons_of_ne hc, List.count_cons]
        omega

/-- The pattern of a piece has no more backslashes than the piece has quotes and backslashes. -/
theorem Piece.count_toChar_le (piece : Piece) :
    piece.toChar.toList.count '\\' ≤ piece.symbols.countP DateSymbol.isMark := by
  cases piece with
  | token t => cases t <;> exact Nat.zero_le _
  | literal text =>
      rw [Piece.toList_toChar_literal, Piece.symbols]
      split
      · rw [List.count_cons, List.count_append, count_escapeQuotes]
        exact Nat.le_refl _
      · rw [countP_map_char]
        exact Nat.le_add_left _ _

theorem count_patternChars_le (ps : List Piece) :
    (patternChars ps).count '\\' ≤ (ps.flatMap Piece.symbols).countP DateSymbol.isMark := by
  induction ps with
  | nil => exact Nat.le_refl 0
  | cons piece ps ih =>
      rw [patternChars, List.flatMap_cons, List.flatMap_cons, List.count_append, List.countP_append]
      exact Nat.add_le_add piece.count_toChar_le ih

/-- **A quote in a text without letters is lost**: no backslash pays for it. -/
theorem readPatternFrom_ne_of_quote {text : List Char} {ps : List Piece} (h : '"' ∈ text) :
    readPatternFrom (.outside 0) (text ++ patternChars ps) ≠
      text.map .char ++ ps.flatMap Piece.symbols := by
  intro heq
  have hread := countP_readPatternFrom (.outside 0) (text ++ patternChars ps)
  have hrest := count_patternChars_le ps
  have hquote := List.count_pos_iff.2 h
  rw [heq, List.countP_append, countP_map_char, List.count_append] at hread
  omega

theorem escapeQuotes_append (a b : List Char) :
    escapeQuotes (a ++ b) = escapeQuotes a ++ escapeQuotes b := by
  induction a with
  | nil => rfl
  | cons c a ih => by_cases hc : c = '"' <;> simp [escapeQuotes, hc, ih]

/-- **A backslash in quoted text is lost.**  It takes the next character along, which would have to be
another backslash; but then nothing pays for one of the two. -/
theorem readPatternFrom_ne_of_backslash {text : List Char} {ps : List Piece} (h : '\\' ∈ text) :
    readPatternFrom .inside (escapeQuotes text ++ '"' :: patternChars ps) ≠
      text.map .char ++ ps.flatMap Piece.symbols := by
  obtain ⟨before, behind, rfl, hbefore⟩ := List.eq_append_cons_of_mem h
  obtain ⟨c, rest, hrest⟩ : ∃ c rest, escapeQuotes behind ++ '"' :: patternChars ps = c :: rest :=
    List.exists_cons_of_ne_nil (by simp)
  have hescape : escapeQuotes ('\\' :: behind) = '\\' :: escapeQuotes behind := rfl
  rw [escapeQuotes_append, hescape, List.append_assoc, List.cons_append, hrest,
    readPatternFrom_escapeQuotes hbefore, readPatternFrom, List.map_append, List.append_assoc,
    List.map_cons, List.cons_append]
  intro heq
  obtain ⟨hc, hread⟩ := List.cons.inj (List.append_cancel_left heq)
  have hcost := countP_readPatternFrom .inside rest
  have hpaid := congrArg (List.count '\\') hrest
  have hps := count_patternChars_le ps
  rw [hread, List.countP_append] at hcost
  rw [DateSymbol.char.inj hc, List.count_append, count_escapeQuotes, List.count_cons_self,
    List.count_cons_of_ne (by decide)] at hpaid
  omega

/-- **A piece that is not kept is lost**, whatever stands behind it. -/
theorem readPatternFrom_ne {piece : Piece} {ps : List Piece} (h : ¬piece.Kept) :
    readPatternFrom (.outside 0) (patternChars (piece :: ps)) ≠ (piece :: ps).flatMap Piece.symbols := by
  cases piece with
  | token t => exact absurd trivial h
  | literal text =>
      rw [patternChars, List.flatMap_cons, List.flatMap_cons, Piece.toList_toChar_literal]
      rw [Piece.Kept] at h
      split at h
      · next hletters =>
          rw [if_pos hletters, List.cons_append, List.append_assoc]
          exact readPatternFrom_ne_of_backslash (not_not.1 h)
      · next hletters =>
          rw [if_neg hletters]
          exact readPatternFrom_ne_of_quote (not_not.1 h)

/-- Pieces are read from their pattern exactly when each of them is kept. -/
theorem readPatternFrom_patternChars_iff {ps : List Piece} (h : ps.IsChain Piece.Precedes) :
    readPatternFrom (.outside 0) (patternChars ps) = ps.flatMap Piece.symbols ↔
      ∀ piece ∈ ps, piece.Kept := by
  induction ps with
  | nil => simp [patternChars, readPatternFrom]
  | cons piece ps ih =>
      rw [List.forall_mem_cons]
      by_cases hkept : piece.Kept
      · rw [readPatternFrom_piece hkept h, List.flatMap_cons, List.append_cancel_left_eq,
          ih (List.isChain_cons.1 h).2]
        simp only [hkept, true_and]
      · exact iff_of_false (readPatternFrom_ne hkept) fun hall => hkept hall.1

/-- **Which templates a pattern keeps.**  Read by its own rule, the pattern of a template shows the tokens
of the template with the text between them exactly when no text with letters holds a backslash and no text
without letters holds a quote. -/
theorem readPattern_toCharPattern_iff (template : String) :
    readPattern (toCharPattern template) = templateSymbols template ↔
      ∀ text, .literal text ∈ pieces template →
        if text.any Text.isAlphabetic then '\\' ∉ text else '"' ∉ text := by
  rw [readPattern, toList_toCharPattern, templateSymbols,
    readPatternFrom_patternChars_iff (isChain_pieces template)]
  constructor
  · exact fun h text htext => h (.literal text) htext
  · intro h piece hpiece
    cases piece with
    | literal text => exact h text hpiece
    | token t => trivial

/-- A year between quotes is no year in the pattern. -/
theorem readPattern_quoted_year :
    readPattern (toCharPattern "\"YYYY\"") = [.char 'Y', .char 'Y', .char 'Y', .char 'Y'] ∧
      templateSymbols "\"YYYY\"" = [.char '"', .token .year, .char '"'] := by
  constructor
  · decide +kernel
  · rfl

example : readPattern (toCharPattern "at\\h") = [.char 'a', .char 't', .char 'h'] := rfl

end ComputedFields
