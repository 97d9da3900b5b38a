/-
**The words of a printed formula.**

The text of a formula is put together from words, with blanks where two operands meet and none where a
parenthesis or a comma already parts them.  This module says which words these are, and that the scanner
finds them again.

The scanner takes numbers and names as far as they go, so what follows a word matters.  In a printed
formula that is a blank, a comma, a parenthesis or the end, and none of these can be taken into a number
or a name.  An operator in front of its operand is followed by the first character of the operand, and
this is never the sign that would turn `!` into another operator.

Main definitions:

* `ComputedFields.Cut` — a source cut into words;
* `ComputedFields.IsWord` — a word that the scanner finds whatever follows it;
* `ComputedFields.Formula.words` — the words of a formula;
* `ComputedFields.Formula.Spellable` — what numbers, names, references and strings are made of, so that
  they can be printed.

Main results:

* `ComputedFields.cut_iff_scan` — a source is scanned into words exactly when it can be cut into them;
* `ComputedFields.Cut.append_blank` — **a blank parts two texts**;
* `ComputedFields.Formula.Spellable.cut` — **the text of a formula is cut into its words**.
-/

import ComputedFields.Proofs.WordForms

set_option relaxedAutoImplicit false
set_option autoImplicit false

namespace ComputedFields

/-! ### Sources that are cut into words -/

/-- A kind and a text. -/
abbrev Word := TokenKind × List Char

/-- The word of a token. -/
def Token.word (token : Token) : Word := (token.kind, token.text)

/-- The source is made of the words, with blanks between them. -/
inductive Cut : List Char → List Word → Prop where
  | done : Cut [] []
  | blank {c : Char} {rest : List Char} {words : List Word} :
      Text.isSeparator c = true → Cut rest words → Cut (c :: rest) words
  | word {c : Char} {rest : List Char} {l : Lexeme} {words : List Word} :
      Text.isSeparator c = false → lexeme c rest = .ok l → Cut l.rest words →
      Cut (c :: rest) ((l.kind, l.text) :: words)

/-- A lexeme takes at least one character of the source. -/
theorem length_rest_of_lexeme {c : Char} {rest : List Char} {l : Lexeme} (h : lexeme c rest = .ok l) :
    l.rest.length ≤ rest.length := by
  have hlength := congrArg List.length (text_append_rest_of_lexeme h)
  have htext := List.length_pos_of_ne_nil (text_ne_nil_of_lexeme h)
  simp only [List.length_append, List.length_cons] at hlength
  omega

theorem Cut.scanFrom {source : List Char} {words : List Word} (h : Cut source words) {fuel : Nat}
    (hfuel : source.length < fuel) (offset : Nat) :
    (scanFrom fuel offset source).fault = none ∧
      (scanFrom fuel offset source).tokens.map Token.word = words := by
  induction h generalizing fuel offset with
  | done =>
      obtain ⟨fuel, rfl⟩ := Nat.exists_eq_add_of_lt hfuel
      exact ⟨rfl, rfl⟩
  | @blank c rest words hblank _ ih =>
      cases fuel with
      | zero => simp at hfuel
      | succ fuel =>
          rw [ComputedFields.scanFrom, if_pos hblank]
          exact ih (by simpa using hfuel) _
  | @word c rest l words hblank hlexeme _ ih =>
      cases fuel with
      | zero => simp at hfuel
      | succ fuel =>
          have hrest : l.rest.length < fuel := by
            have hlength := length_rest_of_lexeme hlexeme
            rw [List.length_cons] at hfuel
            omega
          obtain ⟨hfault, hwords⟩ := ih hrest (offset + byteSize l.text)
          rw [ComputedFields.scanFrom, if_neg (by simp [hblank]), hlexeme]
          exact ⟨hfault, by simp [hwords, Token.word]⟩

/-- **A source that can be cut into words is scanned into them.** -/
theorem Cut.scan {source : List Char} {words : List Word} (h : Cut source words) :
    (scan source).fault = none ∧ (scan source).tokens.map Token.word = words :=
  h.scanFrom (Nat.lt_succ_self _) 0

/-- A source without a fault is cut into the words of its tokens. -/
theorem cut_of_scanFrom {fuel offset : Nat} {source : List Char} (hfuel : source.length < fuel)
    (h : (scanFrom fuel offset source).fault = none) :
    Cut source ((scanFrom fuel offset source).tokens.map Token.word) := by
  induction fuel generalizing offset source with
  | zero => cases hfuel
  | succ fuel ih =>
      cases source with
      | nil => exact .done
      | cons c rest =>
          rw [List.length_cons] at hfuel
          rw [scanFrom] at h ⊢
          split at h
          · next hblank =>
              rw [if_pos hblank]
              exact .blank hblank (ih (by omega) h)
          · next hblank =>
              rw [if_neg hblank]
              split at h
              · cases h
              · next l hlexeme =>
                  have hrest := length_rest_of_lexeme hlexeme
                  exact .word (by simpa using hblank) hlexeme (ih (by omega) h)

/-- **A source is scanned into words exactly when it can be cut into them.** -/
theorem cut_iff_scan {source : List Char} {words : List Word} :
    Cut source words ↔ (scan source).fault = none ∧ (scan source).tokens.map Token.word = words := by
  constructor
  · exact Cut.scan
  · rintro ⟨hfault, rfl⟩
    exact cut_of_scanFrom (Nat.lt_succ_self _) hfault

/-! ### Words -/

/-- What follows a word in a printed formula: a blank, a comma or a parenthesis, if anything. -/
def Ends (rest : List Char) : Prop := ∀ c ∈ rest.head?, c ∈ [' ', ',', '(', ')']

theorem Ends.nil : Ends [] := nofun

theorem Ends.cons {c : Char} {rest : List Char} (h : c ∈ [' ', ',', '(', ')']) : Ends (c :: rest) := by
  rintro _ ⟨⟩
  exact h

/-- A class of characters without these ends there. -/
theorem Ends.takeWhile {rest : List Char} (h : Ends rest) {p : Char → Bool}
    (hp : [' ', ',', '(', ')'].all (fun c => !p c) = true) :
    rest.takeWhile p = [] ∧ rest.dropWhile p = rest := by
  cases rest with
  | nil => exact ⟨rfl, rfl⟩
  | cons c rest =>
      have hc : p c = false := by simpa using List.all_eq_true.1 hp c (h c rfl)
      exact ⟨by simp [hc], by simp [hc]⟩

/-- The scanner finds the word, whatever follows it in a printed formula. -/
def IsWord (word : Word) : Prop :=
  ∀ rest, Ends rest → ∃ c text, word.2 = c :: text ∧ Text.isSeparator c = false ∧
    lexeme c (text ++ rest) = .ok ⟨word.1, word.2, rest⟩

theorem IsWord.cut {word : Word} (h : IsWord word) {rest : List Char} {words : List Word}
    (hends : Ends rest) (hcut : Cut rest words) : Cut (word.2 ++ rest) (word :: words) := by
  obtain ⟨c, text, htext, hblank, hlexeme⟩ := h rest hends
  rw [htext, List.cons_append]
  exact .word hblank hlexeme hcut

/-- The characters at which neither a word nor a number begins. -/
def specials : List Char :=
  ['(', ')', ',', '/', '*', '%', '+', '-', '&', '|', '=', '!', '<', '>', '"', '\'', '\x7b']

theorem operator?_eq_none {c : Char} (h : c ∉ specials) (rest : List Char) :
    operator? (c :: rest) = none := by
  unfold operator?
  split <;> first | rfl | next heq => cases heq; exact absurd (by decide) h

/-- Away from these characters there are words and numbers only. -/
theorem lexeme_of_notMem {c : Char} (h : c ∉ specials) (rest : List Char) :
    lexeme c rest =
      if isWordStart c then
        .ok ⟨wordKind (c :: rest.takeWhile isWordChar), c :: rest.takeWhile isWordChar,
          rest.dropWhile isWordChar⟩
      else if c.isDigit || c = '.' then
        .ok ⟨.number, (splitNumber (c :: rest)).1, (splitNumber (c :: rest)).2⟩
      else .error .unexpectedCharacter := by
  have hquote : c ≠ '"' := fun heq => h (by simp [specials, heq])
  have happ : c ≠ '\'' := fun heq => h (by simp [specials, heq])
  have hbrace : c ≠ '\x7b' := fun heq => h (by simp [specials, heq])
  unfold lexeme
  rw [operator?_eq_none h]
  simp only [if_neg hquote, if_neg happ, if_neg hbrace]

/-- A class of characters without any of some others. -/
theorem notMem_of_class {p : Char → Bool} {c : Char} (hc : p c = true) {cs : List Char}
    (hcs : cs.all (fun d => !p d) = true) : c ∉ cs := by
  intro hmem
  have hnot := List.all_eq_true.1 hcs c hmem
  rw [hc] at hnot
  cases hnot

theorem isSeparator_eq_false {c : Char} (h : c ∉ [' ', '\t', '\n', '\x0c', '\r']) :
    Text.isSeparator c = false := by
  simp only [List.mem_cons, List.not_mem_nil, or_false, not_or] at h
  simp [Text.isSeparator, h]

/-- The digits come before all letters. -/
theorem isWordStart_of_isDigit {c : Char} (h : c.isDigit = true) : isWordStart c = false := by
  have hnine : c.val ≤ '9'.val := of_decide_eq_true (Bool.and_eq_true_iff.1 h).2
  have hbefore {letter : Char} (hletter : '9'.val < letter.val) : ¬c.val ≥ letter.val :=
    UInt32.not_le.2 (UInt32.lt_of_le_of_lt hnine hletter)
  have hupper : c.isUpper = false :=
    decide_eq_false fun hrange => hbefore (by decide : '9'.val < 'A'.val) hrange.1
  have hlower : c.isLower = false :=
    Bool.and_eq_false_iff.2 (Or.inl (decide_eq_false (hbefore (by decide : '9'.val < 'a'.val))))
  have hunderscore : c ≠ '_' := by
    rintro rfl
    cases h
  change (c.isUpper || c.isLower || decide (c = '_')) = false
  rw [hupper, hlower, decide_eq_false hunderscore]
  rfl

theorem isWord_of_isWordStart {c : Char} {text : List Char} (hstart : isWordStart c = true)
    (hrest : text.all isWordChar = true) : IsWord (wordKind (c :: text), c :: text) := by
  intro rest hends
  obtain ⟨htake, hdrop⟩ := hends.takeWhile (p := isWordChar) (by decide)
  have hall : ∀ d ∈ text, isWordChar d = true := List.all_eq_true.1 hrest
  refine ⟨c, text, rfl, isSeparator_eq_false (notMem_of_class hstart (by decide)), ?_⟩
  rw [lexeme_of_notMem (notMem_of_class hstart (by decide)), if_pos hstart,
    List.takeWhile_append_of_pos hall, List.dropWhile_append_of_pos hall, htake, hdrop,
    List.append_nil]

theorem isWord_name {text : List Char} (h : isName text = true) : IsWord (.identifier, text) := by
  cases text with
  | nil => cases h
  | cons c text =>
      simp only [isName, Bool.and_eq_true, decide_eq_true_eq] at h
      have hword := isWord_of_isWordStart h.1.1 h.1.2
      rwa [h.2] at hword

theorem splitNumber_append {text : List Char} (h : IsNumber text) {rest : List Char}
    (hends : Ends rest) : splitNumber (text ++ rest) = (text, rest) := by
  obtain ⟨htake, hdrop⟩ := hends.takeWhile (p := Char.isDigit) (by decide)
  have hpoint : ∀ after, rest ≠ '.' :: after := by
    rintro after rfl
    exact absurd (hends '.' rfl) (by decide)
  cases h with
  | whole hdigits =>
      unfold splitNumber
      rw [List.takeWhile_append_of_pos hdigits, List.dropWhile_append_of_pos hdigits, htake, hdrop,
        List.append_nil]
      split
      · next after => exact absurd rfl (hpoint after)
      · rfl
  | @point digits fraction hdigits hfraction =>
      unfold splitNumber
      rw [List.append_assoc, List.takeWhile_append_of_pos hdigits,
        List.dropWhile_append_of_pos hdigits]
      simp [List.takeWhile_append_of_pos hfraction, List.dropWhile_append_of_pos hfraction, htake,
        hdrop]

/-- A number begins with a digit or with its point. -/
theorem IsNumber.head {c : Char} {text : List Char} (h : IsNumber (c :: text)) :
    (c.isDigit || c = '.') = true := by
  generalize htext : c :: text = whole at h
  cases h with
  | whole hdigits =>
      subst htext
      simp [hdigits c List.mem_cons_self]
  | @point digits fraction hdigits hfraction =>
      cases digits with
      | nil =>
          cases htext
          simp
      | cons d digits =>
          cases htext
          simp [hdigits c List.mem_cons_self]

theorem isWord_number {text : List Char} (hne : text ≠ []) (h : IsNumber text) :
    IsWord (.number, text) := by
  intro rest hends
  cases text with
  | nil => exact absurd rfl hne
  | cons c text =>
      have hhead := h.head
      -- digits and points are neither special, nor blanks, nor the beginnings of words
      have hclass {cs : List Char} (hcs : cs.all (fun d => !(d.isDigit || d = '.')) = true) : c ∉ cs :=
        notMem_of_class (p := fun d => d.isDigit || d = '.') hhead hcs
      have hstart : isWordStart c = false := by
        rcases Bool.or_eq_true_iff.1 hhead with hdigit | hdot
        · exact isWordStart_of_isDigit hdigit
        · rw [of_decide_eq_true hdot]
          decide
      refine ⟨c, text, rfl, isSeparator_eq_false (hclass (by decide)), ?_⟩
      rw [lexeme_of_notMem (hclass (by decide)), hstart, if_neg (by simp), if_pos hhead,
        ← List.cons_append, splitNumber_append h hends]

theorem splitBrace_append {id : List Char} (h : '\x7d' ∉ id) (rest : List Char) :
    splitBrace (id ++ '\x7d' :: rest) = some (id ++ ['\x7d'], rest) := by
  induction id with
  | nil => simp [splitBrace]
  | cons c id ih =>
      rw [List.mem_cons, not_or] at h
      simp [splitBrace, Ne.symm h.1, ih h.2]

theorem isWord_field {id : List Char} (h : '\x7d' ∉ id) :
    IsWord (.fieldRef, '\x7b' :: (id ++ ['\x7d'])) := by
  intro rest _
  refine ⟨'\x7b', id ++ ['\x7d'], rfl, by decide, ?_⟩
  have hsplit : splitBrace (id ++ ['\x7d'] ++ rest) = some (id ++ ['\x7d'], rest) := by
    rw [List.append_assoc]
    exact splitBrace_append h rest
  have hop : operator? ('\x7b' :: (id ++ ['\x7d'] ++ rest)) = none := rfl
  unfold lexeme
  rw [hop, hsplit]
  simp

theorem isWord_quoted {text : List Char} (h : ∀ c ∈ text, QuotedPiece '"' (Text.spell c)) :
    IsWord (.doubleQuoted, '"' :: (text.flatMap Text.spell ++ ['"'])) := by
  intro rest _
  refine ⟨'"', text.flatMap Text.spell ++ ['"'], rfl, by decide, ?_⟩
  have hlexeme : ∀ source, lexeme '"' source = stringLexeme .doubleQuoted '"' source :=
    Quote.lexeme_mark .double
  rw [List.append_assoc, hlexeme, stringLexeme, List.singleton_append,
    splitString_flatMap (by decide) h]

/-! ### A blank between two texts -/

theorem takeWhile_append_cons {p : Char → Bool} {c : Char} (h : p c = false) (text behind : List Char) :
    (text ++ c :: behind).takeWhile p = text.takeWhile p ∧
      (text ++ c :: behind).dropWhile p = text.dropWhile p ++ c :: behind := by
  induction text with
  | nil => simp [h]
  | cons d text ih =>
      cases hd : p d with
      | true => simp [hd, ih]
      | false => simp [hd]

theorem splitString_append {quote : Char} (hquote : quote ≠ '\\') {source : List Char}
    {split : List Char × List Char} (h : splitString quote source = some split) (behind : List Char) :
    splitString quote (source ++ behind) = some (split.1, split.2 ++ behind) := by
  fun_induction splitString quote source generalizing split with
  | case1 => cases h
  | case2 escaped rest ih =>
      obtain ⟨inner, hinner, rfl⟩ := Option.map_eq_some_iff.1 h
      simp [splitString, ih hinner]
  | case3 rest hescape =>
      cases h
      rw [List.cons_append, splitString, if_pos rfl]
      intro escaped after heq
      exact absurd heq hquote
  | case4 c rest hescape hc ih =>
      obtain ⟨inner, hinner, rfl⟩ := Option.map_eq_some_iff.1 h
      rw [List.cons_append, splitString, if_neg hc, ih hinner]
      · rfl
      -- a backslash at the end of the text leaves the string open
      · intro escaped after heq _
        cases rest with
        | nil => cases hinner
        | cons d rest => exact hescape d rest heq rfl

theorem splitBrace_append_right {source : List Char} {split : List Char × List Char}
    (h : splitBrace source = some split) (behind : List Char) :
    splitBrace (source ++ behind) = some (split.1, split.2 ++ behind) := by
  fun_induction splitBrace source generalizing split with
  | case1 => cases h
  | case2 rest =>
      cases h
      simp [splitBrace]
  | case3 c rest hc ih =>
      obtain ⟨inner, hinner, rfl⟩ := Option.map_eq_some_iff.1 h
      simp [splitBrace, hc, ih hinner]

theorem splitNumber_append_blank (source behind : List Char) :
    splitNumber (source ++ ' ' :: behind) =
      ((splitNumber source).1, (splitNumber source).2 ++ ' ' :: behind) := by
  have hdigit : ∀ text, _ := fun text => takeWhile_append_cons (p := Char.isDigit) (c := ' ') rfl text behind
  unfold splitNumber
  rw [(hdigit source).1, (hdigit source).2]
  cases hrest : source.dropWhile Char.isDigit with
  | nil => rfl
  | cons c rest =>
      by_cases hc : c = '.'
      · subst hc
        simp [hdigit rest]
      · simp [hc]

theorem operator?_append_blank {source : List Char} {word : Word} (h : operator? source = some word)
    (behind : List Char) : operator? (source ++ ' ' :: behind) = some word := by
  have hstart : ∀ {tail : List Char} {c : Char}, c ≠ ' ' → (∀ rest, tail = c :: rest → False) →
      ∀ rest, tail ++ ' ' :: behind = c :: rest → False := by
    intro tail c hc htail rest heq
    cases tail with
    | nil => exact hc (List.cons.inj heq).1.symm
    | cons d tail => exact htail tail (by rw [(List.cons.inj heq).1])
  unfold operator? at h
  split at h
  -- the operators that one more sign would make another one
  case h_10 | h_13 | h_15 | h_18 | h_20 =>
    cases h
    rw [List.cons_append, operator?] <;> exact hstart (by decide) (by assumption)
  all_goals
    cases h
  all_goals rfl

/-- **A lexeme in front of a blank stays as it is.** -/
theorem lexeme_append_blank {c : Char} {rest : List Char} {l : Lexeme} (h : lexeme c rest = .ok l)
    (behind : List Char) :
    lexeme c (rest ++ ' ' :: behind) = .ok { l with rest := l.rest ++ ' ' :: behind } := by
  cases lexes_of_lexeme h with
  | @operator _ _ kind text hop =>
      have hop' := operator?_append_blank hop behind
      have hlength : text.length ≤ (c :: rest).length := by
        have htext := congrArg List.length (operator?_eq_some hop).1
        rw [List.length_append] at htext
        omega
      rw [List.cons_append] at hop'
      unfold lexeme
      rw [hop', ← List.cons_append]
      simp only [List.drop_append_of_le_length hlength]
  | string q hsplit =>
      rw [q.lexeme_mark, stringLexeme, splitString_append q.mark_ne_backslash hsplit]
  | field hsplit =>
      have hop : operator? ('\x7b' :: (rest ++ ' ' :: behind)) = none := rfl
      unfold lexeme
      rw [hop, splitBrace_append_right hsplit]
      simp
  | word hstart =>
      obtain ⟨htake, hdrop⟩ := takeWhile_append_cons (p := isWordChar) (c := ' ') (by decide) rest behind
      rw [lexeme_of_notMem (notMem_of_class hstart (by decide)), if_pos hstart, htake, hdrop]
  | number hstart hnumber =>
      have hspecial : c ∉ specials :=
        notMem_of_class (p := fun d => d.isDigit || d = '.') hnumber (by decide)
      rw [lexeme_of_notMem hspecial, hstart, if_neg (by simp), if_pos hnumber, ← List.cons_append,
        splitNumber_append_blank]

/-- **A blank parts two texts**: the words of both are the words of the whole. -/
theorem Cut.append_blank {text behind : List Char} {words others : List Word} (h : Cut text words)
    (hbehind : Cut behind others) : Cut (text ++ ' ' :: behind) (words ++ others) := by
  induction h with
  | done => exact .blank (by decide) hbehind
  | blank hblank _ ih => exact .blank hblank ih
  | @word c rest l words hblank hlexeme _ ih =>
      exact .word (l := { l with rest := l.rest ++ ' ' :: behind }) hblank
        (lexeme_append_blank hlexeme behind) ih

/-! ### Operators -/

/-- The kind of the token of an operator between two operands. -/
def BinaryOp.tokenKind : BinaryOp → TokenKind
  | .add => .plus
  | .sub => .minus
  | .mul => .asterisk
  | .div => .slash
  | .mod => .percent
  | .concat => .ampersand
  | .eq => .equals
  | .ne => .notEquals
  | .lt => .less
  | .le => .lessEqual
  | .gt => .greater
  | .ge => .greaterEqual
  | .and => .and
  | .or => .or

/-- The kind of the token of an operator before its operand. -/
def UnaryOp.tokenKind : UnaryOp → TokenKind
  | .not => .bang
  | .neg => .minus

/-- The word of an operator. -/
def BinaryOp.word (op : BinaryOp) : Word := (op.tokenKind, op.symbol.toList)

/-- The word of an operator. -/
def UnaryOp.word (op : UnaryOp) : Word := (op.tokenKind, op.symbol.toList)

theorem BinaryOp.ofToken?_tokenKind (op : BinaryOp) : BinaryOp.ofToken? op.tokenKind = some op := by
  cases op <;> rfl

/-- The character behind an operator is not one that continues it. -/
theorem BinaryOp.operator?_symbol (op : BinaryOp) {rest : List Char} (h : Ends rest) :
    operator? (op.symbol.toList ++ rest) = some op.word := by
  cases rest with
  | nil => cases op <;> rfl
  | cons c rest =>
      have hc := h c rfl
      simp only [List.mem_cons, List.not_mem_nil, or_false] at hc
      rcases hc with rfl | rfl | rfl | rfl <;> cases op <;> rfl

theorem BinaryOp.isWord (op : BinaryOp) : IsWord op.word := by
  intro rest hends
  have hop := op.operator?_symbol hends
  obtain ⟨c, text, htext, hblank⟩ : ∃ c text, op.symbol.toList = c :: text ∧
      Text.isSeparator c = false := by
    cases op <;> exact ⟨_, _, rfl, by decide⟩
  refine ⟨c, text, htext, hblank, ?_⟩
  rw [htext, List.cons_append] at hop
  unfold lexeme
  rw [hop]
  simp [BinaryOp.word, htext]

/-- An operator before its operand is found unless an equals sign follows. -/
theorem UnaryOp.cut (op : UnaryOp) {c : Char} {rest : List Char} {words : List Word} (hc : c ≠ '=')
    (h : Cut (c :: rest) words) : Cut (op.symbol.toList ++ c :: rest) (op.word :: words) := by
  cases op with
  | neg => exact .word (l := ⟨.minus, ['-'], c :: rest⟩) (by decide) rfl h
  | not =>
      have hbang : lexeme '!' (c :: rest) = .ok ⟨.bang, ['!'], c :: rest⟩ := by
        simp [lexeme, operator?, hc]
      exact .word (by decide) hbang h

/-! ### The words of a formula -/

/-- An opening parenthesis. -/
def parenLeft : Word := (.parenLeft, ['('])

/-- A closing parenthesis. -/
def parenRight : Word := (.parenRight, [')'])

/-- A comma. -/
def comma : Word := (.comma, [','])

section punctuation

variable {rest : List Char} {words : List Word}

theorem Cut.parenLeft (h : Cut rest words) : Cut ('(' :: rest) (ComputedFields.parenLeft :: words) :=
  .word (l := ⟨.parenLeft, ['('], rest⟩) (by decide) rfl h

theorem Cut.parenRight (h : Cut rest words) : Cut (')' :: rest) (ComputedFields.parenRight :: words) :=
  .word (l := ⟨.parenRight, [')'], rest⟩) (by decide) rfl h

theorem Cut.comma (h : Cut rest words) : Cut (',' :: rest) (ComputedFields.comma :: words) :=
  .word (l := ⟨.comma, [','], rest⟩) (by decide) rfl h

end punctuation

namespace Formula

mutual

/-- The words of the text of a formula. -/
def words : Formula → List Word
  | .bool true => [(.true, "TRUE".toList)]
  | .bool false => [(.false, "FALSE".toList)]
  | .number spelling => [(.number, spelling.toList)]
  | .text value => [(.doubleQuoted, '"' :: (value.toList.flatMap Text.spell ++ ['"']))]
  | .null => [(.null, "NULL".toList)]
  | .field id => [(.fieldRef, '\x7b' :: (id.toList ++ ['\x7d']))]
  | .call callee args =>
      (.identifier, callee.name.toList) :: parenLeft :: ((wordsAfter comma args).tail ++ [parenRight])
  | .binary left op right =>
      parenLeft :: (left.words ++ op.word :: (right.words ++ [parenRight]))
  | .unary op operand => parenLeft :: op.word :: (operand.words ++ [parenRight])
  | .chain op operands => parenLeft :: ((wordsAfter op.word operands).tail ++ [parenRight])

/-- The words of formulas, with a separator before each of them. -/
def wordsAfter (separator : Word) : List Formula → List Word
  | [] => []
  | f :: rest => separator :: (f.words ++ wordsAfter separator rest)

end

/-- What the literals, references and names of a formula must be made of, so that the words of its text
can be told apart again. -/
inductive Spellable : Formula → Prop where
  | bool (value : Bool) : Spellable (.bool value)
  | null : Spellable .null
  | number {spelling : String} : spelling.toList ≠ [] → IsNumber spelling.toList →
      Spellable (.number spelling)
  | text {value : String} : (∀ c ∈ value.toList, SpelledBy '"' Text.spell c) → Spellable (.text value)
  | field {id : String} : '\x7d' ∉ id.toList → Text.trimChars id.toList = id.toList →
      Spellable (.field id)
  | call {callee : Callee} {args : List Formula} : isName callee.name.toList = true →
      Callee.ofName callee.name = callee → (∀ arg ∈ args, Spellable arg) →
      Spellable (.call callee args)
  | unary {op : UnaryOp} {operand : Formula} : Spellable operand → Spellable (.unary op operand)
  | binary {left right : Formula} {op : BinaryOp} : Spellable left → Spellable right →
      Spellable (.binary left op right)
  | chain {op : BinaryOp} {operands : List Formula} : op.isChained = true → 2 < operands.length →
      (∀ operand ∈ operands, Spellable operand) → Spellable (.chain op operands)

/-- The text begins with a character, and it is no equals sign. -/
theorem Spellable.head {f : Formula} (h : f.Spellable) :
    ∃ c text, f.render.toList = c :: text ∧ c ≠ '=' := by
  cases h with
  | bool value => cases value <;> exact ⟨_, _, rfl, by decide⟩
  | null => exact ⟨_, _, rfl, by decide⟩
  | @number spelling hne hnumber =>
      cases htext : spelling.toList with
      | nil => exact absurd htext hne
      | cons c text =>
          rw [htext] at hnumber
          refine ⟨c, text, by rw [render, htext], ?_⟩
          rintro rfl
          exact absurd hnumber.head (by decide)
  | text => exact ⟨'"', _, by rw [render, Text.quoted, String.toList_ofList]; rfl, by decide⟩
  | @field id => exact ⟨'\x7b', id.toList ++ ['\x7d'], by simp [render], by decide⟩
  | @call callee args hname =>
      cases htext : callee.name.toList with
      | nil =>
          rw [htext] at hname
          cases hname
      | cons c text =>
          refine ⟨c, _, by simp [render, htext]; rfl, ?_⟩
          rintro rfl
          rw [htext] at hname
          simp [isName, show isWordStart '=' = false by decide] at hname
  | unary => exact ⟨'(', _, by simp [render]; rfl, by decide⟩
  | binary => exact ⟨'(', _, by simp [render]; rfl, by decide⟩
  | chain => exact ⟨'(', _, by simp [render]; rfl, by decide⟩

/-! ### The text of a formula is cut into its words -/

/-- The text is cut into the words, in front of whatever follows it in a printed formula. -/
def Cuts (f : Formula) : Prop :=
  ∀ {rest : List Char} {following : List Word}, Ends rest → Cut rest following →
    Cut (f.render.toList ++ rest) (f.words ++ following)

/-- A separator between formulas keeps them apart. -/
structure Separates (separator : String) (word : Word) : Prop where
  ends : ∀ rest, Ends (separator.toList ++ rest)
  cut : ∀ {rest : List Char} {words : List Word}, Cut rest words →
    Cut (separator.toList ++ rest) (word :: words)

theorem separates_comma : Separates ", " comma where
  ends _ := .cons (by decide)
  cut h := .comma (.blank (by decide) h)

theorem separates_op (op : BinaryOp) : Separates (" " ++ op.symbol ++ " ") op.word where
  ends rest := by
    simp only [String.toList_append, List.append_assoc]
    exact .cons (by decide)
  cut h := by
    simp only [String.toList_append, List.append_assoc]
    exact .blank (by decide) (op.isWord.cut (.cons (by decide)) (.blank (by decide) h))

/-- Formulas with separators between them are cut into their words. -/
theorem Separates.cut_intercalate {separator : String} {word : Word} (h : Separates separator word)
    {f : Formula} {others : List Formula} (hall : ∀ g ∈ f :: others, Cuts g) {rest : List Char}
    {following : List Word} (hends : Ends rest) (hcut : Cut rest following) :
    Cut ((separator.intercalate (renderAll (f :: others))).toList ++ rest)
      (f.words ++ (wordsAfter word others ++ following)) := by
  induction others generalizing f with
  | nil =>
      rw [renderAll, renderAll, String.intercalate_singleton]
      exact hall f (by simp) hends hcut
  | cons g others ih =>
      rw [List.forall_mem_cons] at hall
      have hothers := h.cut (ih hall.2)
      rw [renderAll, renderAll, String.intercalate_cons_cons, ← renderAll]
      simp only [String.toList_append, List.append_assoc, wordsAfter, List.cons_append]
      exact hall.1 (h.ends _) hothers

/-- **The text of a formula is cut into its words.** -/
theorem Spellable.cuts {f : Formula} (h : f.Spellable) : Cuts f := by
  induction h with
  | bool value =>
      intro rest following hends hcut
      cases value with
      | true => exact (isWord_of_isWordStart (by decide) (by decide)).cut hends hcut
      | false => exact (isWord_of_isWordStart (by decide) (by decide)).cut hends hcut
  | null =>
      intro rest following hends hcut
      exact (isWord_of_isWordStart (by decide) (by decide)).cut hends hcut
  | number hne hnumber =>
      intro rest following hends hcut
      rw [render, words]
      exact (isWord_number hne hnumber).cut hends hcut
  | text hspelled =>
      intro rest following hends hcut
      rw [render, words, Text.quoted, String.toList_ofList]
      exact (isWord_quoted fun c hc => (hspelled c hc).piece).cut hends hcut
  | @field id hbrace htrim =>
      intro rest following hends hcut
      have hrender : (render (.field id)).toList = '\x7b' :: (id.toList ++ ['\x7d']) := by
        simp [render]
      rw [hrender]
      exact (isWord_field hbrace).cut hends hcut
  | @call callee args hname hcallee hargs ih =>
      intro rest following hends hcut
      have hclose := hcut.parenRight
      rw [render, words]
      simp only [String.toList_append, List.append_assoc, List.cons_append]
      refine (isWord_name hname).cut (.cons (by decide)) (.parenLeft ?_)
      cases args with
      | nil => exact hclose
      | cons arg args =>
          rw [wordsAfter, List.tail_cons, List.append_assoc]
          exact separates_comma.cut_intercalate ih (.cons (by decide)) hclose
  | @unary op operand hoperand ih =>
      intro rest following hends hcut
      obtain ⟨c, text, htext, hc⟩ := hoperand.head
      have hinner := ih (.cons (by decide)) hcut.parenRight
      rw [render, words]
      simp only [String.toList_append, List.append_assoc, List.cons_append]
      rw [htext] at hinner ⊢
      exact .parenLeft (op.cut hc hinner)
  | @binary left right op hleft hright ihl ihr =>
      intro rest following hends hcut
      have hinner := ihr (.cons (by decide)) hcut.parenRight
      rw [render, words]
      simp only [String.toList_append, List.append_assoc, List.cons_append]
      exact .parenLeft (ihl (.cons (by decide))
        (.blank (by decide) (op.isWord.cut (.cons (by decide)) (.blank (by decide) hinner))))
  | @chain op operands hop hlength hall ih =>
      intro rest following hends hcut
      rw [render, words]
      simp only [String.toList_append, List.append_assoc, List.cons_append]
      cases operands with
      | nil => simp at hlength
      | cons f operands =>
          rw [wordsAfter, List.tail_cons, List.append_assoc]
          exact .parenLeft ((separates_op op).cut_intercalate ih (.cons (by decide)) hcut.parenRight)

/-- **The text of a formula is scanned into its words**, without a fault. -/
theorem Spellable.scan {f : Formula} (h : f.Spellable) :
    (scan f.render.toList).fault = none ∧ (scan f.render.toList).tokens.map Token.word = f.words := by
  have hcut := h.cuts .nil .done
  rw [List.append_nil, List.append_nil] at hcut
  exact hcut.scan

end Formula

end ComputedFields
