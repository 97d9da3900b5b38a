/-
**Quotations, parentheses and words of a text in SQL.**

What stands between marks is a string or an identifier.  The rest of a text has parentheses, and is cut
into words at every character that belongs to none.  Compiled SQL is put together from templates with
holes.  A template keeps its parentheses balanced when it is filled, as long as what fills a hole has no
quotation open and its own parentheses balanced.  And the words of a whole are those of its parts as
soon as two things hold at every seam: no quotation is open, and no word goes on.  All this can be read
off the templates.

Two kinds of words are told apart from the common ones: the keyword of a query, and words that only
Postgres knows, which also writes casts with colons.  A vocabulary says which of them may stand in a text.

Main definitions:

* `ComputedFields.Sql.bare`, `ComputedFields.Sql.words` — what stands outside of quotations, and its
  words;
* `ComputedFields.Sql.Sealed` — **a text that is lexically closed**: its quotations are closed, and its
  parentheses balanced;
* `ComputedFields.Sql.hasSelect` — the keyword of a query is among the words;
* `ComputedFields.Sql.isPostgresWord` — a word that only Postgres knows;
* `ComputedFields.Sql.Vocabulary`, `ComputedFields.Sql.Tidy` — the words that are allowed in a text;
* `ComputedFields.Sql.Vocabulary.Queries`, `ComputedFields.Sql.Vocabulary.Postgres` — the keyword of a
  query is allowed, and so is all else that is written for Postgres;
* `ComputedFields.Sql.Slot`, `ComputedFields.Sql.assemble` — a template, and the template filled;
* `ComputedFields.Sql.seals`, `ComputedFields.Sql.fits` — the checks of its quotations and parentheses,
  and of its words;
* `ComputedFields.Sql.Expr.Tidy` — expressions of allowed words.

Main results:

* `ComputedFields.Sql.words_append` — the words on both sides of a seam;
* `ComputedFields.Sql.Sealed.template` — a template that is sealed, filled with sealed texts, is sealed;
* `ComputedFields.Sql.Tidy.quote` — **a quotation is closed, and no word of it counts**;
* `ComputedFields.Sql.Tidy.template` — a template that fits, filled with tidy texts, is tidy;
* `ComputedFields.Sql.Expr.Tidy.render` — **the text of a tidy expression is tidy**.
-/

import ComputedFields.Sql.Expr
import ComputedFields.Token.Scan

set_option relaxedAutoImplicit false
set_option autoImplicit false

namespace ComputedFields.Sql

/-! ### Quotations -/

/-- A mark that opens the quotation of a string or of an identifier. -/
def isMark (c : Char) : Bool := c = '\'' || c = '"'

/-- The mark of the quotation that is open after a text, when `quote` is the one that is open before.
A mark that is written twice closes the quotation and opens it again. -/
def openAfter : Option Char → List Char → Option Char
  | quote, [] => quote
  | none, c :: rest => openAfter (if isMark c then some c else none) rest
  | some mark, c :: rest => openAfter (if c = mark then none else some mark) rest

/-- The characters outside of quotations, together with the marks. -/
def bareFrom : Option Char → List Char → List Char
  | _, [] => []
  | none, c :: rest => c :: bareFrom (if isMark c then some c else none) rest
  | some mark, c :: rest =>
      if c = mark then c :: bareFrom none rest else bareFrom (some mark) rest

theorem openAfter_append (quote : Option Char) (a b : List Char) :
    openAfter quote (a ++ b) = openAfter (openAfter quote a) b := by
  fun_induction openAfter quote a with
  | case1 => rfl
  | case2 c rest ih => simpa [openAfter] using ih
  | case3 mark c rest ih => simpa [openAfter] using ih

theorem bareFrom_append (quote : Option Char) (a b : List Char) :
    bareFrom quote (a ++ b) = bareFrom quote a ++ bareFrom (openAfter quote a) b := by
  fun_induction openAfter quote a with
  | case1 => simp [bareFrom]
  | case2 c rest ih => simpa [bareFrom] using ih
  | case3 mark c rest ih =>
      by_cases h : c = mark
      · simpa [bareFrom, h] using ih
      · simpa [bareFrom, h] using ih

/-- Where no character is a mark, nothing is quoted. -/
theorem openAfter_of_noMark {text : List Char} (h : ∀ c ∈ text, isMark c = false) :
    openAfter none text = none := by
  induction text with
  | nil => rfl
  | cons c rest ih =>
      rw [List.forall_mem_cons] at h
      rw [openAfter, h.1]
      exact ih h.2

theorem bareFrom_of_noMark {text : List Char} (h : ∀ c ∈ text, isMark c = false) :
    bareFrom none text = text := by
  induction text with
  | nil => rfl
  | cons c rest ih =>
      rw [List.forall_mem_cons] at h
      rw [bareFrom, h.1]
      exact congrArg (c :: ·) (ih h.2)

/-- A text whose marks are doubled does not close the quotation it stands in. -/
theorem openAfter_double {mark : Char} (h : isMark mark = true) (text : List Char) :
    openAfter (some mark) (double mark text) = some mark := by
  induction text with
  | nil => rfl
  | cons c rest ih =>
      by_cases hc : c = mark
      · simpa [double, hc, openAfter, h] using ih
      · simpa [double, hc, openAfter] using ih

theorem isMark_of_mem_bareFrom_double {mark : Char} (h : isMark mark = true) (text : List Char) :
    ∀ c ∈ bareFrom (some mark) (double mark text), isMark c = true := by
  induction text with
  | nil => simp [bareFrom]
  | cons c rest ih =>
      by_cases hc : c = mark
      · simpa [double, hc, bareFrom, h] using ih
      · simpa [double, hc, bareFrom] using ih

/-! ### Parentheses -/

/-- How many parentheses are open after a text, when `depth` of them are open before; nothing if one is
closed that was not opened. -/
def depthAfter : Nat → List Char → Option Nat
  | depth, [] => some depth
  | depth, c :: rest =>
      if c = '(' then depthAfter (depth + 1) rest
      else if c = ')' then
        match depth with
        | 0 => none
        | depth + 1 => depthAfter depth rest
      else depthAfter depth rest

theorem depthAfter_append (depth : Nat) (a b : List Char) :
    depthAfter depth (a ++ b) = (depthAfter depth a).bind fun depth => depthAfter depth b := by
  fun_induction depthAfter depth a with
  | case1 => rfl
  | case2 depth rest ih => simpa [depthAfter] using ih
  | case3 rest => simp [depthAfter]
  | case4 rest depth _ ih => simpa [depthAfter] using ih
  | case5 depth c rest hopen hclose ih => simpa [depthAfter, hopen, hclose] using ih

/-- Parentheses that are open around a text stay open. -/
theorem depthAfter_add {depth after : Nat} {text : List Char} (h : depthAfter depth text = some after)
    (outer : Nat) : depthAfter (depth + outer) text = some (after + outer) := by
  fun_induction depthAfter depth text with
  | case1 depth =>
      cases h
      rfl
  | case2 depth rest ih =>
      have hstep := ih h
      rw [Nat.add_right_comm] at hstep
      simpa [depthAfter] using hstep
  | case3 rest => cases h
  | case4 rest depth _ ih =>
      have hstep := ih h
      rw [Nat.succ_add]
      simpa [depthAfter] using hstep
  | case5 depth c rest hopen hclose ih => simpa [depthAfter, hopen, hclose] using ih h

theorem depthAfter_of_noParenthesis {text : List Char} (h : ∀ c ∈ text, c ≠ '(' ∧ c ≠ ')')
    (depth : Nat) : depthAfter depth text = some depth := by
  induction text with
  | nil => rfl
  | cons c rest ih =>
      rw [List.forall_mem_cons] at h
      simpa [depthAfter, h.1.1, h.1.2] using ih h.2

/-! ### Words -/

theorem isWordChar_of_isMark {c : Char} (h : isMark c = true) : isWordChar c = false := by
  rcases Bool.or_eq_true_iff.1 h with h | h <;> rw [of_decide_eq_true h] <;> decide

/-- A word that has been read, if it has any characters. -/
def wordRead (word : List Char) : List (List Char) := if word = [] then [] else [word]

/-- The words of a text, of which the first begins with the characters `word`. -/
def wordsFrom : List Char → List Char → List (List Char)
  | word, [] => wordRead word
  | word, c :: rest =>
      if isWordChar c then wordsFrom (word ++ [c]) rest else wordRead word ++ wordsFrom [] rest

/-- The text does not begin inside a word. -/
def startsApart (text : List Char) : Bool := text.head?.all fun c => !isWordChar c

/-- The text does not end inside a word. -/
def endsApart (text : List Char) : Bool := text.getLast?.all fun c => !isWordChar c

theorem wordsFrom_append_cons {c : Char} (hc : isWordChar c = false) (word a b : List Char) :
    wordsFrom word (a ++ c :: b) = wordsFrom word a ++ wordsFrom [] b := by
  induction a generalizing word with
  | nil => simp [wordsFrom, hc]
  | cons d rest ih =>
      by_cases hd : isWordChar d = true
      · simpa [wordsFrom, hd] using ih _
      · simpa [wordsFrom, hd] using ih _

/-- Words that are cut apart by a seam are the words of the whole. -/
theorem wordsFrom_append {a b : List Char} (h : endsApart a = true ∨ startsApart b = true) :
    wordsFrom [] (a ++ b) = wordsFrom [] a ++ wordsFrom [] b := by
  -- the character next to the seam that is in no word is put in the middle of the whole
  rcases h with h | h
  · rcases List.eq_nil_or_concat a with rfl | ⟨init, c, rfl⟩
    · rfl
    · have hc : isWordChar c = false := by simpa [endsApart] using h
      have hinit := wordsFrom_append_cons hc [] init []
      rw [List.concat_eq_append, List.append_assoc, List.singleton_append,
        wordsFrom_append_cons hc, hinit]
      simp [wordsFrom, wordRead]
  · cases b with
    | nil => simp [wordsFrom, wordRead]
    | cons c rest =>
        have hc : isWordChar c = false := by simpa [startsApart] using h
        rw [wordsFrom_append_cons hc]
        simp [wordsFrom, hc, wordRead]

theorem eq_of_mem_wordRead {word w : List Char} (h : w ∈ wordRead word) : w = word := by
  unfold wordRead at h
  split at h
  · cases h
  · exact List.mem_singleton.1 h

/-- Every word is made of characters of the text. -/
theorem mem_of_mem_wordsFrom {word text w : List Char} (h : w ∈ wordsFrom word text) :
    ∀ c ∈ w, c ∈ word ∨ c ∈ text := by
  fun_induction wordsFrom word text with
  | case1 word => exact fun c hc => .inl (eq_of_mem_wordRead h ▸ hc)
  | case2 word d rest hd ih =>
      intro c hc
      have hmem := ih h c hc
      grind
  | case3 word d rest hd ih =>
      intro c hc
      rcases List.mem_append.1 h with h | h
      · exact .inl (eq_of_mem_wordRead h ▸ hc)
      · have hmem := ih h c hc
        grind

theorem wordsFrom_of_noWord {text : List Char} (h : ∀ c ∈ text, isWordChar c = false) :
    wordsFrom [] text = [] := by
  induction text with
  | nil => rfl
  | cons c rest ih =>
      rw [List.forall_mem_cons] at h
      simpa [wordsFrom, wordRead, h.1] using ih h.2

/-! ### Texts -/

/-- What stands outside of the quotations of a text. -/
def bare (text : String) : List Char := bareFrom none text.toList

/-- No quotation is open at the end of the text. -/
def closed (text : String) : Bool := openAfter none text.toList = none

/-- Every parenthesis outside of quotations is closed after it is opened. -/
def balanced (text : String) : Bool := depthAfter 0 (bare text) = some 0

/-- A text that is lexically closed: all quotations are closed, and the parentheses outside of them are
balanced. -/
structure Sealed (text : String) : Prop where
  closed : closed text = true
  balanced : balanced text = true

/-- The words of a text outside of its quotations. -/
def words (text : String) : List (List Char) := wordsFrom [] (bare text)

/-- The keyword that begins a query, in any case. -/
def isSelect (word : List Char) : Bool := word.map Char.toUpper = ['S', 'E', 'L', 'E', 'C', 'T']

/-- The keyword of a query is among the words of the text. -/
def hasSelect (text : String) : Bool := (words text).any isSelect

/-- Words that only Postgres knows, in capitals; the last one begins the name of a type. -/
def postgresWords : List (List Char) :=
  [['S', 'T', 'R', 'P', 'O', 'S'], ['G', 'R', 'E', 'A', 'T', 'E', 'S', 'T'],
   ['L', 'E', 'A', 'S', 'T'], ['O', 'V', 'E', 'R', 'L', 'A', 'Y'], ['R', 'E', 'P', 'E', 'A', 'T'],
   ['L', 'E', 'F', 'T'], ['R', 'I', 'G', 'H', 'T'], ['T', 'O', '_', 'C', 'H', 'A', 'R'],
   ['T', 'O', '_', 'T', 'I', 'M', 'E', 'S', 'T', 'A', 'M', 'P'],
   ['E', 'X', 'T', 'R', 'A', 'C', 'T'], ['A', 'G', 'E'],
   ['D', 'A', 'T', 'E', '_', 'T', 'R', 'U', 'N', 'C'],
   ['G', 'E', 'N', 'E', 'R', 'A', 'T', 'E', '_', 'S', 'E', 'R', 'I', 'E', 'S'],
   ['S', 'T', 'R', 'I', 'N', 'G', '_', 'A', 'G', 'G'],
   ['I', 'N', 'T', 'E', 'R', 'V', 'A', 'L'], ['Z', 'O', 'N', 'E'],
   ['N', 'U', 'M', 'E', 'R', 'I', 'C'],
   ['T', 'I', 'M', 'E', 'S', 'T', 'A', 'M', 'P', 'T', 'Z'], ['D', 'O', 'U', 'B', 'L', 'E']]

/-- The word is one that only Postgres knows, or begins as its functions on JSON do; in any case. -/
def isPostgresWord (word : List Char) : Bool :=
  ['J', 'S', 'O', 'N', 'B'].isPrefixOf (word.map Char.toUpper) ||
    postgresWords.contains (word.map Char.toUpper)

/-- The words that are allowed in a text.  Only the keyword of a query and the words of Postgres may be
missing, and the colons of its casts. -/
structure Vocabulary where
  allows : List Char → Prop
  casts : Prop
  allows_of_common : ∀ word, isSelect word = false → isPostgresWord word = false → allows word

namespace Vocabulary

/-- All words. -/
def every : Vocabulary := ⟨fun _ => True, True, fun _ _ _ => trivial⟩

/-- All words but the keyword of a query. -/
def flat : Vocabulary := ⟨fun word => isSelect word = false, True, fun _ h _ => h⟩

/-- The keyword of a query is allowed, however it is spelled. -/
def Queries (V : Vocabulary) : Prop := ∀ select : { word : List Char // isSelect word = true },
  V.allows select

/-- All that is written for Postgres is allowed, but for the keyword of a query. -/
class Postgres (V : Vocabulary) : Prop where
  casts : V.casts
  allows : ∀ word, isSelect word = false → V.allows word

instance : every.Postgres := ⟨trivial, fun _ _ => trivial⟩

instance : flat.Postgres := ⟨trivial, fun _ h => h⟩

end Vocabulary

/-- A sealed text in which all words are allowed, and the colons, if there are any. -/
structure Tidy (V : Vocabulary) (text : String) : Prop extends Sealed text where
  allows : ∀ word ∈ words text, V.allows word
  casts : ':' ∈ bare text → V.casts

theorem bare_append {a : String} (h : closed a = true) (b : String) :
    bare (a ++ b) = bare a ++ bare b := by
  have hopen := of_decide_eq_true h
  rw [bare, String.toList_append, bareFrom_append, hopen]
  rfl

theorem closed_append {a b : String} (ha : closed a = true) (hb : closed b = true) :
    closed (a ++ b) = true := by
  have hopen := of_decide_eq_true ha
  rw [closed, String.toList_append, openAfter_append, hopen]
  exact hb

/-- A sealed text leaves open what is open around it. -/
theorem Sealed.depthAfter_bare {text : String} (h : Sealed text) (depth : Nat) :
    depthAfter depth (bare text) = some depth := by
  have hzero := depthAfter_add (of_decide_eq_true h.balanced) depth
  rwa [Nat.zero_add] at hzero

theorem Sealed.append {a b : String} (ha : Sealed a) (hb : Sealed b) : Sealed (a ++ b) := by
  refine ⟨closed_append ha.closed hb.closed, decide_eq_true ?_⟩
  rw [bare_append ha.closed, depthAfter_append, ha.depthAfter_bare]
  exact hb.depthAfter_bare 0

/-- **The words on both sides of a seam** are the words of the whole, if neither a quotation nor a word
goes across. -/
theorem words_append {a b : String} (ha : closed a = true)
    (h : endsApart (bare a) = true ∨ startsApart (bare b) = true) :
    words (a ++ b) = words a ++ words b := by
  rw [words, bare_append ha, wordsFrom_append h]
  rfl

theorem hasSelect_eq_false {text : String} (h : Tidy .flat text) : hasSelect text = false := by
  rw [hasSelect, List.any_eq_false]
  exact fun word hword => Bool.eq_false_iff.1 (h.allows word hword)

/-- At a seam that no quotation and no word goes across, a query may stand on either side. -/
theorem hasSelect_append {a b : String} (ha : closed a = true)
    (h : endsApart (bare a) = true ∨ startsApart (bare b) = true) :
    hasSelect (a ++ b) = (hasSelect a || hasSelect b) := by
  rw [hasSelect, words_append ha h, List.any_append]
  rfl

namespace Tidy

variable {V : Vocabulary} {a b x text : String}

/-! ### Seams -/

/-- Two tidy texts are tidy together, if no word goes across the seam. -/
theorem append (ha : Tidy V a) (hb : Tidy V b)
    (h : endsApart (bare a) = true ∨ startsApart (bare b) = true) : Tidy V (a ++ b) := by
  refine ⟨ha.toSealed.append hb.toSealed, fun word hword => ?_, fun hcolon => ?_⟩
  · rw [words_append ha.closed h] at hword
    rcases List.mem_append.1 hword with hword | hword
    · exact ha.allows word hword
    · exact hb.allows word hword
  · rw [bare_append ha.closed] at hcolon
    exact (List.mem_append.1 hcolon).elim ha.casts hb.casts

/-- **A quotation is closed, and no word of it counts.** -/
theorem quote {mark : Char} (hmark : isMark mark = true) (value : String) :
    Tidy V (Sql.quote mark value) := by
  have hopen : openAfter (some mark) (double mark value.toList ++ [mark]) = none := by
    rw [openAfter_append, openAfter_double hmark]
    simp [openAfter]
  -- outside of the quotation there are marks only
  have hbare : ∀ c ∈ bare (Sql.quote mark value), isMark c = true := by
    intro c hc
    simp only [bare, Sql.quote, String.toList_ofList, bareFrom, hmark, if_true, bareFrom_append,
      openAfter_double hmark, List.mem_cons, List.mem_append, List.not_mem_nil, or_false] at hc
    rcases hc with rfl | hc | rfl
    · exact hmark
    · exact isMark_of_mem_bareFrom_double hmark value.toList c hc
    · exact hmark
  have hparenthesis : ∀ c ∈ bare (Sql.quote mark value), c ≠ '(' ∧ c ≠ ')' := by
    refine fun c hc => ⟨?_, ?_⟩ <;> rintro rfl <;> exact absurd (hbare _ hc) (by decide)
  refine ⟨⟨decide_eq_true ?_, decide_eq_true ?_⟩, fun word hw => ?_, fun hcolon => ?_⟩
  · rw [Sql.quote, String.toList_ofList, openAfter, hmark]
    exact hopen
  · exact depthAfter_of_noParenthesis hparenthesis 0
  · rw [words, wordsFrom_of_noWord fun c hc => isWordChar_of_isMark (hbare c hc)] at hw
    cases hw
  · exact absurd (hbare _ hcolon) (by decide)

theorem literal (value : String) : Tidy V (Sql.literal value) := quote (by decide) value

@[simp] theorem ident (name : String) : Tidy V (Sql.ident name) := quote (by decide) name

end Tidy

/-- Where all words are allowed, a sealed text is tidy. -/
theorem Sealed.tidy_every {text : String} (h : Sealed text) : Tidy .every text :=
  ⟨h, fun _ _ => trivial, fun _ => trivial⟩

/-! ### Templates -/

/-- A place of a template: a text, or a hole. -/
inductive Slot where
  | text (chars : List Char)
  | hole

/-- The template that is filled, after the text `lead`.  A hole that nothing is left for stays empty. -/
def fillSlots (lead : String) : List Slot → List String → String
  | [], _ => lead
  | .text chars :: slots, xs => fillSlots (lead ++ String.ofList chars) slots xs
  | .hole :: slots, x :: xs => fillSlots (lead ++ x) slots xs
  | .hole :: slots, [] => fillSlots lead slots []

/-- The template that is filled. -/
def assemble : List Slot → List String → String
  | .text chars :: slots, xs => fillSlots (String.ofList chars) slots xs
  | .hole :: slots, x :: xs => fillSlots x slots xs
  | slots, xs => fillSlots "" slots xs

/-- The quotations and the parentheses of the template are closed in the end, when `quote` and `depth`
are open before, and no hole stands in a quotation. -/
def sealsFrom : Option Char → Nat → List Slot → Bool
  | quote, depth, [] => quote = none && depth = 0
  | quote, depth, .text chars :: slots =>
      match depthAfter depth (bareFrom quote chars) with
      | some after => sealsFrom (openAfter quote chars) after slots
      | none => false
  | quote, depth, .hole :: slots => quote = none && sealsFrom none depth slots

/-- The template is lexically closed, if what fills its holes is. -/
def seals (slots : List Slot) : Bool := sealsFrom none 0 slots

theorem assemble_eq_fillSlots (slots : List Slot) (xs : List String) :
    assemble slots xs = fillSlots "" slots xs := by
  cases slots with
  | nil => rfl
  | cons slot slots =>
      cases slot with
      | text chars => simp [assemble, fillSlots]
      | hole => cases xs <;> simp [assemble, fillSlots]

namespace Sealed

variable {slots : List Slot} {xs : List String}

theorem fillSlots {lead : String} {quote : Option Char} {depth : Nat}
    (hopen : openAfter none lead.toList = quote) (hdepth : depthAfter 0 (bare lead) = some depth)
    (hseals : sealsFrom quote depth slots = true) (hxs : ∀ x ∈ xs, Sealed x) :
    Sealed (Sql.fillSlots lead slots xs) := by
  -- induction on the template; what fills a hole leaves open what is open before
  induction slots generalizing lead quote depth xs with
  | nil =>
      simp only [sealsFrom, Bool.and_eq_true, decide_eq_true_eq] at hseals
      obtain ⟨rfl, rfl⟩ := hseals
      exact ⟨decide_eq_true hopen, decide_eq_true hdepth⟩
  | cons slot slots ih =>
      cases slot with
      | text chars =>
          rw [sealsFrom] at hseals
          split at hseals
          · next after hafter =>
              refine ih ?_ ?_ hseals hxs
              · simp [openAfter_append, hopen]
              · simp only [bare, String.toList_append, String.toList_ofList, bareFrom_append, hopen,
                  depthAfter_append]
                rw [bare] at hdepth
                rw [hdepth]
                exact hafter
          · cases hseals
      | hole =>
          simp only [sealsFrom, Bool.and_eq_true, decide_eq_true_eq] at hseals
          obtain ⟨rfl, hseals⟩ := hseals
          cases xs with
          | nil => exact ih hopen hdepth hseals hxs
          | cons x xs =>
              rw [List.forall_mem_cons] at hxs
              have hlead : Sql.closed lead = true := decide_eq_true hopen
              refine ih (of_decide_eq_true (closed_append hlead hxs.1.closed)) ?_ hseals hxs.2
              rw [bare_append hlead, depthAfter_append, hdepth]
              exact hxs.1.depthAfter_bare depth

/-- **A template that is sealed, filled with sealed texts, is sealed.** -/
theorem template (slots : List Slot) (xs : List String) (hseals : seals slots = true)
    (hxs : ∀ x ∈ xs, Sealed x) : Sealed (assemble slots xs) := by
  rw [assemble_eq_fillSlots]
  exact fillSlots (by decide) (by decide) hseals hxs

/-- A text that is written out. -/
theorem const {chars : List Char} (hseals : seals [.text chars] = true) :
    Sealed (String.ofList chars) :=
  template [.text chars] [] hseals (by simp)

/-- A text between two that are written out. -/
theorem wrap {lead behind : List Char} {x : String}
    (hseals : seals [.text lead, .hole, .text behind] = true) (hx : Sealed x) :
    Sealed (String.ofList lead ++ x ++ String.ofList behind) :=
  template [.text lead, .hole, .text behind] [x] hseals (by simpa using hx)

@[simp] theorem empty : Sealed "" := const (by decide)

@[simp] theorem literal (value : String) : Sealed (Sql.literal value) :=
  (Tidy.literal (V := .every) value).toSealed

@[simp] theorem ident (name : String) : Sealed (Sql.ident name) :=
  (Tidy.ident (V := .every) name).toSealed

@[simp] theorem qualified (rowAlias column : String) : Sealed (Sql.qualified rowAlias column) :=
  template [.hole, .text _, .hole] [_, _] (by decide) (by simp)

theorem join {texts : List String} (h : ∀ text ∈ texts, Sealed text) :
    Sealed (String.join texts) := by
  induction texts with
  | nil => exact empty
  | cons text rest ih =>
      rw [List.forall_mem_cons] at h
      rw [String.join_cons]
      exact h.1.append (ih h.2)

theorem intercalate {separator : String} {texts : List String} (hseparator : Sealed separator)
    (h : ∀ text ∈ texts, Sealed text) : Sealed (separator.intercalate texts) := by
  induction texts with
  | nil => exact empty
  | cons first rest ih =>
      rw [List.forall_mem_cons] at h
      cases rest with
      | nil => simpa using h.1
      | cons second rest =>
          rw [String.intercalate_cons_cons]
          exact (h.1.append hseparator).append (ih h.2)

end Sealed

/-! ### Words of templates -/

/-- No word of the template goes on in its holes, and its words are allowed, when `quote` is open
before; `apart` says that no word can go on from before. -/
def fitsFrom (allowed : List Char → Bool) : Option Char → Bool → List Slot → Bool
  | _, _, [] => true
  | quote, apart, .text chars :: slots =>
      (apart || startsApart (bareFrom quote chars)) &&
        (wordsFrom [] (bareFrom quote chars)).all allowed &&
        fitsFrom allowed (openAfter quote chars)
          (if bareFrom quote chars = [] then apart else endsApart (bareFrom quote chars)) slots
  | quote, apart, .hole :: slots => quote = none && apart && fitsFrom allowed none false slots

/-- There is no colon outside of the quotations of the template, when `quote` is open before, and no hole
inside of them. -/
def colonFree : Option Char → List Slot → Bool
  | _, [] => true
  | quote, .text chars :: slots =>
      (bareFrom quote chars).all (fun c => c ≠ ':') && colonFree (openAfter quote chars) slots
  | quote, .hole :: slots => quote = none && colonFree none slots

/-- The template is lexically closed and no word of it goes on in its holes.  The keyword of a query is in
it only with `queries`, and words of Postgres and colons only with `postgres`. -/
def fits (queries postgres : Bool) (slots : List Slot) : Bool :=
  seals slots &&
    fitsFrom (fun word => (queries || !isSelect word) && (postgres || !isPostgresWord word)) none true
      slots &&
    (postgres || colonFree none slots)

/-- The words of a template and of what fills it. -/
def slotWords : Option Char → List Slot → List String → List (List Char)
  | _, [], _ => []
  | quote, .text chars :: slots, xs =>
      wordsFrom [] (bareFrom quote chars) ++ slotWords (openAfter quote chars) slots xs
  | quote, .hole :: slots, x :: xs => words x ++ slotWords quote slots xs
  | quote, .hole :: slots, [] => slotWords quote slots []

theorem endsApart_append_of_ne_nil {a b : List Char} (hne : b ≠ []) :
    endsApart (a ++ b) = endsApart b := by
  rw [endsApart, endsApart, List.getLast?_append, List.getLast?_eq_some_getLast hne]
  rfl

/-- How a text begins is decided by its first part, unless that part is empty. -/
theorem startsApart_bare_append {a : String} (ha : closed a = true) (hne : bare a ≠ []) (b : String) :
    startsApart (bare (a ++ b)) = startsApart (bare a) := by
  rw [bare_append ha, startsApart, startsApart, List.head?_append, List.head?_eq_some_head hne]
  rfl

section

variable {allowed : List Char → Bool} {slots : List Slot} {xs : List String}

theorem words_fillSlots {lead : String} {quote : Option Char} {apart : Bool}
    (hopen : openAfter none lead.toList = quote)
    (hapart : apart = true → endsApart (bare lead) = true)
    (hfits : fitsFrom allowed quote apart slots = true) (hxs : ∀ x ∈ xs, closed x = true) :
    words (fillSlots lead slots xs) = words lead ++ slotWords quote slots xs := by
  -- induction on the template; `lead` is what has been put together so far
  induction slots generalizing lead quote apart xs with
  | nil => simp [fillSlots, slotWords]
  | cons slot slots ih =>
      cases slot with
      | text chars =>
          simp only [fitsFrom, Bool.and_eq_true, Bool.or_eq_true] at hfits
          obtain ⟨⟨hseam, -⟩, hfits⟩ := hfits
          have hbare : bare (lead ++ String.ofList chars) = bare lead ++ bareFrom quote chars := by
            simp [bare, bareFrom_append, hopen]
          have hseam : endsApart (bare lead) = true ∨ startsApart (bareFrom quote chars) = true :=
            hseam.imp_left hapart
          have hwords : words (lead ++ String.ofList chars) =
              words lead ++ wordsFrom [] (bareFrom quote chars) := by
            rw [words, hbare, wordsFrom_append hseam]
            rfl
          rw [fillSlots, ih (by simp [openAfter_append, hopen]) ?_ hfits hxs, hwords, slotWords,
            List.append_assoc]
          rw [hbare]
          split
          · next hnil => simpa [hnil] using hapart
          · next hne => simp [endsApart_append_of_ne_nil hne]
      | hole =>
          simp only [fitsFrom, Bool.and_eq_true, decide_eq_true_eq] at hfits
          obtain ⟨⟨rfl, rfl⟩, hfits⟩ := hfits
          cases xs with
          | nil => exact ih hopen (fun h : false = true => nomatch h) hfits hxs
          | cons x xs =>
              rw [List.forall_mem_cons] at hxs
              have hlead : closed lead = true := decide_eq_true hopen
              have hopen' := of_decide_eq_true (closed_append hlead hxs.1)
              rw [fillSlots, ih hopen' (fun h : false = true => nomatch h) hfits hxs.2,
                words_append hlead (.inl (hapart rfl)), slotWords, List.append_assoc]

/-- **The words of a template that is filled** are its own and those of what fills it. -/
theorem words_assemble (hfits : fitsFrom allowed none true slots = true)
    (hxs : ∀ x ∈ xs, closed x = true) : words (assemble slots xs) = slotWords none slots xs := by
  rw [assemble_eq_fillSlots, words_fillSlots (by decide) (by decide) hfits hxs]
  rfl

theorem mem_slotWords {quote : Option Char} {apart : Bool}
    (hfits : fitsFrom allowed quote apart slots = true) {word : List Char}
    (hword : word ∈ slotWords quote slots xs) :
    allowed word = true ∨ ∃ x ∈ xs, word ∈ words x := by
  induction slots generalizing quote apart xs with
  | nil => cases hword
  | cons slot slots ih =>
      cases slot with
      | text chars =>
          simp only [fitsFrom, Bool.and_eq_true] at hfits
          rcases List.mem_append.1 hword with hword | hword
          · exact .inl (List.all_eq_true.1 hfits.1.2 word hword)
          · exact ih hfits.2 hword
      | hole =>
          simp only [fitsFrom, Bool.and_eq_true, decide_eq_true_eq] at hfits
          obtain ⟨⟨rfl, -⟩, hfits⟩ := hfits
          cases xs with
          | nil => exact ih hfits hword
          | cons x xs =>
              rcases List.mem_append.1 hword with hword | hword
              · exact .inr ⟨x, List.mem_cons_self, hword⟩
              · refine (ih hfits hword).imp_right ?_
                rintro ⟨y, hy, hword⟩
                exact ⟨y, List.mem_cons_of_mem _ hy, hword⟩

/-- A colon of a template that is filled, and has none itself, is in what fills it. -/
theorem colon_of_mem_fillSlots {lead : String} {quote : Option Char}
    (hopen : openAfter none lead.toList = quote) (hfree : colonFree quote slots = true)
    (hxs : ∀ x ∈ xs, closed x = true) (hcolon : ':' ∈ bare (fillSlots lead slots xs)) :
    ':' ∈ bare lead ∨ ∃ x ∈ xs, ':' ∈ bare x := by
  induction slots generalizing lead quote xs with
  | nil => exact .inl hcolon
  | cons slot slots ih =>
      cases slot with
      | text chars =>
          simp only [colonFree, Bool.and_eq_true, List.all_eq_true, decide_eq_true_eq] at hfree
          refine (ih (by simp [openAfter_append, hopen]) hfree.2 hxs hcolon).imp_left fun hlead => ?_
          simp only [bare, String.toList_append, String.toList_ofList, bareFrom_append, hopen,
            List.mem_append] at hlead
          exact hlead.resolve_right fun hmem => hfree.1 _ hmem rfl
      | hole =>
          simp only [colonFree, Bool.and_eq_true, decide_eq_true_eq] at hfree
          obtain ⟨rfl, hfree⟩ := hfree
          cases xs with
          | nil => exact ih hopen hfree hxs hcolon
          | cons x xs =>
              rw [List.forall_mem_cons] at hxs
              have hlead : closed lead = true := decide_eq_true hopen
              have hopen' := of_decide_eq_true (closed_append hlead hxs.1)
              rcases ih hopen' hfree hxs.2 hcolon with hmem | ⟨y, hy, hmem⟩
              · rw [bare_append hlead, List.mem_append] at hmem
                exact hmem.imp_right fun hmem => ⟨x, List.mem_cons_self, hmem⟩
              · exact .inr ⟨y, List.mem_cons_of_mem _ hy, hmem⟩

end

namespace Tidy

variable {V : Vocabulary} {a b x : String}

/-- **A template of allowed words, filled with tidy texts, is tidy.** -/
theorem fill {queries postgres : Bool} {slots : List Slot} {xs : List String}
    (hfits : fits queries postgres slots = true) (hqueries : queries = true → V.Queries)
    (hpostgres : postgres = true → V.Postgres) (hxs : ∀ x ∈ xs, Tidy V x) :
    Tidy V (assemble slots xs) := by
  simp only [fits, Bool.and_eq_true] at hfits
  obtain ⟨⟨hseals, hwords⟩, hcolons⟩ := hfits
  have hclosed : ∀ x ∈ xs, Sql.closed x = true := fun x hx => (hxs x hx).closed
  refine ⟨.template slots xs hseals fun x hx => (hxs x hx).toSealed, fun word hword => ?_,
    fun hcolon => ?_⟩
  · rw [words_assemble hwords hclosed] at hword
    rcases mem_slotWords hwords hword with hallowed | ⟨x, hx, hword⟩
    · simp only [Bool.and_eq_true, Bool.or_eq_true, Bool.not_eq_true'] at hallowed
      by_cases hselect : isSelect word = true
      · exact hqueries (hallowed.1.resolve_right (by simp [hselect])) ⟨word, hselect⟩
      · rw [Bool.not_eq_true] at hselect
        rcases hallowed.2 with hone | hcommon
        · exact (hpostgres hone).allows word hselect
        · exact V.allows_of_common word hselect hcommon
    · exact (hxs x hx).allows word hword
  · rcases Bool.or_eq_true_iff.1 hcolons with hone | hfree
    · exact (hpostgres hone).casts
    · rw [assemble_eq_fillSlots] at hcolon
      rcases colon_of_mem_fillSlots (by decide) hfree hclosed hcolon with hnil | ⟨x, hx, hcolon⟩
      · cases hnil
      · exact (hxs x hx).casts hcolon

/-- A template of common words. -/
theorem template (slots : List Slot) (xs : List String) (hfits : fits false false slots = true)
    (hxs : ∀ x ∈ xs, Tidy V x) : Tidy V (assemble slots xs) :=
  fill hfits (absurd · Bool.false_ne_true) (absurd · Bool.false_ne_true) hxs

/-- A template for Postgres. -/
theorem postgres [V.Postgres] (slots : List Slot) (xs : List String)
    (hfits : fits false true slots = true) (hxs : ∀ x ∈ xs, Tidy V x) : Tidy V (assemble slots xs) :=
  fill hfits (absurd · Bool.false_ne_true) (fun _ => inferInstance) hxs

/-- A template with a query. -/
theorem query (hV : V.Queries) (slots : List Slot) (xs : List String)
    (hfits : fits true false slots = true) (hxs : ∀ x ∈ xs, Tidy V x) : Tidy V (assemble slots xs) :=
  fill hfits (fun _ => hV) (absurd · Bool.false_ne_true) hxs

/-- A template with a query for Postgres. -/
theorem postgresQuery [V.Postgres] (hV : V.Queries) (slots : List Slot) (xs : List String)
    (hfits : fits true true slots = true) (hxs : ∀ x ∈ xs, Tidy V x) : Tidy V (assemble slots xs) :=
  fill hfits (fun _ => hV) (fun _ => inferInstance) hxs

/-- A text that is written out. -/
theorem const {chars : List Char} (hfits : fits false false [.text chars] = true) :
    Tidy V (String.ofList chars) :=
  template [.text chars] [] hfits (by simp)

theorem postgresConst [V.Postgres] {chars : List Char} (hfits : fits false true [.text chars] = true) :
    Tidy V (String.ofList chars) :=
  postgres [.text chars] [] hfits (by simp)

/-- A text between two that are written out. -/
theorem wrap {lead behind : List Char}
    (hfits : fits false false [.text lead, .hole, .text behind] = true) (hx : Tidy V x) :
    Tidy V (String.ofList lead ++ x ++ String.ofList behind) :=
  template [.text lead, .hole, .text behind] [x] hfits (by simpa using hx)

theorem postgresWrap [V.Postgres] {lead behind : List Char}
    (hfits : fits false true [.text lead, .hole, .text behind] = true) (hx : Tidy V x) :
    Tidy V (String.ofList lead ++ x ++ String.ofList behind) :=
  postgres [.text lead, .hole, .text behind] [x] hfits (by simpa using hx)

@[simp] theorem qualified (rowAlias column : String) : Tidy V (Sql.qualified rowAlias column) :=
  template [.hole, .text _, .hole] [_, _] (by decide) (by simp)

/-- Two texts with a separator between them. -/
theorem join {separator : List Char} (hfits : fits false false [.hole, .text separator, .hole] = true)
    (ha : Tidy V a) (hb : Tidy V b) : Tidy V (a ++ String.ofList separator ++ b) :=
  template [.hole, .text separator, .hole] [a, b] hfits (by simpa using ⟨ha, hb⟩)

/-- Texts with a separator between them. -/
theorem intercalate {separator : String} {texts : List String}
    (hjoin : ∀ {a b : String}, Tidy V a → Tidy V b → Tidy V (a ++ separator ++ b))
    (htexts : ∀ text ∈ texts, Tidy V text) : Tidy V (separator.intercalate texts) := by
  induction texts with
  | nil => exact const (by decide)
  | cons first rest ih =>
      rw [List.forall_mem_cons] at htexts
      cases rest with
      | nil => simpa using htexts.1
      | cons second rest =>
          rw [String.intercalate_cons_cons]
          exact hjoin htexts.1 (ih htexts.2)

end Tidy

/-! ### Numerals -/

/-- A character of a numeral: a digit, a point, a sign, or a letter of an exponent or of an infinite
number. -/
def isNumeralChar (c : Char) : Bool := c.isDigit || ['.', '-', '+', 'e', 'i', 'n', 'f'].contains c

/-- The text is made of characters of numerals. -/
def isNumeral (text : String) : Bool := text.toList.all isNumeralChar

@[simp] theorem isNumeral_append (a b : String) :
    isNumeral (a ++ b) = (isNumeral a && isNumeral b) := by
  simp [isNumeral]

@[simp] theorem isNumeral_ofList (text : List Char) :
    isNumeral (String.ofList text) = text.all isNumeralChar := by
  simp [isNumeral]

theorem isNumeralChar_of_mem_toDigits {n : Nat} {c : Char} (h : c ∈ Nat.toDigits 10 n) :
    isNumeralChar c = true := by
  rw [isNumeralChar, Nat.isDigit_of_mem_toDigits (by decide) (by decide) h]
  rfl

theorem isMark_of_isNumeralChar {c : Char} (h : isNumeralChar c = true) : isMark c = false := by
  rw [Bool.eq_false_iff]
  intro hmark
  rcases Bool.or_eq_true_iff.1 hmark with hmark | hmark <;>
    rw [of_decide_eq_true hmark] at h <;> exact absurd h (by decide)

/-- A character of a numeral in capitals. -/
def isCapitalNumeralChar (c : Char) : Bool :=
  c.isDigit || ['.', '-', '+', 'E', 'I', 'N', 'F'].contains c

theorem isCapitalNumeralChar_toUpper {c : Char} (h : isNumeralChar c = true) :
    isCapitalNumeralChar c.toUpper = true := by
  rcases Bool.or_eq_true_iff.1 h with hdigit | hmem
  · have hcapital : c.toUpper = c := by
      have hle : c.val ≤ 57 := by
        simp only [Char.isDigit, Bool.and_eq_true, decide_eq_true_eq] at hdigit
        exact hdigit.2
      unfold Char.toUpper
      split
      · next hlower => exact absurd hlower.1 (by grind)
      · rfl
    rw [hcapital, isCapitalNumeralChar, hdigit]
    rfl
  · simp only [List.contains_eq_mem, decide_eq_true_eq, List.mem_cons, List.not_mem_nil,
      or_false] at hmem
    rcases hmem with rfl | rfl | rfl | rfl | rfl | rfl | rfl <;> decide

/-- No numeral is a keyword or a word of Postgres: each of these has a letter that no numeral has. -/
theorem common_of_isNumeralChar {word : List Char} (h : ∀ c ∈ word, isNumeralChar c = true) :
    isSelect word = false ∧ isPostgresWord word = false := by
  have hcapital : ∀ c ∈ word.map Char.toUpper, isCapitalNumeralChar c = true :=
    List.forall_mem_map.2 fun c hc => isCapitalNumeralChar_toUpper (h c hc)
  have hwords : postgresWords.all (fun w => w.any fun c => !isCapitalNumeralChar c) = true := by decide
  refine ⟨decide_eq_false fun hselect => ?_, Bool.eq_false_iff.2 fun hone => ?_⟩
  · exact absurd (hcapital 'S' (by simp [hselect])) (by decide)
  · rcases Bool.or_eq_true_iff.1 hone with hjson | hmem
    · obtain ⟨rest, hrest⟩ := List.isPrefixOf_iff_prefix.1 hjson
      exact absurd (hcapital 'J' (by simp [← hrest])) (by decide)
    · have hany := List.all_eq_true.1 hwords _ (List.contains_iff_mem.1 hmem)
      obtain ⟨c, hc, hnot⟩ := List.any_eq_true.1 hany
      simp [hcapital c hc] at hnot

theorem Tidy.numeral {V : Vocabulary} {text : String} (h : isNumeral text = true) :
    Tidy V text := by
  rw [isNumeral, List.all_eq_true] at h
  have hmark : ∀ c ∈ text.toList, isMark c = false := fun c hc => isMark_of_isNumeralChar (h c hc)
  have hparenthesis : ∀ c ∈ text.toList, c ≠ '(' ∧ c ≠ ')' := by
    refine fun c hc => ⟨?_, ?_⟩ <;> rintro rfl <;> exact absurd (h _ hc) (by decide)
  have hbare : bare text = text.toList := bareFrom_of_noMark hmark
  refine ⟨⟨decide_eq_true (openAfter_of_noMark hmark), decide_eq_true ?_⟩, fun word hword => ?_,
    fun hcolon => ?_⟩
  · rw [hbare]
    exact depthAfter_of_noParenthesis hparenthesis 0
  · have hnumeral : ∀ c ∈ word, isNumeralChar c = true := by
      intro c hc
      rw [words, hbare] at hword
      exact h c ((mem_of_mem_wordsFrom hword c hc).resolve_left List.not_mem_nil)
    obtain ⟨hselect, hone⟩ := common_of_isNumeralChar hnumeral
    exact V.allows_of_common word hselect hone
  · rw [hbare] at hcolon
    exact absurd (h _ hcolon) (by decide)

theorem Sealed.numeral {text : String} (h : isNumeral text = true) : Sealed text :=
  (Tidy.numeral (V := .every) h).toSealed

@[simp] theorem Sealed.repr (n : Nat) : Sealed n.repr := by
  refine numeral ?_
  simp only [isNumeral, Nat.toList_repr, List.all_eq_true]
  exact fun c hc => isNumeralChar_of_mem_toDigits hc

/-! ### Expressions -/

/-- An expression of allowed words. -/
inductive Expr.Tidy (V : Vocabulary) : Expr → Prop where
  | bool (value : Bool) : Tidy V (.bool value)
  | number {spelling : String} : Sql.Tidy V spelling → Tidy V (.number spelling)
  | text (value : String) : Tidy V (.text value)
  | typedText (value : String) {type : String} :
      V.Postgres → Sql.Tidy V type → Tidy V (.typedText value type)
  | null : Tidy V .null
  | column (rowAlias : Option String) (name : String) : Tidy V (.column rowAlias name)
  | call {name : String} {args : List Expr} :
      Sql.Tidy V name → (∀ arg ∈ args, Tidy V arg) → Tidy V (.call name args)
  | binary {left right : Expr} (op : Op) :
      Tidy V left → Tidy V right → Tidy V (.binary left op right)
  | chain (op : Op) {operands : List Expr} :
      (∀ operand ∈ operands, Tidy V operand) → Tidy V (.chain op operands)
  | unary (op : UnaryOp) {operand : Expr} : Tidy V operand → Tidy V (.unary op operand)
  | cast {operand : Expr} {type : String} :
      Tidy V operand → Sql.Tidy V type → Tidy V (.cast operand type)
  | case {branches : List (Expr × Expr)} {otherwise : Option Expr} :
      (∀ branch ∈ branches, Tidy V branch.1) → (∀ branch ∈ branches, Tidy V branch.2) →
      (∀ e ∈ otherwise, Tidy V e) → Tidy V (.case branches otherwise)
  | keyword {name : String} : Sql.Tidy V name → Tidy V (.keyword name)
  | verbatim {sql : String} : Sql.Tidy V sql → Tidy V (.verbatim sql)

namespace Expr

variable {V : Vocabulary}

theorem renderAll_eq_map (es : List Expr) : renderAll es = es.map render := by
  induction es with
  | nil => simp [renderAll]
  | cons e rest ih => simp [renderAll, ih]

theorem tidy_renderBranches {branches : List (Expr × Expr)}
    (hconditions : ∀ branch ∈ branches, Sql.Tidy V branch.1.render)
    (hresults : ∀ branch ∈ branches, Sql.Tidy V branch.2.render) :
    Sql.Tidy V (renderBranches branches) ∧ startsApart (bare (renderBranches branches)) = true := by
  induction branches with
  | nil => exact ⟨.const (by decide), by decide⟩
  | cons branch rest ih =>
      rw [List.forall_mem_cons] at hconditions hresults
      obtain ⟨hrest, hstarts⟩ := ih hconditions.2 hresults.2
      have hbranch : Sql.Tidy V (" WHEN " ++ branch.1.render ++ " THEN " ++ branch.2.render) :=
        .template [.text _, .hole, .text _, .hole] [_, _] (by decide)
          (by simpa using ⟨hconditions.1, hresults.1⟩)
      refine ⟨hbranch.append hrest (.inr hstarts), ?_⟩
      rw [renderBranches]
      simp only [String.append_assoc]
      rw [startsApart_bare_append (by decide) (by decide)]
      decide

theorem tidy_renderOtherwise {otherwise : Option Expr}
    (h : ∀ e ∈ otherwise, Sql.Tidy V e.render) :
    Sql.Tidy V (renderOtherwise otherwise) ∧
      startsApart (bare (renderOtherwise otherwise)) = true := by
  cases otherwise with
  | none => exact ⟨.const (by decide), by decide⟩
  | some e =>
      refine ⟨.template [.text _, .hole] [_] (by decide) (by simpa using h e rfl), ?_⟩
      rw [renderOtherwise, startsApart_bare_append (by decide) (by decide)]
      decide

theorem tidy_symbol (op : Op) : Sql.Tidy V op.symbol := by
  cases op <;> exact .const (by decide)

/-- Two texts with an operator between them. -/
theorem tidy_operands (op : Op) {a b : String} (ha : Sql.Tidy V a) (hb : Sql.Tidy V b) :
    Sql.Tidy V (a ++ (" " ++ op.symbol ++ " ") ++ b) := by
  rw [← String.append_assoc, ← String.append_assoc]
  exact .template [.hole, .text _, .hole, .text _, .hole] [a, _, b] (by decide)
    (by simpa using ⟨ha, tidy_symbol op, hb⟩)

/-- **The text of a tidy expression is tidy.** -/
theorem Tidy.render {e : Expr} (h : e.Tidy V) : Sql.Tidy V e.render := by
  induction h with
  | bool value => cases value <;> exact .const (by decide)
  | number hspelling => exact hspelling
  | text value => exact .literal value
  | typedText value _ htype =>
      exact .postgres [.hole, .text _, .hole] [_, _] (by decide) (by simpa using ⟨.literal value, htype⟩)
  | null => exact .const (by decide)
  | column rowAlias name =>
      cases rowAlias with
      | none => exact .ident name
      | some rowAlias => exact .join (by decide) (.ident rowAlias) (.ident name)
  | call hname _ hargs =>
      rw [Expr.render, renderAll_eq_map]
      have hjoined : Sql.Tidy V (", ".intercalate (List.map Expr.render _)) :=
        .intercalate (.join (by decide)) (List.forall_mem_map.2 hargs)
      exact .template [.hole, .text _, .hole, .text _] [_, _] (by decide)
        (by simpa using ⟨hname, hjoined⟩)
  | binary op _ _ hleft hright =>
      exact .template [.text _, .hole, .text _, .hole, .text _, .hole, .text _] [_, _, _] (by decide)
        (by simpa using ⟨hleft, tidy_symbol op, hright⟩)
  | chain op _ hoperands =>
      rw [Expr.render, renderAll_eq_map]
      exact .wrap (by decide) (.intercalate (tidy_operands op) (List.forall_mem_map.2 hoperands))
  | unary op _ hoperand =>
      cases op <;>
        exact .template [.text _, .text _, .hole, .text _] [_] (by decide) (by simpa using hoperand)
  | cast _ htype hoperand =>
      exact .template [.text _, .hole, .text _, .hole, .text _] [_, _] (by decide)
        (by simpa using ⟨hoperand, htype⟩)
  | case _ _ _ hconditions hresults hotherwise =>
      obtain ⟨hbranches, hstarts⟩ := tidy_renderBranches hconditions hresults
      obtain ⟨hlast, hstarts'⟩ := tidy_renderOtherwise hotherwise
      exact .append (.append (.append (.const (by decide)) hbranches (.inr hstarts)) hlast
        (.inr hstarts')) (.const (by decide)) (.inr (by decide))
  | keyword hname => exact hname
  | verbatim hsql => exact hsql

/-! ### Queries inside expressions -/

theorem hasSelect_binary {left right : Expr} (op : Op) (hleft : left.Tidy V) (hright : right.Tidy V)
    (h : hasSelect right.render = true) : hasSelect (Expr.binary left op right).render = true := by
  have hclosed : ∀ x ∈ [left.render, op.symbol, right.render], closed x = true := by
    simpa using ⟨hleft.render.closed, (tidy_symbol (V := V) op).closed, hright.render.closed⟩
  have hrender : (Expr.binary left op right).render =
      assemble [.text ['('], .hole, .text [' '], .hole, .text [' '], .hole, .text [')']]
        [left.render, op.symbol, right.render] := by
    rw [Expr.render]
    rfl
  rw [hasSelect] at h
  have hfits : fitsFrom (fun _ => true) none true [.text ['('], .hole, .text [' '], .hole, .text [' '],
      .hole, .text [')']] = true := by decide
  rw [hrender, hasSelect, words_assemble hfits hclosed]
  simp [slotWords, h]

theorem hasSelect_case {branches : List (Expr × Expr)} {e : Expr}
    (hconditions : ∀ branch ∈ branches, branch.1.Tidy V)
    (hresults : ∀ branch ∈ branches, branch.2.Tidy V) (he : e.Tidy V)
    (h : hasSelect e.render = true) : hasSelect (Expr.case branches (some e)).render = true := by
  obtain ⟨hbranches, hstarts⟩ := tidy_renderBranches
    (fun branch hbranch => (hconditions branch hbranch).render)
    (fun branch hbranch => (hresults branch hbranch).render)
  have hlead : Sql.Tidy V ("CASE" ++ renderBranches branches) :=
    .append (.const (by decide)) hbranches (.inr hstarts)
  obtain ⟨hlast, hstarts'⟩ : Sql.Tidy V (renderOtherwise (some e)) ∧
      startsApart (bare (renderOtherwise (some e))) = true :=
    tidy_renderOtherwise (by simpa using he.render)
  have hall : Sql.Tidy V ("CASE" ++ renderBranches branches ++ renderOtherwise (some e)) :=
    hlead.append hlast (.inr hstarts')
  have hselect : hasSelect (renderOtherwise (some e)) = true := by
    rw [renderOtherwise, hasSelect_append (by decide) (.inl (by decide)), h, Bool.or_true]
  rw [Expr.render, hasSelect_append hall.closed (.inr (by decide)),
    hasSelect_append hlead.closed (.inr hstarts'), hselect, Bool.or_true, Bool.true_or]

end Expr

end ComputedFields.Sql
