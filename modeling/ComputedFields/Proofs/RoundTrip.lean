/-
**Printing a formula and reading it again.**

The text of a formula has parentheses around every operator, so that reading it never has to weigh two
operators against each other: a binary operator stands alone between its parentheses, and a chain is the
only operator of its pair.  A sum inside a sum keeps its parentheses, and is read as an operand rather
than joined to the chain around it.

The grammar is followed on the words of the text.  An operand takes exactly its own words and leaves those
that follow it; an expression does the same when no operator follows that it would have to join.

What comes back is the formula itself, provided its strings are legible: a character is printed by its
code point when it has no picture, and the reader knows no code points.

Main definitions:

* `ComputedFields.Formula.ReadsBack` — the reader finds the formula in its words;
* `ComputedFields.Text.isLegible`, `ComputedFields.Formula.LegibleTexts` — the strings that are printed
  as they are read.

Main results:

* `ComputedFields.Formula.Spellable.readsBack` — an operand is read off its words, whatever follows;
* `ComputedFields.Formula.spellable_of_parse` — what has been read with legible strings can be printed;
* `ComputedFields.Formula.parse_render_of_parse` — **what has been read is read again from its text**.
-/

import Mathlib
import ComputedFields.Proofs.Reading

set_option relaxedAutoImplicit false
set_option autoImplicit false

namespace ComputedFields

namespace Formula

open ComputedFields.Parser (Reads Stops stops_cons)

/-! ### Reading words -/

theorem stops_parenRight (power : Nat) (words : List Word) : Stops power (parenRight :: words) := by
  refine stops_cons.2 fun op hop => ?_
  cases hop

/-- An argument ends at the next comma, or at the parenthesis that closes the call. -/
theorem stops_wordsAfter (args : List Formula) (words : List Word) :
    Stops 0 (wordsAfter comma args ++ parenRight :: words) := by
  cases args with
  | nil => exact stops_parenRight 0 words
  | cons =>
      refine stops_cons.2 fun op hop => ?_
      cases hop

theorem stops_op (op : BinaryOp) (words : List Word) : Stops (op.power + 1) (op.word :: words) := by
  refine stops_cons.2 fun other hother => ?_
  rw [BinaryOp.word, op.ofToken?_tokenKind] at hother
  cases hother
  exact Nat.lt_succ_self _

/-- An operand is read off the words of the formula, and what follows them is left. -/
def ReadsBack (f : Formula) : Prop :=
  ∀ following : List Word, Reads (.operand f) (f.words ++ following) following

/-- No formula begins with a closing parenthesis. -/
theorem exists_words (f : Formula) :
    ∃ kind text others, f.words = (kind, text) :: others ∧ kind ≠ .parenRight := by
  cases f with
  | bool value => cases value <;> exact ⟨_, _, _, rfl, by decide⟩
  | number spelling => exact ⟨_, _, _, rfl, by decide⟩
  | text value => exact ⟨_, _, _, rfl, by decide⟩
  | null => exact ⟨_, _, _, rfl, by decide⟩
  | field id => exact ⟨_, _, _, rfl, by decide⟩
  | call callee args => exact ⟨_, _, _, rfl, by decide⟩
  | binary left op right => exact ⟨_, _, _, rfl, by decide⟩
  | unary op operand => exact ⟨_, _, _, rfl, by decide⟩
  | chain op operands => exact ⟨_, _, _, rfl, by decide⟩

variable {f left : Formula} {power : Nat} {following : List Word}

/-- An expression ends behind its operand where no operator follows. -/
theorem ReadsBack.expression (h : ReadsBack f) (hstops : Stops power following) :
    Reads (.expression power f) (f.words ++ following) following :=
  .expression (h following) (.stop hstops)

/-- The operands of a chain are read up to its closing parenthesis. -/
theorem reads_chain {op : BinaryOp} {others : List Formula} (hall : ∀ g ∈ f :: others, ReadsBack g) :
    Reads (.chain op (f :: others)) (f.words ++ (wordsAfter op.word others ++ parenRight :: following))
      (parenRight :: following) := by
  induction others generalizing f with
  | nil =>
      have hfirst := hall f List.mem_cons_self
      refine .lastOperand (hfirst.expression (stops_parenRight _ following)) ?_
      rintro _ ⟨⟩ hop
      cases hop
  | cons g others ih =>
      obtain ⟨hfirst, hothers⟩ := List.forall_mem_cons.1 hall
      simp only [wordsAfter, List.cons_append, List.append_assoc]
      exact .nextOperand (hfirst.expression (stops_op op _)) op.ofToken?_tokenKind (ih hothers)

/-- A run of one operator that is chained is read up to the closing parenthesis around it. -/
theorem reads_operators {op : BinaryOp} (hop : op.isChained = true) {others : List Formula}
    (hall : ∀ g ∈ f :: others, ReadsBack g) :
    Reads (.operators 0 left (.join op (left :: f :: others)))
      (op.word :: (f.words ++ (wordsAfter op.word others ++ parenRight :: following)))
      (parenRight :: following) :=
  .chained op.ofToken?_tokenKind (Nat.zero_le _) hop (reads_chain hall)
    (.stop (stops_parenRight 0 following))

/-- The arguments of a call behind the first are read up to its closing parenthesis. -/
theorem reads_arguments {args : List Formula} (hall : ∀ arg ∈ args, ReadsBack arg) :
    Reads (.arguments false args) (wordsAfter comma args ++ parenRight :: following) following := by
  induction args with
  | nil => exact .noArgument rfl
  | cons arg args ih =>
      obtain ⟨hfirst, hothers⟩ := List.forall_mem_cons.1 hall
      simp only [wordsAfter, List.cons_append, List.append_assoc]
      exact .nextArgument rfl (hfirst.expression (stops_wordsAfter args following)) (ih hothers)

/-- All arguments of a call are read up to its closing parenthesis. -/
theorem reads_allArguments {args : List Formula} (hall : ∀ arg ∈ args, ReadsBack arg) :
    Reads (.arguments true args) ((wordsAfter comma args).tail ++ parenRight :: following) following := by
  cases args with
  | nil => exact .noArgument rfl
  | cons arg args =>
      obtain ⟨hfirst, hothers⟩ := List.forall_mem_cons.1 hall
      have hread := hfirst.expression (stops_wordsAfter args following)
      -- the first word of the argument does not close the call
      obtain ⟨kind, text, others, hwords, hne⟩ := arg.exists_words
      simp only [wordsAfter, List.tail_cons, List.append_assoc]
      rw [hwords] at hread ⊢
      exact .firstArgument hne hread (reads_arguments hothers)

/-- What stands between parentheses is read as an expression. -/
theorem reads_parentheses {inner : List Word} (h : Reads (.expression 0 f) inner (parenRight :: following)) :
    Reads (.operand f) (parenLeft :: inner) following :=
  .parentheses rfl rfl h

/-! ### Every formula is read off its words -/

/-- The operand of a unary operator binds as tightly as it must, being followed by a parenthesis. -/
theorem readsBack_unary {op : UnaryOp} (h : ReadsBack f) : ReadsBack (.unary op f) := by
  intro following
  simp only [words, List.cons_append, List.append_assoc, List.nil_append]
  have hinner := h.expression (stops_parenRight op.power following)
  refine reads_parentheses (.expression ?_ (.stop (stops_parenRight 0 following)))
  exact .unary rfl hinner

/-- An operator that is not chained has one operand on its right. -/
theorem readsBack_binary {left right : Formula} {op : BinaryOp} (hleft : ReadsBack left)
    (hright : ReadsBack right) : ReadsBack (.binary left op right) := by
  intro following
  simp only [words, List.cons_append, List.append_assoc, List.nil_append]
  refine reads_parentheses (.expression (hleft _) ?_)
  by_cases hop : op.isChained = true
  · have hall : ∀ g ∈ [right], ReadsBack g := by simpa using hright
    exact reads_operators hop hall
  · have hright := hright.expression (stops_parenRight (op.power + 1) following)
    exact .binary op.ofToken?_tokenKind (Nat.zero_le _) (by simpa using hop) hright
      (.stop (stops_parenRight 0 following))

theorem readsBack_chain {op : BinaryOp} {operands : List Formula} (hop : op.isChained = true)
    (hlength : 2 < operands.length) (hall : ∀ f ∈ operands, ReadsBack f) :
    ReadsBack (.chain op operands) := by
  intro following
  match operands with
  | [] | [_] | [_, _] => simp at hlength
  | f :: g :: h :: others =>
      obtain ⟨hfirst, hothers⟩ := List.forall_mem_cons.1 hall
      have hread : Reads (.operators 0 f (.chain op (f :: g :: h :: others))) _ (parenRight :: following) :=
        reads_operators hop hothers
      simp only [words, wordsAfter, List.tail_cons, List.cons_append, List.append_assoc,
        List.nil_append] at hread ⊢
      exact reads_parentheses (.expression (hfirst _) hread)

theorem readsBack_call {callee : Callee} {args : List Formula}
    (hname : Callee.ofName callee.name = callee) (hall : ∀ arg ∈ args, ReadsBack arg) :
    ReadsBack (.call callee args) := by
  intro following
  simp only [words, List.cons_append, List.append_assoc, List.nil_append]
  have hcontents : String.ofList (Word.contents (.identifier, callee.name.toList)) = callee.name := by
    simp [Word.contents, TokenKind.isDelimited]
  have hcallee : callee = .ofName (String.ofList (Word.contents (.identifier, callee.name.toList))) := by
    rw [hcontents, hname]
  nth_rewrite 1 [hcallee]
  exact .call rfl rfl (reads_allArguments hall)

/-- A formula of one word is read off this word. -/
theorem readsBack_word {word : Word} (hwords : f.words = [word]) (h : word.leaf? = some f) :
    ReadsBack f := by
  intro following
  rw [hwords]
  exact .leaf h

/-- **An operand is read off the words of a formula**, whatever follows them. -/
theorem Spellable.readsBack (h : f.Spellable) : ReadsBack f := by
  induction h with
  | bool value =>
      cases value with
      | true => exact readsBack_word rfl rfl
      | false => exact readsBack_word rfl rfl
  | null => exact readsBack_word rfl rfl
  | number =>
      refine readsBack_word rfl ?_
      simp [Word.leaf?, Word.contents, TokenKind.isDelimited]
  | text hspelled =>
      refine readsBack_word rfl ?_
      have hvalue := unescape_flatMap hspelled
      simp [Word.leaf?, Word.contents, TokenKind.isDelimited, hvalue]
  | field hbrace htrim =>
      refine readsBack_word rfl ?_
      simp [Word.leaf?, Word.contents, TokenKind.isDelimited, htrim]
  | call _ hcallee _ ih => exact readsBack_call hcallee ih
  | unary _ ih => exact readsBack_unary ih
  | binary _ _ ihl ihr => exact readsBack_binary ihl ihr
  | chain hop hlength _ ih => exact readsBack_chain hop hlength ih

/-- **The text of a formula is read as the formula.** -/
theorem Spellable.parse_render (h : f.Spellable) : Formula.parse f.render = .ok f := by
  have hread : Reads (.expression 0 f) (f.words ++ []) [] := h.readsBack.expression (.nil 0)
  rw [List.append_nil] at hread
  exact parse_eq_ok_iff.2 ⟨f.words, h.scan, hread⟩

end Formula

/-! ### What has been read can be printed -/

namespace Text

/-- Trimming takes characters away. -/
theorem mem_of_mem_trimChars {c : Char} {text : List Char} (h : c ∈ trimChars text) : c ∈ text := by
  unfold trimChars at h
  rw [List.mem_reverse] at h
  have hreverse := (List.dropWhile_suffix isSpace).subset h
  rw [List.mem_reverse] at hreverse
  exact (List.dropWhile_suffix isSpace).subset hreverse

/-- Trimming twice is trimming once: what is trimmed on the right keeps the character on the left. -/
theorem trimChars_trimChars (text : List Char) : trimChars (trimChars text) = trimChars text := by
  have hright : ∀ cs, trimChars cs = (cs.dropWhile isSpace).rdropWhile isSpace := fun _ => rfl
  have hleft : (trimChars text).dropWhile isSpace = trimChars text := by
    rw [List.dropWhile_eq_self_iff]
    intro hlength
    have hbegin : trimChars text <+: text.dropWhile isSpace := List.rdropWhile_prefix _ _
    rw [hbegin.getElem hlength]
    exact List.dropWhile_get_zero_not isSpace text (hlength.trans_le hbegin.length_le)
  rw [hright (trimChars text), hleft, hright, List.rdropWhile_idempotent]

/-- The character is printed as it is, or by one of the escapes that the reader knows. -/
def isLegible (c : Char) : Bool :=
  spell c ∈ [[c], ['\\', '"'], ['\\', '\\'], ['\\', 'n'], ['\\', 't']]

/-- A legible character is read as it has been printed. -/
theorem spelledBy_of_isLegible {c : Char} (h : isLegible c = true) : SpelledBy '"' spell c := by
  have hlegible := of_decide_eq_true h
  suffices hspell : QuotedPiece '"' (spell c) ∧ unescape (spell c) = [c] from ⟨hspell.1, hspell.2⟩
  revert hlegible
  unfold spell
  split
  · exact fun hlegible => absurd hlegible (by simp)
  split
  · next htab => exact fun _ => ⟨.escaped 't', by rw [htab]; rfl⟩
  split
  · exact fun hlegible => absurd hlegible (by simp)
  split
  · next hline => exact fun _ => ⟨.escaped 'n', by rw [hline]; rfl⟩
  split
  · next hquote => exact fun _ => ⟨.escaped '"', by rw [hquote]; rfl⟩
  split
  · next hescape => exact fun _ => ⟨.escaped '\\', by rw [hescape]; rfl⟩
  split
  · exact fun hlegible => absurd hlegible (by simp [codePoint])
  · next hquote hescape _ => exact fun _ => ⟨.plain hquote hescape, by simp [unescape, hescape]⟩

end Text

/-- The names of the catalogue are names of formulas, and each is the name of its function. -/
theorem Function.isName_name :
    ∀ f ∈ Function.all, isName f.name.toList = true ∧ Function.ofName? f.name = some f := by
  decide +kernel

/-- The name of a callee is a name, and names the callee. -/
theorem Callee.ofName_name {spelling : String} (h : isName spelling.toList = true) :
    isName (Callee.ofName spelling).name.toList = true ∧
      Callee.ofName (Callee.ofName spelling).name = Callee.ofName spelling := by
  unfold Callee.ofName
  cases hfind : Function.ofName? spelling with
  | none => exact ⟨h, by simp only [Callee.name, Callee.signature, hfind]⟩
  | some f =>
      obtain ⟨hname, hof⟩ := Function.isName_name f f.mem_all
      have hof' : Function.ofName? f.signature.name = some f := hof
      exact ⟨hname, by simp only [Callee.name, Callee.signature, hof']⟩

namespace Formula

/-- All strings of the formula are made of legible characters. -/
def LegibleTexts (f : Formula) : Prop :=
  ∀ value, Part (.text value) f → ∀ c ∈ value.toList, Text.isLegible c = true

theorem LegibleTexts.of_part {part f : Formula} (h : f.LegibleTexts) (hpart : Part part f) :
    part.LegibleTexts :=
  fun value hvalue => h value (hvalue.trans hpart)

/-- The reader keeps the formulas that can be printed if their strings are legible. -/
theorem keeps_spellable :
    Parser.Keeps Token.WellSpelled fun f => f.LegibleTexts → f.Spellable where
  bool value _ := .bool value
  null _ := .null
  number := by
    intro token htoken hkind _
    have htext : token.contents = token.text := by simp [Token.contents, hkind, TokenKind.isDelimited]
    unfold Token.WellSpelled at htoken
    rw [hkind] at htoken
    rw [htext]
    exact .number (by simpa using htoken.1) (by simpa using htoken.2)
  text _ hlegible := .text fun c hc => Text.spelledBy_of_isLegible (hlegible _ .self c hc)
  field := by
    intro token htoken hkind _
    unfold Token.WellSpelled at htoken
    rw [hkind] at htoken
    obtain ⟨id, htext, hbrace⟩ := htoken
    have hcontents : token.contents = id := by
      simp [Token.contents, hkind, TokenKind.isDelimited, htext]
    rw [hcontents]
    refine .field ?_ ?_
    · rw [String.toList_ofList]
      exact fun hmem => hbrace (Text.mem_of_mem_trimChars hmem)
    · rw [String.toList_ofList, Text.trimChars_trimChars]
  call := by
    intro token args htoken hkind hargs hlegible
    have htext : token.contents = token.text := by simp [Token.contents, hkind, TokenKind.isDelimited]
    unfold Token.WellSpelled at htoken
    rw [hkind] at htoken
    have hname : isName (String.ofList token.text).toList = true := by
      rw [String.toList_ofList]
      exact htoken
    rw [htext] at hlegible ⊢
    obtain ⟨hspelled, hcallee⟩ := Callee.ofName_name hname
    exact .call hspelled hcallee fun arg harg => hargs arg harg (hlegible.of_part (.call harg .self))
  unary hoperand hlegible := .unary (hoperand (hlegible.of_part (.operand .self)))
  binary hleft hright hlegible :=
    .binary (hleft (hlegible.of_part (.left .self))) (hright (hlegible.of_part (.right .self)))
  chain hop hlength hall hlegible := .chain hop hlength fun operand hmem =>
    hall operand hmem (hlegible.of_part (.chain hmem .self))

/-- What has been read can be printed, if its strings are legible. -/
theorem spellable_of_parse {source : String} {f : Formula} (h : Formula.parse source = .ok f)
    (hlegible : f.LegibleTexts) : f.Spellable :=
  of_parse keeps_spellable h hlegible

/-- **What has been read is read again from its text**, if its strings are legible: printing loses
nothing, no two such formulas have one text, and printing again gives the same text. -/
theorem parse_render_of_parse {source : String} {f : Formula} (h : Formula.parse source = .ok f)
    (hlegible : f.LegibleTexts) :
    Formula.parse f.render = .ok f ∧
      (∀ {other : String} {g : Formula}, Formula.parse other = .ok g → g.LegibleTexts →
        g.render = f.render → g = f) ∧
      ∀ {g : Formula}, Formula.parse f.render = .ok g → g.render = f.render := by
  have hparse := (spellable_of_parse h hlegible).parse_render
  refine ⟨hparse, ?_, ?_⟩
  · intro other g hother hlegible' hrender
    have hread := (spellable_of_parse hother hlegible').parse_render
    rw [hrender, hparse] at hread
    exact (Except.ok.inj hread).symm
  · intro g hread
    rw [hparse] at hread
    rw [Except.ok.inj hread]

/-- A chain of a number, a negation and a string that ends in a line feed. -/
def sampleChain : Formula :=
  .chain .concat [.number ".5", .unary .neg (.field "a"), .text "x\n"]

theorem parse_sampleChain : Formula.parse ".5&-\x7b a \x7d &'x\\n'" = .ok sampleChain := by cbv

theorem legibleTexts_sampleChain : sampleChain.LegibleTexts := by
  have hletter : Text.spell 'x' = ['x'] := by decide +kernel
  have hlegible : ∀ c ∈ ['x', '\n'], Text.isLegible c = true := by
    rw [List.forall_mem_cons, List.forall_mem_singleton]
    exact ⟨by simp [Text.isLegible, hletter], by decide⟩
  rintro value (_ | _ | _ | _ | _ | ⟨hmem, hpart⟩)
  simp only [List.mem_cons, List.not_mem_nil, or_false] at hmem
  rcases hmem with rfl | rfl | rfl
  · cases hpart
  · cases hpart with
    | operand hpart => cases hpart
  · cases hpart
    exact hlegible

theorem parse_render_of_parse_sampleChain :
    Formula.parse "(.5 & (-\x7ba\x7d) & \"x\\n\")" = .ok sampleChain := by
  have hrender : sampleChain.render = "(.5 & (-\x7ba\x7d) & \"x\\n\")" := by decide +kernel
  rw [← hrender]
  exact (parse_render_of_parse parse_sampleChain legibleTexts_sampleChain).1

end Formula

end ComputedFields
