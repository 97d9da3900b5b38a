/-
**What the reader makes of the words of a source.**

The reader puts formulas together in few ways.  A property of formulas that holds of the literals,
references and names of words of the right form, and that operators, calls and chains keep, holds of every
formula that is read.  The argument follows the grammar, where each rule is one way to put a formula
together.

Main definitions:

* `ComputedFields.Parser.Keeps` — a property of formulas that the reader keeps.

Main results:

* `ComputedFields.Parser.Keeps.of_reads` — what words that follow the grammar keep;
* `ComputedFields.Formula.of_parse` — **a property that the reader keeps holds of what it reads**;
* `ComputedFields.Formula.part_of_parse` — and of all the parts of it.
-/

import ComputedFields.Proofs.Grammar

set_option relaxedAutoImplicit false
set_option autoImplicit false

namespace ComputedFields

namespace Parser

/-- The reader keeps the property `P` of formulas on tokens with the property `T`: it holds of what is
read off one such token, and of what is put together from formulas that have it. -/
structure Keeps (T : Token → Prop) (P : Formula → Prop) : Prop where
  bool : ∀ value, P (.bool value)
  null : P .null
  number : ∀ {token : Token}, T token → token.kind = .number →
    P (.number (String.ofList token.contents))
  text : ∀ {token : Token}, T token → P (.text (String.ofList (unescape token.contents)))
  field : ∀ {token : Token}, T token → token.kind = .fieldRef →
    P (.field (String.ofList (Text.trimChars token.contents)))
  call : ∀ {token : Token} {args : List Formula}, T token → token.kind = .identifier →
    (∀ arg ∈ args, P arg) → P (.call (.ofName (String.ofList token.contents)) args)
  unary : ∀ {op : UnaryOp} {operand : Formula}, P operand → P (.unary op operand)
  binary : ∀ {left right : Formula} {op : BinaryOp}, P left → P right → P (.binary left op right)
  /-- A chain has one of the operators that are chained, and at least three operands. -/
  chain : ∀ {op : BinaryOp} {operands : List Formula}, op.isChained = true → 2 < operands.length →
    (∀ operand ∈ operands, P operand) → P (.chain op operands)

variable {T : Token → Prop} {P : Formula → Prop}

/-- Two operands and more are joined. -/
theorem Keeps.join (h : Keeps T P) {op : BinaryOp} (hop : op.isChained = true)
    {operands : List Formula} (hlength : 1 < operands.length) (hall : ∀ f ∈ operands, P f) :
    P (.join op operands) := by
  match operands with
  | [left, right] => exact h.binary (hall _ (by simp)) (hall _ (by simp))
  | [_] => simp at hlength
  | _ :: _ :: _ :: _ => exact h.chain hop (by simp) hall

/-- What is read off a single word has the property. -/
theorem Keeps.leaf (h : Keeps Token.WellSpelled P) {word : Word} {f : Formula}
    (hword : WellSpelled word.1 word.2) (hleaf : word.leaf? = some f) : P f := by
  -- a word is what matters of a token
  have htoken : Token.WellSpelled ⟨word.1, 0, word.2⟩ := hword
  unfold Word.leaf? at hleaf
  split at hleaf
  case h_1 hkind =>
    cases hleaf
    exact h.number htoken hkind
  case h_2 =>
    cases hleaf
    exact h.text htoken
  case h_3 =>
    cases hleaf
    exact h.text htoken
  case h_4 =>
    cases hleaf
    exact h.bool true
  case h_5 =>
    cases hleaf
    exact h.bool false
  case h_6 =>
    cases hleaf
    exact h.null
  case h_7 hkind =>
    cases hleaf
    exact h.field htoken hkind
  case h_8 => cases hleaf

/-- What is asked of a reader has the property, if a left operand has it. -/
def Goal.Has (P : Formula → Prop) : Goal → Prop
  | .expression _ f => P f
  | .operand f => P f
  | .operators _ left f => P left → P f
  | .chain _ operands => operands ≠ [] ∧ ∀ f ∈ operands, P f
  | .arguments _ args => ∀ f ∈ args, P f

/-- **What is read off words of the right form has the property.** -/
theorem Keeps.of_reads (h : Keeps Token.WellSpelled P) {goal : Goal} {words rest : List Word}
    (hread : Reads goal words rest) (hwords : ∀ word ∈ words, WellSpelled word.1 word.2) :
    goal.Has P := by
  induction hread with
  | expression hleft _ ihl iho =>
      exact iho (fun word hword => hwords word (hleft.suffix.subset hword)) (ihl hwords)
  | leaf hleaf => exact h.leaf (hwords _ List.mem_cons_self) hleaf
  | parentheses _ _ _ ih => exact ih (List.forall_mem_cons.1 hwords).2
  | unary _ _ ih => exact h.unary (ih (List.forall_mem_cons.1 hwords).2)
  | @call name left args words rest hname _ _ ih =>
      obtain ⟨hspelled, hbehind⟩ := List.forall_mem_cons.1 hwords
      have htoken : Token.WellSpelled ⟨name.1, 0, name.2⟩ := hspelled
      exact h.call htoken hname (ih (List.forall_mem_cons.1 hbehind).2)
  | stop _ => exact id
  | @chained word op power left f others words mid rest _ _ hchained hchain _ ihc iho =>
      have hbehind := (List.forall_mem_cons.1 hwords).2
      obtain ⟨hne, hall⟩ := ihc hbehind
      intro hleft
      have hlength : 1 < (left :: others).length := by
        have := List.length_pos_of_ne_nil hne
        rw [List.length_cons]
        omega
      exact iho (fun word hword => hbehind word (hchain.suffix.subset hword))
        (h.join hchained hlength (List.forall_mem_cons.2 ⟨hleft, hall⟩))
  | binary _ _ _ hright _ ihr iho =>
      have hbehind := (List.forall_mem_cons.1 hwords).2
      intro hleft
      exact iho (fun word hword => hbehind word (hright.suffix.subset hword))
        (h.binary hleft (ihr hbehind))
  | lastOperand _ _ ih => exact ⟨by simp, by simpa [Goal.Has] using ih hwords⟩
  | nextOperand hfirst _ _ ihf iho =>
      have hbehind := fun word hword => hwords word (hfirst.suffix.subset hword)
      obtain ⟨-, hall⟩ := iho (List.forall_mem_cons.1 hbehind).2
      exact ⟨by simp, List.forall_mem_cons.2 ⟨ihf hwords, hall⟩⟩
  | noArgument _ => exact List.forall_mem_nil _
  | firstArgument _ hfirst _ iha iho =>
      have hbehind := fun word hword => hwords word (hfirst.suffix.subset hword)
      exact List.forall_mem_cons.2 ⟨iha hwords, iho hbehind⟩
  | nextArgument _ hfirst _ iha iho =>
      have hafter := (List.forall_mem_cons.1 hwords).2
      have hbehind := fun word hword => hafter word (hfirst.suffix.subset hword)
      exact List.forall_mem_cons.2 ⟨iha hafter, iho hbehind⟩

end Parser

/-- **A property that the reader keeps holds of what it reads.** -/
theorem Formula.of_parse {P : Formula → Prop} (h : Parser.Keeps Token.WellSpelled P) {source : String}
    {f : Formula} (hparse : Formula.parse source = .ok f) : P f := by
  obtain ⟨words, ⟨-, rfl⟩, hread⟩ := parse_eq_ok_iff.1 hparse
  refine h.of_reads hread fun word hword => ?_
  obtain ⟨token, htoken, rfl⟩ := List.mem_map.1 hword
  exact wellSpelled_of_scan _ token htoken

open Formula in
/-- A property that the reader keeps is kept of all the parts of a formula. -/
theorem Parser.Keeps.parts {T : Token → Prop} {P : Formula → Prop} (h : Keeps T P) :
    Keeps T fun f => ∀ part, Part part f → P part where
  bool value := by
    rintro part (_ | _)
    exact h.bool value
  null := by
    rintro part (_ | _)
    exact h.null
  number htoken hkind := by
    rintro part (_ | _)
    exact h.number htoken hkind
  text htoken := by
    rintro part (_ | _)
    exact h.text htoken
  field htoken hkind := by
    rintro part (_ | _)
    exact h.field htoken hkind
  call htoken hkind hargs := by
    intro part hpart
    cases hpart with
    | self => exact h.call htoken hkind fun arg harg => hargs arg harg arg .self
    | call hmem hpart => exact hargs _ hmem part hpart
  unary hoperand := by
    intro part hpart
    cases hpart with
    | self => exact h.unary (hoperand _ .self)
    | operand hpart => exact hoperand part hpart
  binary hleft hright := by
    intro part hpart
    cases hpart with
    | self => exact h.binary (hleft _ .self) (hright _ .self)
    | left hpart => exact hleft part hpart
    | right hpart => exact hright part hpart
  chain hop hlength hall := by
    intro part hpart
    cases hpart with
    | self => exact h.chain hop hlength fun operand hmem => hall operand hmem operand .self
    | chain hmem hpart => exact hall _ hmem part hpart

/-- **A property that the reader keeps holds of all the parts of what it reads.** -/
theorem Formula.part_of_parse {P : Formula → Prop} (h : Parser.Keeps Token.WellSpelled P)
    {source : String} {f part : Formula} (hparse : Formula.parse source = .ok f)
    (hpart : Formula.Part part f) : P part :=
  Formula.of_parse h.parts hparse part hpart

end ComputedFields
