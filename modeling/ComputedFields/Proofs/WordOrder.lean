/-
**The words of a source stand in its formula, in their order.**

A formula has its words in it: literals, references, the names of calls and the signs of operators.  Read
off the tree from left to right, with the name of a call before its arguments, a sign before or between its
operands, and the sign of a chain between any two neighbours, they are the words of the source, but for
parentheses and commas.  So the reader loses no word, reads none twice, and lets no operand of one chain or
call slip into another, however they are nested.

The argument follows the grammar.  Every reader takes words off the front, and what it makes of them says
what they say; the operators after a left operand add their words to those of the operand.

Main definitions:

* `ComputedFields.Item`, `ComputedFields.Word.item` — what a word says;
* `ComputedFields.spoken` — what words say, parentheses and commas aside;
* `ComputedFields.Formula.items` — what a formula says, from left to right;
* `ComputedFields.Formula.LongChains` — chains are sums or concatenations of three operands or more.

Main results:

* `ComputedFields.Parser.Reads.says` — every reader takes words that say what it makes of them;
* `ComputedFields.Formula.longChains_of_parse` — the chains of a formula that has been read;
* `ComputedFields.Formula.parse_keeps_words` — **a formula that has been read says what its source says**.
-/

import Mathlib
import ComputedFields.Proofs.Reading

set_option relaxedAutoImplicit false
set_option autoImplicit false

namespace ComputedFields

/-! ### What words say -/

/-- What a word says: a value, a reference, a name, or a sign. -/
inductive Item where
  | bool (value : Bool)
  | number (spelling : String)
  | text (value : String)
  | null
  | field (id : String)
  | callee (callee : Callee)
  | sign (kind : TokenKind)
  deriving DecidableEq

namespace Word

/-- What the word says. -/
def item (word : Word) : Item :=
  match word.1 with
  | .number => .number (String.ofList word.contents)
  | .singleQuoted | .doubleQuoted => .text (String.ofList (unescape word.contents))
  | .true => .bool true
  | .false => .bool false
  | .null => .null
  | .fieldRef => .field (String.ofList (Text.trimChars word.contents))
  | .identifier => .callee (.ofName (String.ofList word.contents))
  | kind => .sign kind

/-- Parentheses and commas. -/
def isPunctuation (word : Word) : Bool :=
  match word.1 with
  | .parenLeft | .parenRight | .comma => true
  | _ => false

end Word

/-- What words say one after the other, parentheses and commas aside. -/
def spoken (words : List Word) : List Item :=
  (words.filter fun word => !word.isPunctuation).map Word.item

@[simp] theorem spoken_nil : spoken [] = [] := rfl

@[simp] theorem spoken_append (words others : List Word) :
    spoken (words ++ others) = spoken words ++ spoken others := by
  simp [spoken]

theorem spoken_cons_of_isPunctuation {word : Word} (h : word.isPunctuation = true) (words : List Word) :
    spoken (word :: words) = spoken words := by
  simp [spoken, h]

theorem spoken_cons {word : Word} (h : word.isPunctuation = false) (words : List Word) :
    spoken (word :: words) = word.item :: spoken words := by
  simp [spoken, h]

/-! ### What formulas say -/

namespace Formula

mutual

/-- What a formula says, from left to right. -/
def items : Formula → List Item
  | .bool value => [.bool value]
  | .number spelling => [.number spelling]
  | .text value => [.text value]
  | .null => [.null]
  | .field id => [.field id]
  | .call callee args => .callee callee :: itemsOfAll args
  | .binary left op right => left.items ++ .sign op.tokenKind :: right.items
  | .unary op operand => .sign op.tokenKind :: operand.items
  | .chain _ [] => []
  | .chain op (first :: others) => first.items ++ itemsAfter op others

/-- What formulas say one after the other. -/
def itemsOfAll : List Formula → List Item
  | [] => []
  | f :: rest => f.items ++ itemsOfAll rest

/-- What formulas say with the sign of an operator before each of them. -/
def itemsAfter (op : BinaryOp) : List Formula → List Item
  | [] => []
  | f :: rest => .sign op.tokenKind :: (f.items ++ itemsAfter op rest)

end

theorem items_join (op : BinaryOp) (left : Formula) (others : List Formula) :
    (join op (left :: others)).items = left.items ++ itemsAfter op others := by
  match others with
  | [] => simp [join, items, itemsAfter]
  | [right] => simp [join, items, itemsAfter]
  | _ :: _ :: _ => simp [join, items]

end Formula

theorem Word.leaf?_items {word : Word} {f : Formula} (h : word.leaf? = some f) :
    word.isPunctuation = false ∧ f.items = [word.item] := by
  unfold Word.leaf? at h
  split at h <;> cases h
  all_goals
    next hkind => simp [Word.isPunctuation, Word.item, Formula.items, hkind]

theorem BinaryOp.kind_of_ofToken? {kind : TokenKind} {op : BinaryOp}
    (h : BinaryOp.ofToken? kind = some op) : kind = op.tokenKind := by
  cases kind <;> cases h <;> rfl

theorem BinaryOp.spoken_cons {word : Word} {op : BinaryOp} (h : BinaryOp.ofToken? word.1 = some op)
    (words : List Word) : spoken (word :: words) = .sign op.tokenKind :: spoken words := by
  have hkind := BinaryOp.kind_of_ofToken? h
  have hitem : word.item = .sign op.tokenKind ∧ word.isPunctuation = false := by
    cases op <;> simp [Word.item, Word.isPunctuation, hkind, BinaryOp.tokenKind]
  rw [ComputedFields.spoken_cons hitem.2, hitem.1]

theorem UnaryOp.spoken_cons {word : Word} {op : UnaryOp} (h : word.1 = op.tokenKind)
    (words : List Word) : spoken (word :: words) = .sign op.tokenKind :: spoken words := by
  have hitem : word.item = .sign op.tokenKind ∧ word.isPunctuation = false := by
    cases op <;> simp [Word.item, Word.isPunctuation, h, UnaryOp.tokenKind]
  rw [ComputedFields.spoken_cons hitem.2, hitem.1]

/-! ### What the readers make of words says what the words say -/

namespace Parser

open Formula (items itemsOfAll itemsAfter items_join)

/-- What a reader makes of words that say so much. -/
def Goal.Says : Goal → List Item → Prop
  | .expression _ f, said => f.items = said
  | .operand f, said => f.items = said
  | .operators _ left f, said => f.items = left.items ++ said
  | .chain op operands, said => ∀ left : Formula,
      (Formula.join op (left :: operands)).items = left.items ++ .sign op.tokenKind :: said
  | .arguments _ args, said => itemsOfAll args = said

/-- **Every reader takes words off the front that say what it makes of them.** -/
theorem Reads.says {goal : Goal} {words rest : List Word} (h : Reads goal words rest) :
    ∃ taken, words = taken ++ rest ∧ goal.Says (spoken taken) := by
  induction h with
  | expression _ _ ihl iho =>
      obtain ⟨first, rfl, hfirst⟩ := ihl
      obtain ⟨second, rfl, hsecond⟩ := iho
      refine ⟨first ++ second, by simp, ?_⟩
      simp only [Goal.Says] at *
      rw [spoken_append, hsecond, hfirst]
  | @leaf word f rest hleaf =>
      obtain ⟨hpunctuation, hitems⟩ := Word.leaf?_items hleaf
      refine ⟨[word], rfl, ?_⟩
      simp only [Goal.Says]
      rw [spoken_cons hpunctuation, hitems, spoken_nil]
  | @parentheses left right f words rest hleft hright _ ih =>
      obtain ⟨inner, rfl, hinner⟩ := ih
      refine ⟨left :: (inner ++ [right]), by simp, ?_⟩
      simp only [Goal.Says] at *
      have hopen : left.isPunctuation = true := by simp [Word.isPunctuation, hleft]
      have hclose : right.isPunctuation = true := by simp [Word.isPunctuation, hright]
      rw [spoken_cons_of_isPunctuation hopen, spoken_append, spoken_cons_of_isPunctuation hclose, hinner,
        spoken_nil, List.append_nil]
  | @unary word op f words rest hop _ ih =>
      obtain ⟨inner, rfl, hinner⟩ := ih
      refine ⟨word :: inner, rfl, ?_⟩
      simp only [Goal.Says] at *
      rw [UnaryOp.spoken_cons hop, items, hinner]
  | @call name left args words rest hname hleft _ ih =>
      obtain ⟨inner, rfl, hinner⟩ := ih
      refine ⟨name :: left :: inner, rfl, ?_⟩
      simp only [Goal.Says] at *
      have hopen : left.isPunctuation = true := by simp [Word.isPunctuation, hleft]
      have hitem : name.item = .callee (.ofName (String.ofList name.contents)) ∧
          name.isPunctuation = false := by
        simp [Word.item, Word.isPunctuation, hname]
      rw [spoken_cons hitem.2, hitem.1, spoken_cons_of_isPunctuation hopen, items, hinner]
  | stop _ => exact ⟨[], rfl, by simp [Goal.Says]⟩
  | @chained word op power left f others words mid rest hop _ _ _ _ ihc iho =>
      obtain ⟨first, rfl, hfirst⟩ := ihc
      obtain ⟨second, rfl, hsecond⟩ := iho
      refine ⟨word :: (first ++ second), by simp, ?_⟩
      simp only [Goal.Says] at *
      rw [BinaryOp.spoken_cons hop, spoken_append, hsecond, hfirst]
      simp
  | @binary word op power left right f words mid rest hop _ _ _ _ ihr iho =>
      obtain ⟨first, rfl, hfirst⟩ := ihr
      obtain ⟨second, rfl, hsecond⟩ := iho
      refine ⟨word :: (first ++ second), by simp, ?_⟩
      simp only [Goal.Says] at *
      rw [BinaryOp.spoken_cons hop, spoken_append, hsecond, items, hfirst]
      simp
  | lastOperand _ _ ih =>
      obtain ⟨first, rfl, hfirst⟩ := ih
      refine ⟨first, rfl, ?_⟩
      simp only [Goal.Says] at *
      intro left
      rw [items_join, itemsAfter, hfirst, itemsAfter, List.append_nil]
  | @nextOperand op f others word words mid rest _ hop _ ihf iho =>
      obtain ⟨first, rfl, hfirst⟩ := ihf
      obtain ⟨second, rfl, hsecond⟩ := iho
      refine ⟨first ++ word :: second, by simp, ?_⟩
      simp only [Goal.Says] at *
      intro left
      have hothers := hsecond .null
      rw [items_join] at hothers
      rw [items_join, itemsAfter, List.append_cancel_left hothers, hfirst, spoken_append,
        BinaryOp.spoken_cons hop]
  | @noArgument isFirst word rest hclose =>
      refine ⟨[word], rfl, ?_⟩
      have hpunctuation : word.isPunctuation = true := by simp [Word.isPunctuation, hclose]
      simp only [Goal.Says]
      rw [spoken_cons_of_isPunctuation hpunctuation, itemsOfAll, spoken_nil]
  | firstArgument _ _ _ iha iho =>
      obtain ⟨first, hwords, hfirst⟩ := iha
      obtain ⟨second, rfl, hsecond⟩ := iho
      refine ⟨first ++ second, by rw [hwords, List.append_assoc], ?_⟩
      simp only [Goal.Says] at *
      rw [itemsOfAll, hfirst, hsecond, spoken_append]
  | @nextArgument arg others word words mid rest hcomma _ _ iha iho =>
      obtain ⟨first, rfl, hfirst⟩ := iha
      obtain ⟨second, rfl, hsecond⟩ := iho
      refine ⟨word :: (first ++ second), by simp, ?_⟩
      have hpunctuation : word.isPunctuation = true := by simp [Word.isPunctuation, hcomma]
      simp only [Goal.Says] at *
      rw [spoken_cons_of_isPunctuation hpunctuation, itemsOfAll, hfirst, hsecond, spoken_append]

end Parser

/-! ### Formulas that have been read -/

namespace Formula

/-- All chains of the formula are sums or concatenations of three operands or more. -/
def LongChains (f : Formula) : Prop :=
  ∀ op operands, Part (.chain op operands) f → (op = .add ∨ op = .concat) ∧ 3 ≤ operands.length

theorem eq_of_isChained {op : BinaryOp} (h : op.isChained = true) : op = .add ∨ op = .concat := by
  cases op <;> simp [BinaryOp.isChained] at h ⊢

/-- The reader makes a chain of three operands or more. -/
theorem keeps_longChain : Parser.Keeps Token.WellSpelled fun f =>
    ∀ op operands, f = .chain op operands → (op = .add ∨ op = .concat) ∧ 3 ≤ operands.length where
  bool _ := by
    rintro op operands ⟨⟩
  null := by
    rintro op operands ⟨⟩
  number _ _ := by
    rintro op operands ⟨⟩
  text _ := by
    rintro op operands ⟨⟩
  field _ _ := by
    rintro op operands ⟨⟩
  call _ _ _ := by
    rintro op operands ⟨⟩
  unary _ := by
    rintro op operands ⟨⟩
  binary _ _ := by
    rintro op operands ⟨⟩
  chain hop hlength _ := by
    rintro op operands ⟨⟩
    exact ⟨eq_of_isChained hop, hlength⟩

theorem longChains_of_parse {source : String} {f : Formula} (h : Formula.parse source = .ok f) :
    f.LongChains :=
  fun op operands hpart => part_of_parse keeps_longChain h hpart op operands rfl

/-- **A formula that has been read says what its source says**: read off from left to right it gives the
words of the source but for parentheses and commas, and its chains are sums or concatenations of three
operands or more. -/
theorem parse_keeps_words {source : String} {f : Formula} (h : Formula.parse source = .ok f) :
    (scan source.toList).fault = none ∧
      spoken ((scan source.toList).tokens.map Token.word) = f.items ∧ f.LongChains := by
  obtain ⟨words, ⟨hfault, hwords⟩, hread⟩ := parse_eq_ok_iff.1 h
  obtain ⟨taken, htaken, hsays⟩ := Parser.Reads.says hread
  obtain rfl : words = taken := by simpa using htaken
  refine ⟨hfault, ?_, longChains_of_parse h⟩
  rw [hwords]
  exact hsays.symm

end Formula

namespace Sample

/-- A sum with a call and a concatenation in it, as the argument of a call. -/
def nestedChains : Formula :=
  .call (.known (.logical .ifElse))
    [.unary .not (.field "a"),
      .chain .add [.number "1", .call (.known (.numeric .sum)) [.field "b", .unary .neg (.number "2")],
        .chain .concat [.number "3", .text "x", .field "c"]],
      .null]

/-- The words of two chains, one in the other, with a call between them. -/
theorem parse_nestedChains_keeps_words :
    Formula.parse "IF(!\x7ba\x7d, 1 + SUM(\x7bb\x7d, -2) + (3 & 'x' & \x7bc\x7d), NULL)" =
        .ok nestedChains ∧
      spoken ((scan "IF(!\x7ba\x7d, 1 + SUM(\x7bb\x7d, -2) + (3 & 'x' & \x7bc\x7d), NULL)".toList).tokens.map
          Token.word) =
        [.callee (.known (.logical .ifElse)), .sign .bang, .field "a", .number "1", .sign .plus,
          .callee (.known (.numeric .sum)), .field "b", .sign .minus, .number "2", .sign .plus,
          .number "3", .sign .ampersand, .text "x", .sign .ampersand, .field "c", .null] ∧
      nestedChains.LongChains := by
  have hparse :
      Formula.parse "IF(!\x7ba\x7d, 1 + SUM(\x7bb\x7d, -2) + (3 & 'x' & \x7bc\x7d), NULL)" =
        .ok nestedChains := by cbv
  obtain ⟨-, hwords, hchains⟩ := Formula.parse_keeps_words hparse
  exact ⟨hparse, hwords.trans rfl, hchains⟩

end Sample

end ComputedFields
