/-
**How operators bind.**

A source without parentheses around its operators is a row: an operand, and then operations, each an
operator and an operand.  What the row means is said by splitting it.  The operator of the loosest level
splits it, and where there are several of that level, the rightmost of them; the parts on its two sides are
split in the same way.

The reader never looks for the loosest operator.  It goes through the row from left to right, and a tighter
operator takes its right operand away from a looser one before it; a run of sums, or of concatenations, is
taken in one go.  The two agree.  A reader of some power takes the operations in front that bind at least
so tight, and makes of them what they are split into; and since the next operation binds no tighter than
those taken so far, what has been made of these is its left side.

Main definitions:

* `ComputedFields.BinaryOp.level` — the levels of the operators;
* `ComputedFields.Splits` — **splitting a row at the rightmost operator of the loosest level**;
* `ComputedFields.Formula.nested` — chains as nested operators;
* `ComputedFields.IsOperand` — the words of an operand;
* `ComputedFields.SpelledOperand`, `ComputedFields.SpelledOperation` — the parts of a row, as texts.

Main results:

* `ComputedFields.Splits.unique` — a row is split in one way;
* `ComputedFields.Splits.append` — what has been made of the front of a row is the left side of the rest;
* `ComputedFields.exists_parse_row` — **every row is read, and as what it is split into**.
-/

import ComputedFields.Proofs.Grammar

set_option relaxedAutoImplicit false
set_option autoImplicit false

namespace ComputedFields

/-! ### Levels -/

/-- The level of an operator.  The higher it is, the tighter the operator binds. -/
def BinaryOp.level : BinaryOp → Nat
  | .or => 0
  | .and => 1
  | .eq | .ne | .lt | .le | .gt | .ge => 2
  | .concat => 3
  | .add | .sub => 4
  | .mul | .div | .mod => 5

/-- The levels are those of the powers. -/
theorem BinaryOp.level_le_iff {op other : BinaryOp} :
    op.level ≤ other.level ↔ op.power ≤ other.power := by
  cases op <;> cases other <;> simp [level, power]

theorem BinaryOp.level_lt_iff {op other : BinaryOp} :
    op.level < other.level ↔ op.power < other.power := by
  rw [← Nat.not_le, ← Nat.not_le, level_le_iff]

/-! ### Splitting a row -/

/-- What a row comes to: its first operand alone, or an operator of the loosest level, the rightmost one,
with what comes before and after it. -/
inductive Splits : Formula → List (BinaryOp × Formula) → Formula → Prop where
  | single (x : Formula) : Splits x [] x
  | split {x y left right : Formula} {op : BinaryOp} {before after : List (BinaryOp × Formula)} :
      (∀ p ∈ before, op.level ≤ p.1.level) → (∀ p ∈ after, op.level < p.1.level) →
      Splits x before left → Splits y after right →
      Splits x (before ++ (op, y) :: after) (.binary left op right)

namespace Splits

variable {x y left tree : Formula} {op : BinaryOp} {taken row : List (BinaryOp × Formula)}

/-- A first operator that is looser than all others. -/
theorem cons {right : Formula} (h : ∀ p ∈ row, op.level < p.1.level) (hright : Splits y row right) :
    Splits x ((op, y) :: row) (.binary x op right) := by
  have hbefore : ∀ p ∈ ([] : List (BinaryOp × Formula)), op.level ≤ p.1.level := by simp
  exact split hbefore h (single x) hright

/-- **What has been made of the front of a row is the left side of the rest**, if the first operator of
the rest binds no tighter than those in front. -/
theorem append (htaken : Splits x taken left) (h : Splits left row tree)
    (hhead : ∀ p ∈ row.head?, ∀ q ∈ taken, p.1.level ≤ q.1.level) : Splits x (taken ++ row) tree := by
  induction h generalizing taken with
  | single left => simpa using htaken
  | @split left y before' right op before after hbefore hafter _ hright ihl _ =>
      rw [← List.append_assoc]
      refine split ?_ hafter (ihl htaken ?_) hright
      · intro q hq
        rcases List.mem_append.1 hq with htaken | hbetween
        · cases before with
          | nil => exact hhead (op, y) rfl q htaken
          | cons p before =>
              have hfirst := hbefore p List.mem_cons_self
              have hfront := hhead p rfl q htaken
              omega
        · exact hbefore q hbetween
      · intro p hp q hq
        cases before with
        | nil => cases hp
        | cons first before => exact hhead p hp q hq

/-- Two operators that both split a row are the same one. -/
theorem split_inj {before after before' after' : List (BinaryOp × Formula)} {p q : BinaryOp × Formula}
    (h : before ++ p :: after = before' ++ q :: after')
    (hafter : ∀ r ∈ after, p.1.level < r.1.level) (hbefore : ∀ r ∈ before, p.1.level ≤ r.1.level)
    (hafter' : ∀ r ∈ after', q.1.level < r.1.level) (hbefore' : ∀ r ∈ before', q.1.level ≤ r.1.level) :
    before = before' ∧ p = q ∧ after = after' := by
  -- if one of them stood to the left of the other, it would be both looser and no looser
  rcases List.append_eq_append_iff.1 h with ⟨between, hfront, hback⟩ | ⟨between, hfront, hback⟩
  · cases between with
    | nil =>
        obtain ⟨rfl, rfl⟩ := List.cons.inj hback
        exact ⟨by simpa using hfront.symm, rfl, rfl⟩
    | cons r between =>
        obtain ⟨rfl, rfl⟩ := List.cons.inj hback
        have hlt := hafter q (by simp)
        have hle := hbefore' p (by simp [hfront])
        omega
  · cases between with
    | nil =>
        obtain ⟨rfl, rfl⟩ := List.cons.inj hback
        exact ⟨by simpa using hfront, rfl, rfl⟩
    | cons r between =>
        obtain ⟨rfl, rfl⟩ := List.cons.inj hback
        have hlt := hafter' p (by simp)
        have hle := hbefore q (by simp [hfront])
        omega

/-- **A row is split in one way.** -/
theorem unique {other : Formula} (h : Splits x row tree) (hother : Splits x row other) :
    tree = other := by
  induction h generalizing other with
  | single x =>
      generalize hrow : ([] : List (BinaryOp × Formula)) = row at hother
      cases hother with
      | single => rfl
      | split => simp at hrow
  | @split x y left right op before after hbefore hafter _ _ ihl ihr =>
      generalize hrow : before ++ (op, y) :: after = row at hother
      cases hother with
      | single => simp at hrow
      | split hbefore' hafter' hleft hright =>
          obtain ⟨rfl, heq, rfl⟩ := split_inj hrow hafter hbefore hafter' hbefore'
          cases heq
          rw [ihl hleft, ihr hright]

end Splits

/-! ### Chains as nested operators -/

namespace Formula

mutual

/-- The formula with every chain written as operators nested to the left. -/
def nested : Formula → Formula
  | .call callee args => .call callee (nestedAll args)
  | .binary left op right => .binary left.nested op right.nested
  | .unary op operand => .unary op operand.nested
  | .chain op (first :: others) => nestedFrom op first.nested others
  | f => f

def nestedAll : List Formula → List Formula
  | [] => []
  | f :: rest => f.nested :: nestedAll rest

/-- The operands of a chain after what has been made of those before them. -/
def nestedFrom (op : BinaryOp) (left : Formula) : List Formula → Formula
  | [] => left
  | f :: rest => nestedFrom op (.binary left op f.nested) rest

end

/-- In a chain the first two operands belong together. -/
theorem nested_join (op : BinaryOp) (left f : Formula) (others : List Formula) :
    (join op (left :: f :: others)).nested = (join op (.binary left op f :: others)).nested := by
  match others with
  | [] => simp [join, nested, nestedFrom]
  | [_] => simp [join, nested, nestedFrom]
  | _ :: _ :: _ => simp [join, nested, nestedFrom]

end Formula

/-! ### Rows -/

/-- The words of an operand: a literal, a field reference, a call or a formula in parentheses, under any
number of minus signs. -/
inductive IsOperand : List Word → Formula → Prop where
  | leaf {word : Word} {f : Formula} : word.leaf? = some f → IsOperand [word] f
  | parentheses {left right : Word} {words : List Word} {f : Formula} :
      left.1 = .parenLeft → right.1 = .parenRight → f.ReadOff words →
      IsOperand (left :: (words ++ [right])) f
  | call {name left : Word} {words : List Word} {args : List Formula} :
      name.1 = .identifier → left.1 = .parenLeft → Parser.Reads (.arguments true args) words [] →
      IsOperand (name :: left :: words) (.call (.ofName (String.ofList name.contents)) args)
  | minus {word : Word} {words : List Word} {f : Formula} :
      word.1 = .minus → IsOperand words f → IsOperand (word :: words) (.unary .neg f)

/-- An operand is read whatever follows it. -/
theorem IsOperand.reads {words : List Word} {f : Formula} (h : IsOperand words f) (rest : List Word) :
    Parser.Reads (.operand f) (words ++ rest) rest := by
  induction h with
  | leaf hleaf => exact .leaf hleaf
  | @parentheses left right words f hleft hright hread =>
      have hstops : Parser.Stops 0 (right :: rest) :=
        Parser.stops_cons.2 fun op hop => by rw [hright] at hop; cases hop
      have hinner := hread.append fun _ _ => hstops
      rw [List.cons_append, List.append_assoc]
      exact .parentheses hleft hright hinner
  | call hname hleft hargs =>
      exact .call hname hleft (hargs.append fun hopen => by cases hopen)
  | @minus word words f hminus _ ih =>
      -- a minus sign binds tighter than every operator that may follow
      refine .unary hminus (.expression ih (.stop ?_))
      intro word _ op _
      cases op <;> decide

/-- An operand with its text. -/
structure SpelledOperand where
  text : String
  words : List Word
  formula : Formula
  spells : Spells text words
  isOperand : IsOperand words formula

/-- An operator and its right operand, with their texts. -/
structure SpelledOperation where
  sign : String
  word : Word
  op : BinaryOp
  operand : SpelledOperand
  spells : Spells sign [word]
  isOp : BinaryOp.ofToken? word.1 = some op

namespace SpelledOperation

def words (o : SpelledOperation) : List Word := o.word :: o.operand.words

/-- The operator and what its right operand means. -/
def branch (o : SpelledOperation) : BinaryOp × Formula := (o.op, o.operand.formula.nested)

end SpelledOperation

/-! ### The reader on a row -/

section rows

open ComputedFields.Parser (Reads Stops stops_cons)

abbrev rowWords (row : List SpelledOperation) : List Word := row.flatMap SpelledOperation.words

abbrev rowBranches (row : List SpelledOperation) : List (BinaryOp × Formula) :=
  row.map SpelledOperation.branch

theorem stops_rowWords {power : Nat} {row : List SpelledOperation}
    (h : ∀ o ∈ row.head?, o.op.power < power) : Stops power (rowWords row) := by
  cases row with
  | nil => exact .nil power
  | cons o row =>
      refine stops_cons.2 fun op hop => ?_
      cases o.isOp.symm.trans hop
      exact h o rfl

/-- The operators of a power after a left operand take the operations in front that bind at least so tight,
and make of them what they are split into. -/
def Joins (row : List SpelledOperation) (power : Nat) (left : Formula) : Prop :=
  ∃ taken rest f, row = taken ++ rest ∧ (∀ o ∈ taken, power ≤ o.op.power) ∧
    (∀ o ∈ rest.head?, o.op.power < power) ∧
    Reads (.operators power left f) (rowWords row) (rowWords rest) ∧
    Splits left.nested (rowBranches taken) f.nested

/-- The operands of a chain take the operations in front that bind at least as tight as its operator, but
not another operator of its level, and make of them what they are split into. -/
def Chains (row : List SpelledOperation) (op : BinaryOp) (first : SpelledOperand) : Prop :=
  ∃ taken rest others, row = taken ++ rest ∧ (∀ o ∈ taken, op.power ≤ o.op.power) ∧
    (∀ o ∈ rest.head?, o.op.power ≤ op.power) ∧
    Reads (.chain op others) (first.words ++ rowWords row) (rowWords rest) ∧
    ∀ left : Formula, Splits left.nested ((op, first.formula.nested) :: rowBranches taken)
      (Formula.join op (left :: others)).nested

variable {row : List SpelledOperation}

/-- The levels of the operations of a row. -/
theorem forall_rowBranches {taken : List SpelledOperation} {p : BinaryOp → Prop}
    (h : ∀ o ∈ taken, p o.op) : ∀ b ∈ rowBranches taken, p b.1 := by
  simpa [rowBranches, SpelledOperation.branch] using h

/-- The right operand of an operator: an operand, and the tighter operators after it. -/
theorem Joins.right {op : BinaryOp} {operand : SpelledOperand}
    (h : Joins row (op.power + 1) operand.formula) :
    ∃ taken rest right, row = taken ++ rest ∧ (∀ o ∈ taken, op.power ≤ o.op.power) ∧
      (∀ o ∈ rest.head?, o.op.power ≤ op.power) ∧
      Reads (.expression (op.power + 1) right) (operand.words ++ rowWords row) (rowWords rest) ∧
      ∀ left : Formula, Splits left.nested ((op, operand.formula.nested) :: rowBranches taken)
        (Formula.binary left op right).nested := by
  obtain ⟨taken, rest, right, hrow, htaken, hrest, hread, hsplits⟩ := h
  refine ⟨taken, rest, right, hrow, fun o ho => Nat.le_of_succ_le (htaken o ho),
    fun o ho => Nat.le_of_lt_succ (hrest o ho), .expression (operand.isOperand.reads _) hread,
    fun left => ?_⟩
  refine .cons (forall_rowBranches (p := fun other => op.level < other.level) fun o ho => ?_) hsplits
  exact BinaryOp.level_lt_iff.2 (htaken o ho)

/-- Operations taken after others that bind at least as tight as an operator, if the first of them binds no
tighter than that operator. -/
theorem Splits.append_row {x y left tree : Formula} {op : BinaryOp}
    {taken next rest : List SpelledOperation} (htaken : ∀ o ∈ taken, op.power ≤ o.op.power)
    (hhead : ∀ o ∈ (next ++ rest).head?, o.op.power ≤ op.power)
    (h : Splits x ((op, y) :: rowBranches taken) left) (hnext : Splits left (rowBranches next) tree) :
    Splits x ((op, y) :: rowBranches (taken ++ next)) tree := by
  have hall := h.append hnext fun p hp q hq => ?_
  · simpa [rowBranches] using hall
  cases next with
  | nil => cases hp
  | cons o next =>
      cases hp
      have ho : o.op.level ≤ op.level := BinaryOp.level_le_iff.2 (hhead o rfl)
      have hq : op.level ≤ q.1.level := by
        rcases List.mem_cons.1 hq with rfl | hq
        · exact Nat.le_refl _
        · refine forall_rowBranches (p := fun other => op.level ≤ other.level) (fun o ho => ?_) q hq
          exact BinaryOp.level_le_iff.2 (htaken o ho)
      exact Nat.le_trans ho hq

theorem chains_of_joins (hjoins : ∀ power left, Joins row power left)
    (ih : ∀ shorter : List SpelledOperation, shorter.length < row.length →
      ∀ op first, Chains shorter op first)
    (op : BinaryOp) (first : SpelledOperand) : Chains row op first := by
  obtain ⟨taken, rest, right, rfl, htaken, hrest, hread, hsplits⟩ :=
    (hjoins (op.power + 1) first.formula).right
  by_cases hnext : ∃ o ∈ rest.head?, o.op = op
  · obtain ⟨o, ho, rfl⟩ := hnext
    obtain ⟨rest, rfl⟩ : ∃ behind, rest = o :: behind := List.head?_eq_some_iff.1 ho
    have hshorter : rest.length < (taken ++ o :: rest).length := by
      rw [List.length_append, List.length_cons]
      omega
    obtain ⟨next, last, others, rfl, hnext, hlast, hothers, hchain⟩ :=
      ih rest hshorter o.op o.operand
    refine ⟨taken ++ o :: next, last, right :: others, by simp, ?_, hlast, ?_, fun left => ?_⟩
    · intro p hp
      rcases List.mem_append.1 hp with hp | hp
      · exact htaken p hp
      · rcases List.mem_cons.1 hp with rfl | hp
        · exact Nat.le_refl _
        · exact hnext p hp
    · exact .nextOperand hread o.isOp hothers
    · rw [Formula.nested_join]
      exact (hsplits left).append_row htaken hrest (hchain (.binary left o.op right))
  · refine ⟨taken, rest, [right], rfl, htaken, hrest, .lastOperand hread ?_, hsplits⟩
    cases rest with
    | nil => simp
    | cons o rest =>
        rintro _ ⟨⟩ hop
        exact hnext ⟨o, rfl, Option.some.inj (o.isOp.symm.trans hop)⟩

/-- An operator that binds tight enough takes its right side, and becomes the left side of the rest. -/
theorem exists_left {o : SpelledOperation} {power : Nat} (hpower : power ≤ o.op.power)
    (hjoins : ∀ power left, Joins row power left) (hchains : ∀ op first, Chains row op first)
    (left : Formula) :
    ∃ taken rest next, row = taken ++ rest ∧ (∀ p ∈ taken, o.op.power ≤ p.op.power) ∧
      (∀ p ∈ rest.head?, p.op.power ≤ o.op.power) ∧
      Splits left.nested (rowBranches (o :: taken)) next.nested ∧
      ∀ f words, Reads (.operators power next f) (rowWords rest) words →
        Reads (.operators power left f) (rowWords (o :: row)) words := by
  cases hchained : o.op.isChained with
  | true =>
      obtain ⟨taken, rest, others, hrow, htaken, hrest, hread, hsplits⟩ := hchains o.op o.operand
      exact ⟨taken, rest, _, hrow, htaken, hrest, hsplits left,
        fun f words hops => .chained o.isOp hpower hchained hread hops⟩
  | false =>
      obtain ⟨taken, rest, right, hrow, htaken, hrest, hread, hsplits⟩ :=
        (hjoins (o.op.power + 1) o.operand.formula).right
      exact ⟨taken, rest, _, hrow, htaken, hrest, hsplits left,
        fun f words hops => .binary o.isOp hpower hchained hread hops⟩

theorem joins_of_shorter
    (ih : ∀ shorter : List SpelledOperation, shorter.length < row.length →
      (∀ power left, Joins shorter power left) ∧ ∀ op first, Chains shorter op first)
    (power : Nat) (left : Formula) : Joins row power left := by
  cases row with
  | nil => exact ⟨[], [], left, rfl, by simp, by simp, .stop (.nil power), .single _⟩
  | cons o row =>
      by_cases hpower : o.op.power < power
      · have hhead : ∀ p ∈ (o :: row).head?, p.op.power < power := by
          rintro _ ⟨⟩
          exact hpower
        exact ⟨[], o :: row, left, rfl, by simp, hhead, .stop (stops_rowWords hhead), .single _⟩
      · have hpower : power ≤ o.op.power := Nat.le_of_not_lt hpower
        obtain ⟨hjoins, hchains⟩ := ih row (by simp)
        obtain ⟨taken, rest, next, rfl, htaken, hrest, hsplits, hread⟩ :=
          exists_left hpower hjoins hchains left
        have hshorter : rest.length < (o :: (taken ++ rest)).length := by
          rw [List.length_cons, List.length_append]
          omega
        obtain ⟨more, last, f, rfl, hmore, hlast, hops, hall⟩ := (ih rest hshorter).1 power next
        refine ⟨o :: (taken ++ more), last, f, by simp, ?_, hlast, hread f _ hops,
          hsplits.append_row htaken hrest hall⟩
        intro p hp
        rcases List.mem_cons.1 hp with rfl | hp
        · exact hpower
        · rcases List.mem_append.1 hp with hp | hp
          · exact Nat.le_trans hpower (htaken p hp)
          · exact hmore p hp

/-- **The readers take from a row what they should, and make of it what it is split into.** -/
theorem joins_and_chains (row : List SpelledOperation) :
    (∀ power left, Joins row power left) ∧ ∀ op first, Chains row op first := by
  -- a right operand and the rest of a row are shorter than the row, by the operation before them
  induction hn : row.length using Nat.strongRecOn generalizing row with
  | _ n ih =>
      subst hn
      have ih' : ∀ shorter : List SpelledOperation, shorter.length < row.length → _ :=
        fun shorter hshorter => ih shorter.length hshorter shorter rfl
      have hjoins := joins_of_shorter ih'
      exact ⟨hjoins, chains_of_joins hjoins fun shorter hshorter => (ih' shorter hshorter).2⟩

end rows

/-! ### Reading a row -/

/-- The text of a row, with blanks around its operators. -/
def spacedRow (first : SpelledOperand) (row : List SpelledOperation) : String :=
  row.foldl (fun text o => text ++ " " ++ o.sign ++ " " ++ o.operand.text) first.text

theorem Spells.append {text other : String} {words others : List Word} (h : Spells text words)
    (hother : Spells other others) : Spells (text ++ " " ++ other) (words ++ others) := by
  rw [spells_iff_cut] at *
  simpa using h.append_blank hother

theorem spells_spacedRow (first : SpelledOperand) (row : List SpelledOperation) :
    Spells (spacedRow first row) (first.words ++ rowWords row) := by
  have hfold : ∀ (text : String) (words : List Word), Spells text words →
      Spells (row.foldl (fun text o => text ++ " " ++ o.sign ++ " " ++ o.operand.text) text)
        (words ++ rowWords row) := by
    induction row with
    | nil =>
        intro text words h
        simpa using h
    | cons o row ih =>
        intro text words h
        have hnext := ih _ _ ((h.append o.spells).append o.operand.spells)
        simpa [SpelledOperation.words] using hnext
  exact hfold first.text first.words first.spells

/-- **Every row is read, and as what it is split into.**  The row may be spelled with blanks around its
operators or in any other way that has the same words, and chains are taken as operators nested to the
left. -/
theorem exists_parse_row (first : SpelledOperand) (row : List SpelledOperation) :
    ∃ f, Formula.parse (spacedRow first row) = .ok f ∧
      (∀ source, Spells source (first.words ++ rowWords row) → Formula.parse source = .ok f) ∧
      ∀ tree, Splits first.formula.nested (rowBranches row) tree ↔ tree = f.nested := by
  obtain ⟨taken, rest, f, rfl, -, hrest, hread, hsplits⟩ := (joins_and_chains row).1 0 first.formula
  -- no operator binds less tight than the loosest, so nothing is left
  obtain rfl : rest = [] := by
    cases rest with
    | nil => rfl
    | cons o rest => exact absurd (hrest o rfl) (Nat.not_lt_zero _)
  rw [List.append_nil] at *
  have hparse : ∀ source, Spells source (first.words ++ rowWords taken) →
      Formula.parse source = .ok f := fun source hsource =>
    Formula.parse_eq_ok_iff.2 ⟨_, hsource, .expression (first.isOperand.reads _) hread⟩
  refine ⟨f, hparse _ (spells_spacedRow first taken), hparse, fun tree => ?_⟩
  constructor
  · intro htree
    exact htree.unique hsplits
  · rintro rfl
    exact hsplits

namespace Sample

def number (text : String) (h : Spells text [(.number, text.toList)]) : SpelledOperand where
  text := text
  words := [(.number, text.toList)]
  formula := .number text
  spells := h
  isOperand := .leaf (by simp [Word.leaf?, Word.contents, TokenKind.isDelimited])

def negated : SpelledOperand where
  text := "-\x7ba\x7d"
  words := [(.minus, ['-']), (.fieldRef, ['\x7b', 'a', '\x7d'])]
  formula := .unary .neg (.field "a")
  spells := ⟨rfl, rfl⟩
  isOperand := .minus rfl (.leaf rfl)

theorem readOff_difference : Formula.ReadOff (.binary (.number "3") .sub (.number "4"))
    [(.number, ['3']), (.minus, ['-']), (.number, ['4'])] :=
  .expression (.leaf rfl) (.binary rfl (by decide) rfl (.expression (.leaf rfl) (.stop (.nil _)))
    (.stop (.nil _)))

def difference : SpelledOperand where
  text := "(3 - 4)"
  words := [parenLeft, (.number, ['3']), (.minus, ['-']), (.number, ['4']), parenRight]
  formula := .binary (.number "3") .sub (.number "4")
  spells := ⟨rfl, rfl⟩
  isOperand := .parentheses rfl rfl readOff_difference

/-- A sum with a product in it, and a comparison spelled in its second way. -/
def mixedRow : List SpelledOperation :=
  [⟨"+", (.plus, ['+']), .add, number "1" ⟨rfl, rfl⟩, ⟨rfl, rfl⟩, rfl⟩,
    ⟨"+", (.plus, ['+']), .add, number "2" ⟨rfl, rfl⟩, ⟨rfl, rfl⟩, rfl⟩,
    ⟨"*", (.asterisk, ['*']), .mul, difference, ⟨rfl, rfl⟩, rfl⟩,
    ⟨"<>", (.notEquals, ['<', '>']), .ne, number "5" ⟨rfl, rfl⟩, ⟨rfl, rfl⟩, rfl⟩]

/-- The comparison is split first, then the second sum. -/
theorem exists_parse_mixedRow :
    ∃ f, Formula.parse "-\x7ba\x7d + 1 + 2 * (3 - 4) <> 5" = .ok f ∧
      f.nested = .binary
        (.binary (.binary (.unary .neg (.field "a")) .add (.number "1")) .add
          (.binary (.number "2") .mul (.binary (.number "3") .sub (.number "4"))))
        .ne (.number "5") := by
  obtain ⟨f, hparse, -, hsplits⟩ := exists_parse_row negated mixedRow
  refine ⟨f, hparse, ((hsplits _).1 ?_).symm⟩
  have hproduct : Splits (.number "2") [(.mul, .binary (.number "3") .sub (.number "4"))] _ :=
    .cons (by simp) (.single _)
  have hsum : Splits (.unary .neg (.field "a")) ([(.add, .number "1")] ++ (.add, .number "2") ::
      [(.mul, .binary (.number "3") .sub (.number "4"))]) _ :=
    .split (by decide) (by decide) (.cons (by simp) (.single _)) hproduct
  have hall : Splits _ (_ ++ (.ne, .number "5") :: []) _ :=
    .split (by decide) (by decide) hsum (.single (.number "5"))
  exact hall

end Sample

end ComputedFields
