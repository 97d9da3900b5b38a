/-
**The grammar of formulas.**

The reader of formulas is a recursion through five readers, with a bound on its depth and with the places
of the tokens, which it needs for its errors.  None of these matters to what is read.  Here the readers are
compared with a grammar: a relation between what a reader is asked for, the words in front of it and the
words that it leaves.  Each rule of the grammar is one way to go on, and has neither depth nor places.

The two agree on every source without a fault of the scan.  What a reader reads follows the grammar,
whatever the depth.  Conversely, `n` words that follow the grammar are read in a depth of `2 n + 1`, so the
depth that the number of tokens allows is never used up.

Main definitions:

* `ComputedFields.Word.leaf?` — the formula of a single word;
* `ComputedFields.Parser.Goal` — what a reader is asked for;
* `ComputedFields.Parser.Reads` — **the grammar**;
* `ComputedFields.Spells`, `ComputedFields.Formula.ReadOff` — the words of a source, and words that make up
  a formula.

Main results:

* `ComputedFields.Parser.Goal.Runs.reads` — readers follow the grammar;
* `ComputedFields.Parser.Reads.runs` — what follows the grammar is read, in a depth that the words bound;
* `ComputedFields.Formula.parse_eq_ok_iff` — **a source is read as a formula exactly when its words are
  one**;
* `ComputedFields.Parser.Reads.append` — words that follow the grammar do so in front of others.
-/

import ComputedFields.Proofs.PrintedWords

set_option relaxedAutoImplicit false
set_option autoImplicit false

namespace ComputedFields

/-! ### Words -/

/-- The text of a word without delimiters. -/
def Word.contents (word : Word) : List Char :=
  if word.1.isDelimited then word.2.tail.dropLast else word.2

theorem Token.contents_word (token : Token) : token.word.contents = token.contents := rfl

/-- The formula of a single word, if it is a literal or a field reference. -/
def Word.leaf? (word : Word) : Option Formula :=
  match word.1 with
  | .number => some (.number (String.ofList word.contents))
  | .singleQuoted | .doubleQuoted => some (.text (String.ofList (unescape word.contents)))
  | .true => some (.bool true)
  | .false => some (.bool false)
  | .null => some .null
  | .fieldRef => some (.field (String.ofList (Text.trimChars word.contents)))
  | _ => none

namespace Parser

/-- The first of the words is no operator that an expression of this power joins. -/
def Stops (power : Nat) (words : List Word) : Prop :=
  ∀ word ∈ words.head?, ∀ op, BinaryOp.ofToken? word.1 = some op → op.power < power

theorem Stops.nil (power : Nat) : Stops power [] := nofun

theorem stops_cons {power : Nat} {word : Word} {words : List Word} :
    Stops power (word :: words) ↔ ∀ op, BinaryOp.ofToken? word.1 = some op → op.power < power := by
  constructor
  · intro h
    exact h word rfl
  · intro h other hother
    obtain rfl : word = other := by simpa using hother
    exact h

/-! ### The grammar -/

/-- What a reader is asked for. -/
inductive Goal where
  /-- An expression whose operators bind with at least the given power. -/
  | expression (power : Nat) (f : Formula)
  | operand (f : Formula)
  /-- The operators after a left operand, and what they make of it. -/
  | operators (power : Nat) (left f : Formula)
  /-- The operands of a chain after its first operator. -/
  | chain (op : BinaryOp) (operands : List Formula)
  /-- The arguments of a call up to its closing parenthesis. -/
  | arguments (isFirst : Bool) (args : List Formula)

/-- The words in front follow the grammar, and those behind them are left. -/
inductive Reads : Goal → List Word → List Word → Prop where
  | expression {power : Nat} {left f : Formula} {words mid rest : List Word} :
      Reads (.operand left) words mid → Reads (.operators power left f) mid rest →
      Reads (.expression power f) words rest
  | leaf {word : Word} {f : Formula} {rest : List Word} :
      word.leaf? = some f → Reads (.operand f) (word :: rest) rest
  | parentheses {left right : Word} {f : Formula} {words rest : List Word} :
      left.1 = .parenLeft → right.1 = .parenRight →
      Reads (.expression 0 f) words (right :: rest) → Reads (.operand f) (left :: words) rest
  | unary {word : Word} {op : UnaryOp} {f : Formula} {words rest : List Word} :
      word.1 = op.tokenKind → Reads (.expression op.power f) words rest →
      Reads (.operand (.unary op f)) (word :: words) rest
  | call {name left : Word} {args : List Formula} {words rest : List Word} :
      name.1 = .identifier → left.1 = .parenLeft → Reads (.arguments true args) words rest →
      Reads (.operand (.call (.ofName (String.ofList name.contents)) args)) (name :: left :: words) rest
  | stop {power : Nat} {left : Formula} {words : List Word} :
      Stops power words → Reads (.operators power left left) words words
  | chained {word : Word} {op : BinaryOp} {power : Nat} {left f : Formula} {others : List Formula}
      {words mid rest : List Word} :
      BinaryOp.ofToken? word.1 = some op → power ≤ op.power → op.isChained = true →
      Reads (.chain op others) words mid →
      Reads (.operators power (.join op (left :: others)) f) mid rest →
      Reads (.operators power left f) (word :: words) rest
  | binary {word : Word} {op : BinaryOp} {power : Nat} {left right f : Formula}
      {words mid rest : List Word} :
      BinaryOp.ofToken? word.1 = some op → power ≤ op.power → op.isChained = false →
      Reads (.expression (op.power + 1) right) words mid →
      Reads (.operators power (.binary left op right) f) mid rest →
      Reads (.operators power left f) (word :: words) rest
  | lastOperand {op : BinaryOp} {f : Formula} {words rest : List Word} :
      Reads (.expression (op.power + 1) f) words rest →
      (∀ word ∈ rest.head?, BinaryOp.ofToken? word.1 ≠ some op) → Reads (.chain op [f]) words rest
  | nextOperand {op : BinaryOp} {f : Formula} {others : List Formula} {word : Word}
      {words mid rest : List Word} :
      Reads (.expression (op.power + 1) f) words (word :: mid) →
      BinaryOp.ofToken? word.1 = some op → Reads (.chain op others) mid rest →
      Reads (.chain op (f :: others)) words rest
  | noArgument {isFirst : Bool} {word : Word} {rest : List Word} :
      word.1 = .parenRight → Reads (.arguments isFirst []) (word :: rest) rest
  | firstArgument {arg : Formula} {others : List Formula} {word : Word} {words mid rest : List Word} :
      word.1 ≠ .parenRight → Reads (.expression 0 arg) (word :: words) mid →
      Reads (.arguments false others) mid rest →
      Reads (.arguments true (arg :: others)) (word :: words) rest
  | nextArgument {arg : Formula} {others : List Formula} {word : Word} {words mid rest : List Word} :
      word.1 = .comma → Reads (.expression 0 arg) words mid →
      Reads (.arguments false others) mid rest →
      Reads (.arguments false (arg :: others)) (word :: words) rest

/-! ### Readers follow the grammar -/

/-- The reader of a depth reaches the goal on the tokens, and leaves the rest. -/
def Goal.Runs (depth : Nat) : Goal → List Token → List Token → Prop
  | .expression power f, tokens, rest => Parser.expression none depth power tokens = .ok (f, rest)
  | .operand f, tokens, rest => Parser.operand none depth tokens = .ok (f, rest)
  | .operators power left f, tokens, rest =>
      Parser.operators none depth power left tokens = .ok (f, rest)
  | .chain op operands, tokens, rest =>
      Parser.chainOperands none depth op tokens = .ok (operands, rest)
  | .arguments isFirst args, tokens, rest =>
      Parser.arguments none depth isFirst tokens = .ok (args, rest)

/-- The readers of a depth follow the grammar. -/
def FollowsAt (depth : Nat) : Prop :=
  ∀ goal tokens rest, goal.Runs depth tokens rest →
    Reads goal (tokens.map Token.word) (rest.map Token.word)

namespace FollowsAt

variable {depth power : Nat} {tokens rest : List Token} {f left : Formula} {op : BinaryOp}
  {fs : List Formula} {isFirst : Bool}

theorem operand_succ (ih : FollowsAt depth)
    (hread : Parser.operand none (depth + 1) tokens = .ok (f, rest)) :
    Reads (.operand f) (tokens.map Token.word) (rest.map Token.word) := by
  cases tokens with
  | nil => cases hread
  | cons token behind =>
      unfold Parser.operand at hread
      split at hread
      case h_1 hkind =>
        obtain ⟨⟨inner, close⟩, hinner, hread⟩ := exists_of_bind_eq_ok hread
        have hreads := ih (.expression 0 inner) _ _ hinner
        split at hread
        · cases hread
        · next right after hclose =>
            obtain rfl : close = right :: after := hclose
            split at hread
            · next hright =>
                cases hread
                exact .parentheses hkind hright hreads
            · cases hread
      case h_2 hkind =>
        obtain ⟨⟨inner, after⟩, hinner, hread⟩ := exists_of_bind_eq_ok hread
        cases hread
        exact .unary hkind (ih (.expression _ inner) _ _ hinner)
      case h_3 hkind =>
        obtain ⟨⟨inner, after⟩, hinner, hread⟩ := exists_of_bind_eq_ok hread
        cases hread
        exact .unary hkind (ih (.expression _ inner) _ _ hinner)
      case h_11 hkind =>
        split at hread
        · cases hread
        · next paren after =>
            split at hread
            · next hleft =>
                obtain ⟨⟨args, last⟩, hargs, hread⟩ := exists_of_bind_eq_ok hread
                cases hread
                have hname : token.word.1 = .identifier := hkind
                have hparen : paren.word.1 = .parenLeft := hleft
                exact .call hname hparen (ih (.arguments true args) _ _ hargs)
            · cases hread
      case h_12 => cases hread
      -- the other words are formulas by themselves
      all_goals
        next hkind =>
          cases hread
          exact .leaf (by simp [Word.leaf?, Word.contents, Token.word, Token.contents, hkind])

theorem operators_succ (ih : FollowsAt depth)
    (hread : Parser.operators none (depth + 1) power left tokens = .ok (f, rest)) :
    Reads (.operators power left f) (tokens.map Token.word) (rest.map Token.word) := by
  cases tokens with
  | nil =>
      cases hread
      exact .stop (.nil power)
  | cons token behind =>
      unfold Parser.operators at hread
      split at hread
      · next hop =>
          cases hread
          refine .stop (stops_cons.2 fun op hsome => ?_)
          cases hop.symm.trans hsome
      · next op hop =>
          split at hread
          · next hpower =>
              cases hread
              refine .stop (stops_cons.2 fun other hsome => ?_)
              cases hop.symm.trans hsome
              exact hpower
          · next hpower =>
              have hpower : power ≤ op.power := Nat.le_of_not_lt hpower
              split at hread
              · next hchained =>
                  obtain ⟨⟨others, mid⟩, hothers, hread⟩ := exists_of_bind_eq_ok hread
                  exact .chained hop hpower hchained (ih (.chain op others) _ _ hothers)
                    (ih (.operators _ _ _) _ _ hread)
              · next hchained =>
                  obtain ⟨⟨right, mid⟩, hright, hread⟩ := exists_of_bind_eq_ok hread
                  exact .binary hop hpower (by simpa using hchained)
                    (ih (.expression _ right) _ _ hright) (ih (.operators _ _ _) _ _ hread)

theorem chain_succ (ih : FollowsAt depth)
    (hread : Parser.chainOperands none (depth + 1) op tokens = .ok (fs, rest)) :
    Reads (.chain op fs) (tokens.map Token.word) (rest.map Token.word) := by
  unfold Parser.chainOperands at hread
  obtain ⟨⟨first, mid⟩, hfirst, hread⟩ := exists_of_bind_eq_ok hread
  have hreads := ih (.expression _ first) _ _ hfirst
  split at hread
  · next hmid =>
      obtain rfl : mid = [] := hmid
      cases hread
      exact .lastOperand hreads nofun
  · next token behind hmid =>
      obtain rfl : mid = token :: behind := hmid
      split at hread
      · next hop =>
          obtain ⟨⟨others, last⟩, hothers, hread⟩ := exists_of_bind_eq_ok hread
          cases hread
          exact .nextOperand hreads hop (ih (.chain op others) _ _ hothers)
      · next hop =>
          cases hread
          refine .lastOperand hreads ?_
          rintro _ ⟨⟩
          exact hop

theorem arguments_succ (ih : FollowsAt depth)
    (hread : Parser.arguments none (depth + 1) isFirst tokens = .ok (fs, rest)) :
    Reads (.arguments isFirst fs) (tokens.map Token.word) (rest.map Token.word) := by
  cases tokens with
  | nil => cases hread
  | cons token behind =>
      unfold Parser.arguments at hread
      split at hread
      · next hclose =>
          cases hread
          exact .noArgument hclose
      · next hclose =>
          split at hread
          · next hfirst =>
              subst hfirst
              obtain ⟨⟨arg, mid⟩, harg, hread⟩ := exists_of_bind_eq_ok hread
              obtain ⟨⟨others, last⟩, hothers, hread⟩ := exists_of_bind_eq_ok hread
              cases hread
              exact .firstArgument hclose (ih (.expression 0 arg) _ _ harg)
                (ih (.arguments false others) _ _ hothers)
          · next hfirst =>
              obtain rfl : isFirst = false := by simpa using hfirst
              split at hread
              · next hcomma =>
                  obtain ⟨⟨arg, mid⟩, harg, hread⟩ := exists_of_bind_eq_ok hread
                  obtain ⟨⟨others, last⟩, hothers, hread⟩ := exists_of_bind_eq_ok hread
                  cases hread
                  exact .nextArgument hcomma (ih (.expression 0 arg) _ _ harg)
                    (ih (.arguments false others) _ _ hothers)
              · cases hread

end FollowsAt

theorem followsAt (depth : Nat) : FollowsAt depth := by
  induction depth with
  | zero =>
      intro goal tokens rest h
      cases goal <;> cases h
  | succ depth ih =>
      intro goal tokens rest h
      cases goal with
      | expression power f =>
          obtain ⟨⟨left, mid⟩, hleft, h⟩ := exists_of_bind_eq_ok h
          exact .expression (ih (.operand left) _ _ hleft) (ih (.operators power left f) _ _ h)
      | operand f => exact ih.operand_succ h
      | operators power left f => exact ih.operators_succ h
      | chain op operands => exact ih.chain_succ h
      | arguments isFirst args => exact ih.arguments_succ h

/-- **Readers follow the grammar**, whatever the depth. -/
theorem Goal.Runs.reads {goal : Goal} {depth : Nat} {tokens rest : List Token}
    (h : goal.Runs depth tokens rest) : Reads goal (tokens.map Token.word) (rest.map Token.word) :=
  followsAt depth goal tokens rest h

/-! ### What follows the grammar is read -/

/-- How many words a goal takes at least. -/
def Goal.least : Goal → Nat
  | .operators .. => 0
  | _ => 1

theorem Reads.length_le {goal : Goal} {words rest : List Word} (h : Reads goal words rest) :
    rest.length + goal.least ≤ words.length := by
  induction h with
  | expression _ _ ihl iho =>
      simp only [Goal.least] at ihl iho ⊢
      omega
  | _ =>
      simp only [Goal.least, List.length_cons] at *
      omega

/-- What is left stands at the end of the words. -/
theorem Reads.suffix {goal : Goal} {words rest : List Word} (h : Reads goal words rest) :
    rest <:+ words := by
  induction h with
  | expression _ _ ihl iho => exact iho.trans ihl
  | leaf _ => exact List.suffix_cons _ _
  | parentheses _ _ _ ih =>
      exact ((List.suffix_cons _ _).trans ih).trans (List.suffix_cons _ _)
  | unary _ _ ih => exact ih.trans (List.suffix_cons _ _)
  | call _ _ _ ih => exact (ih.trans (List.suffix_cons _ _)).trans (List.suffix_cons _ _)
  | stop _ => exact List.suffix_rfl
  | chained _ _ _ _ _ ihc iho => exact (iho.trans ihc).trans (List.suffix_cons _ _)
  | binary _ _ _ _ _ ihr iho => exact (iho.trans ihr).trans (List.suffix_cons _ _)
  | lastOperand _ _ ih => exact ih
  | nextOperand _ _ _ ihf iho => exact (iho.trans (List.suffix_cons _ _)).trans ihf
  | noArgument _ => exact List.suffix_cons _ _
  | firstArgument _ _ _ iha iho => exact iho.trans iha
  | nextArgument _ _ _ iha iho => exact (iho.trans iha).trans (List.suffix_cons _ _)

/-- How much deeper than twice the number of its words a goal is read. -/
def Goal.extra : Goal → Nat
  | .operand _ => 0
  | .expression .. | .arguments .. => 1
  | .operators .. | .chain .. => 2

/-- A reader that is deep enough for its words has one more step. -/
theorem Reads.exists_succ {goal : Goal} {words rest : List Word} (h : Reads goal words rest)
    {depth : Nat} (hdepth : 2 * words.length + goal.extra ≤ depth + 2 * rest.length) :
    ∃ d, depth = d + 1 := by
  have hlength := h.length_le
  refine ⟨depth - 1, ?_⟩
  cases goal <;> simp only [Goal.extra, Goal.least] at hdepth hlength <;> omega

section steps

variable {depth power : Nat} {token close : Token} {tokens mid rest : List Token}
  {left right f : Formula} {op : BinaryOp} {fs : List Formula} {isFirst : Bool}

theorem runs_expression (hleft : (Goal.operand left).Runs depth tokens mid)
    (hops : (Goal.operators power left f).Runs depth mid rest) :
    (Goal.expression power f).Runs (depth + 1) tokens rest := by
  simp only [Goal.Runs] at *
  rw [Parser.expression, hleft]
  exact hops

theorem runs_leaf (h : token.word.leaf? = some f) :
    (Goal.operand f).Runs (depth + 1) (token :: rest) rest := by
  unfold Word.leaf? at h
  simp only [Goal.Runs, Parser.operand]
  split at h <;> cases h
  all_goals
    next hkind =>
      have hkind : token.kind = _ := hkind
      simp only [hkind, Token.contents_word]

theorem runs_parentheses (hopen : token.kind = .parenLeft) (hclose : close.kind = .parenRight)
    (h : (Goal.expression 0 f).Runs depth tokens (close :: rest)) :
    (Goal.operand f).Runs (depth + 1) (token :: tokens) rest := by
  simp only [Goal.Runs, Parser.operand] at *
  rw [hopen, h]
  exact if_pos hclose

theorem runs_unary {op : UnaryOp} (hop : token.kind = op.tokenKind)
    (h : (Goal.expression op.power f).Runs depth tokens rest) :
    (Goal.operand (.unary op f)).Runs (depth + 1) (token :: tokens) rest := by
  simp only [Goal.Runs, Parser.operand] at *
  rw [hop]
  cases op with
  | neg =>
      rw [UnaryOp.tokenKind, h]
      rfl
  | not =>
      rw [UnaryOp.tokenKind, h]
      rfl

theorem runs_call {name paren : Token} (hname : name.kind = .identifier)
    (hparen : paren.kind = .parenLeft) (h : (Goal.arguments true fs).Runs depth tokens rest) :
    (Goal.operand (.call (.ofName (String.ofList name.contents)) fs)).Runs (depth + 1)
      (name :: paren :: tokens) rest := by
  simp only [Goal.Runs, Parser.operand] at *
  rw [hname]
  simp only [hparen, if_true, h]
  rfl

theorem runs_stop (h : Stops power (tokens.map Token.word)) :
    (Goal.operators power left left).Runs (depth + 1) tokens tokens := by
  cases tokens with
  | nil => rfl
  | cons token behind =>
      have hpower := stops_cons.1 h
      simp only [Goal.Runs, Parser.operators]
      split
      · rfl
      · next op hop => rw [if_pos (hpower op hop)]

theorem runs_chained (hop : BinaryOp.ofToken? token.kind = some op) (hpower : power ≤ op.power)
    (hchained : op.isChained = true) (hchain : (Goal.chain op fs).Runs depth tokens mid)
    (hops : (Goal.operators power (.join op (left :: fs)) f).Runs depth mid rest) :
    (Goal.operators power left f).Runs (depth + 1) (token :: tokens) rest := by
  simp only [Goal.Runs, Parser.operators] at *
  simp only [hop, Nat.not_lt.2 hpower, if_false, hchained, if_true, hchain]
  exact hops

theorem runs_binary (hop : BinaryOp.ofToken? token.kind = some op) (hpower : power ≤ op.power)
    (hchained : op.isChained = false)
    (hright : (Goal.expression (op.power + 1) right).Runs depth tokens mid)
    (hops : (Goal.operators power (.binary left op right) f).Runs depth mid rest) :
    (Goal.operators power left f).Runs (depth + 1) (token :: tokens) rest := by
  simp only [Goal.Runs, Parser.operators] at *
  simp only [hop, Nat.not_lt.2 hpower, if_false, hchained, Bool.false_eq_true, hright]
  exact hops

theorem runs_lastOperand (h : (Goal.expression (op.power + 1) f).Runs depth tokens rest)
    (hlast : ∀ word ∈ (rest.map Token.word).head?, BinaryOp.ofToken? word.1 ≠ some op) :
    (Goal.chain op [f]).Runs (depth + 1) tokens rest := by
  simp only [Goal.Runs, Parser.chainOperands] at *
  rw [h]
  cases rest with
  | nil => rfl
  | cons token behind => exact if_neg (hlast token.word rfl)

theorem runs_nextOperand (hfirst : (Goal.expression (op.power + 1) f).Runs depth tokens (token :: mid))
    (hop : BinaryOp.ofToken? token.kind = some op) (hothers : (Goal.chain op fs).Runs depth mid rest) :
    (Goal.chain op (f :: fs)).Runs (depth + 1) tokens rest := by
  simp only [Goal.Runs, Parser.chainOperands] at *
  rw [hfirst]
  simp only [bind, Except.bind, hop, if_true, hothers]

theorem runs_noArgument (h : token.kind = .parenRight) :
    (Goal.arguments isFirst []).Runs (depth + 1) (token :: rest) rest :=
  if_pos h

theorem runs_firstArgument (hopen : token.kind ≠ .parenRight)
    (harg : (Goal.expression 0 f).Runs depth (token :: tokens) mid)
    (hothers : (Goal.arguments false fs).Runs depth mid rest) :
    (Goal.arguments true (f :: fs)).Runs (depth + 1) (token :: tokens) rest := by
  simp only [Goal.Runs, Parser.arguments] at *
  simp only [hopen, if_false, if_true, harg, bind, Except.bind, hothers]

theorem runs_nextArgument (hcomma : token.kind = .comma)
    (harg : (Goal.expression 0 f).Runs depth tokens mid)
    (hothers : (Goal.arguments false fs).Runs depth mid rest) :
    (Goal.arguments false (f :: fs)).Runs (depth + 1) (token :: tokens) rest := by
  simp only [Goal.Runs, Parser.arguments] at *
  simp only [hcomma, reduceCtorEq, if_false, if_true, Bool.false_eq_true, harg, bind, Except.bind,
    hothers]

end steps

/-- **What follows the grammar is read**, in any depth that the words do not exceed. -/
theorem Reads.runs {goal : Goal} {words rest : List Word} (h : Reads goal words rest)
    {tokens : List Token} (htokens : tokens.map Token.word = words) (depth : Nat)
    (hdepth : 2 * words.length + goal.extra ≤ depth + 2 * rest.length) :
    ∃ after, goal.Runs depth tokens after ∧ after.map Token.word = rest := by
  -- every rule takes one step of the depth, and the words that it takes pay for it
  induction h generalizing tokens depth with
  | expression hleft hops ihl iho =>
      obtain ⟨depth, rfl⟩ := (expression hleft hops).exists_succ hdepth
      have hl := hleft.length_le
      have ho := hops.length_le
      simp only [Goal.extra, Goal.least] at *
      obtain ⟨between, hread, hbetween⟩ := ihl htokens depth (by omega)
      obtain ⟨after, hrun, hafter⟩ := iho hbetween depth (by omega)
      exact ⟨after, runs_expression hread hrun, hafter⟩
  | leaf hleaf =>
      obtain ⟨depth, rfl⟩ := (leaf hleaf).exists_succ hdepth
      obtain ⟨token, after, rfl, rfl, hafter⟩ := List.map_eq_cons_iff.1 htokens
      exact ⟨after, runs_leaf hleaf, hafter⟩
  | parentheses hleft hright hinner ih =>
      obtain ⟨depth, rfl⟩ := (parentheses hleft hright hinner).exists_succ hdepth
      obtain ⟨token, behind, rfl, rfl, hbehind⟩ := List.map_eq_cons_iff.1 htokens
      simp only [Goal.extra, List.length_cons] at *
      obtain ⟨inner, hread, hinner⟩ := ih hbehind depth (by omega)
      obtain ⟨close, after, rfl, rfl, hafter⟩ := List.map_eq_cons_iff.1 hinner
      exact ⟨after, runs_parentheses hleft hright hread, hafter⟩
  | unary hop hinner ih =>
      obtain ⟨depth, rfl⟩ := (unary hop hinner).exists_succ hdepth
      obtain ⟨token, behind, rfl, rfl, hbehind⟩ := List.map_eq_cons_iff.1 htokens
      simp only [Goal.extra, List.length_cons] at *
      obtain ⟨after, hread, hafter⟩ := ih hbehind depth (by omega)
      exact ⟨after, runs_unary hop hread, hafter⟩
  | call hname hleft hargs ih =>
      obtain ⟨depth, rfl⟩ := (call hname hleft hargs).exists_succ hdepth
      obtain ⟨token, behind, rfl, rfl, hbehind⟩ := List.map_eq_cons_iff.1 htokens
      obtain ⟨paren, within, rfl, rfl, hwithin⟩ := List.map_eq_cons_iff.1 hbehind
      simp only [Goal.extra, List.length_cons] at *
      obtain ⟨after, hread, hafter⟩ := ih hwithin depth (by omega)
      exact ⟨after, runs_call hname hleft hread, hafter⟩
  | stop hstops =>
      obtain ⟨depth, rfl⟩ := (stop hstops).exists_succ hdepth
      subst htokens
      exact ⟨tokens, runs_stop hstops, rfl⟩
  | chained hop hpower hchained hchain hops ihc iho =>
      obtain ⟨depth, rfl⟩ := (chained hop hpower hchained hchain hops).exists_succ hdepth
      obtain ⟨token, behind, rfl, rfl, hbehind⟩ := List.map_eq_cons_iff.1 htokens
      have hc := hchain.length_le
      have ho := hops.length_le
      simp only [Goal.extra, Goal.least, List.length_cons] at *
      obtain ⟨between, hread, hbetween⟩ := ihc hbehind depth (by omega)
      obtain ⟨after, hrun, hafter⟩ := iho hbetween depth (by omega)
      exact ⟨after, runs_chained hop hpower hchained hread hrun, hafter⟩
  | binary hop hpower hchained hright hops ihr iho =>
      obtain ⟨depth, rfl⟩ := (binary hop hpower hchained hright hops).exists_succ hdepth
      obtain ⟨token, behind, rfl, rfl, hbehind⟩ := List.map_eq_cons_iff.1 htokens
      have hr := hright.length_le
      have ho := hops.length_le
      simp only [Goal.extra, Goal.least, List.length_cons] at *
      obtain ⟨between, hread, hbetween⟩ := ihr hbehind depth (by omega)
      obtain ⟨after, hrun, hafter⟩ := iho hbetween depth (by omega)
      exact ⟨after, runs_binary hop hpower hchained hread hrun, hafter⟩
  | lastOperand hfirst hlast ih =>
      obtain ⟨depth, rfl⟩ := (lastOperand hfirst hlast).exists_succ hdepth
      simp only [Goal.extra] at *
      obtain ⟨after, hread, hafter⟩ := ih htokens depth (by omega)
      subst hafter
      exact ⟨after, runs_lastOperand hread hlast, rfl⟩
  | nextOperand hfirst hop hothers ihf iho =>
      obtain ⟨depth, rfl⟩ := (nextOperand hfirst hop hothers).exists_succ hdepth
      have hf := hfirst.length_le
      have ho := hothers.length_le
      simp only [Goal.extra, Goal.least, List.length_cons] at *
      obtain ⟨between, hread, hbetween⟩ := ihf htokens depth (by omega)
      obtain ⟨token, behind, rfl, rfl, hbehind⟩ := List.map_eq_cons_iff.1 hbetween
      obtain ⟨after, hrun, hafter⟩ := iho hbehind depth (by omega)
      exact ⟨after, runs_nextOperand hread hop hrun, hafter⟩
  | @noArgument isFirst word rest hclose =>
      obtain ⟨depth, rfl⟩ := (@noArgument isFirst word rest hclose).exists_succ hdepth
      obtain ⟨token, after, rfl, rfl, hafter⟩ := List.map_eq_cons_iff.1 htokens
      exact ⟨after, runs_noArgument hclose, hafter⟩
  | firstArgument hopen harg hothers iha iho =>
      obtain ⟨depth, rfl⟩ := (firstArgument hopen harg hothers).exists_succ hdepth
      have ha := harg.length_le
      have ho := hothers.length_le
      simp only [Goal.extra, Goal.least, List.length_cons] at *
      obtain ⟨between, hread, hbetween⟩ := iha htokens depth (by omega)
      obtain ⟨after, hrun, hafter⟩ := iho hbetween depth (by omega)
      obtain ⟨token, behind, rfl, rfl, hbehind⟩ := List.map_eq_cons_iff.1 htokens
      exact ⟨after, runs_firstArgument hopen hread hrun, hafter⟩
  | nextArgument hcomma harg hothers iha iho =>
      obtain ⟨depth, rfl⟩ := (nextArgument hcomma harg hothers).exists_succ hdepth
      obtain ⟨token, behind, rfl, rfl, hbehind⟩ := List.map_eq_cons_iff.1 htokens
      have ha := harg.length_le
      have ho := hothers.length_le
      simp only [Goal.extra, Goal.least, List.length_cons] at *
      obtain ⟨between, hread, hbetween⟩ := iha hbehind depth (by omega)
      obtain ⟨after, hrun, hafter⟩ := iho hbetween depth (by omega)
      exact ⟨after, runs_nextArgument hcomma hread hrun, hafter⟩

/-! ### Words behind -/

/-- The goals that end at a closing parenthesis. -/
def Goal.isClosed : Goal → Bool
  | .arguments .. => true
  | _ => false

/-- **Words that follow the grammar do so in front of others**, if the reader cannot go on with these. -/
theorem Reads.append {goal : Goal} {words rest : List Word} (h : Reads goal words rest)
    {behind : List Word} (hbehind : goal.isClosed = false → rest = [] → Stops 0 behind) :
    Reads goal (words ++ behind) (rest ++ behind) := by
  -- a reader that has taken all the words stops at what is behind them
  have hhead : ∀ {rest : List Word} {word : Word}, (rest = [] → Stops 0 behind) →
      word ∈ (rest ++ behind).head? → word ∈ rest.head? ∨ BinaryOp.ofToken? word.1 = none := by
    intro rest word hstops hword
    cases rest with
    | cons first rest => exact .inl hword
    | nil =>
        refine .inr (Option.eq_none_iff_forall_ne_some.2 fun op hop => ?_)
        exact absurd (hstops rfl word hword op hop) (Nat.not_lt_zero _)
  -- where nothing is left in the middle, nothing is left at the end
  have hend : ∀ {goal : Goal} {mid rest : List Word}, Reads goal mid rest → mid = [] → rest = [] := by
    rintro goal mid rest hread rfl
    have hlength := hread.length_le
    rw [List.length_nil] at hlength
    exact List.length_eq_zero_iff.1 (by omega)
  induction h with
  | expression _ hops ihl iho =>
      exact .expression (ihl fun _ hmid => hbehind rfl (hend hops hmid)) (iho fun _ => hbehind rfl)
  | leaf hleaf => exact .leaf hleaf
  | parentheses hleft hright _ ih => exact .parentheses hleft hright (ih fun _ hrest => by cases hrest)
  | unary hop _ ih => exact .unary hop (ih fun _ => hbehind rfl)
  | call hname hleft _ ih => exact .call hname hleft (ih fun hopen => by cases hopen)
  | stop hstops =>
      refine .stop fun word hword op hop => ?_
      rcases hhead (hbehind rfl) hword with hword | hnone
      · exact hstops word hword op hop
      · cases hnone.symm.trans hop
  | chained hop hpower hchained _ hops ihc iho =>
      exact .chained hop hpower hchained (ihc fun _ hmid => hbehind rfl (hend hops hmid))
        (iho fun _ => hbehind rfl)
  | binary hop hpower hchained _ hops ihr iho =>
      exact .binary hop hpower hchained (ihr fun _ hmid => hbehind rfl (hend hops hmid))
        (iho fun _ => hbehind rfl)
  | lastOperand _ hlast ih =>
      refine .lastOperand (ih fun _ => hbehind rfl) fun word hword hop => ?_
      rcases hhead (hbehind rfl) hword with hword | hnone
      · exact hlast word hword hop
      · cases hnone.symm.trans hop
  | nextOperand _ hop _ ihf iho =>
      exact .nextOperand (ihf fun _ hmid => by cases hmid) hop (iho fun _ => hbehind rfl)
  | noArgument hclose => exact .noArgument hclose
  | firstArgument hopen _ hothers iha iho =>
      refine .firstArgument hopen (iha fun _ hmid => ?_) (iho fun hopen => by cases hopen)
      cases hmid
      have hlength := hothers.length_le
      simp [Goal.least] at hlength
  | nextArgument hcomma _ hothers iha iho =>
      refine .nextArgument hcomma (iha fun _ hmid => ?_) (iho fun hopen => by cases hopen)
      cases hmid
      have hlength := hothers.length_le
      simp [Goal.least] at hlength

end Parser

/-! ### Sources -/

/-- The words of a source that is cut without a fault. -/
def Spells (source : String) (words : List Word) : Prop :=
  (scan source.toList).fault = none ∧ (scan source.toList).tokens.map Token.word = words

/-- The words make up a formula. -/
def Formula.ReadOff (f : Formula) (words : List Word) : Prop := Parser.Reads (.expression 0 f) words []

theorem spells_iff_cut {source : String} {words : List Word} :
    Spells source words ↔ Cut source.toList words :=
  cut_iff_scan.symm

/-- **A source is read as a formula exactly when its words make up the formula.** -/
theorem Formula.parse_eq_ok_iff {source : String} {f : Formula} :
    Formula.parse source = .ok f ↔ ∃ words, Spells source words ∧ f.ReadOff words := by
  constructor
  · intro h
    obtain ⟨⟨g, rest⟩, hread, h⟩ := exists_of_bind_eq_ok h
    split at h
    · next hrest =>
        obtain rfl : rest = [] := hrest
        obtain ⟨_, hend, h⟩ := exists_of_bind_eq_ok h
        cases h
        cases hfault : (scan source.toList).fault with
        | some fault =>
            rw [hfault] at hend
            cases hend
        | none =>
            rw [hfault] at hread
            have hruns : (Parser.Goal.expression 0 g).Runs _ _ [] := hread
            exact ⟨_, ⟨hfault, rfl⟩, hruns.reads⟩
    · cases h
  · rintro ⟨words, ⟨hfault, hwords⟩, hread⟩
    have hlength := congrArg List.length hwords
    rw [List.length_map] at hlength
    have hdepth : 2 * words.length + 1 ≤
        Parser.depthFor (scan source.toList).tokens + 2 * ([] : List Word).length := by
      unfold Parser.depthFor
      omega
    obtain ⟨rest, hruns, hrest⟩ := hread.runs hwords _ hdepth
    obtain rfl : rest = [] := List.map_eq_nil_iff.1 hrest
    unfold Formula.parse Parser.formula
    rw [hfault]
    simp only [Parser.Goal.Runs] at hruns
    rw [hruns]
    rfl

end ComputedFields
