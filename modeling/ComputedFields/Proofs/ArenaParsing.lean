/-
**Reading into an arena.**

A formula can be read into a tree or into an arena.  Both readers take the same tokens in the same order, so
they run side by side: they fail with the same errors, and where they succeed the arena holds the tree.

The one that fills the arena hands out an expression before it is added, and the places of arguments wait
in a scratch list that all calls share.  What is true of it at every depth is an account of what it adds.
From the state in which a reader begins to the one in which it ends, everything that was there is kept; all
places that are new belong to the expression it returns, each once; and the scratch list is as it was,
but for the places that it was asked to collect.  Such accounts can be put one after the other.

Main definitions:

* `ComputedFields.Occupies` — places that fill a range, each once;
* `ComputedFields.Arena.Extends`, `ComputedFields.Arena.Sound` — everything that was there is kept; places
  and runs are good, and lead to what was there before;
* `ComputedFields.Arena.Adds` — the account of what is added;
* `ComputedFields.Builder.Stores`, `ComputedFields.Builder.Collects` — the accounts of a reader that returns
  an expression, and of one that collects places.

Main results:

* `ComputedFields.Arena.Adds.append` — **accounts can be put one after the other**;
* `ComputedFields.Builder.lockstep` — the readers run side by side, at every depth;
* `ComputedFields.Arena.parse_agrees` — **an arena is read as a tree is**.
-/

import ComputedFields.Proofs.ArenaTrees
import ComputedFields.Proofs.FormulaReads

set_option relaxedAutoImplicit false
set_option autoImplicit false

namespace ComputedFields

/-! ### Ranges of places -/

/-- The places are those from the first to the second number, each once. -/
def Occupies (first next : Nat) (places : List Nat) : Prop :=
  next = first + places.length ∧ places.Perm (List.range' first places.length)

namespace Occupies

variable {first mid next place : Nat} {places others : List Nat}

theorem nil (first : Nat) : Occupies first first [] := ⟨rfl, .nil⟩

theorem append (h : Occupies first mid places) (h' : Occupies mid next others) :
    Occupies first next (places ++ others) := by
  obtain ⟨rfl, hplaces⟩ := h
  obtain ⟨rfl, hothers⟩ := h'
  refine ⟨by rw [List.length_append]; omega, ?_⟩
  rw [List.length_append, ← List.range'_append_1]
  exact hplaces.append hothers

/-- One more place at the end of the range. -/
theorem cons (h : Occupies first next places) : Occupies first (next + 1) (next :: places) := by
  obtain ⟨rfl, hplaces⟩ := h
  refine ⟨by rw [List.length_cons]; omega, ?_⟩
  rw [List.length_cons, List.range'_1_concat]
  exact (hplaces.cons _).trans (List.perm_append_singleton _ _).symm

theorem mem_iff (h : Occupies first next places) : place ∈ places ↔ first ≤ place ∧ place < next := by
  obtain ⟨rfl, hplaces⟩ := h
  rw [hplaces.mem_iff, List.mem_range'_1]

end Occupies

/-! ### Arenas that grow -/

namespace Arena

variable {a a' a'' : Arena} {node : Node} {place : Nat} {places children met : List Nat} {f : Formula}
  {fs gs : List Formula}

/-- Everything that was in the first arena is in the second one, at the same place. -/
def Extends (a a' : Arena) : Prop :=
  a.nodes.toList <+: a'.nodes.toList ∧ a.args.toList <+: a'.args.toList

theorem Extends.refl (a : Arena) : a.Extends a := ⟨List.prefix_refl _, List.prefix_refl _⟩

theorem Extends.trans (h : a.Extends a') (h' : a'.Extends a'') : a.Extends a'' :=
  ⟨h.1.trans h'.1, h.2.trans h'.2⟩

theorem Extends.nodes (h : a.Extends a') (hnode : a.nodes[place]? = some node) :
    a'.nodes[place]? = some node := by
  obtain ⟨rest, hrest⟩ := h.1
  rw [← Array.getElem?_toList] at hnode ⊢
  rw [← hrest, List.getElem?_append_left (List.getElem?_eq_some_iff.1 hnode).1, hnode]

theorem Extends.args? (h : a.Extends a') {span : Span} (hargs : a.args? span = some places) :
    a'.args? span = some places := by
  obtain ⟨rest, hrest⟩ := h.2
  unfold Arena.args? at hargs ⊢
  split at hargs
  · next hle =>
      have hlength : a'.args.size = a.args.size + rest.length := by
        rw [← Array.length_toList, ← hrest, List.length_append, Array.length_toList]
      rw [if_pos (by omega), ← hargs, ← hrest, List.drop_append_of_le_length, List.take_append_of_le_length]
      · rw [List.length_drop, Array.length_toList]
        omega
      · rw [Array.length_toList]
        omega
  · cases hargs

theorem Extends.children? (h : a.Extends a') (hchildren : a.children? node = some children) :
    a'.children? node = some children := by
  cases node with
  | call | chain => exact h.args? hchildren
  | _ => exact hchildren

theorem Forest.extend (hforest : a.Forest places fs met) (h : a.Extends a') : a'.Forest places fs met := by
  induction hforest with
  | nil => exact .nil
  | cons hnode hchildren _ hformula _ ihBelow ihRest =>
      exact .cons (h.nodes hnode) (h.children? hchildren) ihBelow hformula ihRest

theorem Forest.append {others met' : List Nat} (h : a.Forest places fs met)
    (h' : a.Forest others gs met') : a.Forest (places ++ others) (fs ++ gs) (met ++ met') := by
  induction h with
  | nil => exact h'
  | cons hnode hchildren hbelow hformula _ _ ih =>
      simp only [List.cons_append, List.append_assoc]
      exact .cons hnode hchildren hbelow hformula ih

theorem Forest.mem_of_mem (h : a.Forest places fs met) (hplace : place ∈ places) : place ∈ met := by
  induction h with
  | nil => cases hplace
  | cons _ _ _ _ _ _ ih =>
      rcases List.mem_cons.1 hplace with rfl | hplace
      · exact List.mem_cons_self
      · exact List.mem_cons_of_mem _ (List.mem_append_right _ (ih hplace))

theorem Forest.length_eq (h : a.Forest places fs met) : places.length = fs.length := by
  induction h with
  | nil => rfl
  | cons _ _ _ _ _ _ ih => rw [List.length_cons, List.length_cons, ih]

/-- All places and runs are good, and the places of operands and arguments come before that of the
expression. -/
def Sound (a : Arena) : Prop :=
  ∀ place node, a.nodes[place]? = some node →
    ∃ children, a.children? node = some children ∧ ∀ child ∈ children, child < place

theorem Sound.extend_args {rest : List Nat} (h : a.Sound) :
    ({ a with args := a.args ++ rest.toArray } : Arena).Sound := by
  intro place node hnode
  obtain ⟨children, hchildren, hlt⟩ := h place node hnode
  have hextends : a.Extends { a with args := a.args ++ rest.toArray } :=
    ⟨List.prefix_refl _, ⟨rest, by simp⟩⟩
  exact ⟨children, hextends.children? hchildren, hlt⟩

/-! ### What is added -/

/-- What is added from one arena to another: the formulas, at their places, and nothing else. -/
structure Adds (a a' : Arena) (places : List Nat) (fs : List Formula) : Prop where
  extend : a.Extends a'
  sound : a.Sound → a'.Sound
  forest : ∃ met, a'.Forest places fs met ∧ Occupies a.nodes.size a'.nodes.size met

theorem Adds.nil (a : Arena) : a.Adds a [] [] :=
  ⟨.refl a, id, [], .nil, .nil _⟩

/-- **Accounts can be put one after the other.** -/
theorem Adds.append {others : List Nat} (h : a.Adds a' places fs) (h' : a'.Adds a'' others gs) :
    a.Adds a'' (places ++ others) (fs ++ gs) := by
  obtain ⟨met, hforest, hmet⟩ := h.forest
  obtain ⟨met', hforest', hmet'⟩ := h'.forest
  exact ⟨h.extend.trans h'.extend, h'.sound ∘ h.sound, met ++ met',
    (hforest.extend h'.extend).append hforest', hmet.append hmet'⟩

/-- An expression is added behind its operands. -/
theorem Adds.push {parts : List Formula} (h : a.Adds a' places parts)
    (hchildren : a'.children? node = some places) (hformula : node.formula? parts = some f) :
    a.Adds { a' with nodes := a'.nodes.push node } [a'.nodes.size] [f] := by
  obtain ⟨met, hforest, hmet⟩ := h.forest
  have hextends : a'.Extends { a' with nodes := a'.nodes.push node } :=
    ⟨⟨[node], by simp⟩, List.prefix_refl _⟩
  refine ⟨h.extend.trans hextends, fun hsound other node' hnode' => ?_,
    a'.nodes.size :: (met ++ []), .cons (by simp) hchildren (hforest.extend hextends) hformula .nil, ?_⟩
  · rw [Array.getElem?_push] at hnode'
    split at hnode'
    · next hother =>
        cases hnode'
        exact ⟨places, hchildren, fun child hchild =>
          hother ▸ (hmet.mem_iff.1 (hforest.mem_of_mem hchild)).2⟩
    · exact h.sound hsound other node' hnode'
  · rw [List.append_nil, Array.size_push]
    exact hmet.cons

theorem Adds.extend_args {rest : List Nat} (h : a.Adds a' places fs) :
    a.Adds { a' with args := a'.args ++ rest.toArray } places fs := by
  obtain ⟨met, hforest, hmet⟩ := h.forest
  have hextends : a'.Extends { a' with args := a'.args ++ rest.toArray } :=
    ⟨List.prefix_refl _, ⟨rest, by simp⟩⟩
  exact ⟨h.extend.trans hextends, fun hsound => (h.sound hsound).extend_args, met,
    hforest.extend hextends, hmet⟩

end Arena

/-! ### Readers that return an expression, or collect places -/

namespace Builder

variable {b b' b'' : Builder} {node left right : Node} {f g : Formula} {fs gs : List Formula}

/-- A reader begins in one state and ends in another with an expression that stands for the formula. -/
def Stores (b b' : Builder) (node : Node) (f : Formula) : Prop :=
  b'.scratch = b.scratch ∧
    ∃ places parts, b'.children? node = some places ∧ node.formula? parts = some f ∧
      b.toArena.Adds b'.toArena places parts

/-- A reader begins in one state and ends in another after it has collected the places of formulas. -/
def Collects (b b' : Builder) (fs : List Formula) : Prop :=
  ∃ places, b'.scratch = b.scratch ++ places ∧ b.toArena.Adds b'.toArena places fs

theorem Stores.leaf (hchildren : b.children? node = some []) (hformula : node.formula? [] = some f) :
    b.Stores b node f :=
  ⟨rfl, [], [], hchildren, hformula, .nil _⟩

theorem Stores.push (h : b.Stores b' node f) :
    b.toArena.Adds (b'.push node).toArena [b'.next] [f] := by
  obtain ⟨-, places, parts, hchildren, hformula, hadds⟩ := h
  exact hadds.push hchildren hformula

theorem Stores.unary (h : b.Stores b' node f) (op : UnaryOp) :
    b.Stores (b'.push node) (.unary op b'.next) (.unary op f) :=
  ⟨h.1, [b'.next], [f], rfl, rfl, h.push⟩

theorem Stores.binary (h : b.Stores b' left f) (h' : (b'.push left).Stores b'' right g) (op : BinaryOp) :
    b.Stores (b''.push right) (.binary b'.next op b''.next) (.binary f op g) :=
  ⟨h'.1.trans h.1, [b'.next, b''.next], [f, g], rfl, rfl, h.push.append h'.push⟩

theorem Stores.keep (h : b.Stores b' node f) : b.Collects (b'.keep node) [f] :=
  ⟨[b'.next], congrArg (· ++ [b'.next]) h.1, h.push⟩

theorem Collects.nil (b : Builder) : b.Collects b [] :=
  ⟨[], (List.append_nil _).symm, .nil _⟩

theorem Collects.append (h : b.Collects b' fs) (h' : b'.Collects b'' gs) : b.Collects b'' (fs ++ gs) := by
  obtain ⟨places, hscratch, hadds⟩ := h
  obtain ⟨others, hscratch', hadds'⟩ := h'
  exact ⟨places ++ others, by rw [hscratch', hscratch, List.append_assoc], hadds.append hadds'⟩

/-- The places that were collected are found again where they are moved to. -/
theorem args?_drain (b : Builder) (start : Nat) :
    (b.drain start).args? (b.span start) = some (b.scratch.drop start) := by
  have hargs : (b.drain start).args.toList = b.args.toList ++ b.scratch.drop start := by
    simp [drain, release]
  have hsize : (b.drain start).args.size = b.args.size + (b.scratch.length - start) := by
    rw [← Array.length_toList, hargs, List.length_append, List.length_drop, Array.length_toList]
  rw [Arena.args?, if_pos (by rw [hsize]; exact Nat.le_refl _), hargs, span, ← Array.length_toList,
    List.drop_left, ← List.length_drop, List.take_length]

theorem Collects.drain (h : b.Collects b' fs) :
    ∃ places, (b'.drain b.scratch.length).scratch = b.scratch ∧
      (b'.drain b.scratch.length).args? (b'.span b.scratch.length) = some places ∧
      b.toArena.Adds (b'.drain b.scratch.length).toArena places fs := by
  obtain ⟨places, hscratch, hadds⟩ := h
  refine ⟨places, ?_, ?_, hadds.extend_args⟩
  · change b'.scratch.take b.scratch.length = b.scratch
    rw [hscratch, List.take_left]
  · rw [args?_drain, hscratch, List.drop_left]

theorem Collects.call (h : b.Collects b' fs) (callee : Callee) :
    b.Stores (b'.drain b.scratch.length) (.call callee (b'.span b.scratch.length)) (.call callee fs) := by
  obtain ⟨places, hscratch, hargs, hadds⟩ := h.drain
  exact ⟨hscratch, places, fs, hargs, rfl, hadds⟩

/-- Two operands that were collected make a binary expression, and more make a chain. -/
theorem Collects.join (h : b.Collects b' fs) (op : BinaryOp) :
    b.Stores (b'.join op b.scratch.length).2 (b'.join op b.scratch.length).1 (.join op fs) := by
  obtain ⟨chained, hscratch', hargs', hadds'⟩ := h.drain
  obtain ⟨places, hscratch, hadds⟩ := h
  have hdrop : b'.scratch.drop b.scratch.length = places := by rw [hscratch, List.drop_left]
  have hlength : places.length = fs.length := by
    obtain ⟨met, hforest, -⟩ := hadds.forest
    exact hforest.length_eq
  unfold Builder.join Formula.join
  rw [hdrop]
  split
  · next l r =>
      obtain ⟨f, g, rfl⟩ := List.length_eq_two.1 hlength.symm
      refine ⟨?_, [l, r], [f, g], rfl, rfl, hadds⟩
      change b'.scratch.take b.scratch.length = b.scratch
      rw [hscratch, List.take_left]
  · next hplaces =>
      split
      · next f g =>
          obtain ⟨l, r, rfl⟩ := List.length_eq_two.1 hlength
          exact absurd rfl (hplaces l r)
      · exact ⟨hscratch', chained, fs, hargs', rfl, hadds'⟩

/-! ### The readers run side by side -/

/-- What the two readers of an expression make of the same tokens. -/
def SameExpression (b : Builder) (stored : Node × List Token × Builder) (read : Formula × List Token) :
    Prop :=
  stored.2.1 = read.2 ∧ b.Stores stored.2.2 stored.1 read.1

/-- What the two readers of several expressions make of the same tokens. -/
def SameExpressions (b : Builder) (collected : List Token × Builder) (read : List Formula × List Token) :
    Prop :=
  collected.1 = read.2 ∧ b.Collects collected.2 read.1

/-- The readers of a depth run side by side. -/
structure Lockstep (fault : Option LexError) (depth : Nat) : Prop where
  expression : ∀ power tokens b,
    Agree (SameExpression b) (expression fault depth power tokens b)
      (Parser.expression fault depth power tokens)
  operand : ∀ tokens b,
    Agree (SameExpression b) (operand fault depth tokens b) (Parser.operand fault depth tokens)
  operators : ∀ power b b' node f tokens, b.Stores b' node f →
    Agree (SameExpression b) (operators fault depth power node tokens b')
      (Parser.operators fault depth power f tokens)
  chainOperands : ∀ op tokens b,
    Agree (SameExpressions b) (chainOperands fault depth op tokens b)
      (Parser.chainOperands fault depth op tokens)
  arguments : ∀ isFirst tokens b,
    Agree (SameExpressions b) (arguments fault depth isFirst tokens b)
      (Parser.arguments fault depth isFirst tokens)

namespace Lockstep

variable {fault : Option LexError} {depth : Nat}

theorem zero (fault : Option LexError) : Lockstep fault 0 where
  expression _ _ _ := by rw [Builder.expression, Parser.expression]; exact .error _
  operand _ _ := by rw [Builder.operand, Parser.operand]; exact .error _
  operators _ _ _ _ _ _ _ := by rw [Builder.operators, Parser.operators]; exact .error _
  chainOperands _ _ _ := by rw [Builder.chainOperands, Parser.chainOperands]; exact .error _
  arguments _ _ _ := by rw [Builder.arguments, Parser.arguments]; exact .error _

theorem expression_succ (ih : Lockstep fault depth) (power : Nat) (tokens : List Token) (b : Builder) :
    Agree (SameExpression b) (Builder.expression fault (depth + 1) power tokens b)
      (Parser.expression fault (depth + 1) power tokens) := by
  rw [Builder.expression, Parser.expression]
  refine (ih.operand tokens b).bind ?_
  rintro ⟨node, rest, b'⟩ ⟨f, _⟩ ⟨rfl, hstores⟩
  exact ih.operators power b b' node f rest hstores

/-- The end of the tokens is met alike. -/
theorem checkEnd {α β : Type} {R : α → β → Prop} {x : α} {y : β} (h : R x y) :
    Agree R (Parser.checkEnd fault >>= fun _ => .ok x) (Parser.checkEnd fault >>= fun _ => .ok y) := by
  cases fault with
  | none => exact .ok h
  | some e => exact .error _

theorem operators_succ (ih : Lockstep fault depth) (power : Nat) (b b' : Builder) (node : Node)
    (f : Formula) (tokens : List Token) (h : b.Stores b' node f) :
    Agree (SameExpression b) (Builder.operators fault (depth + 1) power node tokens b')
      (Parser.operators fault (depth + 1) power f tokens) := by
  cases tokens with
  | nil =>
      rw [Builder.operators, Parser.operators]
      exact checkEnd ⟨rfl, h⟩
  | cons token rest =>
      rw [Builder.operators, Parser.operators]
      cases BinaryOp.ofToken? token.kind with
      | none => exact .ok ⟨rfl, h⟩
      | some op =>
          simp only
          by_cases hpower : op.power < power
          · rw [if_pos hpower, if_pos hpower]
            exact .ok ⟨rfl, h⟩
          · rw [if_neg hpower, if_neg hpower]
            by_cases hchained : op.isChained
            · rw [if_pos hchained, if_pos hchained]
              refine (ih.chainOperands op rest _).bind ?_
              rintro ⟨rest, b''⟩ ⟨others, _⟩ ⟨rfl, hcollects⟩
              refine ih.operators power b _ _ _ rest ?_
              rw [h.1]
              exact (h.keep.append hcollects).join op
            · rw [if_neg hchained, if_neg hchained]
              refine (ih.expression _ rest _).bind ?_
              rintro ⟨right, rest, b''⟩ ⟨g, _⟩ ⟨rfl, hstores⟩
              exact ih.operators power b _ _ _ rest (h.binary hstores op)

/-- The places that follow are collected behind the first one. -/
theorem collect_first {b b' : Builder} {node : Node} {f : Formula}
    {collected : Except ParseError (List Token × Builder)}
    {read : Except ParseError (List Formula × List Token)} (hfirst : b.Stores b' node f)
    (h : Agree (SameExpressions (b'.keep node)) collected read) :
    Agree (SameExpressions b) collected (read >>= fun others => .ok (f :: others.1, others.2)) := by
  cases h with
  | error e => exact .error e
  | ok hothers => exact .ok ⟨hothers.1, hfirst.keep.append hothers.2⟩

theorem chainOperands_succ (ih : Lockstep fault depth) (op : BinaryOp) (tokens : List Token) (b : Builder) :
    Agree (SameExpressions b) (Builder.chainOperands fault (depth + 1) op tokens b)
      (Parser.chainOperands fault (depth + 1) op tokens) := by
  rw [Builder.chainOperands, Parser.chainOperands]
  refine (ih.expression _ tokens b).bind ?_
  rintro ⟨first, rest, b'⟩ ⟨f, _⟩ ⟨rfl, hstores⟩
  cases rest with
  | nil => exact checkEnd ⟨rfl, hstores.keep⟩
  | cons token rest =>
      simp only
      by_cases hop : BinaryOp.ofToken? token.kind = some op
      · rw [if_pos hop, if_pos hop]
        exact collect_first hstores (ih.chainOperands op rest _)
      · rw [if_neg hop, if_neg hop]
        exact .ok ⟨rfl, hstores.keep⟩

theorem arguments_succ (ih : Lockstep fault depth) (isFirst : Bool) (tokens : List Token) (b : Builder) :
    Agree (SameExpressions b) (Builder.arguments fault (depth + 1) isFirst tokens b)
      (Parser.arguments fault (depth + 1) isFirst tokens) := by
  -- an argument and those behind it, wherever it begins
  have hnext : ∀ begins : List Token,
      Agree (SameExpressions b)
        (Builder.expression fault depth 0 begins b >>= fun read =>
          Builder.arguments fault depth false read.2.1 (read.2.2.keep read.1))
        (Parser.expression fault depth 0 begins >>= fun arg =>
          Parser.arguments fault depth false arg.2 >>= fun others =>
            .ok (arg.1 :: others.1, others.2)) := by
    intro begins
    refine (ih.expression 0 begins b).bind ?_
    rintro ⟨arg, rest, b'⟩ ⟨f, _⟩ ⟨rfl, hstores⟩
    exact collect_first hstores (ih.arguments false rest _)
  cases tokens with
  | nil =>
      rw [Builder.arguments, Parser.arguments]
      exact .error _
  | cons token rest =>
      rw [Builder.arguments, Parser.arguments]
      by_cases hclose : token.kind = .parenRight
      · rw [if_pos hclose, if_pos hclose]
        exact .ok ⟨rfl, .nil b⟩
      · rw [if_neg hclose, if_neg hclose]
        cases isFirst with
        | true => exact hnext (token :: rest)
        | false =>
            by_cases hcomma : token.kind = .comma
            · simp only [hcomma, if_true]
              exact hnext rest
            · simp only [hcomma, if_false]
              exact .error _

theorem operand_succ (ih : Lockstep fault depth) (tokens : List Token) (b : Builder) :
    Agree (SameExpression b) (Builder.operand fault (depth + 1) tokens b)
      (Parser.operand fault (depth + 1) tokens) := by
  -- an operand behind a unary operator
  have hunary : ∀ (op : UnaryOp) (rest : List Token),
      Agree (SameExpression b)
        (Builder.expression fault depth op.power rest b >>= fun read =>
          .ok (.unary op read.2.2.next, read.2.1, read.2.2.push read.1))
        (Parser.expression fault depth op.power rest >>= fun inner =>
          .ok (.unary op inner.1, inner.2)) := by
    intro op rest
    refine (ih.expression op.power rest b).bind ?_
    rintro ⟨node, rest, b'⟩ ⟨f, _⟩ ⟨rfl, hstores⟩
    exact .ok ⟨rfl, hstores.unary op⟩
  cases tokens with
  | nil =>
      rw [Builder.operand, Parser.operand]
      exact .error _
  | cons token rest =>
      unfold Builder.operand Parser.operand
      cases token.kind with
      | parenLeft =>
          refine (ih.expression 0 rest b).bind ?_
          rintro ⟨node, rest, b'⟩ ⟨f, _⟩ ⟨rfl, hstores⟩
          cases rest with
          | nil => exact .error _
          | cons close after =>
              simp only
              by_cases hclose : close.kind = .parenRight
              · rw [if_pos hclose, if_pos hclose]
                exact .ok ⟨rfl, hstores⟩
              · rw [if_neg hclose, if_neg hclose]
                exact .error _
      | minus => exact hunary .neg rest
      | bang => exact hunary .not rest
      | identifier =>
          cases rest with
          | nil => exact .error _
          | cons paren after =>
              simp only
              by_cases hparen : paren.kind = .parenLeft
              · rw [if_pos hparen, if_pos hparen]
                refine (ih.arguments true after b).bind ?_
                rintro ⟨rest, b'⟩ ⟨args, _⟩ ⟨rfl, hcollects⟩
                exact .ok ⟨rfl, hcollects.call _⟩
              · rw [if_neg hparen, if_neg hparen]
                exact .error _
      | number | singleQuoted | doubleQuoted | true | false | null | fieldRef =>
          exact .ok ⟨rfl, .leaf rfl rfl⟩
      | _ => exact .error _

end Lockstep

/-- **The readers run side by side**, at every depth. -/
theorem lockstep (fault : Option LexError) (depth : Nat) : Lockstep fault depth := by
  induction depth with
  | zero => exact .zero fault
  | succ depth ih =>
      exact ⟨ih.expression_succ, ih.operand_succ, ih.operators_succ, ih.chainOperands_succ,
        ih.arguments_succ⟩

end Builder

/-- What is read into an arena: all of it belongs to the root, which is added last. -/
structure Arena.Filled (a : Arena) (f : Formula) : Prop where
  sound : a.Sound
  root : ∃ last met, a.root = some last ∧ a.Forest [last] [f] met ∧ a.nodes.size = last + 1 ∧
    met.Perm (List.range a.nodes.size)

theorem Builder.Stores.filled {b : Builder} {node : Node} {f : Formula}
    (h : ({} : Builder).Stores b node f) : (b.finish node).Filled f := by
  have hadds := h.push
  have hempty : ({} : Builder).toArena.Sound := by
    intro place other hother
    cases hother
  obtain ⟨met, hforest, hsize, hmet⟩ := hadds.forest
  have hlength : met.length = (b.finish node).nodes.size := by
    rw [← Nat.zero_add met.length]
    exact hsize.symm
  refine ⟨hadds.sound hempty, b.next, met, rfl,
    hforest.extend ⟨List.prefix_refl _, List.prefix_refl _⟩, Array.size_push node, ?_⟩
  rw [← hlength, List.range_eq_range']
  exact hmet

/-- **An arena is read as a tree is**: both readers fail with the same error, or both succeed and the arena
holds the tree and nothing else. -/
theorem Arena.parse_agrees (source : String) :
    Agree Arena.Filled (Arena.parse source) (Formula.parse source) := by
  unfold Arena.parse Formula.parse Parser.formula
  refine ((Builder.lockstep _ _).expression 0 _ {}).bind ?_
  rintro ⟨node, rest, b⟩ ⟨f, _⟩ ⟨rfl, hstores⟩
  cases rest with
  | nil => exact Builder.Lockstep.checkEnd hstores.filled
  | cons token rest => exact .error _

end ComputedFields
