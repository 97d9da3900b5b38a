/-
**Formulas in a flat form.**

An arena keeps all expressions of a formula in one array.  An expression refers to its operands by their
places, and to its arguments by a run of places in a second array.  An expression is added after its
operands, so a place that has been handed out stays good.

Nothing in an arena keeps a place or a run from being wrong.  So whatever reads one can fail, and a walk
that follows the places need not end.

Main definitions:

* `ComputedFields.Arena`, `ComputedFields.Node`, `ComputedFields.Span` — arenas, expressions and runs of
  arguments;
* `ComputedFields.Arena.args?`, `ComputedFields.Arena.children?` — the places that a run, or an expression,
  refers to;
* `ComputedFields.Arena.references` — the fields that the formula refers to, found with a stack;
* `ComputedFields.Builder` — an arena that is being filled, with a scratch list of places;
* `ComputedFields.Arena.parse` — the arena of a source.
-/

import ComputedFields.Formula.Parse

set_option relaxedAutoImplicit false
set_option autoImplicit false

namespace ComputedFields

/-! ### Arenas -/

/-- A run of places among the arguments of an arena. -/
structure Span where
  start : Nat
  length : Nat
  deriving DecidableEq, Repr

/-- An expression whose operands and arguments are places. -/
inductive Node where
  | bool (value : Bool)
  | number (spelling : String)
  | text (value : String)
  | null
  | field (id : String)
  | call (callee : Callee) (args : Span)
  | binary (left : Nat) (op : BinaryOp) (right : Nat)
  | unary (op : UnaryOp) (operand : Nat)
  | chain (op : BinaryOp) (operands : Span)
  deriving DecidableEq, Repr

/-- Expressions in one array, and the places of their arguments in another.  An empty arena has no
root. -/
structure Arena where
  nodes : Array Node := #[]
  args : Array Nat := #[]
  root : Option Nat := none
  deriving DecidableEq, Repr

namespace Arena

/-- The places in a run; none when the run goes over the end. -/
def args? (a : Arena) (span : Span) : Option (List Nat) :=
  if span.start + span.length ≤ a.args.size then
    some ((a.args.toList.drop span.start).take span.length)
  else none

/-- The places that an expression refers to, from left to right. -/
def children? (a : Arena) : Node → Option (List Nat)
  | .bool _ | .number _ | .text _ | .null | .field _ => some []
  | .call _ args => a.args? args
  | .binary left _ right => some [left, right]
  | .unary _ operand => some [operand]
  | .chain _ operands => a.args? operands

/-! ### References -/

/-- The known fields, and the one that an expression refers to itself. -/
def note (known : List String) : Node → List String
  | .field id => insertNew known id
  | _ => known

/-- Puts places on a stack, the last one first, so that they are taken off from left to right. -/
def pushAll (places stack : List Nat) : List Nat :=
  places.reverse.foldl (fun stack place => place :: stack) stack

/-- Adds to `known` the fields that are met when everything on the stack is visited.  There is no answer
when a place is wrong, or when the places lead around in a circle. -/
def referencesFrom (a : Arena) (known : List String) : List Nat → Option (List String)
  | [] => some known
  | place :: stack => do
      let node ← a.nodes[place]?
      let children ← a.children? node
      a |>.referencesFrom (note known node) (pushAll children stack)
partial_fixpoint

/-- The fields that the formula refers to, from left to right, each at its first mention. -/
def references (a : Arena) : Option (List String) := a.referencesFrom [] a.root.toList

end Arena

/-! ### Filling an arena -/

/-- An arena that is being filled.  The places of arguments are collected in the scratch list until all of
them are known; a call inside a call puts its own behind those of the outer one. -/
structure Builder extends Arena where
  scratch : List Nat := []

namespace Builder

/-- The place of the next expression. -/
def next (b : Builder) : Nat := b.nodes.size

/-- Adds an expression. -/
def push (b : Builder) (node : Node) : Builder := { b with nodes := b.nodes.push node }

/-- Adds an expression and collects its place. -/
def keep (b : Builder) (node : Node) : Builder :=
  { b.push node with scratch := b.scratch ++ [b.next] }

/-- The run of the places that were collected behind so many others, as soon as it is moved to the
arguments. -/
def span (b : Builder) (start : Nat) : Span := ⟨b.args.size, b.scratch.length - start⟩

/-- Takes the places off that were collected behind so many others. -/
def release (b : Builder) (start : Nat) : Builder := { b with scratch := b.scratch.take start }

/-- Moves the places that were collected behind so many others to the arguments. -/
def drain (b : Builder) (start : Nat) : Builder :=
  { b.release start with args := b.args ++ (b.scratch.drop start).toArray }

/-- The operands that were collected behind so many others, joined by an operator: two of them make a
binary expression, more make a chain. -/
def join (b : Builder) (op : BinaryOp) (start : Nat) : Node × Builder :=
  match b.scratch.drop start with
  | [left, right] => (.binary left op right, b.release start)
  | _ => (.chain op (b.span start), b.drain start)

/-! ### Reading into an arena -/

mutual

/-- Reads an expression whose operators bind with at least the given power.  The expression itself is not
added yet: whoever asked for it does that. -/
def expression (fault : Option LexError) :
    Nat → Nat → List Token → Builder → Except ParseError (Node × List Token × Builder)
  | 0, _, _, _ => .error .emptyInput
  | depth + 1, power, tokens, b => do
      let (left, rest, b) ← operand fault depth tokens b
      operators fault depth power left rest b

/-- Reads an operand. -/
def operand (fault : Option LexError) :
    Nat → List Token → Builder → Except ParseError (Node × List Token × Builder)
  | 0, _, _ => .error .emptyInput
  | _ + 1, [], _ => .error (Parser.ended fault .emptyInput)
  | depth + 1, token :: rest, b =>
      match token.kind with
      | .parenLeft => do
          let (inner, rest, b) ← expression fault depth 0 rest b
          match rest with
          | [] => .error (Parser.ended fault .missingCloseParen)
          | close :: after =>
              if close.kind = .parenRight then .ok (inner, after, b) else .error .missingCloseParen
      | .minus => do
          let (inner, rest, b) ← expression fault depth UnaryOp.neg.power rest b
          .ok (.unary .neg b.next, rest, b.push inner)
      | .bang => do
          let (inner, rest, b) ← expression fault depth UnaryOp.not.power rest b
          .ok (.unary .not b.next, rest, b.push inner)
      | .number => .ok (.number (String.ofList token.contents), rest, b)
      | .singleQuoted | .doubleQuoted =>
          .ok (.text (String.ofList (unescape token.contents)), rest, b)
      | .true => .ok (.bool true, rest, b)
      | .false => .ok (.bool false, rest, b)
      | .null => .ok (.null, rest, b)
      | .fieldRef => .ok (.field (String.ofList (Text.trimChars token.contents)), rest, b)
      | .identifier =>
          match rest with
          | [] => .error (Parser.ended fault .unexpectedEnd)
          | paren :: after =>
              if paren.kind = .parenLeft then do
                let start := b.scratch.length
                let (rest, b) ← arguments fault depth true after b
                .ok (.call (Callee.ofName (String.ofList token.contents)) (b.span start), rest,
                  b.drain start)
              else .error (.unexpectedToken paren)
      | _ => .error (.unexpectedToken token)

/-- Reads the operators after a left operand, which is added with the first of them. -/
def operators (fault : Option LexError) :
    Nat → Nat → Node → List Token → Builder → Except ParseError (Node × List Token × Builder)
  | 0, _, _, _, _ => .error .emptyInput
  | _ + 1, _, left, [], b => do
      Parser.checkEnd fault
      .ok (left, [], b)
  | depth + 1, power, left, token :: rest, b =>
      match BinaryOp.ofToken? token.kind with
      | none => .ok (left, token :: rest, b)
      | some op =>
          if op.power < power then .ok (left, token :: rest, b)
          else if op.isChained then do
            let start := b.scratch.length
            let (rest, b) ← chainOperands fault depth op rest (b.keep left)
            let (node, b) := b.join op start
            operators fault depth power node rest b
          else do
            let place := b.next
            let (right, rest, b) ← expression fault depth (op.power + 1) rest (b.push left)
            operators fault depth power (.binary place op b.next) rest (b.push right)

/-- Reads and collects the operands of a chain after its first operator. -/
def chainOperands (fault : Option LexError) :
    Nat → BinaryOp → List Token → Builder → Except ParseError (List Token × Builder)
  | 0, _, _, _ => .error .emptyInput
  | depth + 1, op, tokens, b => do
      let (first, rest, b) ← expression fault depth (op.power + 1) tokens b
      match rest with
      | [] => do
          Parser.checkEnd fault
          .ok ([], b.keep first)
      | token :: rest =>
          if BinaryOp.ofToken? token.kind = some op then
            chainOperands fault depth op rest (b.keep first)
          else .ok (token :: rest, b.keep first)

/-- Reads and collects the arguments of a call up to its closing parenthesis. -/
def arguments (fault : Option LexError) :
    Nat → Bool → List Token → Builder → Except ParseError (List Token × Builder)
  | 0, _, _, _ => .error .emptyInput
  | _ + 1, _, [], _ => .error (Parser.ended fault .unexpectedEnd)
  | depth + 1, isFirst, token :: rest, b =>
      if token.kind = .parenRight then .ok (rest, b)
      else if isFirst then do
        let (arg, rest, b) ← expression fault depth 0 (token :: rest) b
        arguments fault depth false rest (b.keep arg)
      else if token.kind = .comma then do
        let (arg, rest, b) ← expression fault depth 0 rest b
        arguments fault depth false rest (b.keep arg)
      else .error (.unexpectedToken token)

end

/-- Adds the last expression, which is the root. -/
def finish (b : Builder) (node : Node) : Arena :=
  { (b.push node).toArena with root := some b.next }

end Builder

/-- The arena of a source. -/
def Arena.parse (source : String) : Except ParseError Arena := do
  let scanned := scan source.toList
  let (node, rest, b) ←
    Builder.expression scanned.fault (Parser.depthFor scanned.tokens) 0 scanned.tokens {}
  match rest with
  | [] => do
      Parser.checkEnd scanned.fault
      .ok (b.finish node)
  | token :: _ => .error (.unexpectedToken token)

end ComputedFields
